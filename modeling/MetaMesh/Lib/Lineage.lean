import Mathlib.Data.Set.Basic
import Mathlib.Order.Interval.Finset.Nat

/-!
# Lineages

Records that name their parent form a graph.  An edge is a record seen from the
outside: its key, its parent's key and the node it puts at its key.  `Derived`
is what such a graph yields from a root.  More edges derive more; where keys
determine edges, a key derives one node.
-/

namespace Lineage

variable {κ ν : Type}

/-- A node with the parent it names. -/
structure Edge (κ ν : Type) where
  id : κ
  parent : κ
  node : ν

/-- `Derived root rootNode edges key node`: a path of edges from the root
arrives at `key` and puts `node` there. -/
inductive Derived (root : κ) (rootNode : ν) (edges : Set (Edge κ ν)) : κ → ν → Prop
  | root : Derived root rootNode edges root rootNode
  | child {edge : Edge κ ν} {node : ν} (member : edge ∈ edges)
      (parent : Derived root rootNode edges edge.parent node) :
      Derived root rootNode edges edge.id edge.node

/-- Keys determine edges, and no edge reuses the root's key. -/
structure Keyed (root : κ) (edges : Set (Edge κ ν)) : Prop where
  injective : ∀ e ∈ edges, ∀ f ∈ edges, e.id = f.id → e.node = f.node
  fresh : ∀ e ∈ edges, e.id ≠ root

variable {root key : κ} {rootNode node node' : ν} {edges edges' : Set (Edge κ ν)}

theorem Derived.mono (included : edges ⊆ edges') (derived : Derived root rootNode edges key node) :
    Derived root rootNode edges' key node := by
  induction derived with
  | root => exact .root
  | child member _ ih => exact .child (included member) ih

theorem Derived.unique (keyed : Keyed root edges) (left : Derived root rootNode edges key node)
    (right : Derived root rootNode edges key node') : node = node' := by
  cases left with
  | root =>
    generalize same : root = key at right
    cases right with
    | root => rfl
    | child member _ => exact absurd same.symm (keyed.fresh _ member)
  | @child edge _ member _ =>
    generalize same : edge.id = key at right
    cases right with
    | root => exact absurd same (keyed.fresh _ member)
    | child member' _ => exact keyed.injective _ member _ member' same

variable (rank : ν → Nat)
  (raises : ∀ e ∈ edges, ∀ n, Derived root rootNode edges e.parent n → rank e.node = rank n + 1)
  (derived : Derived root rootNode edges key node)
include raises derived

/-- Where every edge raises a rank by one, some edge stands at each rank up to
a derived node's. -/
theorem Derived.exists_rank :
    ∀ k, rank rootNode < k → k ≤ rank node → ∃ e ∈ edges, rank e.node = k := by
  induction derived with
  | root => omega
  | @child edge parent member reached ih =>
    intro k above below
    rcases Nat.lt_or_ge (rank parent) k with higher | lower
    · have raised := raises edge member parent reached
      exact ⟨edge, member, by omega⟩
    · exact ih k above lower

/-- A derived node's rank is bounded by the number of edges. -/
theorem Derived.rank_le (items : List (Edge κ ν)) (listed : ∀ e ∈ edges, e ∈ items) :
    rank node ≤ rank rootNode + items.length := by
  have covered : Finset.Ioc (rank rootNode) (rank node) ⊆
      (items.map fun e => rank e.node).toFinset := by
    intro k member
    obtain ⟨above, below⟩ := Finset.mem_Ioc.mp member
    obtain ⟨e, edge, here⟩ := derived.exists_rank rank raises k above below
    exact List.mem_toFinset.mpr (List.mem_map.mpr ⟨e, listed e edge, here⟩)
  have bound := (Finset.card_le_card covered).trans (List.toFinset_card_le _)
  rw [Nat.card_Ioc, List.length_map] at bound
  omega

end Lineage
