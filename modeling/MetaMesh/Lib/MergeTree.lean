import Mathlib.Order.Lattice
import MetaMesh.Lib.Fallible

/-!
# Merging in any order and grouping

A replica merges what it receives into what it has.  A `MergeTree` is one order
and grouping of such merges, repetitions included.  `Joins` relates a partial
merge to the join of a semilattice: merging two good states that fit gives a
good state whose content is the join.  Then every tree either meets two states
that do not fit, or evaluates to a good state whose content is the join of its
leaves, which is the same for all trees over the same leaves.
-/

/-- An order in which replicas are merged. -/
inductive MergeTree (σ : Type)
  | leaf (state : σ)
  /-- What the tree evaluates to, received by an empty replica. -/
  | adopt (tree : MergeTree σ)
  | merge (current incoming : MergeTree σ)

namespace MergeTree

open Fallible

variable {σ ε L : Type}

def leaves : MergeTree σ → List σ
  | leaf state => [state]
  | adopt tree => tree.leaves
  | merge current incoming => current.leaves ++ incoming.leaves

section Eval

variable (mergeStates : Option σ → σ → Except ε σ)

def eval : MergeTree σ → Except ε σ
  | leaf state => .ok state
  | adopt tree => do mergeStates none (← tree.eval)
  | merge current incoming => do
      let left ← current.eval
      let right ← incoming.eval
      mergeStates (some left) right

/-- Somewhere in the tree, `left` and `right` are merged. -/
inductive Meets (left right : σ) : MergeTree σ → Prop
  | here {current incoming : MergeTree σ} (evalLeft : current.eval mergeStates = .ok left)
      (evalRight : incoming.eval mergeStates = .ok right) :
      Meets left right (merge current incoming)
  | adopt {tree : MergeTree σ} (inside : Meets left right tree) : Meets left right (adopt tree)
  | left {current incoming : MergeTree σ} (inside : Meets left right current) :
      Meets left right (merge current incoming)
  | right {current incoming : MergeTree σ} (inside : Meets left right incoming) :
      Meets left right (merge current incoming)

/-- A tree in which two states meet that do not merge does not evaluate. -/
theorem eval_error_of_meets {mergeStates : Option σ → σ → Except ε σ} {left right : σ}
    {tree : MergeTree σ} (meets : Meets mergeStates left right tree)
    (refused : ∀ merged, mergeStates (some left) right ≠ .ok merged) :
    ∃ e, tree.eval mergeStates = .error e := by
  have noValue : ∀ merged, tree.eval mergeStates ≠ .ok merged := by
    induction meets with
    | here evalLeft evalRight =>
      intro merged evaluates
      obtain ⟨a, isLeft, rest⟩ := bind_ok.mp evaluates
      obtain ⟨b, isRight, merges⟩ := bind_ok.mp rest
      cases isLeft.symm.trans evalLeft
      cases isRight.symm.trans evalRight
      exact refused merged merges
    | adopt inside ih =>
      intro merged evaluates
      obtain ⟨inner, isInner, -⟩ := bind_ok.mp evaluates
      exact ih inner isInner
    | left inside ih =>
      intro merged evaluates
      obtain ⟨a, isLeft, -⟩ := bind_ok.mp evaluates
      exact ih a isLeft
    | right inside ih =>
      intro merged evaluates
      obtain ⟨a, -, rest⟩ := bind_ok.mp evaluates
      obtain ⟨b, isRight, -⟩ := bind_ok.mp rest
      exact ih b isRight
  cases evaluates : tree.eval mergeStates with
  | error e => exact ⟨e, rfl⟩
  | ok merged => exact absurd evaluates (noValue merged)

end Eval

variable [SemilatticeSup L] (content : σ → L)

/-- The join of the leaves. -/
def joined : MergeTree σ → L
  | leaf state => content state
  | adopt tree => tree.joined
  | merge current incoming => current.joined ⊔ incoming.joined

theorem joined_le_iff (tree : MergeTree σ) (bound : L) :
    tree.joined content ≤ bound ↔ ∀ state ∈ tree.leaves, content state ≤ bound := by
  induction tree with
  | leaf state => simp [joined, leaves]
  | adopt tree ih => simpa only [joined, leaves] using ih
  | merge current incoming ihLeft ihRight =>
    simp only [joined, leaves, sup_le_iff, ihLeft, ihRight, List.forall_mem_append]

/-- Trees over the same leaves have the same join. -/
theorem joined_eq_of_leaves {left right : MergeTree σ}
    (same : ∀ state, state ∈ left.leaves ↔ state ∈ right.leaves) :
    left.joined content = right.joined content := by
  apply le_antisymm
  · rw [joined_le_iff]
    intro state member
    exact (joined_le_iff content right _).mp le_rfl state ((same state).mp member)
  · rw [joined_le_iff]
    intro state member
    exact (joined_le_iff content left _).mp le_rfl state ((same state).mpr member)

/-- Where good states fit, their merge is good and its content is the join. -/
structure Joins (mergeStates : Option σ → σ → Except ε σ) (good : σ → Prop)
    (fits : σ → σ → Prop) : Prop where
  adopts : ∀ incoming, good incoming → ∃ merged, mergeStates none incoming = .ok merged ∧
    good merged ∧ content merged = content incoming
  merges : ∀ current incoming, good current → good incoming → fits current incoming →
    ∃ merged, mergeStates (some current) incoming = .ok merged ∧ good merged ∧
      content merged = content current ⊔ content incoming

variable {content} {mergeStates : Option σ → σ → Except ε σ} {good : σ → Prop}
  {fits : σ → σ → Prop}

/-- Every tree over good leaves evaluates to their join, unless two states meet
that do not fit. -/
theorem eval_spec (joins : Joins content mergeStates good fits) (tree : MergeTree σ)
    (leavesGood : ∀ state ∈ tree.leaves, good state) :
    (∃ merged, tree.eval mergeStates = .ok merged ∧ good merged ∧
      content merged = tree.joined content) ∨
    ∃ current incoming, Meets mergeStates current incoming tree ∧ good current ∧
      good incoming ∧ ¬ fits current incoming := by
  induction tree with
  | leaf state => exact .inl ⟨state, rfl, leavesGood state (by simp [leaves]), rfl⟩
  | adopt tree ih =>
    rcases ih leavesGood with ⟨inner, evaluates, innerGood, same⟩ | ⟨a, b, meets, facts⟩
    · obtain ⟨merged, merges, mergedGood, kept⟩ := joins.adopts inner innerGood
      exact .inl ⟨merged, bind_ok.mpr ⟨inner, evaluates, merges⟩, mergedGood, kept.trans same⟩
    · exact .inr ⟨a, b, .adopt meets, facts⟩
  | merge current incoming ihLeft ihRight =>
    have goodLeft : ∀ state ∈ current.leaves, good state := fun state member =>
      leavesGood state (List.mem_append_left _ member)
    have goodRight : ∀ state ∈ incoming.leaves, good state := fun state member =>
      leavesGood state (List.mem_append_right _ member)
    rcases ihLeft goodLeft with ⟨left, evalLeft, isGood, same⟩ | ⟨a, b, meets, facts⟩
    · rcases ihRight goodRight with ⟨right, evalRight, isGood', same'⟩ | ⟨a, b, meets, facts⟩
      · by_cases fit : fits left right
        · obtain ⟨merged, merges, mergedGood, pooled⟩ := joins.merges left right isGood isGood' fit
          refine .inl ⟨merged, ?_, mergedGood, ?_⟩
          · exact bind_ok.mpr ⟨left, evalLeft, bind_ok.mpr ⟨right, evalRight, merges⟩⟩
          · rw [pooled, same, same', joined]
        · exact .inr ⟨left, right, .here evalLeft evalRight, isGood, isGood', fit⟩
      · exact .inr ⟨a, b, .right meets, facts⟩
    · exact .inr ⟨a, b, .left meets, facts⟩

end MergeTree
