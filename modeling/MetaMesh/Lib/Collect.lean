import Mathlib.Algebra.Ring.Nat
import Mathlib.Algebra.BigOperators.Group.List.Basic
import Mathlib.Logic.Relation
import MetaMesh.Lib.Loop
import MetaMesh.Lib.Table

/-!
# Collecting what is reachable

A depth-first walk over a graph that is a table of successor lists.  The walk
fails when it comes to a node that has no entry.  `collect_ok` states it
against the reachability relation: the walk returns exactly when every node
reachable from the roots has an entry, and returns those nodes.
-/

namespace Collect

open Fallible

variable {κ ε : Type} [DecidableEq κ]

/-- One round of the loop.  The stack has its top first. -/
def round (missing : ε) (graph : Table κ (List κ)) :
    List κ × Finset κ → Except ε ((List κ × Finset κ) ⊕ Finset κ)
  | ([], seen) => .ok (.inr seen)
  | (x :: pending, seen) =>
    if x ∈ seen then
      .ok (.inl (pending, seen))
    else do
      let successors ← okOr (graph.lookup x) missing
      .ok (.inl (successors.reverse ++ pending, insert x seen))

variable (graph : Table κ (List κ))

/-- The successors of the nodes outside `seen`, counted. -/
def edgesOutside (seen : Finset κ) : Nat :=
  ((graph.entries.filter fun entry => entry.1 ∉ seen).map fun entry => entry.2.length).sum

/-- A node is expanded once, so that roots and edges together bound the rounds. -/
def collect (missing : ε) (graph : Table κ (List κ)) (roots : List κ) : Except ε (Finset κ) :=
  run missing (round missing graph) (roots.length + edgesOutside graph ∅ + 1) (roots.reverse, ∅)

/-- An edge of the graph. -/
def Edge (a b : κ) : Prop :=
  ∃ successors, graph.lookup a = some successors ∧ b ∈ successors

def Reachable (roots : List κ) (a : κ) : Prop :=
  ∃ root ∈ roots, Relation.ReflTransGen (Edge graph) root a

variable {missing : ε} {graph : Table κ (List κ)} {roots : List κ}

theorem Reachable.root {a : κ} (held : a ∈ roots) : Reachable graph roots a :=
  ⟨a, held, .refl⟩

theorem Reachable.step {a b : κ} (reached : Reachable graph roots a) (edge : Edge graph a b) :
    Reachable graph roots b := by
  obtain ⟨root, held, path⟩ := reached
  exact ⟨root, held, path.tail edge⟩

/-- What contains the roots and is closed under edges contains what is reachable. -/
theorem Reachable.induct {p : κ → Prop} (roots_hold : ∀ a ∈ roots, p a)
    (edges_hold : ∀ a b, p a → Edge graph a b → p b) {a : κ} (reached : Reachable graph roots a) :
    p a := by
  obtain ⟨root, held, path⟩ := reached
  induction path with
  | refl => exact roots_hold root held
  | tail _ edge ih => exact edges_hold _ _ ih edge

/-- Expanding a node takes its edges out of the count. -/
theorem edgesOutside_insert {a : κ} {successors : List κ} {seen : Finset κ}
    (found : graph.lookup a = some successors) (fresh : a ∉ seen) :
    edgesOutside graph seen = successors.length + edgesOutside graph (insert a seen) := by
  have entry : (⟨a, successors⟩ : (_ : κ) × List κ) ∈ graph.entries :=
    AList.mem_lookup_iff.mp found
  have perm := List.perm_cons_erase entry
  have split : ∀ s : Finset κ, edgesOutside graph s =
      (((⟨a, successors⟩ :: graph.entries.erase ⟨a, successors⟩).filter
        fun entry => entry.1 ∉ s).map fun entry => entry.2.length).sum :=
    fun s => ((perm.filter _).map _).sum_eq
  -- no other entry has the same key
  have others : (graph.entries.erase ⟨a, successors⟩).filter (fun entry => entry.1 ∉ seen) =
      (graph.entries.erase ⟨a, successors⟩).filter (fun entry => entry.1 ∉ insert a seen) := by
    refine List.filter_congr fun other held => ?_
    have keys := (List.perm_nodupKeys perm).mp graph.nodupKeys
    have apart : other.1 ≠ a := by
      intro same
      have key := List.mem_keys_of_mem held
      rw [same] at key
      exact (List.nodupKeys_cons.mp keys).1 key
    simp [Finset.mem_insert, apart]
  rw [split seen, split (insert a seen), List.filter_cons_of_pos (by simpa using fresh),
    List.filter_cons_of_neg (by simp), others, List.map_cons, List.sum_cons]

variable (graph roots)

/-- The loop: what it has seen and has pending is reachable, and what is
reachable was seen or is reachable through the pending nodes. -/
structure Invariant (state : List κ × Finset κ) : Prop where
  pending : ∀ a ∈ state.1, Reachable graph roots a
  seen : ∀ a ∈ state.2, Reachable graph roots a ∧ (graph.lookup a).isSome
  roots : ∀ a ∈ roots, a ∈ state.2 ∨ a ∈ state.1
  edges : ∀ a ∈ state.2, ∀ b, Edge graph a b → b ∈ state.2 ∨ b ∈ state.1

/-- The two ways a walk ends. -/
def Outcome : Except ε (Finset κ) → Prop
  | .ok seen => (∀ a, Reachable graph roots a → (graph.lookup a).isSome) ∧
      ∀ a, a ∈ seen ↔ Reachable graph roots a
  | .error _ => ∃ a, Reachable graph roots a ∧ graph.lookup a = none

variable {graph roots}

theorem round_spec {state : List κ × Finset κ} (holds : Invariant graph roots state) :
    RoundSpec (Invariant graph roots) (fun state => state.1.length + edgesOutside graph state.2)
      (Outcome graph roots) state (round missing graph state) := by
  obtain ⟨_ | ⟨x, pending⟩, seen⟩ := state
  · -- nothing is pending: what was seen is closed
    have all : ∀ a, Reachable graph roots a → a ∈ seen := fun a reached =>
      reached.induct (fun a held => (holds.roots a held).resolve_right List.not_mem_nil)
        fun a b inSeen edge => (holds.edges a inSeen b edge).resolve_right List.not_mem_nil
    exact ⟨fun a reached => (holds.seen a (all a reached)).2,
      fun a => ⟨fun inSeen => (holds.seen a inSeen).1, all a⟩⟩
  · simp only [round]
    split
    · next inSeen =>
      have moved : ∀ a, a ∈ seen ∨ a ∈ x :: pending → a ∈ seen ∨ a ∈ pending := by
        rintro a (done | left)
        · exact .inl done
        · rcases List.mem_cons.mp left with rfl | left
          · exact .inl inSeen
          · exact .inr left
      exact ⟨⟨fun a held => holds.pending a (List.mem_cons_of_mem x held), holds.seen,
        fun a held => moved a (holds.roots a held),
        fun a held b edge => moved b (holds.edges a held b edge)⟩, by simp⟩
    · next fresh =>
      have here : Reachable graph roots x := holds.pending x (by simp)
      cases found : graph.lookup x with
      | none => exact ⟨x, here, found⟩
      | some successors =>
        have moved : ∀ a, a ∈ seen ∨ a ∈ x :: pending →
            a ∈ insert x seen ∨ a ∈ successors.reverse ++ pending := by
          intro a held
          rcases held with done | left
          · exact .inl (Finset.mem_insert_of_mem done)
          · rcases List.mem_cons.mp left with rfl | left
            · exact .inl (Finset.mem_insert_self _ _)
            · exact .inr (List.mem_append_right _ left)
        refine ⟨⟨fun a held => ?_, fun a held => ?_, fun a held => moved a (holds.roots a held),
          fun a held b edge => ?_⟩, ?_⟩
        · rcases List.mem_append.mp held with new | left
          · exact here.step ⟨successors, found, List.mem_reverse.mp new⟩
          · exact holds.pending a (List.mem_cons_of_mem x left)
        · rcases Finset.mem_insert.mp held with rfl | done
          · exact ⟨here, by simp [found]⟩
          · exact holds.seen a done
        · rcases Finset.mem_insert.mp held with rfl | done
          · obtain ⟨others, found', inOthers⟩ := edge
            obtain rfl : successors = others := Option.mem_unique found found'
            exact .inr (List.mem_append_left _ (List.mem_reverse.mpr inOthers))
          · exact moved b (holds.edges a done b edge)
        · have count := edgesOutside_insert found fresh
          simp only [List.length_append, List.length_reverse, List.length_cons]
          omega

theorem collect_spec : Outcome graph roots (collect missing graph roots) := by
  apply run_spec (Invariant graph roots) (fun state => state.1.length + edgesOutside graph state.2)
    (Outcome graph roots) (fun state holds => round_spec holds)
  · exact ⟨fun a held => .root (List.mem_reverse.mp held), by simp,
      fun a held => .inr (List.mem_reverse.mpr held), by simp⟩
  · simp

theorem collect_ok {seen : Finset κ} :
    collect missing graph roots = .ok seen ↔
      (∀ a, Reachable graph roots a → (graph.lookup a).isSome) ∧
        ∀ a, a ∈ seen ↔ Reachable graph roots a := by
  have spec := @collect_spec κ ε _ missing graph roots
  constructor
  · intro walked
    rwa [walked] at spec
  · rintro ⟨present, members⟩
    cases walked : collect missing graph roots with
    | ok other =>
      rw [walked] at spec
      have same : other = seen := Finset.ext fun a => (spec.2 a).trans (members a).symm
      rw [same]
    | error e =>
      rw [walked] at spec
      obtain ⟨a, reached, absent⟩ := spec
      have found := present a reached
      simp [absent] at found

end Collect
