import Mathlib.Data.List.Nodup
import Mathlib.Logic.Relation

/-!
# Items in a ring

The items of a list, each followed by the next and the last by the first.  An item of a ring
of two or more is neither its own successor nor its own predecessor, and where every item is
related to its successor, every item reaches every other.
-/

namespace Ring

variable {α : Type} [DecidableEq α] {ring : List α} {a b : α}

/-- The item after `a`. -/
def successor (ring : List α) (a : α) : Option α :=
  ring[(ring.idxOf a + 1) % ring.length]?

/-- The item before `a`. -/
def predecessor (ring : List α) (a : α) : Option α :=
  ring[(ring.idxOf a + ring.length - 1) % ring.length]?

theorem idxOf_of_getElem? (distinct : ring.Nodup) {i : Nat} (found : ring[i]? = some a) :
    ring.idxOf a = i := by
  obtain ⟨within, rfl⟩ := List.getElem?_eq_some_iff.mp found
  exact distinct.idxOf_getElem i within

/-- Every item of a ring has a successor. -/
theorem exists_successor (held : a ∈ ring) : ∃ b, successor ring a = some b := by
  have some : 0 < ring.length := List.length_pos_of_mem held
  exact ⟨_, List.getElem?_eq_getElem (Nat.mod_lt _ some)⟩

section Two

variable (distinct : ring.Nodup) (two : 2 ≤ ring.length) (held : a ∈ ring)
include distinct two held

theorem successor_ne (next : successor ring a = some b) : b ≠ a := by
  rintro rfl
  have index := idxOf_of_getElem? distinct next
  have within : ring.idxOf b < ring.length := List.idxOf_lt_length_of_mem held
  rcases Nat.lt_or_ge (ring.idxOf b + 1) ring.length with below | last
  · rw [Nat.mod_eq_of_lt below] at index
    omega
  · have isLast : ring.idxOf b + 1 = ring.length := by omega
    rw [isLast, Nat.mod_self] at index
    omega

theorem predecessor_ne (previous : predecessor ring a = some b) : b ≠ a := by
  rintro rfl
  have index := idxOf_of_getElem? distinct previous
  have within : ring.idxOf b < ring.length := List.idxOf_lt_length_of_mem held
  rcases Nat.eq_zero_or_pos (ring.idxOf b) with first | later
  · rw [first, Nat.zero_add, Nat.mod_eq_of_lt (by omega)] at index
    omega
  · have shifted : ring.idxOf b + ring.length - 1 = ring.idxOf b - 1 + ring.length := by omega
    rw [shifted, Nat.add_mod_right, Nat.mod_eq_of_lt (by omega)] at index
    omega

end Two

/-- In a ring of items related to their successors, every item reaches every other. -/
theorem reaches (distinct : ring.Nodup) {r : α → α → Prop}
    (related : ∀ a b, successor ring a = some b → a ∈ ring → r a b)
    (first : a ∈ ring) (second : b ∈ ring) : Relation.ReflTransGen r a b := by
  obtain ⟨i, within, isFirst⟩ := List.mem_iff_getElem.mp first
  obtain ⟨j, below, rfl⟩ := List.mem_iff_getElem.mp second
  -- by induction on the number of steps from the first item
  have walk : ∀ steps b, ring[(i + steps) % ring.length]? = some b →
      Relation.ReflTransGen r a b := by
    intro steps
    induction steps with
    | zero =>
      intro b found
      rw [Nat.add_zero, Nat.mod_eq_of_lt within, List.getElem?_eq_getElem within] at found
      rw [← Option.some.inj found, isFirst]
    | succ steps ih =>
      intro b found
      have inside : (i + steps) % ring.length < ring.length := Nat.mod_lt _ (by omega)
      have here := List.getElem?_eq_getElem inside
      refine (ih _ here).tail (related _ b ?_ (List.getElem_mem inside))
      rw [successor, idxOf_of_getElem? distinct here, Nat.mod_add_mod]
      exact found
  refine walk (ring.length - i + j) _ ?_
  rw [show i + (ring.length - i + j) = j + ring.length by omega, Nat.add_mod_right,
    Nat.mod_eq_of_lt below]
  exact List.getElem?_eq_getElem below

end Ring
