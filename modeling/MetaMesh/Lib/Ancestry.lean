import Mathlib.Data.Fintype.EquivFin
import Mathlib.Data.Fintype.Sets
import Mathlib.Data.List.Nodup
import Mathlib.Logic.Relation

/-!
# Lines of ancestors

Items lead to their parents, and an item without one is a root.  `Line next a line` says
that `line` goes from `a` to a root.  A program that follows the parents keeps the names
it has seen and stops at a name seen before; `walk_iff_line` is the rule for such a
program: it succeeds exactly on an item with a line of distinct names, if its fuel
suffices, and `length_le_of_distinct` says that fuel for every item does.  `climb` looks
for an ancestor; `climb_of_line` says that on such a line it finds what is there.

Where every item is a root or has a parent among finitely many items, the items all have
lines exactly if no item is its own ancestor: `exists_line_of_acyclic` and
`acyclic_of_line`.
-/

namespace Ancestry

variable {α ι : Type}

/-- `next a none`: `a` is a root; `next a (some b)`: `b` is the parent of `a`. -/
inductive Line (next : α → Option α → Prop) : α → List α → Prop
  | root {a : α} (found : next a none) : Line next a [a]
  | child {a b : α} {line : List α} (found : next a (some b)) (rest : Line next b line) :
      Line next a (a :: line)

variable {next next' : α → Option α → Prop} {a b : α} {line other : List α}

theorem Line.start_mem (led : Line next a line) : a ∈ line := by
  cases led <;> simp

/-- All of a line is among the items that a start and its parents are among. -/
theorem Line.forall_mem {p : α → Prop} (led : Line next a line) (start : p a)
    (parents : ∀ a b, next a (some b) → p b) : ∀ c ∈ line, p c := by
  induction led with
  | root _ => simpa using start
  | child found _ ih => exact List.forall_mem_cons.mpr ⟨start, ih (parents _ _ found)⟩

/-- Of two items of a line one is on the line of the other. -/
theorem Line.comparable (led : Line next a line) {c d : α} (heldC : c ∈ line) (heldD : d ∈ line) :
    (∃ rest, Line next c rest ∧ d ∈ rest) ∨ ∃ rest, Line next d rest ∧ c ∈ rest := by
  induction led with
  | @root a found =>
    obtain rfl := List.mem_singleton.mp heldC
    exact .inl ⟨[c], .root found, heldD⟩
  | @child a b line found rest ih =>
    rcases List.mem_cons.mp heldC with rfl | laterC
    · exact .inl ⟨_, .child found rest, heldD⟩
    · rcases List.mem_cons.mp heldD with rfl | laterD
      · exact .inr ⟨_, .child found rest, heldC⟩
      · exact ih laterC laterD

/-- A line stays a line where its items keep their parents. -/
theorem Line.mono (led : Line next a line)
    (kept : ∀ c ∈ line, ∀ parent, next c parent → next' c parent) : Line next' a line := by
  induction led with
  | root found => exact .root (kept _ (by simp) _ found)
  | child found _ ih =>
    rw [List.forall_mem_cons] at kept
    exact .child (kept.1 _ found) (ih kept.2)

/-- Names that stand once in a line are at most as many as the items they come from. -/
theorem length_le_of_distinct {name : α → ι} {items : List α}
    (distinct : (line.map name).Nodup) (inside : ∀ c ∈ line, c ∈ items) :
    line.length ≤ items.length :=
  (List.subperm_of_subset distinct.of_map inside).length_le

/-! ## Circles -/

section Circles

open Relation

/-- `b` is an ancestor of `a`. -/
abbrev Above (next : α → Option α → Prop) : α → α → Prop :=
  TransGen fun a b => next a (some b)

theorem Line.reaches (led : Line next a line) {c : α} (held : c ∈ line) :
    ReflTransGen (fun a b => next a (some b)) a c := by
  induction led with
  | root _ => rw [List.mem_singleton.mp held]
  | child found _ ih =>
    rcases List.mem_cons.mp held with rfl | later
    · exact .refl
    · exact .head found (ih later)

/-- Among finitely many items a relation without circles is well-founded. -/
theorem founded_of_acyclic {r : α → α → Prop} (items : Finset α)
    (acyclic : ∀ a, ¬ TransGen r a a) : WellFounded fun b a : items => TransGen r a b := by
  have : IsTrans items fun b a => TransGen r a b :=
    ⟨fun _ _ _ first second => second.trans first⟩
  have : Std.Irrefl fun b a : items => TransGen r a b := ⟨fun a => acyclic a⟩
  exact Finite.wellFounded_of_trans_of_irrefl _

theorem exists_line_of_acyclic {items : Finset α}
    (total : ∀ a ∈ items, next a none ∨ ∃ b ∈ items, next a (some b))
    (acyclic : ∀ a, ¬ Above next a a) (held : a ∈ items) :
    ∃ line, Line next a line ∧ line.Nodup := by
  induction held' : (⟨a, held⟩ : items) using (founded_of_acyclic items acyclic).induction
    generalizing a with
  | _ item ih =>
    subst held'
    rcases total a held with found | ⟨b, above, found⟩
    · exact ⟨[a], .root found, by simp⟩
    · obtain ⟨line, led, distinct⟩ := ih ⟨b, above⟩ (.single found) above rfl
      refine ⟨a :: line, .child found led, List.nodup_cons.mpr ⟨?_, distinct⟩⟩
      intro again
      exact acyclic a (.head' found (led.reaches again))

section

variable (functional : ∀ a p q, next a p → next a q → p = q) (led : Line next a line)
include functional led

/-- Lines go from item to item in one way. -/
theorem Line.follow (path : Above next a b) :
    ∃ rest, Line next b rest ∧ rest.length < line.length := by
  induction path with
  | single found =>
    cases led with
    | root last => cases functional _ _ _ last found
    | child first rest =>
      cases functional _ _ _ first found
      exact ⟨_, rest, by simp⟩
  | tail _ found ih =>
    obtain ⟨rest, middle, shorter⟩ := ih
    cases middle with
    | root last => cases functional _ _ _ last found
    | child first rest =>
      cases functional _ _ _ first found
      exact ⟨_, rest, by simp at shorter; omega⟩

theorem Line.unique (also : Line next a other) : line = other := by
  induction led generalizing other with
  | root found =>
    cases also with
    | root _ => rfl
    | child again _ => cases functional _ _ _ found again
  | child found _ ih =>
    cases also with
    | root again => cases functional _ _ _ found again
    | child again rest =>
      cases functional _ _ _ found again
      rw [ih rest]

theorem acyclic_of_line : ¬ Above next a a := by
  intro circle
  obtain ⟨rest, again, shorter⟩ := led.follow functional circle
  rw [led.unique functional again] at shorter
  exact Nat.lt_irrefl _ shorter

theorem Line.nodup : line.Nodup := by
  induction led with
  | root _ => simp
  | child found rest ih =>
    refine List.nodup_cons.mpr ⟨?_, ih⟩
    intro again
    exact acyclic_of_line functional (.child found rest) (.head' found (rest.reaches again))

end

end Circles

section Walk

variable [DecidableEq ι] {name : α → ι} {Walks : Nat → α → Finset ι → Prop}

/-- A program that visits an item with a fresh name and goes on at its parent succeeds
exactly along a line of fresh and distinct names. -/
theorem walk_iff_line (spent : ∀ a seen, ¬ Walks 0 a seen)
    (round : ∀ fuel a seen, Walks (fuel + 1) a seen ↔ name a ∉ seen ∧
      (next a none ∨ ∃ b, next a (some b) ∧ Walks fuel b (insert (name a) seen)))
    {fuel : Nat} {seen : Finset ι} :
    Walks fuel a seen ↔ ∃ line, Line next a line ∧ line.length ≤ fuel ∧
      (line.map name).Nodup ∧ ∀ c ∈ line, name c ∉ seen := by
  induction fuel generalizing a seen with
  | zero =>
    refine iff_of_false (spent a seen) ?_
    rintro ⟨line, led, short, _⟩
    exact absurd (List.length_pos_of_mem led.start_mem) (by omega)
  | succ fuel ih =>
    rw [round]
    constructor
    · rintro ⟨fresh, found | ⟨b, found, walked⟩⟩
      · exact ⟨[a], .root found, by simp, by simp, by simpa using fresh⟩
      · obtain ⟨line, led, short, distinct, unseen⟩ := ih.mp walked
        refine ⟨a :: line, .child found led, by simpa using short, ?_, ?_⟩
        · rw [List.map_cons, List.nodup_cons]
          refine ⟨?_, distinct⟩
          intro again
          obtain ⟨c, held, same⟩ := List.mem_map.mp again
          exact unseen c held (by simp [same])
        · refine List.forall_mem_cons.mpr ⟨fresh, ?_⟩
          intro c held seenBefore
          exact unseen c held (Finset.mem_insert_of_mem seenBefore)
    · rintro ⟨line, led, short, distinct, unseen⟩
      refine ⟨unseen a led.start_mem, ?_⟩
      cases led with
      | root found => exact .inl found
      | @child _ b line found led =>
        rw [List.map_cons, List.nodup_cons] at distinct
        refine .inr ⟨b, found, ih.mpr ⟨line, led, by simpa using short, distinct.2, ?_⟩⟩
        intro c held seenNow
        rcases Finset.mem_insert.mp seenNow with same | before
        · exact distinct.1 (same ▸ List.mem_map_of_mem held)
        · exact unseen c (List.mem_cons_of_mem a held) before

/-- Looks for a hit among an item and its ancestors.  `parent a = none` means that the
parent is missing; then, and at a name seen before, the answer is `lost`. -/
def climb (name : α → ι) (parent : α → Option (Option α)) (hit : α → Bool) (lost : Bool) :
    Nat → α → Finset ι → Bool
  | 0, _, _ => lost
  | fuel + 1, a, seen =>
    if hit a then true
    else if name a ∈ seen then lost
    else match parent a with
      | none => lost
      | some none => false
      | some (some b) => climb name parent hit lost fuel b (insert (name a) seen)

theorem climb_of_line {parent : α → Option (Option α)} {hit : α → Bool} {lost : Bool}
    (led : Line (fun a p => parent a = some p) a line) {fuel : Nat} {seen : Finset ι}
    (enough : line.length ≤ fuel) (distinct : (line.map name).Nodup)
    (unseen : ∀ c ∈ line, name c ∉ seen) :
    climb name parent hit lost fuel a seen = line.any hit := by
  induction led generalizing fuel seen with
  | @root a found =>
    obtain ⟨fuel, rfl⟩ := Nat.exists_eq_succ_of_ne_zero (Nat.ne_of_gt enough)
    simp [climb, found, unseen a (by simp)]
  | @child a b line found _ ih =>
    obtain ⟨fuel, rfl⟩ := Nat.exists_eq_add_of_le' (Nat.le_trans (by simp) enough : 1 ≤ fuel)
    rw [List.map_cons, List.nodup_cons] at distinct
    rw [List.forall_mem_cons] at unseen
    have above := @ih fuel (insert (name a) seen) (by simpa using enough) distinct.2 (by
      intro c held again
      rcases Finset.mem_insert.mp again with same | before
      · exact distinct.1 (same ▸ List.mem_map_of_mem held)
      · exact unseen.2 c held before)
    simp only [climb, if_neg unseen.1, found, above, List.any_cons]
    cases hit a <;> rfl

end Walk

end Ancestry
