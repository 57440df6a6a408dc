import Mathlib.Data.Set.Basic
import Mathlib.Order.Bounds.Defs
import MetaMesh.Lib.Loop

/-!
# Events with vector clocks

Each event has an actor, its number among the actor's events, and for every actor how
many events of that actor it has seen.  `Causal` is what a validator of such events
checks: an event has seen the one before it of its own actor, the last event it has seen
of any actor is there, and it has seen whatever that one has.  From this alone the order
of events by their clocks is a strict partial order (`precedes_irrefl`,
`precedes_trans`), and histories are closed under unions and under causally closed parts.

`prefixes` of a set of events are those whose whole past is in the set, the greatest
causally closed part of it.  `settle_sweep` is the rule for a loop that drops, until nothing
changes, what depends on something dropped.
-/

namespace Causality

/-- Events that count what they have seen of each actor. -/
structure Clock (ε δ : Type) where
  actor : ε → δ
  counter : ε → Int
  seen : ε → δ → Int

variable {ε δ : Type}

namespace Clock

variable (C : Clock ε δ)

def Precedes (before after : ε) : Prop :=
  C.counter before ≤ C.seen after (C.actor before)

/-- Every event comes with all it has seen. -/
structure Causal (events : Set ε) : Prop where
  unique : ∀ a ∈ events, ∀ b ∈ events, C.actor a = C.actor b → C.counter a = C.counter b → a = b
  positive : ∀ a ∈ events, 1 ≤ C.counter a
  own : ∀ a ∈ events, C.seen a (C.actor a) = C.counter a - 1
  nonneg : ∀ a ∈ events, ∀ d, 0 ≤ C.seen a d
  present : ∀ a ∈ events, ∀ d, C.seen a d ≠ 0 →
    ∃ b ∈ events, C.actor b = d ∧ C.counter b = C.seen a d ∧ ∀ d', C.seen b d' ≤ C.seen a d'

variable {C} {events others : Set ε}

namespace Causal

variable (causal : C.Causal events)
include causal

/-- A later event of an actor has seen at least what an earlier one has. -/
theorem seen_le_of_actor {a b : ε} (heldA : a ∈ events) (heldB : b ∈ events)
    (same : C.actor a = C.actor b) (below : C.counter a ≤ C.counter b) (d : δ) :
    C.seen a d ≤ C.seen b d := by
  obtain ⟨gap, split⟩ := Int.eq_ofNat_of_zero_le (Int.sub_nonneg_of_le below)
  -- from `b` back along its own actor's events
  induction gap generalizing b with
  | zero =>
    have level : C.counter a = C.counter b := by omega
    rw [causal.unique a heldA b heldB same level]
  | succ gap ih =>
    have first := causal.positive a heldA
    have own := causal.own b heldB
    obtain ⟨c, heldC, actor, counter, sees⟩ := causal.present b heldB (C.actor b) (by omega)
    exact le_trans (ih heldC (same.trans actor.symm) (by omega) (by omega)) (sees d)

/-- What comes after an event has seen what the event has. -/
theorem seen_le {a b : ε} (heldA : a ∈ events) (heldB : b ∈ events) (before : C.Precedes a b)
    (d : δ) : C.seen a d ≤ C.seen b d := by
  have first := causal.positive a heldA
  have known : C.counter a ≤ C.seen b (C.actor a) := before
  obtain ⟨c, heldC, actor, counter, sees⟩ := causal.present b heldB (C.actor a) (by omega)
  exact le_trans (causal.seen_le_of_actor heldA heldC actor.symm (by omega) d) (sees d)

theorem precedes_irrefl {a : ε} (held : a ∈ events) : ¬ C.Precedes a a := by
  have own := causal.own a held
  unfold Precedes
  omega

theorem precedes_trans {a b c : ε} (heldB : b ∈ events) (heldC : c ∈ events)
    (first : C.Precedes a b) (second : C.Precedes b c) : C.Precedes a c :=
  le_trans first (causal.seen_le heldB heldC second _)

/-- Among some of the events there is a last one. -/
theorem exists_last {some_events : List ε} (nonempty : some_events ≠ [])
    (inside : ∀ a ∈ some_events, a ∈ events) :
    ∃ a ∈ some_events, ∀ b ∈ some_events, ¬ C.Precedes a b := by
  induction some_events with
  | nil => exact absurd rfl nonempty
  | cons a rest ih =>
    rw [List.forall_mem_cons] at inside
    have first := causal.precedes_irrefl inside.1
    by_cases alone : rest = []
    · exact ⟨a, by simp, by simpa [alone] using first⟩
    · obtain ⟨m, held, last⟩ := ih alone inside.2
      by_cases later : C.Precedes m a
      · refine ⟨a, by simp, List.forall_mem_cons.mpr ⟨first, ?_⟩⟩
        intro b heldB before
        exact last b heldB (causal.precedes_trans inside.1 (inside.2 b heldB) later before)
      · exact ⟨m, List.mem_cons_of_mem a held, List.forall_mem_cons.mpr ⟨later, last⟩⟩

/-- The events of an actor are numbered from one on. -/
theorem numbered {a : ε} (held : a ∈ events) {k : Int} (first : 1 ≤ k) (last : k ≤ C.counter a) :
    ∃ b ∈ events, C.actor b = C.actor a ∧ C.counter b = k := by
  obtain ⟨gap, split⟩ := Int.eq_ofNat_of_zero_le (Int.sub_nonneg_of_le last)
  induction gap generalizing a with
  | zero => exact ⟨a, held, rfl, by omega⟩
  | succ gap ih =>
    have own := causal.own a held
    obtain ⟨b, heldB, actor, counter, _⟩ := causal.present a held (C.actor a) (by omega)
    obtain ⟨c, heldC, same, number⟩ := ih heldB (by omega) (by omega)
    exact ⟨c, heldC, same.trans actor, number⟩

theorem union (also : C.Causal others)
    (unique : ∀ a ∈ events, ∀ b ∈ others, C.actor a = C.actor b → C.counter a = C.counter b →
      a = b) : C.Causal (events ∪ others) where
  unique := by
    rintro a (heldA | heldA) b (heldB | heldB) actor counter
    · exact causal.unique a heldA b heldB actor counter
    · exact unique a heldA b heldB actor counter
    · exact (unique b heldB a heldA actor.symm counter.symm).symm
    · exact also.unique a heldA b heldB actor counter
  positive := by
    rintro a (held | held)
    · exact causal.positive a held
    · exact also.positive a held
  own := by
    rintro a (held | held)
    · exact causal.own a held
    · exact also.own a held
  nonneg := by
    rintro a (held | held)
    · exact causal.nonneg a held
    · exact also.nonneg a held
  present := by
    rintro a (held | held) d seen
    · obtain ⟨b, heldB, rest⟩ := causal.present a held d seen
      exact ⟨b, .inl heldB, rest⟩
    · obtain ⟨b, heldB, rest⟩ := also.present a held d seen
      exact ⟨b, .inr heldB, rest⟩

end Causal

/-! ## Closed parts -/

variable (C) in
/-- Whatever precedes an event of the part is in the part. -/
def Closed (events part : Set ε) : Prop :=
  ∀ a ∈ part, ∀ b ∈ events, C.Precedes b a → b ∈ part

theorem Causal.of_closed {part : Set ε} (causal : C.Causal events) (inside : part ⊆ events)
    (closed : C.Closed events part) : C.Causal part where
  unique a heldA b heldB := causal.unique a (inside heldA) b (inside heldB)
  positive a held := causal.positive a (inside held)
  own a held := causal.own a (inside held)
  nonneg a held := causal.nonneg a (inside held)
  present := by
    intro a held d seen
    obtain ⟨b, heldB, actor, counter, sees⟩ := causal.present a (inside held) d seen
    refine ⟨b, closed a held b heldB ?_, actor, counter, sees⟩
    unfold Precedes
    rw [actor, counter]

variable (C) in
/-- The events whose whole past is in the set. -/
def prefixes (events allowed : Set ε) : Set ε :=
  { a | a ∈ events ∧ a ∈ allowed ∧ ∀ b ∈ events, C.Precedes b a → b ∈ allowed }

theorem Causal.closed_prefixes (causal : C.Causal events) (allowed : Set ε) :
    C.Closed events (C.prefixes events allowed) := by
  rintro a ⟨held, _, past⟩ b heldB before
  exact ⟨heldB, past b heldB before, fun c heldC earlier =>
    past c heldC (causal.precedes_trans heldB held earlier before)⟩

/-- Among the closed parts within a set its prefixes are the greatest. -/
theorem Causal.isGreatest_prefixes (causal : C.Causal events) (allowed : Set ε) :
    IsGreatest { part | part ⊆ events ∧ C.Closed events part ∧ part ⊆ allowed }
      (C.prefixes events allowed) := by
  refine ⟨⟨fun a ⟨held, _⟩ => held, causal.closed_prefixes allowed, fun a ⟨_, within, _⟩ => within⟩,
    ?_⟩
  rintro part ⟨inside, closed, within⟩ a held
  exact ⟨inside held, within held, fun b heldB before => within (closed a held b heldB before)⟩

theorem prefixes_congr {allowed permitted : Set ε}
    (same : ∀ a ∈ events, a ∈ allowed ↔ a ∈ permitted) :
    C.prefixes events allowed = C.prefixes events permitted := by
  ext a
  refine and_congr_right fun held => and_congr (same a held) ?_
  exact forall₂_congr fun b heldB => imp_congr_right fun _ => same b heldB

end Clock

/-! ## Dropping what depends on what is gone -/

section Sweep

open Fallible

/-- Drops items, and says whether it dropped any. -/
def sweep (drop : List ε → ε → Bool) (kept : List ε) : List ε × Bool :=
  (kept.filter fun a => !drop kept a, kept.any (drop kept))

variable {drop : List ε → ε → Bool}

/-- With fuel for every item, sweeping leaves items of which none is to be dropped, in
their order.  Items that are never dropped while they are all there stay. -/
theorem settle_sweep {start : List ε} {part : Set ε} (inside : ∀ a ∈ part, a ∈ start)
    (stays : ∀ kept : List ε, (∀ a ∈ part, a ∈ kept) → ∀ a ∈ part, drop kept a = false) :
    (settle (sweep drop) (start.length + 1) start).Sublist start ∧
      (∀ a ∈ settle (sweep drop) (start.length + 1) start,
        drop (settle (sweep drop) (start.length + 1) start) a = false) ∧
      ∀ a ∈ part, a ∈ settle (sweep drop) (start.length + 1) start := by
  have lower : ∀ kept rest, (kept.Sublist start ∧ ∀ a ∈ part, a ∈ kept) →
      sweep drop kept = (rest, true) →
      (rest.Sublist start ∧ ∀ a ∈ part, a ∈ rest) ∧ rest.length < kept.length := by
    rintro kept rest ⟨sub, held⟩ ran
    obtain ⟨rfl, dropped⟩ := Prod.mk.inj ran
    refine ⟨⟨List.filter_sublist.trans sub, ?_⟩, ?_⟩
    · intro a member
      rw [List.mem_filter, stays kept held a member]
      exact ⟨held a member, rfl⟩
    · obtain ⟨a, member, gone⟩ := List.any_eq_true.mp dropped
      exact List.length_filter_lt_length_iff_exists.mpr ⟨a, member, by simp [gone]⟩
  obtain ⟨last, ⟨sub, held⟩, ended⟩ := settle_spec _ List.length lower
    ⟨List.Sublist.refl start, inside⟩ (Nat.lt_succ_self start.length)
  obtain ⟨rest, quiet⟩ := Prod.mk.inj ended
  have none : ∀ a ∈ last, drop last a = false := by
    intro a member
    simpa using List.any_eq_false.mp quiet a member
  have same : settle (sweep drop) (start.length + 1) start = last := by
    rw [← rest, List.filter_eq_self]
    intro a member
    rw [none a member]
    rfl
  rw [same]
  exact ⟨sub, none, held⟩

end Sweep

end Causality
