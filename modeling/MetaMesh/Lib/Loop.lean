import MetaMesh.Lib.Fallible

/-!
# Loops

A `while` loop is a body that goes on with a new state or leaves with a result.
`run` drives it by fuel.  `run_invariant` is the rule for a run that returned;
`run_spec` is the rule with a measure: it shows in addition that enough fuel
was given, so that the outcome is one the body produced.  `settle` drives a loop
that repeats its round until nothing changes, and `settle_spec` is its rule.
Where a round is a `pass` over items, `settle_pass` says that the end is a state
that no item changes.
-/

namespace Fallible

variable {ε σ β : Type}

def run (spent : ε) (body : σ → Except ε (σ ⊕ β)) : Nat → σ → Except ε β
  | 0, _ => .error spent
  | fuel + 1, state =>
    body state >>= fun
      | .inl next => run spent body fuel next
      | .inr result => .ok result

variable {spent : ε} {body : σ → Except ε (σ ⊕ β)} {fuel : Nat} {start : σ}

/-- What the body preserves gives what its last round establishes. -/
theorem run_invariant {result : β} (returned : run spent body fuel start = .ok result)
    (invariant : σ → Prop) (post : β → Prop) (initial : invariant start)
    (continues : ∀ state next, invariant state → body state = .ok (.inl next) → invariant next)
    (leaves : ∀ state result, invariant state → body state = .ok (.inr result) → post result) :
    post result := by
  induction fuel generalizing start with
  | zero => cases returned
  | succ fuel ih =>
    obtain ⟨outcome, ran, rest⟩ := bind_ok.mp returned
    cases outcome with
    | inl next => exact ih rest (continues start next initial ran)
    | inr last =>
      simp only [Except.ok.injEq] at rest
      exact rest ▸ leaves start last initial ran

/-- One round under the invariant: an error or a result that meets `post`, or a
next state that keeps the invariant and is smaller. -/
def RoundSpec (invariant : σ → Prop) (measure : σ → Nat) (post : Except ε β → Prop)
    (state : σ) : Except ε (σ ⊕ β) → Prop
  | .error e => post (.error e)
  | .ok (.inl next) => invariant next ∧ measure next < measure state
  | .ok (.inr result) => post (.ok result)

/-- The total rule: with fuel above the measure, the outcome meets `post`. -/
theorem run_spec (invariant : σ → Prop) (measure : σ → Nat) (post : Except ε β → Prop)
    (round : ∀ state, invariant state → RoundSpec invariant measure post state (body state))
    (initial : invariant start) (enough : measure start < fuel) :
    post (run spent body fuel start) := by
  induction fuel generalizing start with
  | zero => omega
  | succ fuel ih =>
    have spec := round start initial
    unfold run
    cases ran : body start with
    | error e => simpa [ran, RoundSpec] using spec
    | ok outcome =>
      cases outcome with
      | inl next =>
        simp only [ran, RoundSpec] at spec
        exact ih spec.1 (by omega)
      | inr result => simpa [ran, RoundSpec] using spec

/-- Above a measure that every round lowers, the fuel does not matter. -/
theorem run_ends (measure : σ → Nat)
    (lowers : ∀ state next, body state = .ok (.inl next) → measure next < measure state) {late : ε}
    {more : Nat} (enough : measure start < fuel) (enough' : measure start < more) :
    run spent body fuel start = run late body more start := by
  induction fuel generalizing more start with
  | zero => omega
  | succ fuel ih =>
    obtain ⟨more, rfl⟩ := Nat.exists_eq_succ_of_ne_zero (Nat.ne_zero_of_lt enough')
    unfold run
    rcases ran : body start with _ | next | _
    · rfl
    · have lower := lowers start next ran
      exact ih (by omega) (by omega)
    · rfl

/-! ## Rounds until nothing changes -/

/-- `loop { changed = false; round; if !changed { break } }`. -/
def settle (round : σ → σ × Bool) : Nat → σ → σ
  | 0, state => state
  | fuel + 1, state =>
    match round state with
    | (next, true) => settle round fuel next
    | (next, false) => next

/-- With fuel above a measure that every changing round lowers, the loop ends in
a round that changed nothing. -/
theorem settle_spec {round : σ → σ × Bool} (invariant : σ → Prop) (measure : σ → Nat)
    (changing : ∀ state next, invariant state → round state = (next, true) →
      invariant next ∧ measure next < measure state) (initial : invariant start)
    (enough : measure start < fuel) :
    ∃ last, invariant last ∧ round last = (settle round fuel start, false) := by
  induction fuel generalizing start with
  | zero => omega
  | succ fuel ih =>
    rcases ran : round start with ⟨next, changed⟩
    cases changed with
    | true =>
      obtain ⟨kept, smaller⟩ := changing start next initial ran
      simpa [settle, ran] using ih kept (by omega)
    | false => exact ⟨start, initial, by simp [settle, ran]⟩

/-- One item of a pass, and whether the state has changed so far. -/
def note {α : Type} (step : σ → α → Option σ) (before : σ × Bool) (item : α) : σ × Bool :=
  match step before.1 item with
  | some next => (next, true)
  | none => before

/-- A pass over items that notes whether any of them changed the state. -/
def pass {α : Type} (step : σ → α → Option σ) (items : List α) (state : σ) : σ × Bool :=
  items.foldl (note step) (state, false)

section Pass

variable {α : Type} {step : σ → α → Option σ} {items : List α}

/-- A pass depends only on what its step does to the items. -/
theorem pass_congr {other : σ → α → Option σ}
    (same : ∀ state, ∀ item ∈ items, step state item = other state item) :
    pass step items = pass other items := by
  funext state
  apply List.foldl_ext
  intro before item held
  unfold note
  rw [same before.1 item held]

section

variable (invariant : σ → Prop) (measure : σ → Nat)
  (changing : ∀ state, ∀ item ∈ items, ∀ next, invariant state → step state item = some next →
    invariant next ∧ measure next < measure state)

include changing

/-- Either no item changes the state, or the measure is lower in the end. -/
theorem foldl_note_spec {before : σ × Bool} (initial : invariant before.1) :
    invariant (items.foldl (note step) before).1 ∧
      ((items.foldl (note step) before = before ∧ ∀ item ∈ items, step before.1 item = none) ∨
        ((items.foldl (note step) before).2 = true ∧
          measure (items.foldl (note step) before).1 < measure before.1)) := by
  induction items generalizing before with
  | nil => simp [initial]
  | cons item items ih =>
    have later := fun state other (held : other ∈ items) =>
      changing state other (List.mem_cons_of_mem item held)
    rw [List.foldl_cons]
    cases stepped : step before.1 item with
    | none =>
      have still : note step before item = before := by simp [note, stepped]
      rw [still]
      obtain ⟨kept, outcome⟩ := ih later initial
      refine ⟨kept, ?_⟩
      rcases outcome with ⟨same, quiet⟩ | moved
      · exact .inl ⟨same, List.forall_mem_cons.mpr ⟨stepped, quiet⟩⟩
      · exact .inr moved
    | some next =>
      have moves : note step before item = (next, true) := by simp [note, stepped]
      rw [moves]
      obtain ⟨kept, smaller⟩ := changing before.1 item (by simp) next initial stepped
      obtain ⟨kept, outcome⟩ := @ih later (next, true) kept
      refine ⟨kept, Or.inr ?_⟩
      rcases outcome with ⟨same, _⟩ | ⟨flag, below⟩
      · rw [same]
        exact ⟨rfl, smaller⟩
      · exact ⟨flag, Nat.lt_trans below smaller⟩

/-- Passes that each lower a measure while they change anything end in a state
that no item changes. -/
theorem settle_pass (initial : invariant start) (enough : measure start < fuel) :
    invariant (settle (pass step items) fuel start) ∧
      ∀ item ∈ items, step (settle (pass step items) fuel start) item = none := by
  have round : ∀ state, invariant state → invariant (pass step items state).1 ∧
      ((pass step items state = (state, false) ∧ ∀ item ∈ items, step state item = none) ∨
        ((pass step items state).2 = true ∧ measure (pass step items state).1 < measure state)) :=
    fun state holds => @foldl_note_spec _ _ step items invariant measure changing (state, false)
      holds
  have lower : ∀ state next, invariant state → pass step items state = (next, true) →
      invariant next ∧ measure next < measure state := by
    intro state next holds ran
    obtain ⟨kept, outcome⟩ := round state holds
    rw [ran] at kept outcome
    rcases outcome with ⟨same, _⟩ | ⟨_, smaller⟩
    · simp at same
    · exact ⟨kept, smaller⟩
  obtain ⟨last, kept, quiet⟩ := settle_spec invariant measure lower initial enough
  obtain ⟨_, outcome⟩ := round last kept
  rw [quiet] at outcome
  rcases outcome with ⟨same, none⟩ | ⟨flag, _⟩
  · have same : settle (pass step items) fuel start = last := congrArg Prod.fst same
    rw [same]
    exact ⟨kept, none⟩
  · cases flag

end

/-- What every item preserves holds at the end, however many passes there are. -/
theorem settle_invariant (invariant : σ → Prop)
    (preserved : ∀ state, ∀ item ∈ items, ∀ next, invariant state → step state item = some next →
      invariant next) (initial : invariant start) :
    invariant (settle (pass step items) fuel start) := by
  induction fuel generalizing start with
  | zero => exact initial
  | succ fuel ih =>
    have kept : invariant (pass step items start).1 := by
      refine List.foldlRecOn (motive := fun before => invariant before.1) items (note step)
        (show invariant (start, false).1 from initial) fun before holds item held => ?_
      unfold note
      split
      · next next stepped => exact preserved _ item held next holds stepped
      · exact holds
    unfold settle
    split
    · next next ran =>
      rw [ran] at kept
      exact ih kept
    · next next ran =>
      rw [ran] at kept
      exact kept

end Pass

end Fallible
