import Mathlib.Data.List.Forall2

/-!
# Fallible computations

Inversion rules for programs written in `Except`.  A program that checks its
input is a chain of `refuse` and `okOr` steps; the rules below turn the fact
that the whole chain returned into the facts its steps established, and back.
Loops over a list are `List.forM`, `List.mapM` and `List.foldlM`: `forM_ok`,
`mapM_ok` and `foldlM_invariant` are their inversion rules, `foldlM_total` the rule that
runs one of them to its end.
-/

namespace Fallible

variable {ε α β σ : Type} {e : ε} {p : Prop} {a : α} {b : β} {x : Except ε α} {f : α → Except ε β}

/-- Stop with `e` when `p` holds. -/
def refuse (p : Prop) [Decidable p] (e : ε) : Except ε Unit :=
  if p then .error e else .ok ()

/-- The value of `o`, or the error `e`. -/
def okOr (o : Option α) (e : ε) : Except ε α :=
  o.elim (.error e) .ok

/-- `x` with its error replaced by `e`. -/
def mapErr (x : Except ε α) (e : ε) : Except ε α :=
  match x with
  | .ok a => .ok a
  | .error _ => .error e

theorem bind_ok : x >>= f = .ok b ↔ ∃ a, x = .ok a ∧ f a = .ok b := by
  cases x with
  | error e => simp [bind, Except.bind]
  | ok a => simp [bind, Except.bind]

theorem ok_unique {b : α} (left : x = .ok a) (right : x = .ok b) : a = b :=
  Except.ok.inj (left.symm.trans right)

@[simp] theorem ok_bind (a : α) (f : α → Except ε β) : (Except.ok a : Except ε α) >>= f = f a := rfl

@[simp] theorem error_bind (e : ε) (f : α → Except ε β) :
    (Except.error e : Except ε α) >>= f = .error e := rfl

@[simp] theorem refuse_ok [Decidable p] : refuse p e = .ok () ↔ ¬ p := by
  unfold refuse
  split <;> simp_all

theorem refuse_bind_ok [Decidable p] {f : Unit → Except ε β} :
    refuse p e >>= f = .ok b ↔ ¬ p ∧ f () = .ok b := by
  rw [bind_ok]
  constructor
  · rintro ⟨⟨⟩, passed, run⟩
    exact ⟨refuse_ok.mp passed, run⟩
  · rintro ⟨passed, run⟩
    exact ⟨(), refuse_ok.mpr passed, run⟩

/-- A check in front of a program. -/
theorem check_bind_ok {x : Except ε Unit} {f : Unit → Except ε β} :
    x >>= f = .ok b ↔ x = .ok () ∧ f () = .ok b := by
  rw [bind_ok]
  exact ⟨fun ⟨_, passed, run⟩ => ⟨passed, run⟩, fun ⟨passed, run⟩ => ⟨(), passed, run⟩⟩

@[simp] theorem okOr_ok {o : Option α} : okOr o e = .ok a ↔ o = some a := by
  cases o <;> simp [okOr]

/-- A condition that is checked after a first step. -/
theorem refuse_after_ok [Decidable p] {step : Except ε α} {rest : Except ε β} :
    (do
      let _ ← step
      refuse p e
      rest) = .ok b ↔ ¬ p ∧ (do
        let _ ← step
        rest) = .ok b := by
  cases step with
  | error e => simp
  | ok a => rw [ok_bind, ok_bind, refuse_bind_ok]

@[simp] theorem mapErr_ok : mapErr x e = .ok a ↔ x = .ok a := by
  cases x <;> simp [mapErr]

theorem isOk_iff : x.isOk = true ↔ ∃ a, x = .ok a := by
  cases x <;> simp [Except.isOk, Except.toBool]

@[simp] theorem toOption_eq_some : x.toOption = some a ↔ x = .ok a := by
  cases x <;> simp [Except.toOption]

variable {check : α → Except ε Unit} {items : List α}

/-- A checking loop returns exactly when every item passes its check. -/
theorem forM_ok : items.forM check = .ok () ↔ ∀ a ∈ items, check a = .ok () := by
  induction items with
  | nil => simp [pure, Except.pure]
  | cons a items ih =>
    rw [List.forM_eq_forM, List.forM_cons, bind_ok, List.forall_mem_cons, ← ih]
    constructor
    · rintro ⟨⟨⟩, head, tail⟩
      exact ⟨head, tail⟩
    · rintro ⟨head, tail⟩
      exact ⟨(), head, tail⟩

variable {results : List β} {R : α → β → Prop}

/-- A mapping loop returns exactly when every item is mapped. -/
theorem mapM_ok :
    items.mapM f = .ok results ↔ List.Forall₂ (fun a b => f a = .ok b) items results := by
  induction items generalizing results with
  | nil =>
    simp [pure, Except.pure, eq_comm]
  | cons a items ih =>
    rw [List.mapM_cons, bind_ok, List.forall₂_cons_left_iff]
    constructor
    · rintro ⟨b, mapped, rest⟩
      obtain ⟨bs, tail, same⟩ := bind_ok.mp rest
      exact ⟨b, bs, mapped, ih.mp tail, (Except.ok.inj same).symm⟩
    · rintro ⟨b, bs, mapped, tail, rfl⟩
      exact ⟨b, mapped, bind_ok.mpr ⟨bs, ih.mpr tail, rfl⟩⟩

theorem exists_right_of_forall₂ (all : List.Forall₂ R items results) (held : a ∈ items) :
    ∃ b ∈ results, R a b := by
  induction all with
  | nil => cases held
  | @cons x y xs ys related _ ih =>
    rcases List.mem_cons.mp held with rfl | later
    · exact ⟨y, by simp, related⟩
    · obtain ⟨b, inRest, related⟩ := ih later
      exact ⟨b, List.mem_cons_of_mem y inRest, related⟩

theorem exists_left_of_forall₂ (all : List.Forall₂ R items results) (held : b ∈ results) :
    ∃ a ∈ items, R a b :=
  exists_right_of_forall₂ all.flip held

variable {final : σ} {step : σ → α → Except ε σ} {start : σ}

/-- What every step of a loop preserves holds at its end; the invariant may
name the items already consumed. -/
theorem foldlM_invariant (run : items.foldlM step start = .ok final) (invariant : List α → σ → Prop)
    (initial : invariant [] start)
    (preserved : ∀ seen item rest before after, items = seen ++ item :: rest →
      invariant seen before → step before item = .ok after →
      invariant (seen ++ [item]) after) : invariant items final := by
  have loop : ∀ rest seen state, items = seen ++ rest → invariant seen state →
      rest.foldlM step state = .ok final → invariant items final := by
    intro rest
    induction rest with
    | nil =>
      intro seen state split holds finished
      simp only [List.foldlM_nil, pure, Except.pure, Except.ok.injEq] at finished
      subst finished
      simpa [split] using holds
    | cons item rest ih =>
      intro seen state split holds finished
      obtain ⟨next, stepped, finished⟩ := bind_ok.mp finished
      exact ih (seen ++ [item]) next (by simpa using split)
        (preserved seen item rest state next split holds stepped) finished
  exact loop items [] start rfl initial run

/-- A loop whose steps all return under an invariant returns. -/
theorem foldlM_total (invariant : List α → σ → Prop) (initial : invariant [] start)
    (next : ∀ seen item rest before, items = seen ++ item :: rest → invariant seen before →
      ∃ after, step before item = .ok after ∧ invariant (seen ++ [item]) after) :
    ∃ final, items.foldlM step start = .ok final ∧ invariant items final := by
  have loop : ∀ rest seen state, items = seen ++ rest → invariant seen state →
      ∃ final, rest.foldlM step state = .ok final ∧ invariant items final := by
    intro rest
    induction rest with
    | nil =>
      intro seen state split holds
      exact ⟨state, rfl, by simpa [split] using holds⟩
    | cons item rest ih =>
      intro seen state split holds
      obtain ⟨after, stepped, kept⟩ := next seen item rest state split holds
      obtain ⟨final, finished, done⟩ := ih (seen ++ [item]) after (by simpa using split) kept
      exact ⟨final, by rw [List.foldlM_cons, stepped]; exact finished, done⟩
  exact loop items [] start rfl initial

/-- Steps that return whatever other steps return make a loop that does. -/
theorem foldlM_ok_of_imp {f g : σ → α → Except ε σ}
    (returns : ∀ a ∈ items, ∀ s s', f s a = .ok s' → g s a = .ok s')
    (ran : items.foldlM f start = .ok final) : items.foldlM g start = .ok final := by
  induction items generalizing start with
  | nil => exact ran
  | cons a items ih =>
    obtain ⟨next, step, rest⟩ := bind_ok.mp ran
    rw [List.forall_mem_cons] at returns
    exact bind_ok.mpr ⟨next, returns.1 start next step, ih returns.2 rest⟩

/-- A check in front of every step of a loop is a check of all the items. -/
theorem foldlM_guarded_ok :
    items.foldlM (fun state a => check a >>= fun _ => step state a) start = .ok final ↔
      (∀ a ∈ items, check a = .ok ()) ∧ items.foldlM step start = .ok final := by
  induction items generalizing start with
  | nil => simp
  | cons a items ih =>
    rw [List.foldlM_cons, List.foldlM_cons, List.forall_mem_cons]
    cases checked : check a with
    | error e => simp
    | ok u =>
      rw [ok_bind, bind_ok, bind_ok]
      simp only [ih, true_and, ← exists_and_left]
      exact exists_congr fun _ => and_left_comm

/-- A loop that checks each item and then updates its state is a check of all
the items and a pure fold. -/
theorem foldlM_checked_ok {update : σ → α → σ} :
    items.foldlM (fun state a => check a >>= fun _ => .ok (update state a)) start = .ok final ↔
      (∀ a ∈ items, check a = .ok ()) ∧ items.foldl update start = final := by
  induction items generalizing start with
  | nil => simp [pure, Except.pure]
  | cons a items ih =>
    rw [List.foldlM_cons, List.foldl_cons, List.forall_mem_cons]
    cases checked : check a with
    | error e => simp
    | ok u => simpa using ih

end Fallible
