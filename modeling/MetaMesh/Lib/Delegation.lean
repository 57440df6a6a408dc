import MetaMesh.Lib.Loop

/-!
# Delegated grants

A grant gives its subject capabilities.  It is backed if it comes from a root, or if its
issuer holds, through other grants, the right to issue and every capability it gives.

`Chain` lists grants so that each is backed by the ones before it, which rules out grants
that back each other in a circle; `Supported` says that such a chain leads to a person.
`sift` is the loop that finds a chain: it takes the first backed grant among those
pending until none is left.  `sift_sound` and `sift_total` say that it takes every grant
exactly if every grant is derivable, in whatever order they come.
-/

namespace Delegation

open Fallible

/-- How to read a grant. -/
structure Rules (γ π κ : Type) where
  subject : γ → π
  issuer : γ → π
  capabilities : γ → List κ
  /-- The capabilities with which a person may issue grants. -/
  delegates : κ → Prop
  /-- Grants that need no backing. -/
  root : γ → Prop

namespace Rules

variable {γ π κ : Type} (R : Rules γ π κ) (grants : List γ)

def Holds (p : π) (c : κ) : Prop :=
  ∃ g ∈ grants, R.subject g = p ∧ c ∈ R.capabilities g

def Backed (g : γ) : Prop :=
  R.root g ∨ (∃ c, R.delegates c ∧ R.Holds grants (R.issuer g) c) ∧
    ∀ c ∈ R.capabilities g, R.Holds grants (R.issuer g) c

/-- Each grant is backed by the ones before it. -/
inductive Chain : List γ → Prop
  | nil : Chain []
  | snoc {links : List γ} {g : γ} : Chain links → R.Backed links g → Chain (links ++ [g])

/-- A capability handed on from a root, each grant issued by the subject of the last. -/
inductive Spine (c : κ) : List γ → π → Prop
  | root {g : γ} : R.root g → c ∈ R.capabilities g → Spine c [g] (R.subject g)
  | step {spine : List γ} {g : γ} : Spine c spine (R.issuer g) → c ∈ R.capabilities g →
      Spine c (spine ++ [g]) (R.subject g)

/-- A grant that a chain of the given grants backs. -/
def Derivable (g : γ) : Prop :=
  ∃ links, R.Chain links ∧ (∀ h ∈ links, h ∈ grants) ∧ R.Backed links g

/-- A chain of the given grants with the capability handed on along it to the person. -/
def Supported (p : π) (c : κ) : Prop :=
  ∃ links spine, R.Chain links ∧ (∀ h ∈ links, h ∈ grants) ∧ spine.Sublist links ∧
    R.Spine c spine p

variable {R} {grants kept links : List γ} {g : γ} {p : π} {c : κ}

theorem Holds.mono (held : R.Holds links p c) (inside : ∀ h ∈ links, h ∈ grants) :
    R.Holds grants p c := by
  obtain ⟨h, inLinks, reaches⟩ := held
  exact ⟨h, inside h inLinks, reaches⟩

theorem Backed.mono (backed : R.Backed links g) (inside : ∀ h ∈ links, h ∈ grants) :
    R.Backed grants g := by
  rcases backed with root | ⟨⟨d, delegates, held⟩, covers⟩
  · exact .inl root
  · exact .inr ⟨⟨d, delegates, held.mono inside⟩, fun c gives => (covers c gives).mono inside⟩

theorem Derivable.mono {more : List γ} (derivable : R.Derivable grants g)
    (inside : ∀ h ∈ grants, h ∈ more) : R.Derivable more g := by
  obtain ⟨links, chain, inGrants, backed⟩ := derivable
  exact ⟨links, chain, fun h held => inside h (inGrants h held), backed⟩

theorem Chain.of_snoc (chain : R.Chain (links ++ [g])) : R.Chain links ∧ R.Backed links g := by
  generalize whole : links ++ [g] = all at chain
  cases chain with
  | nil => simp at whole
  | snoc earlier backed =>
    obtain ⟨rfl, last⟩ := List.append_inj' whole rfl
    obtain rfl := List.singleton_inj.mp last
    exact ⟨earlier, backed⟩

/-- What holds every grant that it backs holds every chain. -/
theorem Chain.inside (chain : R.Chain links) (inGrants : ∀ h ∈ links, h ∈ grants)
    (closed : ∀ h ∈ grants, R.Backed kept h → h ∈ kept) : ∀ h ∈ links, h ∈ kept := by
  induction chain with
  | nil => exact fun h held => absurd held List.not_mem_nil
  | @snoc links g _ backed ih =>
    have earlier := ih fun h held => inGrants h (List.mem_append_left _ held)
    intro h held
    rcases List.mem_append.mp held with before | last
    · exact earlier h before
    · obtain rfl := List.mem_singleton.mp last
      exact closed h (inGrants h held) (backed.mono earlier)

theorem Derivable.backed (derivable : R.Derivable grants g)
    (closed : ∀ h ∈ grants, R.Backed kept h → h ∈ kept) : R.Backed kept g := by
  obtain ⟨links, chain, inGrants, backed⟩ := derivable
  exact backed.mono (chain.inside inGrants closed)

theorem Spine.last {spine : List γ} (handed : R.Spine c spine p) :
    ∃ g ∈ spine, R.subject g = p ∧ c ∈ R.capabilities g := by
  cases handed with
  | root _ gives => exact ⟨_, List.mem_singleton_self _, rfl, gives⟩
  | step _ gives => exact ⟨_, List.mem_append_right _ (List.mem_singleton_self _), rfl, gives⟩

/-- Along a chain every capability of a grant was handed on from a root. -/
theorem Chain.exists_spine (chain : R.Chain links) (held : g ∈ links)
    (gives : c ∈ R.capabilities g) :
    ∃ spine, spine.Sublist links ∧ R.Spine c spine (R.subject g) := by
  induction chain generalizing g with
  | nil => exact absurd held List.not_mem_nil
  | @snoc links last _ backed ih =>
    rcases List.mem_append.mp held with before | here
    · obtain ⟨spine, inside, handed⟩ := ih before gives
      exact ⟨spine, inside.trans (List.sublist_append_left _ _), handed⟩
    · obtain rfl := List.mem_singleton.mp here
      rcases backed with root | ⟨_, covers⟩
      · exact ⟨[g], List.sublist_append_right _ _, .root root gives⟩
      · obtain ⟨h, before, same, givesToo⟩ := covers c gives
        obtain ⟨spine, inside, handed⟩ := ih before givesToo
        exact ⟨spine ++ [g], inside.append (List.Sublist.refl _), .step (same ▸ handed) gives⟩

theorem Chain.supported (chain : R.Chain kept) (inGrants : ∀ h ∈ kept, h ∈ grants)
    (held : R.Holds kept p c) : R.Supported grants p c := by
  obtain ⟨g, inKept, rfl, gives⟩ := held
  obtain ⟨spine, inside, handed⟩ := chain.exists_spine inKept gives
  exact ⟨kept, spine, chain, inGrants, inside, handed⟩

theorem Supported.holds (supported : R.Supported grants p c)
    (closed : ∀ h ∈ grants, R.Backed kept h → h ∈ kept) : R.Holds kept p c := by
  obtain ⟨links, spine, chain, inGrants, inside, handed⟩ := supported
  obtain ⟨g, inSpine, reaches⟩ := handed.last
  exact ⟨g, chain.inside inGrants closed g (inside.subset inSpine), reaches⟩

end Rules

/-! ## The loop that finds a chain -/

section Sift

variable {ε γ : Type}

/-- The first item the test takes, and the others. -/
def takeFirst (test : γ → Except ε Bool) : List γ → Except ε (Option (γ × List γ))
  | [] => .ok none
  | g :: rest => do
      if ← test g then .ok (some (g, rest))
      else
        let found ← takeFirst test rest
        .ok (found.map fun (taken, others) => (taken, g :: others))

variable {test : γ → Except ε Bool} {pending rest kept : List γ}

theorem takeFirst_some {g : γ} (found : takeFirst test pending = .ok (some (g, rest))) :
    test g = .ok true ∧ pending.Perm (g :: rest) := by
  induction pending generalizing rest with
  | nil => cases found
  | cons first pending ih =>
    obtain ⟨taken, tested, found⟩ := bind_ok.mp found
    cases taken with
    | true =>
      obtain ⟨rfl, rfl⟩ := found
      exact ⟨tested, .refl _⟩
    | false =>
      obtain ⟨later, foundLater, mapped⟩ := bind_ok.mp found
      cases later with
      | none => simp at mapped
      | some pair =>
        obtain ⟨rfl, rfl⟩ := mapped
        obtain ⟨passed, perm⟩ := ih foundLater
        exact ⟨passed, (perm.cons first).trans (List.Perm.swap _ _ _)⟩

theorem takeFirst_none (found : takeFirst test pending = .ok none) :
    ∀ g ∈ pending, test g = .ok false := by
  induction pending with
  | nil => exact fun g held => absurd held List.not_mem_nil
  | cons first pending ih =>
    obtain ⟨taken, tested, found⟩ := bind_ok.mp found
    cases taken with
    | true => simp at found
    | false =>
      obtain ⟨later, foundLater, mapped⟩ := bind_ok.mp found
      cases later with
      | none => exact List.forall_mem_cons.mpr ⟨tested, ih foundLater⟩
      | some pair => simp at mapped

theorem exists_takeFirst (tested : ∀ g ∈ pending, ∃ taken, test g = .ok taken) :
    ∃ found, takeFirst test pending = .ok found := by
  induction pending with
  | nil => exact ⟨none, rfl⟩
  | cons first pending ih =>
    obtain ⟨⟨taken, here⟩, later⟩ := List.forall_mem_cons.mp tested
    obtain ⟨found, foundLater⟩ := ih later
    cases taken with
    | true => exact ⟨_, by rw [takeFirst, here]; rfl⟩
    | false => exact ⟨_, by rw [takeFirst, here, foundLater]; rfl⟩

variable (stuck : ε) (test : List γ → γ → Except ε Bool) (live : γ → Bool)

/-- One round: the first pending item the test takes; it counts if it is live. -/
def siftRound : List γ × List γ → Except ε ((List γ × List γ) ⊕ List γ)
  | ([], kept) => .ok (.inr kept)
  | (pending, kept) => do
      match ← takeFirst (test kept) pending with
      | none => .error stuck
      | some (g, rest) => .ok (.inl (rest, if live g then kept ++ [g] else kept))

/-- A round takes one of the pending items, so the fuel never runs out. -/
def sift (pending : List γ) : Except ε (List γ) :=
  run stuck (siftRound stuck test live) (pending.length + 1) (pending, [])

/-- More fuel changes nothing, whatever the error for too little. -/
theorem sift_ends {late : ε} {fuel : Nat} (enough : pending.length < fuel) :
    run late (siftRound stuck test live) fuel (pending, []) = sift stuck test live pending := by
  refine run_ends (fun state => state.1.length) ?_ enough (Nat.lt_succ_self _)
  rintro ⟨_ | ⟨first, pending⟩, kept⟩ next ran
  · cases ran
  · obtain ⟨found, took, ran⟩ := bind_ok.mp ran
    cases found with
    | none => cases ran
    | some pair =>
      obtain rfl := Sum.inl.inj (Except.ok.inj ran)
      rw [(takeFirst_some took).2.length_eq]
      exact Nat.lt_succ_self _

variable {stuck test live} {π κ : Type} {R : Rules γ π κ} {sound : γ → Prop} {grants : List γ}

/-- What is kept is a chain, and what is no longer pending is backed by it. -/
structure Sifted (R : Rules γ π κ) (live : γ → Bool) (sound : γ → Prop) (grants : List γ)
    (pending kept : List γ) : Prop where
  chain : R.Chain kept
  counted : ∀ g ∈ kept, g ∈ grants ∧ live g = true
  inGrants : ∀ g ∈ pending, g ∈ grants
  taken : ∀ g ∈ grants, g ∈ pending ∨ (sound g ∧ R.Backed kept g ∧ (live g = true → g ∈ kept))

theorem Sifted.take {g : γ} (sifted : Sifted R live sound grants pending kept)
    (removed : pending.Perm (g :: rest)) (good : sound g) (backed : R.Backed kept g) :
    Sifted R live sound grants rest (if live g then kept ++ [g] else kept) := by
  have pendingG : g ∈ pending := removed.mem_iff.mpr List.mem_cons_self
  have more : ∀ h ∈ kept, h ∈ if live g then kept ++ [g] else kept := by
    intro h held
    split
    · exact List.mem_append_left _ held
    · exact held
  refine ⟨?_, ?_, fun h held => sifted.inGrants h (removed.mem_iff.mpr
    (List.mem_cons_of_mem _ held)), ?_⟩
  · split
    · exact sifted.chain.snoc backed
    · exact sifted.chain
  · intro h held
    split at held
    · next alive =>
      rcases List.mem_append.mp held with before | last
      · exact sifted.counted h before
      · rw [List.mem_singleton.mp last]
        exact ⟨sifted.inGrants g pendingG, alive⟩
    · exact sifted.counted h held
  · intro h inGrants
    rcases sifted.taken h inGrants with still | ⟨goodH, backedH, keptH⟩
    · rcases List.mem_cons.mp (removed.mem_iff.mp still) with rfl | later
      · refine .inr ⟨good, backed.mono more, fun alive => ?_⟩
        rw [if_pos alive]
        exact List.mem_append_right _ (List.mem_singleton_self _)
      · exact .inl later
    · exact .inr ⟨goodH, backedH.mono more, fun alive => more h (keptH alive)⟩

/-- What the loop keeps is a chain of the live grants that backs every grant. -/
theorem sift_sound (takes : ∀ kept g, (∀ h ∈ kept, live h = true) → test kept g = .ok true →
      sound g ∧ R.Backed kept g) (returned : sift stuck test live grants = .ok kept) :
    Sifted R live sound grants [] kept := by
  refine run_invariant returned (fun state => Sifted R live sound grants state.1 state.2) _
    ⟨.nil, by simp, fun g held => held, fun g held => .inl held⟩ ?_ ?_
  · intro state next sifted ran
    rcases state with ⟨_ | ⟨first, pending⟩, kept⟩
    · cases ran
    · obtain ⟨found, took, ran⟩ := bind_ok.mp ran
      cases found with
      | none => cases ran
      | some pair =>
        obtain ⟨passed, removed⟩ := takeFirst_some took
        obtain ⟨good, backed⟩ := takes kept pair.1 (fun h held => (sifted.counted h held).2) passed
        obtain rfl := Sum.inl.inj (Except.ok.inj ran)
        exact sifted.take removed good backed
  · intro state result sifted ran
    rcases state with ⟨_ | ⟨first, pending⟩, kept⟩
    · obtain rfl := Sum.inr.inj (Except.ok.inj ran)
      exact sifted
    · obtain ⟨found, _, ran⟩ := bind_ok.mp ran
      cases found <;> cases ran

/-- The loop ends with all grants taken if all of them are derivable. -/
theorem sift_total (decides : ∀ kept g, (∀ h ∈ kept, live h = true) → sound g →
      ∃ taken, test kept g = .ok taken ∧ (taken = true ↔ R.Backed kept g))
    (good : ∀ g ∈ grants, sound g)
    (derivable : ∀ g ∈ grants, R.Derivable (grants.filter fun h => live h) g) :
    ∃ kept, sift stuck test live grants = .ok kept := by
  refine run_spec (fun state => Sifted R live sound grants state.1 state.2)
    (fun state => state.1.length) (fun outcome => ∃ kept, outcome = .ok kept) ?_
    ⟨.nil, by simp, fun g held => held, fun g held => .inl held⟩ (Nat.lt_succ_self _)
  intro state sifted
  rcases state with ⟨_ | ⟨first, pending⟩, kept⟩
  · exact ⟨kept, rfl⟩
  · have alive : ∀ h ∈ kept, live h = true := fun h held => (sifted.counted h held).2
    have decided : ∀ g ∈ first :: pending,
        ∃ taken, test kept g = .ok taken ∧ (taken = true ↔ R.Backed kept g) :=
      fun g held => decides kept g alive (good g (sifted.inGrants g held))
    obtain ⟨found, took⟩ := exists_takeFirst
      fun g held => (decided g held).imp fun _ decision => decision.1
    cases found with
    | none =>
      -- the loop is stuck, so what it keeps is closed and backs the first grant
      have refused : ∀ g ∈ first :: pending, ¬ R.Backed kept g := by
        intro g held backed
        obtain ⟨taken, tested, iff⟩ := decided g held
        rw [takeFirst_none took g held, Except.ok.injEq] at tested
        exact absurd (iff.mpr backed) (by simp [← tested])
      have closed : ∀ h ∈ grants.filter fun h => live h, R.Backed kept h → h ∈ kept := by
        intro h held backed
        obtain ⟨inGrants, liveH⟩ := List.mem_filter.mp held
        rcases sifted.taken h inGrants with still | ⟨_, _, keptH⟩
        · exact absurd backed (refused h still)
        · exact keptH liveH
      have first_backed := (derivable first
        (sifted.inGrants first List.mem_cons_self)).backed closed
      exact absurd first_backed (refused first List.mem_cons_self)
    | some pair =>
      obtain ⟨passed, removed⟩ := takeFirst_some took
      have held : pair.1 ∈ first :: pending := removed.mem_iff.mpr List.mem_cons_self
      obtain ⟨taken, tested, iff⟩ := decided pair.1 held
      rw [passed, Except.ok.injEq] at tested
      have next := sifted.take removed (good _ (sifted.inGrants _ held)) (iff.mp tested.symm)
      have shorter : pair.2.length < (first :: pending).length := by
        rw [removed.length_eq]
        exact Nat.lt_succ_self _
      have ran : siftRound stuck test live (first :: pending, kept) =
          .ok (.inl (pair.2, if live pair.1 then kept ++ [pair.1] else kept)) := by
        rw [siftRound, took]
        · rfl
        · simp
      rw [ran]
      exact ⟨next, shorter⟩

end Sift

end Delegation
