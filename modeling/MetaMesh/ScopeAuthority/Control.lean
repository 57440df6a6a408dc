import MetaMesh.Authorization.Succession
import MetaMesh.ScopeAuthority.Records

/-!
# Control of a scope

The first loop of `validate_scope_authority_at`: from the creator on, exactly one pending
record hands control on from each epoch, until none is pending.  `controlRound_continues`
says what one round does.

`control_joined` is about two ledgers of one scope where the records of one are among
those of the other: the walk over their union passes the same controllers as the longer
one.  Only the revocations that come with a claim may differ between the two, and
`verified_union` says why joining them is harmless.
-/

namespace MetaMesh

open Fallible

/-- The controller of each epoch so far, and the records not yet used. -/
structure ControlState where
  controller : ScopeAuthority
  epoch : Nat
  controllers : Table Nat ScopeAuthority
  transfers : List ScopeControlTransfer
  successions : List ScopeSuccessionTransfer

section Walk

variable (P : Primitives) (scopeId : String) (nowMs : Int)

def controllerByTransfer (controller : ScopeAuthority) (nextEpoch : Nat)
    (transfer : ScopeControlTransfer) : Except String ScopeAuthority := do
  verifyScopeControlTransfer P transfer scopeId controller
  refuse (transfer.payload.toControlEpoch ≠ nextEpoch) "Scope control transfer epoch is invalid"
  .ok transfer.payload.toController

variable (controllers : Table Nat ScopeAuthority)

/-- Some controller so far signed the revocation. -/
def signedByController (revocation : WorkspaceRevocation) : Bool :=
  (controllers.orderedValues id).any fun signer =>
    signer.personId = revocation.payload.ownerPersonId &&
      (verifyWorkspaceRevocation P revocation scopeId signer.asOwner nowMs).isOk

def checkSuccessionRevocation (revocation : WorkspaceRevocation) : Except String Unit :=
  refuse (signedByController P scopeId nowMs controllers revocation = false)
    "Scope succession revocation has no authenticated owner signature"

def controllerBySuccession (controller : ScopeAuthority) (epoch : Nat)
    (transfer : ScopeSuccessionTransfer) : Except String ScopeAuthority := do
  let revokedPeople ← transfer.revocations.foldlM (fun revoked revocation =>
    checkSuccessionRevocation P scopeId nowMs controllers revocation >>= fun _ =>
      .ok (insert revocation.payload.personId revoked)) (∅ : Finset String)
  let claim := transfer.claim
  refuse (claim.payload.policy.payload.epoch ≠ epoch)
    "Succession policy epoch does not match scope control epoch"
  verifyWorkspaceSuccessionClaim P claim scopeId controller.asOwner epoch revokedPeople nowMs
  .ok ⟨claim.payload.toOwnerPersonId, claim.payload.toOwnerPublicKey,
    claim.payload.toOwnerCertificates⟩

namespace ControlState

def dueTransfers (state : ControlState) : List ScopeControlTransfer :=
  state.transfers.filter fun r => r.payload.fromControlEpoch = state.epoch

def dueSuccessions (state : ControlState) : List ScopeSuccessionTransfer :=
  state.successions.filter fun r => r.fromControlEpoch = state.epoch

/-- The next controller takes over.  One record was due, so removing it leaves the
records of other epochs. -/
def advance (state : ControlState) (controller : ScopeAuthority) : ControlState where
  controller := controller
  epoch := state.epoch + 1
  controllers := state.controllers.insert (state.epoch + 1) controller
  transfers := state.transfers.filter fun r => r.payload.fromControlEpoch ≠ state.epoch
  successions := state.successions.filter fun r => r.fromControlEpoch ≠ state.epoch

end ControlState

/-- The controller after the one record that is due. -/
def nextController (state : ControlState) (nextEpoch : Nat) : Except String ScopeAuthority :=
  match state.dueTransfers, state.dueSuccessions with
  | transfer :: _, _ => controllerByTransfer P scopeId state.controller nextEpoch transfer
  | [], transfer :: _ =>
    controllerBySuccession P scopeId nowMs state.controllers state.controller state.epoch transfer
  | [], [] => .error "Scope control chain is forked or has a gap"

/-- One epoch of the chain, or its end. -/
def controlRound (state : ControlState) : Except String (ControlState ⊕ ControlState) :=
  if state.transfers = [] ∧ state.successions = [] then .ok (.inr state)
  else do
    refuse (state.dueTransfers.length + state.dueSuccessions.length ≠ 1)
      "Scope control chain is forked or has a gap"
    let nextEpoch ← okOr (checkedAdd state.epoch 1) "Scope control epoch overflow"
    let controller ← nextController P scopeId nowMs state nextEpoch
    .ok (.inl (state.advance controller))

def controlStart (genesis : ScopeGenesisPayload) (snapshot : ScopeAuthoritySnapshot) :
    ControlState where
  controller := genesis.creator
  epoch := genesis.controlEpoch
  controllers := (∅ : Table Nat ScopeAuthority).insert genesis.controlEpoch genesis.creator
  transfers := snapshot.controlTransfers
  successions := snapshot.successionTransfers

/-- Every round uses a record, so the fuel never runs out. -/
def controlChain (state : ControlState) : Except String ControlState :=
  run "Scope control chain is forked or has a gap" (controlRound P scopeId nowMs)
    (state.transfers.length + state.successions.length + 1) state

end Walk

/-! ## What a round does -/

section Round

variable {P : Primitives} {scopeId : String} {nowMs : Int} {state next : ControlState}

variable (P scopeId nowMs) in
/-- The one record that is due hands control to the person. -/
inductive PassesControl (state : ControlState) (controller : ScopeAuthority) : Prop
  | transfer {t : ScopeControlTransfer} : state.dueTransfers = [t] → state.dueSuccessions = [] →
      controllerByTransfer P scopeId state.controller (state.epoch + 1) t = .ok controller →
      PassesControl state controller
  | succession {t : ScopeSuccessionTransfer} : state.dueTransfers = [] →
      state.dueSuccessions = [t] →
      controllerBySuccession P scopeId nowMs state.controllers state.controller state.epoch t =
        .ok controller →
      PassesControl state controller

theorem controlRound_leaves {result : ControlState} :
    controlRound P scopeId nowMs state = .ok (.inr result) ↔
      state.transfers = [] ∧ state.successions = [] ∧ result = state := by
  unfold controlRound
  split
  · next empty => simp [empty, eq_comm]
  · next pending =>
    refine ⟨fun ran => ?_, fun empty => absurd ⟨empty.1, empty.2.1⟩ pending⟩
    obtain ⟨_, ran⟩ := refuse_bind_ok.mp ran
    obtain ⟨_, _, ran⟩ := bind_ok.mp ran
    obtain ⟨_, _, ran⟩ := bind_ok.mp ran
    cases ran

theorem checkedAdd_one {n next : Nat} :
    checkedAdd n 1 = some next ↔ n + 1 < 2 ^ 64 ∧ next = n + 1 := by
  unfold checkedAdd
  by_cases bound : n + 1 < 2 ^ 64
  · rw [if_pos bound, Option.some.injEq]
    exact ⟨fun same => ⟨bound, same.symm⟩, fun ⟨_, same⟩ => same.symm⟩
  · rw [if_neg bound]
    exact ⟨fun found => (Option.some_ne_none _ found.symm).elim, fun ⟨below, _⟩ =>
      absurd below bound⟩

theorem controlRound_continues :
    controlRound P scopeId nowMs state = .ok (.inl next) ↔ state.epoch + 1 < 2 ^ 64 ∧
        ∃ controller, PassesControl P scopeId nowMs state controller ∧
          next = state.advance controller := by
  unfold controlRound
  constructor
  · intro ran
    split at ran
    · cases ran
    · obtain ⟨one, ran⟩ := refuse_bind_ok.mp ran
      obtain ⟨nextEpoch, added, ran⟩ := bind_ok.mp ran
      obtain ⟨bound, rfl⟩ := checkedAdd_one.mp (okOr_ok.mp added)
      obtain ⟨controller, handed, ran⟩ := bind_ok.mp ran
      obtain rfl := Sum.inl.inj (Except.ok.inj ran)
      refine ⟨bound, controller, ?_, rfl⟩
      unfold nextController at handed
      rcases transfers : state.dueTransfers with _ | ⟨t, ts⟩
      · rcases successions : state.dueSuccessions with _ | ⟨s, ss⟩
        · simp [transfers, successions] at one
        · obtain rfl : ss = [] := by simpa [transfers, successions] using one
          rw [transfers, successions] at handed
          exact .succession transfers successions handed
      · have alone : ts = [] ∧ state.dueSuccessions = [] := by
          simp only [transfers, List.length_cons, ne_eq, not_not] at one
          exact ⟨List.length_eq_zero_iff.mp (by omega), List.length_eq_zero_iff.mp (by omega)⟩
        obtain ⟨rfl, none⟩ := alone
        rw [transfers] at handed
        exact .transfer transfers none handed
  · rintro ⟨bound, controller, handsOver, rfl⟩
    have added : okOr (checkedAdd state.epoch 1) "Scope control epoch overflow" =
        Except.ok (state.epoch + 1) := okOr_ok.mpr (checkedAdd_one.mpr ⟨bound, rfl⟩)
    have pending : ¬ (state.transfers = [] ∧ state.successions = []) := by
      rintro ⟨noTransfer, noSuccession⟩
      cases handsOver with
      | transfer due => simp [ControlState.dueTransfers, noTransfer] at due
      | succession _ due => simp [ControlState.dueSuccessions, noSuccession] at due
    rw [if_neg pending, added]
    cases handsOver with
    | transfer transfers successions handed
    | succession transfers successions handed =>
      simp [nextController, transfers, successions, handed, refuse]

/-- Who takes over by a claim. -/
def ScopeSuccessionTransfer.claimant (t : ScopeSuccessionTransfer) : ScopeAuthority :=
  ⟨t.claim.payload.toOwnerPersonId, t.claim.payload.toOwnerPublicKey,
    t.claim.payload.toOwnerCertificates⟩

/-- The people revoked with a claim. -/
def ScopeSuccessionTransfer.revokedPeople (t : ScopeSuccessionTransfer) : Finset String :=
  (t.revocations.map fun r => r.payload.personId).toFinset

theorem controllerBySuccession_ok {controllers : Table Nat ScopeAuthority}
    {controller next : ScopeAuthority} {epoch : Nat} {t : ScopeSuccessionTransfer} :
    controllerBySuccession P scopeId nowMs controllers controller epoch t = .ok next ↔
      (∀ r ∈ t.revocations, signedByController P scopeId nowMs controllers r = true) ∧
        t.claim.payload.policy.payload.epoch = epoch ∧
        verifyWorkspaceSuccessionClaim P t.claim scopeId controller.asOwner epoch t.revokedPeople
          nowMs = .ok () ∧ next = t.claimant := by
  have people : t.revocations.foldl (fun revoked r => insert r.payload.personId revoked) ∅ =
      t.revokedPeople := Table.foldl_insert_empty
  constructor
  · intro ran
    obtain ⟨revoked, looped, ran⟩ := bind_ok.mp ran
    obtain ⟨signed, rfl⟩ := foldlM_checked_ok.mp looped
    obtain ⟨policy, ran⟩ := refuse_bind_ok.mp ran
    obtain ⟨_, verified, ran⟩ := bind_ok.mp ran
    rw [people] at verified
    refine ⟨fun r held => ?_, not_not.mp policy, verified, (Except.ok.inj ran).symm⟩
    simpa [checkSuccessionRevocation] using signed r held
  · rintro ⟨signed, policy, verified, rfl⟩
    refine bind_ok.mpr ⟨t.revokedPeople, foldlM_checked_ok.mpr ⟨fun r held => ?_, people⟩,
      refuse_bind_ok.mpr ⟨not_not.mpr policy, bind_ok.mpr ⟨(), verified, rfl⟩⟩⟩
    simpa [checkSuccessionRevocation] using signed r held

end Round

/-! ## Claims with the revocations of two ledgers -/

section Union

variable {P : Primitives} {p : WorkspaceSuccessionClaimPayload} {authority : WorkspaceAuthority}
  {left right : Finset String} {nowMs : Int}

theorem checkSuccessor_union (activeLeft : p.toOwnerPersonId ∉ left)
    (activeRight : p.toOwnerPersonId ∉ right)
    (checkedLeft : checkSuccessor P p authority left nowMs = .ok ())
    (checkedRight : checkSuccessor P p authority right nowMs = .ok ()) :
    checkSuccessor P p authority (left ∪ right) nowMs = .ok () := by
  rw [checkSuccessor_ok] at checkedLeft checkedRight ⊢
  have fewer : (p.policy.payload.eligibleEditorPersonIds.filter (· ∉ left ∪ right)).length ≤
      (p.policy.payload.eligibleEditorPersonIds.filter (· ∉ left)).length := by
    refine (List.monotone_filter_right _ fun person kept => ?_).length_le
    simp_all
  by_cases goneLeft : p.policy.payload.successorPersonId.all (· ∈ left) = true
  · by_cases goneRight : p.policy.payload.successorPersonId.all (· ∈ right) = true
    · rw [if_pos goneLeft] at checkedLeft
      rw [if_pos goneRight] at checkedRight
      have gone : p.policy.payload.successorPersonId.all (· ∈ left ∪ right) = true := by
        cases named : p.policy.payload.successorPersonId <;> simp_all
      rw [if_pos gone]
      obtain ⟨eligible, valid, active, distinct, quorum⟩ := checkedLeft
      refine ⟨eligible, valid, fun voter held => ?_, distinct, by omega⟩
      rw [Finset.mem_union, not_or]
      exact ⟨active voter held, checkedRight.2.2.1 voter held⟩
    -- the right ledger then takes the named successor, whom the left one revoked
    · rw [if_neg goneRight] at checkedRight
      rw [checkedRight, Option.all_some, decide_eq_true_eq] at goneLeft
      exact absurd goneLeft activeLeft
  · rw [if_neg goneLeft] at checkedLeft
    rw [if_neg (by simp [checkedLeft, activeLeft, activeRight]), checkedLeft]

/-- A claim that stands with the people each of two ledgers revoked stands with all of
them. -/
theorem verified_union {claim : WorkspaceSuccessionClaim} {workspaceId : String} {epoch : Nat}
    (verifiedLeft : verifyWorkspaceSuccessionClaim P claim workspaceId authority epoch left nowMs =
      .ok ())
    (verifiedRight : verifyWorkspaceSuccessionClaim P claim workspaceId authority epoch right
      nowMs = .ok ()) :
    verifyWorkspaceSuccessionClaim P claim workspaceId authority epoch (left ∪ right) nowMs =
      .ok () := by
  obtain ⟨activeLeft, checkedLeft, verifies⟩ := successor_of_verified verifiedLeft
  obtain ⟨activeRight, checkedRight, _⟩ := successor_of_verified verifiedRight
  refine verifies _ ?_ (checkSuccessor_union activeLeft activeRight checkedLeft checkedRight)
  rw [Finset.mem_union, not_or]
  exact ⟨activeLeft, activeRight⟩

end Union

/-! ## Runs -/

section Runs

variable {P : Primitives} {scopeId : String} {nowMs : Int}

variable (P scopeId nowMs) in
/-- Control handed on until no record is pending. -/
inductive ControlRun : ControlState → ControlState → Prop
  | done {state : ControlState} : state.transfers = [] → state.successions = [] →
      ControlRun state state
  | step {state final : ControlState} {controller : ScopeAuthority} :
      state.epoch + 1 < 2 ^ 64 → PassesControl P scopeId nowMs state controller →
      ControlRun (state.advance controller) final → ControlRun state final

variable {state final : ControlState}

/-- A round uses one record. -/
theorem PassesControl.length_advance {controller : ScopeAuthority}
    (handsOver : PassesControl P scopeId nowMs state controller) :
    (state.advance controller).transfers.length + (state.advance controller).successions.length +
      1 = state.transfers.length + state.successions.length := by
  have transfers := state.transfers.length_eq_length_filter_add
    fun r => decide (r.payload.fromControlEpoch = state.epoch)
  have successions := state.successions.length_eq_length_filter_add
    fun r => decide (r.fromControlEpoch = state.epoch)
  have one : state.dueTransfers.length + state.dueSuccessions.length = 1 := by
    cases handsOver with
    | transfer due none _ => simp [due, none]
    | succession none due _ => simp [due, none]
  simp only [ControlState.dueTransfers, ControlState.dueSuccessions] at one
  simp only [ControlState.advance, ne_eq, decide_not]
  omega

theorem controlChain_ok :
    controlChain P scopeId nowMs state = .ok final ↔ ControlRun P scopeId nowMs state final := by
  unfold controlChain
  generalize fuelled : state.transfers.length + state.successions.length + 1 = fuel
  induction fuel generalizing state with
  | zero => omega
  | succ fuel ih =>
    unfold run
    constructor
    · intro ran
      obtain ⟨outcome, round, rest⟩ := bind_ok.mp ran
      cases outcome with
      | inl next =>
        obtain ⟨bound, controller, handsOver, rfl⟩ := controlRound_continues.mp round
        have shorter := handsOver.length_advance
        exact .step bound handsOver ((ih (by omega)).mp rest)
      | inr result =>
        obtain ⟨noTransfers, noSuccessions, rfl⟩ := controlRound_leaves.mp round
        obtain rfl := Except.ok.inj rest
        exact .done noTransfers noSuccessions
    · intro ran
      cases ran with
      | done noTransfers noSuccessions =>
        rw [controlRound_leaves.mpr ⟨noTransfers, noSuccessions, rfl⟩]
        rfl
      | step bound handsOver rest =>
        have shorter := handsOver.length_advance
        rw [controlRound_continues.mpr ⟨bound, _, handsOver, rfl⟩]
        exact (ih (by omega)).mpr rest

/-- The walk has come as far, through the same controllers. -/
structure ControlState.SamePlace (a b : ControlState) : Prop where
  controller : a.controller = b.controller
  epoch : a.epoch = b.epoch
  controllers : a.controllers = b.controllers

theorem ControlState.SamePlace.advance {a b : ControlState} (same : a.SamePlace b)
    (c : ScopeAuthority) : (a.advance c).SamePlace (b.advance c) := by
  refine ⟨rfl, ?_, ?_⟩
  · simp [ControlState.advance, same.epoch]
  · simp [ControlState.advance, same.epoch, same.controllers]

/-- At most one record is due at a time, so the order of the records does not matter. -/
theorem ControlRun.perm {other : ControlState} (walked : ControlRun P scopeId nowMs state final)
    (same : other.SamePlace state) (transfers : other.transfers.Perm state.transfers)
    (successions : other.successions.Perm state.successions) :
    ∃ last, ControlRun P scopeId nowMs other last ∧ last.SamePlace final := by
  induction walked generalizing other with
  | done noTransfers noSuccessions =>
    rw [noTransfers, List.perm_nil] at transfers
    rw [noSuccessions, List.perm_nil] at successions
    exact ⟨other, .done transfers successions, same⟩
  | @step state final controller bound passes _ ih =>
    have epoch := same.epoch
    have dueT : other.dueTransfers.Perm state.dueTransfers := by
      rw [ControlState.dueTransfers, epoch]
      exact transfers.filter _
    have dueS : other.dueSuccessions.Perm state.dueSuccessions := by
      rw [ControlState.dueSuccessions, epoch]
      exact successions.filter _
    have passes' : PassesControl P scopeId nowMs other controller := by
      cases passes with
      | transfer one none taken =>
        rw [one, List.perm_singleton] at dueT
        rw [none, List.perm_nil] at dueS
        exact .transfer dueT dueS (by rwa [same.controller, epoch])
      | succession none one taken =>
        rw [none, List.perm_nil] at dueT
        rw [one, List.perm_singleton] at dueS
        exact .succession dueT dueS (by rwa [same.controller, epoch, same.controllers])
    obtain ⟨last, rest, place⟩ := ih (same.advance controller)
      (by simpa only [ControlState.advance, epoch] using transfers.filter _)
      (by simpa only [ControlState.advance, epoch] using successions.filter _)
    exact ⟨last, .step (epoch ▸ bound) passes' rest, place⟩

end Runs

/-! ## Two ledgers of one scope -/

section Join

variable {P : Primitives} {scopeId : String} {nowMs : Int}

/-- What a claim's transfer says apart from the revocations that come with it. -/
def ScopeSuccessionTransfer.key (t : ScopeSuccessionTransfer) : Nat × WorkspaceSuccessionClaim :=
  (t.fromControlEpoch, t.claim)

/-- The pending records of one ledger are among those of a longer one, and `union` holds
the records of both.  The walk over the shorter ledger is at the same place, or over. -/
structure Joins (short long union : ControlState) : Prop where
  place : union.SamePlace long
  transfers : union.transfers.Perm long.transfers
  claims : (union.successions.map ScopeSuccessionTransfer.key).Perm
    (long.successions.map ScopeSuccessionTransfer.key)
  revocations : ∀ u ∈ union.successions, ∀ r, r ∈ u.revocations ↔
    ∃ t, (t ∈ long.successions ∨ t ∈ short.successions) ∧ t.key = u.key ∧ r ∈ t.revocations
  inTransfers : ∀ t ∈ short.transfers, t ∈ long.transfers
  inClaims : ∀ t ∈ short.successions, ∃ u ∈ long.successions, u.key = t.key
  alongside : (short.transfers = [] ∧ short.successions = []) ∨ short.SamePlace long
  reached : ∀ e c, short.controllers.lookup e = some c → long.controllers.lookup e = some c
  past : ∀ e c, long.controllers.lookup e = some c → e ≤ long.epoch

variable {short long union : ControlState} {controller : ScopeAuthority} {state : ControlState}
  {t s : ScopeSuccessionTransfer} {former : ScopeAuthority}

theorem mem_dueTransfers {t : ScopeControlTransfer} :
    t ∈ state.dueTransfers ↔ t ∈ state.transfers ∧ t.payload.fromControlEpoch = state.epoch := by
  simp [ControlState.dueTransfers]

theorem mem_dueSuccessions :
    t ∈ state.dueSuccessions ↔ t ∈ state.successions ∧ t.fromControlEpoch = state.epoch := by
  simp [ControlState.dueSuccessions]

theorem controller_of_transfer {nextEpoch : Nat} {taken : ScopeAuthority} {t : ScopeControlTransfer}
    (handed : controllerByTransfer P scopeId former nextEpoch t = .ok taken) :
    taken = t.payload.toController := by
  obtain ⟨_, _, handed⟩ := bind_ok.mp handed
  obtain ⟨_, handed⟩ := refuse_bind_ok.mp handed
  exact (Except.ok.inj handed).symm

theorem epoch_of_key (key : s.key = t.key) : s.fromControlEpoch = t.fromControlEpoch :=
  congrArg Prod.fst key

theorem claimant_of_key (key : s.key = t.key) : s.claimant = t.claimant := by
  have claims : s.claim = t.claim := congrArg Prod.snd key
  unfold ScopeSuccessionTransfer.claimant
  rw [claims]

/-- A claim with the revocations of two transfers that both stand. -/
theorem controllerBySuccession_join {controllers : Table Nat ScopeAuthority} {next : ScopeAuthority}
    {epoch : Nat} {u : ScopeSuccessionTransfer}
    (handedS : controllerBySuccession P scopeId nowMs controllers former epoch s = .ok next)
    (handedT : controllerBySuccession P scopeId nowMs controllers former epoch t = .ok next)
    (keyT : t.key = s.key) (keyU : u.key = s.key)
    (revocations : ∀ r, r ∈ u.revocations ↔ r ∈ s.revocations ∨ r ∈ t.revocations) :
    controllerBySuccession P scopeId nowMs controllers former epoch u = .ok next := by
  obtain ⟨signedS, policy, verifiedS, taken⟩ := controllerBySuccession_ok.mp handedS
  obtain ⟨signedT, _, verifiedT, _⟩ := controllerBySuccession_ok.mp handedT
  have claimT : t.claim = s.claim := congrArg Prod.snd keyT
  have claimU : u.claim = s.claim := congrArg Prod.snd keyU
  have people : u.revokedPeople = s.revokedPeople ∪ t.revokedPeople := by
    ext person
    simp only [ScopeSuccessionTransfer.revokedPeople, List.mem_toFinset, List.mem_map,
      Finset.mem_union, revocations, or_and_right, exists_or]
  refine controllerBySuccession_ok.mpr ⟨fun r held => ?_, claimU ▸ policy, ?_,
    taken.trans (claimant_of_key keyU).symm⟩
  · rcases (revocations r).mp held with inS | inT
    · exact signedS r inS
    · exact signedT r inT
  · rw [claimT] at verifiedT
    rw [claimU, people]
    exact verified_union verifiedS verifiedT

theorem mem_advance_successions :
    t ∈ (state.advance controller).successions ↔
      t ∈ state.successions ∧ t.fromControlEpoch ≠ state.epoch := by
  simp [ControlState.advance]

namespace Joins

variable (joins : Joins short long union)
include joins

theorem dueTransfers_perm : union.dueTransfers.Perm long.dueTransfers := by
  unfold ControlState.dueTransfers
  rw [joins.place.epoch]
  exact joins.transfers.filter _

/-- The claims of an epoch, or of the others, are the same up to revocations. -/
theorem filter_claims_perm (test : Nat → Bool) :
    ((union.successions.filter fun t => test t.fromControlEpoch).map
        ScopeSuccessionTransfer.key).Perm
      ((long.successions.filter fun t => test t.fromControlEpoch).map
        ScopeSuccessionTransfer.key) := by
  have split : ∀ items : List ScopeSuccessionTransfer,
      (items.filter fun t => test t.fromControlEpoch).map ScopeSuccessionTransfer.key =
        (items.map ScopeSuccessionTransfer.key).filter fun k => test k.1 := by
    intro items
    rw [List.filter_map]
    rfl
  rw [split, split]
  exact joins.claims.filter _

theorem dueSuccessions_perm :
    (union.dueSuccessions.map ScopeSuccessionTransfer.key).Perm
      (long.dueSuccessions.map ScopeSuccessionTransfer.key) := by
  unfold ControlState.dueSuccessions
  rw [joins.place.epoch]
  exact joins.filter_claims_perm fun e => decide (e = long.epoch)

/-- What is due in the shorter ledger is due in the longer one. -/
theorem dueTransfer_long (same : short.epoch = long.epoch) {t : ScopeControlTransfer}
    (due : t ∈ short.dueTransfers) : t ∈ long.dueTransfers := by
  obtain ⟨pending, epoch⟩ := mem_dueTransfers.mp due
  exact mem_dueTransfers.mpr ⟨joins.inTransfers t pending, epoch.trans same⟩

theorem dueSuccession_long (same : short.epoch = long.epoch) (due : t ∈ short.dueSuccessions) :
    ∃ u ∈ long.dueSuccessions, u.key = t.key := by
  obtain ⟨pending, epoch⟩ := mem_dueSuccessions.mp due
  obtain ⟨u, held, key⟩ := joins.inClaims t pending
  exact ⟨u, mem_dueSuccessions.mpr ⟨held, ((epoch_of_key key).trans epoch).trans same⟩, key⟩

/-- The shorter ledger hands control to the same person. -/
theorem same_controller (same : short.SamePlace long) {other : ScopeAuthority}
    (handsOver : PassesControl P scopeId nowMs long controller)
    (shortOver : PassesControl P scopeId nowMs short other) : other = controller := by
  cases shortOver with
  | @transfer t due _ handed =>
    have dueLong := joins.dueTransfer_long same.epoch (due ▸ List.mem_singleton_self t)
    cases handsOver with
    | transfer one _ handedLong =>
      rw [one, List.mem_singleton] at dueLong
      subst dueLong
      rw [controller_of_transfer handed, controller_of_transfer handedLong]
    | succession none _ _ => simp [none] at dueLong
  | @succession t _ due handed =>
    obtain ⟨u, dueLong, key⟩ := joins.dueSuccession_long same.epoch
      (due ▸ List.mem_singleton_self t)
    cases handsOver with
    | transfer _ none _ => simp [none] at dueLong
    | succession _ one handedLong =>
      rw [one, List.mem_singleton] at dueLong
      subst dueLong
      rw [(controllerBySuccession_ok.mp handed).2.2.2,
        (controllerBySuccession_ok.mp handedLong).2.2.2, claimant_of_key key]

/-- The revocations that come with a due claim of the union: those of the longer ledger's
claim, and of the shorter one's if it has one. -/
theorem mem_due_revocations {u : ScopeSuccessionTransfer} (one : long.dueSuccessions = [s])
    (dueU : u ∈ union.dueSuccessions) (key : u.key = s.key) (r : WorkspaceRevocation) :
    r ∈ u.revocations ↔ r ∈ s.revocations ∨
      ∃ t ∈ short.successions, t.key = s.key ∧ r ∈ t.revocations := by
  have dueS : s ∈ long.dueSuccessions := one ▸ List.mem_singleton_self s
  obtain ⟨heldS, epochS⟩ := mem_dueSuccessions.mp dueS
  rw [joins.revocations u (mem_dueSuccessions.mp dueU).1, key]
  constructor
  · rintro ⟨t, inLong | inShort, keyT, held⟩
    · have dueT := mem_dueSuccessions.mpr ⟨inLong, (epoch_of_key keyT).trans epochS⟩
      rw [one, List.mem_singleton] at dueT
      exact .inl (dueT ▸ held)
    · exact .inr ⟨t, inShort, keyT, held⟩
  · rintro (held | ⟨t, inShort, keyT, held⟩)
    · exact ⟨s, .inl heldS, rfl, held⟩
    · exact ⟨t, .inr inShort, keyT, held⟩

/-- The union hands control to the same person. -/
theorem handsOver_union (handsOver : PassesControl P scopeId nowMs long controller)
    (along : (short.transfers = [] ∧ short.successions = []) ∨
      short.SamePlace long ∧ PassesControl P scopeId nowMs short controller) :
    PassesControl P scopeId nowMs union controller := by
  have transfers := joins.dueTransfers_perm
  have successions := joins.dueSuccessions_perm
  have place := joins.place
  cases handsOver with
  | @transfer t one none handed =>
    rw [one, List.perm_singleton] at transfers
    rw [none, List.map_nil, List.perm_nil, List.map_eq_nil_iff] at successions
    refine .transfer transfers successions ?_
    rw [place.controller, place.epoch]
    exact handed
  | @succession s none one handed =>
    rw [none, List.perm_nil] at transfers
    rw [one, List.map_singleton, List.perm_singleton, List.map_eq_singleton_iff] at successions
    obtain ⟨u, oneU, key⟩ := successions
    have revocations := joins.mem_due_revocations one (oneU ▸ List.mem_singleton_self u) key
    refine .succession transfers oneU ?_
    rw [place.controller, place.epoch, place.controllers]
    rcases along with ⟨_, noClaims⟩ | ⟨same, shortOver⟩
    · refine controllerBySuccession_join handed handed rfl key fun r => ?_
      simp [revocations r, noClaims]
    · cases shortOver with
      | @transfer t due _ _ =>
        have dueLong := joins.dueTransfer_long same.epoch (due ▸ List.mem_singleton_self t)
        simp [none] at dueLong
      | @succession t _ oneT handedT =>
        have dueT : t ∈ short.dueSuccessions := oneT ▸ List.mem_singleton_self t
        obtain ⟨s', dueLong, keyT⟩ := joins.dueSuccession_long same.epoch dueT
        rw [one, List.mem_singleton] at dueLong
        subst dueLong
        rw [same.controller, same.epoch, same.controllers] at handedT
        refine controllerBySuccession_join handed handedT keyT.symm key fun r => ?_
        rw [revocations r]
        refine or_congr_right ⟨fun ⟨t', held, keyT', inT'⟩ => ?_, fun inT =>
          ⟨t, (mem_dueSuccessions.mp dueT).1, keyT.symm, inT⟩⟩
        have epochs := epoch_of_key (keyT'.trans keyT)
        have dueT' := mem_dueSuccessions.mpr ⟨held, epochs.trans (mem_dueSuccessions.mp dueT).2⟩
        rw [oneT, List.mem_singleton] at dueT'
        exact dueT' ▸ inT'

/-- The records that stay pending join as before, whatever the shorter walk does. -/
theorem advance (controller : ScopeAuthority) {rest : ControlState}
    (transfers : ∀ t, t ∈ rest.transfers ↔
      t ∈ short.transfers ∧ t.payload.fromControlEpoch ≠ long.epoch)
    (successions : ∀ t, t ∈ rest.successions ↔
      t ∈ short.successions ∧ t.fromControlEpoch ≠ long.epoch)
    (alongside : (rest.transfers = [] ∧ rest.successions = []) ∨
      rest.SamePlace (long.advance controller))
    (reached : ∀ e c, rest.controllers.lookup e = some c →
      (long.advance controller).controllers.lookup e = some c) :
    Joins rest (long.advance controller) (union.advance controller) := by
  have epoch := joins.place.epoch
  refine ⟨joins.place.advance controller, ?_, ?_, ?_, ?_, ?_, alongside, reached, ?_⟩
  · simp only [ControlState.advance, epoch]
    exact joins.transfers.filter _
  · simp only [ControlState.advance, epoch]
    exact joins.filter_claims_perm fun e => decide (e ≠ long.epoch)
  · intro u heldU r
    obtain ⟨inUnion, later⟩ := mem_advance_successions.mp heldU
    have sameEpoch : ∀ t : ScopeSuccessionTransfer, t.key = u.key →
        t.fromControlEpoch ≠ long.epoch := by
      intro t key
      rw [epoch_of_key key, ← epoch]
      exact later
    rw [joins.revocations u inUnion]
    refine exists_congr fun t => ?_
    rw [mem_advance_successions, successions]
    constructor
    · rintro ⟨held, key, inT⟩
      exact ⟨held.imp (fun held => ⟨held, sameEpoch t key⟩) fun held => ⟨held, sameEpoch t key⟩,
        key, inT⟩
    · rintro ⟨held, key, inT⟩
      exact ⟨held.imp And.left And.left, key, inT⟩
  · intro t held
    obtain ⟨inShort, later⟩ := (transfers t).mp held
    exact List.mem_filter.mpr ⟨joins.inTransfers t inShort, by simpa using later⟩
  · intro t held
    obtain ⟨inShort, later⟩ := (successions t).mp held
    obtain ⟨u, inLong, key⟩ := joins.inClaims t inShort
    exact ⟨u, mem_advance_successions.mpr ⟨inLong, epoch_of_key key ▸ later⟩, key⟩
  · intro e c found
    simp only [ControlState.advance, Table.lookup_insert_ite] at found ⊢
    split at found
    · omega
    · have := joins.past e c found
      omega

theorem advance_over (controller : ScopeAuthority) (noTransfers : short.transfers = [])
    (noSuccessions : short.successions = []) :
    Joins short (long.advance controller) (union.advance controller) := by
  refine joins.advance controller (by simp [noTransfers]) (by simp [noSuccessions])
    (.inl ⟨noTransfers, noSuccessions⟩) ?_
  intro e c found
  have inLong := joins.reached e c found
  have before := joins.past e c inLong
  simp only [ControlState.advance, Table.lookup_insert_ite]
  rw [if_neg (by omega)]
  exact inLong

theorem advance_both (controller : ScopeAuthority) (same : short.SamePlace long) :
    Joins (short.advance controller) (long.advance controller) (union.advance controller) := by
  have place := same.advance controller
  refine joins.advance controller ?_ ?_ (.inr place) fun e c found => place.controllers ▸ found
  · simp [ControlState.advance, same.epoch]
  · simp [ControlState.advance, same.epoch]

end Joins

/-- The union of two ledgers, of which one has the records of the other, has the
controllers of the longer one, and those of the shorter one are among them. -/
theorem control_joined {shortEnd longEnd : ControlState} (joins : Joins short long union)
    (shortRun : ControlRun P scopeId nowMs short shortEnd)
    (longRun : ControlRun P scopeId nowMs long longEnd) :
    (∃ unionEnd, ControlRun P scopeId nowMs union unionEnd ∧ unionEnd.SamePlace longEnd) ∧
      ∀ e c, shortEnd.controllers.lookup e = some c → longEnd.controllers.lookup e = some c := by
  induction longRun generalizing short union with
  | @done long noTransfers noSuccessions =>
    have noUnionTransfers := List.perm_nil.mp (noTransfers ▸ joins.transfers)
    have noUnionClaims : union.successions = [] := by
      have claims := joins.claims
      rw [noSuccessions, List.map_nil, List.perm_nil, List.map_eq_nil_iff] at claims
      exact claims
    refine ⟨⟨union, .done noUnionTransfers noUnionClaims, joins.place⟩, ?_⟩
    cases shortRun with
    | done _ _ => exact joins.reached
    | step _ handsOver _ =>
      -- a record due in the shorter ledger would be pending in the longer one
      cases handsOver with
      | @transfer t due _ _ =>
        have held := (mem_dueTransfers.mp (due ▸ List.mem_singleton_self t)).1
        have inLong := joins.inTransfers t held
        simp [noTransfers] at inLong
      | @succession t _ due _ =>
        have held := (mem_dueSuccessions.mp (due ▸ List.mem_singleton_self t)).1
        obtain ⟨u, inLong, _⟩ := joins.inClaims t held
        simp [noSuccessions] at inLong
  | @step long longEnd controller bound handsOver _ ih =>
    have unionBound : union.epoch + 1 < 2 ^ 64 := joins.place.epoch ▸ bound
    cases shortRun with
    | done noTransfers noSuccessions =>
      have unionOver := joins.handsOver_union handsOver (.inl ⟨noTransfers, noSuccessions⟩)
      obtain ⟨⟨unionEnd, unionRun, same⟩, reached⟩ :=
        ih (joins.advance_over controller noTransfers noSuccessions)
          (.done noTransfers noSuccessions)
      exact ⟨⟨unionEnd, .step unionBound unionOver unionRun, same⟩, reached⟩
    | @step _ _ other shortBound shortOver shortRest =>
      have place : short.SamePlace long := by
        refine joins.alongside.resolve_left ?_
        rintro ⟨noTransfers, noSuccessions⟩
        cases shortOver with
        | transfer due _ _ => simp [ControlState.dueTransfers, noTransfers] at due
        | succession _ due _ => simp [ControlState.dueSuccessions, noSuccessions] at due
      obtain rfl := joins.same_controller place handsOver shortOver
      have unionOver := joins.handsOver_union handsOver (.inr ⟨place, shortOver⟩)
      obtain ⟨⟨unionEnd, unionRun, same⟩, reached⟩ :=
        ih (joins.advance_both other place) shortRest
      exact ⟨⟨unionEnd, .step unionBound unionOver unionRun, same⟩, reached⟩

end Join

end MetaMesh
