import Mathlib.Data.List.Destutter
import MetaMesh.Lib.Delegation
import MetaMesh.ScopeAuthority.Control

/-!
# Validating a scope's ledger

`validate_scope_authority_at` of `scope_authority.rs`.  After the control chain it reads
the revocations and the evidence of who issued which grant, and then takes the grants one
by one: each has to be signed by its issuer, and to come from the controller of its epoch
or from somebody who holds what it gives and the right to give it.

`validate_sound` and `validate_total` say what the last loop comes to: every grant is
derivable from the unrevoked ones.  So every capability it reports is one that was handed
on from a controller (`capabilities_are_delegated`), and a revocation is fatal for a
ledger in which some grant was derivable only through the revoked one
(`revocation_breaks_ledger`, `capability_revocation_accepted`).
-/

namespace MetaMesh

open Fallible Delegation

/-! ## Capabilities -/

/-- `sort_by_key(capability_rank)`, then `dedup`. -/
def sortedCapabilities (capabilities : List ScopeCapability) : List ScopeCapability :=
  (sortBy ScopeCapability.rank capabilities).destutter (· ≠ ·)

theorem mem_destutter'_ne {α : Type} [DecidableEq α] {a b : α} {items : List α} :
    b ∈ items.destutter' (· ≠ ·) a ↔ b = a ∨ b ∈ items := by
  induction items generalizing a with
  | nil => simp
  | cons first items ih =>
    rw [List.destutter'_cons]
    split
    · rw [List.mem_cons, ih, List.mem_cons]
    · next same =>
      obtain rfl := not_not.mp same
      rw [ih, List.mem_cons]
      tauto

@[simp] theorem mem_sortedCapabilities {c : ScopeCapability} {capabilities : List ScopeCapability} :
    c ∈ sortedCapabilities capabilities ↔ c ∈ capabilities := by
  unfold sortedCapabilities
  refine Iff.trans ?_ (mem_sortBy ScopeCapability.rank)
  cases sortBy ScopeCapability.rank capabilities with
  | nil => simp
  | cons first rest => rw [List.destutter_cons', mem_destutter'_ne, List.mem_cons]

/-- What unrevoked grants give a person. -/
def effectiveCapabilities (grants : List ScopeCapabilityGrant) (revoked : Finset String)
    (personId : String) : List ScopeCapability :=
  sortedCapabilities ((grants.filter fun g =>
    g.payload.grantId ∉ revoked ∧ g.payload.subjectPersonId = personId).flatMap
      fun g => g.payload.capabilities)

def baseControllerCapabilities : List ScopeCapability :=
  [.read, .write, .invite, .manageMembers, .grant, .control]

/-- The controller of a scope, and the grants that count. -/
structure ValidatedScopeAuthority where
  scopeId : String
  creator : ScopeAuthority
  controller : ScopeAuthority
  controlEpoch : Nat
  grants : List ScopeCapabilityGrant
deriving DecidableEq, Repr

def ValidatedScopeAuthority.capabilitiesFor (v : ValidatedScopeAuthority) (personId : String) :
    List ScopeCapability :=
  if v.controller.personId = personId then baseControllerCapabilities
  else sortedCapabilities ((v.grants.filter fun g => g.payload.subjectPersonId = personId).flatMap
    fun g => g.payload.capabilities)

/-! ## The validator -/

section Validate

variable (P : Primitives) (snapshot : ScopeAuthoritySnapshot)

def checkScopeLimits : Except String Unit :=
  refuse (maxScopeGrants < snapshot.grants.length ∨
    maxScopeRevocations < snapshot.revocations.length ∨
    maxScopeControlTransfers < snapshot.controlTransfers.length ∨
    maxScopeSuccessionTransfers < snapshot.successionTransfers.length ∨
    maxScopeRevocations < snapshot.successionTransfers.foldl
      (fun total transfer => total + transfer.revocations.length) 0)
    "Scope authority record limit exceeded"

def checkScopeRevocation (scopeId : String) (controllers : Table Nat ScopeAuthority)
    (r : ScopeCapabilityRevocation) : Except String Unit := do
  let controller ← okOr (controllers.lookup r.payload.controlEpoch)
    "Scope revocation has an unknown control epoch"
  verifyScopeCapabilityRevocation P r scopeId controller

/-- The ids of the revoked grants. -/
def revokedGrants (scopeId : String) (controllers : Table Nat ScopeAuthority)
    (revocations : List ScopeCapabilityRevocation) : Except String (Finset String) :=
  revocations.foldlM (fun revoked r => checkScopeRevocation P scopeId controllers r >>= fun _ =>
    .ok (insert r.payload.grantId revoked)) ∅

def takeIssuer (issuers : Table String ScopeAuthority) (evidence : ScopeGrantIssuerEvidence) :
    Except String (Table String ScopeAuthority) := do
  refuse (evidence.grantId = "" ∨ (issuers.lookup evidence.grantId).isSome)
    "Duplicate scope grant issuer evidence"
  .ok (issuers.insert evidence.grantId evidence.issuer)

/-- What the grants are read against. -/
structure ScopeContext where
  scopeId : String
  creator : ScopeAuthority
  controller : ScopeAuthority
  controlEpoch : Nat
  controllers : Table Nat ScopeAuthority
  revoked : Finset String
  issuers : Table String ScopeAuthority

/-- The validator up to the grants. -/
def scopeContext (nowMs : Int) : Except String ScopeContext := do
  checkScopeLimits snapshot
  let genesis ← verifyScopeGenesis P snapshot.genesis
  let control ← controlChain P genesis.scopeId nowMs (controlStart genesis snapshot)
  let revoked ← revokedGrants P genesis.scopeId control.controllers snapshot.revocations
  let issuers ← snapshot.grantIssuers.foldlM takeIssuer ∅
  .ok ⟨genesis.scopeId, genesis.creator, control.controller, control.epoch, control.controllers,
    revoked, issuers⟩

namespace ScopeContext

variable (ctx : ScopeContext)

def live (g : ScopeCapabilityGrant) : Bool :=
  g.payload.grantId ∉ ctx.revoked

/-- The issuer by evidence, or the controller. -/
def issuerOf (controller : ScopeAuthority) (g : ScopeCapabilityGrant) : ScopeAuthority :=
  (ctx.issuers.lookup g.payload.grantId).getD controller

def controllerIssued (controller : ScopeAuthority) (g : ScopeCapabilityGrant) : Bool :=
  (ctx.issuerOf controller g).personId = controller.personId ∧
    (ctx.issuerOf controller g).publicKey = controller.publicKey

/-- One grant against those taken before: an error, or whether it can be taken now. -/
def checkGrant (kept : List ScopeCapabilityGrant) (g : ScopeCapabilityGrant) :
    Except String Bool := do
  let controller ← okOr (ctx.controllers.lookup g.payload.controlEpoch)
    "Scope grant has an unknown control epoch"
  let issuer := ctx.issuerOf controller g
  refuse (issuer.personId ≠ g.payload.issuerPersonId)
    "Scope grant issuer evidence does not match payload"
  verifyScopeCapabilityGrant P g ctx.scopeId issuer
  let capabilities := effectiveCapabilities kept ctx.revoked issuer.personId
  .ok (ctx.controllerIssued controller g ||
    ((decide (.grant ∈ capabilities) || decide (.manageMembers ∈ capabilities)) &&
      g.payload.capabilities.all fun c => decide (c ∈ capabilities)))

end ScopeContext

/-- Validates a ledger and takes its grants. -/
def validateScopeAuthorityAt (nowMs : Int) : Except String ValidatedScopeAuthority := do
  let ctx ← scopeContext P snapshot nowMs
  let pending := sortBy (fun g => strKey g.payload.grantId) snapshot.grants
  refuse (¬ (pending.map fun g => g.payload.grantId).Nodup) "Duplicate scope capability grant"
  let grants ← sift "Scope capability delegation is cyclic or exceeds issuer authority"
    (ctx.checkGrant P) ctx.live pending
  .ok ⟨ctx.scopeId, ctx.creator, ctx.controller, ctx.controlEpoch, grants⟩

end Validate

/-! ## Grants as delegation -/

namespace ScopeContext

variable {P : Primitives} {ctx : ScopeContext} {kept : List ScopeCapabilityGrant}
  {g : ScopeCapabilityGrant}

variable (ctx g) in
/-- Issued by the controller of the grant's epoch, with the controller's key. -/
def Rooted : Prop :=
  ∃ controller, ctx.controllers.lookup g.payload.controlEpoch = some controller ∧
    ctx.controllerIssued controller g = true

/-- How the validator reads grants. -/
def rules (ctx : ScopeContext) : Rules ScopeCapabilityGrant String ScopeCapability where
  subject g := g.payload.subjectPersonId
  issuer g := g.payload.issuerPersonId
  capabilities g := g.payload.capabilities
  delegates c := c = .grant ∨ c = .manageMembers
  root := ctx.Rooted

variable (P ctx) in
/-- Signed by its issuer, who is the one that its payload names. -/
def Signed (g : ScopeCapabilityGrant) : Prop :=
  ∃ controller, ctx.controllers.lookup g.payload.controlEpoch = some controller ∧
    (ctx.issuerOf controller g).personId = g.payload.issuerPersonId ∧
    verifyScopeCapabilityGrant P g ctx.scopeId (ctx.issuerOf controller g) = .ok ()

theorem mem_effectiveCapabilities (alive : ∀ h ∈ kept, ctx.live h = true) {personId : String}
    {c : ScopeCapability} :
    c ∈ effectiveCapabilities kept ctx.revoked personId ↔ ctx.rules.Holds kept personId c := by
  unfold effectiveCapabilities Rules.Holds
  rw [mem_sortedCapabilities, List.mem_flatMap]
  refine exists_congr fun h => ?_
  rw [List.mem_filter]
  constructor
  · rintro ⟨⟨held, kept⟩, gives⟩
    exact ⟨held, (of_decide_eq_true kept).2, gives⟩
  · rintro ⟨held, subject, gives⟩
    have unrevoked : h.payload.grantId ∉ ctx.revoked := of_decide_eq_true (alive h held)
    exact ⟨⟨held, decide_eq_true ⟨unrevoked, subject⟩⟩, gives⟩

/-- The check of a grant is what the rules say. -/
theorem checkGrant_ok (alive : ∀ h ∈ kept, ctx.live h = true) (signed : ctx.Signed P g) :
    ∃ taken, ctx.checkGrant P kept g = .ok taken ∧ (taken = true ↔ ctx.rules.Backed kept g) := by
  obtain ⟨controller, found, named, verified⟩ := signed
  refine ⟨_, by
    unfold checkGrant
    rw [found]
    simp only [okOr, Option.elim_some, ok_bind, refuse, named, ne_eq, not_true_eq_false, if_false,
      verified]
    rfl, ?_⟩
  have root : ctx.rules.root g ↔ ctx.controllerIssued controller g = true := by
    constructor
    · rintro ⟨other, foundOther, issued⟩
      rw [found, Option.some.injEq] at foundOther
      exact foundOther ▸ issued
    · exact fun issued => ⟨controller, found, issued⟩
  unfold Rules.Backed
  rw [Bool.or_eq_true, Bool.and_eq_true, Bool.or_eq_true, List.all_eq_true, root]
  simp only [decide_eq_true_eq, mem_effectiveCapabilities alive]
  refine or_congr_right (and_congr_left fun _ => ?_)
  constructor
  · rintro (held | held)
    · exact ⟨.grant, .inl rfl, held⟩
    · exact ⟨.manageMembers, .inr rfl, held⟩
  · rintro ⟨c, rfl | rfl, held⟩
    · exact .inl held
    · exact .inr held

theorem signed_of_checkGrant {taken : Bool} (checked : ctx.checkGrant P kept g = .ok taken) :
    ctx.Signed P g := by
  obtain ⟨controller, found, checked⟩ := bind_ok.mp checked
  obtain ⟨named, checked⟩ := refuse_bind_ok.mp checked
  obtain ⟨_, verified, _⟩ := bind_ok.mp checked
  exact ⟨controller, okOr_ok.mp found, not_not.mp named, verified⟩

end ScopeContext

section Spec

variable {P : Primitives} {s : ScopeAuthoritySnapshot} {nowMs : Int} {ctx : ScopeContext}
  {v : ValidatedScopeAuthority}

/-- The grants of a ledger that are not revoked. -/
def ScopeContext.liveGrants (ctx : ScopeContext) (s : ScopeAuthoritySnapshot) :
    List ScopeCapabilityGrant :=
  s.grants.filter fun g => ctx.live g

variable (P s ctx v) in
/-- What the validator has established when it accepts. -/
structure Validated : Prop where
  scope : v.scopeId = ctx.scopeId
  controller : v.controller = ctx.controller
  epoch : v.controlEpoch = ctx.controlEpoch
  distinct : (s.grants.map fun g => g.payload.grantId).Nodup
  signed : ∀ g ∈ s.grants, ctx.Signed P g
  backed : ∀ g ∈ s.grants, ctx.rules.Backed v.grants g
  chain : ctx.rules.Chain v.grants
  grants : ∀ g, g ∈ v.grants ↔ g ∈ ctx.liveGrants s

theorem Validated.derivable (validated : Validated P s ctx v) :
    ∀ g ∈ s.grants, ctx.rules.Derivable (ctx.liveGrants s) g := fun g held =>
  ⟨v.grants, validated.chain, fun h inGrants => (validated.grants h).mp inGrants,
    validated.backed g held⟩

theorem validate_sound (valid : validateScopeAuthorityAt P s nowMs = .ok v) :
    ∃ ctx, scopeContext P s nowMs = .ok ctx ∧ Validated P s ctx v := by
  obtain ⟨ctx, context, valid⟩ := bind_ok.mp valid
  obtain ⟨distinct, valid⟩ := refuse_bind_ok.mp valid
  obtain ⟨grants, sifted, valid⟩ := bind_ok.mp valid
  obtain rfl := Except.ok.inj valid
  have done : Sifted ctx.rules ctx.live (ctx.Signed P)
      (sortBy (fun g => strKey g.payload.grantId) s.grants) [] grants := by
    refine sift_sound ?_ sifted
    intro kept g alive taken
    have signed := ScopeContext.signed_of_checkGrant taken
    obtain ⟨taken', checked, iff⟩ := ScopeContext.checkGrant_ok alive signed
    rw [taken, Except.ok.injEq] at checked
    exact ⟨signed, iff.mp checked.symm⟩
  have taken : ∀ g ∈ s.grants, ctx.Signed P g ∧ ctx.rules.Backed grants g ∧
      (ctx.live g = true → g ∈ grants) := by
    intro g held
    exact (done.taken g ((mem_sortBy _).mpr held)).resolve_left List.not_mem_nil
  refine ⟨ctx, context, rfl, rfl, rfl, ?_, fun g held => (taken g held).1,
    fun g held => (taken g held).2.1, done.chain, fun g => ?_⟩
  · exact ((sortBy_perm _ _).map _).nodup_iff.mp (not_not.mp distinct)
  · rw [ScopeContext.liveGrants, List.mem_filter]
    refine ⟨fun held => ?_, fun ⟨held, alive⟩ => (taken g held).2.2 alive⟩
    obtain ⟨inGrants, alive⟩ := done.counted g held
    exact ⟨(mem_sortBy _).mp inGrants, alive⟩

theorem validate_total (context : scopeContext P s nowMs = .ok ctx)
    (distinct : (s.grants.map fun g => g.payload.grantId).Nodup)
    (signed : ∀ g ∈ s.grants, ctx.Signed P g)
    (derivable : ∀ g ∈ s.grants, ctx.rules.Derivable (ctx.liveGrants s) g) :
    ∃ v, validateScopeAuthorityAt P s nowMs = .ok v := by
  have sorted := sortBy_perm (fun g : ScopeCapabilityGrant => strKey g.payload.grantId) s.grants
  obtain ⟨grants, sifted⟩ := @sift_total _ _
    "Scope capability delegation is cyclic or exceeds issuer authority" (ctx.checkGrant P) ctx.live
    _ _ ctx.rules (ctx.Signed P) (sortBy (fun g => strKey g.payload.grantId) s.grants)
    (fun kept g alive good => ScopeContext.checkGrant_ok alive good)
    (fun g held => signed g ((mem_sortBy _).mp held)) (fun g held => by
      refine (derivable g ((mem_sortBy _).mp held)).mono fun h inside => ?_
      exact ((sorted.filter _).mem_iff).mpr inside)
  refine ⟨_, bind_ok.mpr ⟨ctx, context, refuse_bind_ok.mpr ⟨not_not.mpr ?_,
    bind_ok.mpr ⟨grants, sifted, rfl⟩⟩⟩⟩
  exact (sorted.map _).nodup_iff.mpr distinct

theorem mem_capabilitiesFor {person : String} (other : person ≠ v.controller.personId)
    {c : ScopeCapability} : c ∈ v.capabilitiesFor person ↔ ctx.rules.Holds v.grants person c := by
  unfold ValidatedScopeAuthority.capabilitiesFor
  rw [if_neg (Ne.symm other), mem_sortedCapabilities, List.mem_flatMap]
  refine exists_congr fun g => ?_
  rw [List.mem_filter, decide_eq_true_eq, and_assoc]
  rfl

/-- The context of a ledger, part by part. -/
theorem scopeContext_ok :
    scopeContext P s nowMs = .ok ctx ↔
      checkScopeLimits s = .ok () ∧ verifyScopeGenesis P s.genesis = .ok s.genesis.payload ∧
      (∃ control, ControlRun P s.genesis.payload.scopeId nowMs (controlStart s.genesis.payload s)
          control ∧ ctx.controller = control.controller ∧ ctx.controlEpoch = control.epoch ∧
          ctx.controllers = control.controllers) ∧
      (∀ r ∈ s.revocations, checkScopeRevocation P ctx.scopeId ctx.controllers r = .ok ()) ∧
      s.grantIssuers.foldlM takeIssuer ∅ = .ok ctx.issuers ∧
      ctx.scopeId = s.genesis.payload.scopeId ∧ ctx.creator = s.genesis.payload.creator ∧
      ctx.revoked = s.revocations.foldl (fun revoked r => insert r.payload.grantId revoked) ∅ := by
  simp only [scopeContext, bind_ok, controlChain_ok, Except.ok.injEq]
  constructor
  · rintro ⟨_, limits, _, verified, control, walked, _, looped, issuers, read, rfl⟩
    obtain rfl := payload_of_verifyScopeGenesis verified
    obtain ⟨checked, rfl⟩ := foldlM_checked_ok.mp looped
    exact ⟨limits, verified, ⟨control, walked, rfl, rfl, rfl⟩, checked, read, rfl, rfl, rfl⟩
  · rintro ⟨limits, verified, ⟨control, walked, controller, epoch, controllers⟩, checked, read,
      scope, creator, revoked⟩
    rcases ctx with ⟨scopeId, _, _, _, _, _, _⟩
    subst controller epoch controllers scope creator revoked
    refine ⟨(), limits, _, verified, control, walked, _, ?_, _, read, rfl⟩
    exact foldlM_checked_ok.mpr ⟨checked, rfl⟩

theorem mem_revoked (context : scopeContext P s nowMs = .ok ctx) {id : String} :
    id ∈ ctx.revoked ↔ ∃ r ∈ s.revocations, r.payload.grantId = id := by
  obtain ⟨_, _, _, _, _, _, _, revoked⟩ := scopeContext_ok.mp context
  rw [revoked, Table.foldl_insert_empty, List.mem_toFinset, List.mem_map]

/-- The walk ends with the controller of its last epoch. -/
theorem ControlRun.current {scopeId : String} {start final : ControlState}
    (walked : ControlRun P scopeId nowMs start final)
    (initial : start.controllers.lookup start.epoch = some start.controller) :
    final.controllers.lookup final.epoch = some final.controller := by
  induction walked with
  | done _ _ => exact initial
  | step _ _ _ ih => exact ih (by simp [ControlState.advance])

theorem lookup_controlEpoch (context : scopeContext P s nowMs = .ok ctx) :
    ctx.controllers.lookup ctx.controlEpoch = some ctx.controller := by
  obtain ⟨_, _, ⟨control, walked, controller, epoch, controllers⟩, _⟩ :=
    scopeContext_ok.mp context
  rw [controllers, epoch, controller]
  exact walked.current (AList.lookup_insert _)

/-- The same records in another order. -/
structure ScopeAuthoritySnapshot.Reordered (s t : ScopeAuthoritySnapshot) : Prop where
  genesis : t.genesis = s.genesis
  issuers : t.grantIssuers = s.grantIssuers
  grants : t.grants.Perm s.grants
  revocations : t.revocations.Perm s.revocations
  transfers : t.controlTransfers.Perm s.controlTransfers
  successions : t.successionTransfers.Perm s.successionTransfers

theorem scopeContext_reordered {t : ScopeAuthoritySnapshot} (reordered : s.Reordered t)
    (context : scopeContext P s nowMs = .ok ctx) : scopeContext P t nowMs = .ok ctx := by
  obtain ⟨genesis, issuers, grants, revocations, transfers, successions⟩ := reordered
  obtain ⟨limits, verified, ⟨control, walked, controller, epoch, controllers⟩, checked, read, scope,
    creator, revoked⟩ := scopeContext_ok.mp context
  obtain ⟨last, walked', place⟩ := @ControlRun.perm _ _ _ _ _ (controlStart s.genesis.payload t)
    walked ⟨rfl, rfl, rfl⟩ transfers successions
  rw [← genesis] at verified walked' scope creator
  refine scopeContext_ok.mpr ⟨?_, verified, ⟨last, walked',
    controller.trans place.controller.symm, epoch.trans place.epoch.symm,
    controllers.trans place.controllers.symm⟩, fun r held =>
    checked r (revocations.mem_iff.mp held), issuers ▸ read, scope, creator, ?_⟩
  · unfold checkScopeLimits at limits ⊢
    rw [grants.length_eq, revocations.length_eq, transfers.length_eq, successions.length_eq,
      successions.foldl_eq' fun _ _ _ _ _ => Nat.add_right_comm _ _ _]
    exact limits
  · rw [revoked, Table.foldl_insert_empty, Table.foldl_insert_empty]
    exact List.toFinset_eq_of_perm _ _ (revocations.symm.map _)

theorem validate_reordered {t : ScopeAuthoritySnapshot} (reordered : s.Reordered t)
    (valid : validateScopeAuthorityAt P s nowMs = .ok v) :
    validateScopeAuthorityAt P t nowMs = .ok v := by
  obtain ⟨ctx, context, rest⟩ := bind_ok.mp valid
  obtain ⟨_, _, validated⟩ := validate_sound valid
  refine bind_ok.mpr ⟨ctx, scopeContext_reordered reordered context, ?_⟩
  rwa [← sortBy_eq_of_perm _ reordered.grants.symm fun a heldA b heldB same =>
    List.inj_on_of_nodup_map validated.distinct heldA heldB (strKey_injective same)]

end Spec

/-! ## One more revocation -/

def ScopeAuthoritySnapshot.revoke (s : ScopeAuthoritySnapshot) (r : ScopeCapabilityRevocation) :
    ScopeAuthoritySnapshot :=
  { s with revocations := s.revocations ++ [r] }

/-- The context once a grant is revoked. -/
def ScopeContext.revoke (ctx : ScopeContext) (grantId : String) : ScopeContext :=
  { ctx with revoked := insert grantId ctx.revoked }

/-- The unrevoked grants other than one. -/
def ScopeContext.liveWithout (ctx : ScopeContext) (s : ScopeAuthoritySnapshot) (grantId : String) :
    List ScopeCapabilityGrant :=
  (ctx.liveGrants s).filter fun g => g.payload.grantId ≠ grantId

section Revoke

variable {P : Primitives} {s : ScopeAuthoritySnapshot} {nowMs : Int} {ctx : ScopeContext}
  {r : ScopeCapabilityRevocation}

theorem mem_liveGrants_revoke {g : ScopeCapabilityGrant} :
    g ∈ (ctx.revoke r.payload.grantId).liveGrants (s.revoke r) ↔
      g ∈ ctx.liveWithout s r.payload.grantId := by
  simp only [ScopeContext.liveGrants, ScopeContext.liveWithout, ScopeContext.live,
    ScopeContext.revoke, ScopeAuthoritySnapshot.revoke, List.mem_filter, Finset.mem_insert, not_or,
    decide_eq_true_eq]
  tauto

/-- A ledger that takes one more revocation had room for it. -/
theorem room_of_revoke (limits : checkScopeLimits (s.revoke r) = .ok ()) :
    s.revocations.length < maxScopeRevocations := by
  have within := refuse_ok.mp limits
  simp only [ScopeAuthoritySnapshot.revoke, List.length_append, List.length_singleton] at within
  omega

theorem scopeContext_revoke (context : scopeContext P s nowMs = .ok ctx)
    (room : s.revocations.length < maxScopeRevocations)
    (signed : verifyScopeCapabilityRevocation P r ctx.scopeId ctx.controller = .ok ())
    (epoch : r.payload.controlEpoch = ctx.controlEpoch) :
    scopeContext P (s.revoke r) nowMs = .ok (ctx.revoke r.payload.grantId) := by
  have current := lookup_controlEpoch context
  obtain ⟨limits, genesis, walked, checked, read, scope, creator, revoked⟩ :=
    scopeContext_ok.mp context
  refine scopeContext_ok.mpr ⟨?_, genesis, walked, ?_, read, scope, creator, ?_⟩
  · have within := refuse_ok.mp limits
    refine refuse_ok.mpr ?_
    simp only [ScopeAuthoritySnapshot.revoke, List.length_append, List.length_singleton]
    omega
  · intro other held
    rcases List.mem_append.mp held with before | last
    · exact checked other before
    · obtain rfl := List.mem_singleton.mp last
      exact bind_ok.mpr ⟨ctx.controller, okOr_ok.mpr (epoch ▸ current), signed⟩
  · rw [ScopeAuthoritySnapshot.revoke, List.foldl_append, ← revoked]
    rfl

end Revoke

/-! ## Ledgers to evaluate with -/

namespace Sample

def scopeAuthority (person : Nat) : ScopeAuthority :=
  ⟨keyId person, letters 43 person, [certificate person person]⟩

def scopeGrant (issuer subject : Nat) (grantId : String) (capabilities : List ScopeCapability) :
    ScopeCapabilityGrant :=
  ⟨⟨"scope-capability-grant", 1, "workspace", grantId, keyId issuer, keyId subject, capabilities,
    1⟩, keyId issuer, signatureBy issuer 0⟩

def scopeRevocation (grantId : String) : ScopeCapabilityRevocation :=
  ⟨⟨"scope-capability-revocation", 1, "workspace", grantId, keyId 0, 1⟩, keyId 0, signatureBy 0 0⟩

/-- Person 0 made the scope and lets person 1 read and grant; person 1 lets person 2 read. -/
def scopeLedger : ScopeAuthoritySnapshot where
  genesis := ⟨⟨"scope-genesis", 1, "workspace", scopeAuthority 0, 1⟩, keyId 0, signatureBy 0 0⟩
  grants := [scopeGrant 0 1 "admin" [.read, .grant], scopeGrant 1 2 "reader" [.read]]
  grantIssuers := [⟨"reader", scopeAuthority 1⟩]
  revocations := []
  controlTransfers := []
  successionTransfers := []

def scopeLedgerValid : ValidatedScopeAuthority :=
  ⟨"workspace", scopeAuthority 0, scopeAuthority 0, 1, scopeLedger.grants⟩

end Sample

/-! ## Results -/

/-- A capability of somebody who is not the controller was handed on from the controller
of an epoch, along signed and unrevoked grants each of which is backed by earlier ones;
control never is. -/
theorem capabilities_are_delegated (P : Primitives) (s : ScopeAuthoritySnapshot) (nowMs : Int)
    (v : ValidatedScopeAuthority) (valid : validateScopeAuthorityAt P s nowMs = .ok v)
    (person : String) (other : person ≠ v.controller.personId) (c : ScopeCapability)
    (held : c ∈ v.capabilitiesFor person) :
    c ≠ .control ∧ ∃ ctx links spine, scopeContext P s nowMs = .ok ctx ∧ ctx.rules.Chain links ∧
      (∀ g ∈ links, g ∈ s.grants ∧ (∀ r ∈ s.revocations, r.payload.grantId ≠ g.payload.grantId) ∧
        ctx.Signed P g) ∧
      spine.Sublist links ∧ ctx.rules.Spine c spine person := by
  obtain ⟨ctx, context, validated⟩ := validate_sound valid
  have holds : ctx.rules.Holds v.grants person c := (mem_capabilitiesFor other).mp held
  have sound : ∀ g ∈ v.grants, g ∈ s.grants ∧
      (∀ r ∈ s.revocations, r.payload.grantId ≠ g.payload.grantId) ∧ ctx.Signed P g := by
    intro g inGrants
    obtain ⟨inLedger, alive⟩ := List.mem_filter.mp ((validated.grants g).mp inGrants)
    have unrevoked : g.payload.grantId ∉ ctx.revoked := of_decide_eq_true alive
    refine ⟨inLedger, fun r held same => ?_, validated.signed g inLedger⟩
    exact unrevoked ((mem_revoked context).mpr ⟨r, held, same⟩)
  constructor
  · rintro rfl
    obtain ⟨g, inGrants, _, gives⟩ := holds
    obtain ⟨_, _, _, verified⟩ := (sound g inGrants).2.2
    exact control_notMem_of_verified verified gives
  · obtain ⟨links, spine, chain, inGrants, inside, handed⟩ :=
      validated.chain.supported (fun g inGrants => inGrants) holds
    exact ⟨ctx, links, spine, context, chain, fun g linked => sound g (inGrants g linked), inside,
      handed⟩

open Sample

theorem capabilities_are_delegated_sample :
    validateScopeAuthorityAt primitives scopeLedger 0 = .ok scopeLedgerValid ∧
      ∃ ctx links spine, scopeContext primitives scopeLedger 0 = .ok ctx ∧
        ctx.rules.Chain links ∧ spine.Sublist links ∧
        ctx.rules.Spine .read spine (keyId 2) := by
  refine (and_iff_left_of_imp fun valid => ?_).mpr (by decide)
  obtain ⟨_, ctx, links, spine, context, chain, _, inside, handed⟩ := capabilities_are_delegated
    primitives scopeLedger 0 scopeLedgerValid valid (keyId 2) (by decide) .read (by decide +kernel)
  exact ⟨ctx, links, spine, context, chain, inside, handed⟩

/-- A revocation of the controller leaves the ledger valid exactly if there is room for it
and every grant is derivable without the revoked one.  What is left is then what can be
handed on without it. -/
theorem capability_revocation_accepted (P : Primitives) (s : ScopeAuthoritySnapshot) (nowMs : Int)
    (v : ValidatedScopeAuthority) (ctx : ScopeContext) (r : ScopeCapabilityRevocation)
    (valid : validateScopeAuthorityAt P s nowMs = .ok v)
    (context : scopeContext P s nowMs = .ok ctx)
    (signed : verifyScopeCapabilityRevocation P r v.scopeId v.controller = .ok ())
    (current : r.payload.controlEpoch = v.controlEpoch) :
    ((∃ after, validateScopeAuthorityAt P (s.revoke r) nowMs = .ok after) ↔
      s.revocations.length < maxScopeRevocations ∧
        ∀ g ∈ s.grants, ctx.rules.Derivable (ctx.liveWithout s r.payload.grantId) g) ∧
    ∀ after, validateScopeAuthorityAt P (s.revoke r) nowMs = .ok after →
      after.controller = v.controller ∧
      (∀ g ∈ after.grants, g.payload.grantId ≠ r.payload.grantId) ∧
      ∀ person, person ≠ v.controller.personId → ∀ c, c ∈ after.capabilitiesFor person ↔
        ctx.rules.Supported (ctx.liveWithout s r.payload.grantId) person c := by
  obtain ⟨ctx', context', validated⟩ := validate_sound valid
  obtain rfl : ctx' = ctx := ok_unique context' context
  rw [validated.scope, validated.controller] at signed
  rw [validated.epoch] at current
  -- what an accepted ledger has established, over the context without the grant
  have sound : ∀ after, validateScopeAuthorityAt P (s.revoke r) nowMs = .ok after →
      s.revocations.length < maxScopeRevocations ∧
        Validated P (s.revoke r) (ctx'.revoke r.payload.grantId) after := by
    intro after accepted
    obtain ⟨revoked, revokedContext, validated'⟩ := validate_sound accepted
    have room := room_of_revoke (scopeContext_ok.mp revokedContext).1
    obtain rfl : revoked = ctx'.revoke r.payload.grantId :=
      ok_unique revokedContext (scopeContext_revoke context room signed current)
    exact ⟨room, validated'⟩
  refine ⟨⟨fun ⟨after, accepted⟩ => ?_, fun ⟨room, independent⟩ => ?_⟩, fun after accepted => ?_⟩
  · obtain ⟨room, validated'⟩ := sound after accepted
    exact ⟨room, fun g held => (validated'.derivable g held).mono fun h inside =>
      mem_liveGrants_revoke.mp inside⟩
  · exact validate_total (scopeContext_revoke context room signed current) validated.distinct
      validated.signed fun g held => (independent g held).mono fun h inside =>
        mem_liveGrants_revoke.mpr inside
  · have validated' := (sound after accepted).2
    have grants : ∀ g, g ∈ after.grants ↔ g ∈ ctx'.liveWithout s r.payload.grantId := fun g =>
      (validated'.grants g).trans mem_liveGrants_revoke
    have controller : after.controller = v.controller :=
      validated'.controller.trans validated.controller.symm
    refine ⟨controller, fun g held => ?_, fun person other c => ?_⟩
    · exact of_decide_eq_true (List.mem_filter.mp ((grants g).mp held)).2
    · rw [mem_capabilitiesFor (controller ▸ other)]
      constructor
      · exact fun holds => validated'.chain.supported (fun g held => (grants g).mp held) holds
      · exact fun supported => supported.holds fun g held _ => (grants g).mpr held

theorem capability_revocation_accepted_sample :
    ∃ after, validateScopeAuthorityAt primitives
        (scopeLedger.revoke (scopeRevocation "reader")) 0 = .ok after ∧
      ∀ g ∈ after.grants, g.payload.grantId ≠ "reader" := by
  have valid : validateScopeAuthorityAt primitives scopeLedger 0 = .ok scopeLedgerValid := by decide
  obtain ⟨ctx, context, validated⟩ := validate_sound valid
  have admin : scopeGrant 0 1 "admin" [.read, .grant] ∈ ctx.liveWithout scopeLedger "reader" :=
    List.mem_filter.mpr ⟨(validated.grants _).mp (by decide), by decide⟩
  have chain : ctx.rules.Chain ([scopeGrant 0 1 "admin" [.read, .grant]] ++
      [scopeGrant 1 2 "reader" [.read]]) := validated.chain
  obtain ⟨first, second⟩ := chain.of_snoc
  have root : ctx.rules.Backed [] (scopeGrant 0 1 "admin" [.read, .grant]) :=
    (@Rules.Chain.of_snoc _ _ _ _ [] _ first).2
  have independent : ∀ g ∈ scopeLedger.grants,
      ctx.rules.Derivable (ctx.liveWithout scopeLedger "reader") g := by
    intro g held
    rcases List.mem_pair.mp held with rfl | rfl
    · exact ⟨[], .nil, by simp, root⟩
    · exact ⟨_, first, by simpa using admin, second⟩
  obtain ⟨accepts, left⟩ := capability_revocation_accepted primitives scopeLedger 0
    scopeLedgerValid ctx (scopeRevocation "reader") valid context (by decide) (by decide +kernel)
  obtain ⟨after, accepted⟩ := accepts.mpr ⟨by decide, independent⟩
  exact ⟨after, accepted, (left after accepted).2.1⟩

/-- The controller takes back the right to grant, and the ledger is no longer valid: the
grant that was issued with it has lost its backing. -/
theorem revocation_breaks_ledger :
    validateScopeAuthorityAt primitives scopeLedger 0 = .ok scopeLedgerValid ∧
      verifyScopeCapabilityRevocation primitives (scopeRevocation "admin")
        scopeLedgerValid.scopeId scopeLedgerValid.controller = .ok () ∧
      (scopeRevocation "admin").payload.controlEpoch = scopeLedgerValid.controlEpoch ∧
      scopeGrant 0 1 "admin" [.read, .grant] ∈ scopeLedger.grants ∧
      validateScopeAuthorityAt primitives
          (scopeLedger.revoke (scopeRevocation "admin")) 0 =
        .error "Scope capability delegation is cyclic or exceeds issuer authority" := by
  decide

/-- A ledger is accepted in any order of its records, with the same controller, epoch and grants.
The loop over the grants ends: more rounds than grants give no other outcome. -/
theorem scope_records_in_any_order (P : Primitives) (s t : ScopeAuthoritySnapshot) (nowMs : Int)
    (reordered : s.Reordered t) :
    (∀ v, validateScopeAuthorityAt P s nowMs = .ok v ↔ validateScopeAuthorityAt P t nowMs = .ok v) ∧
    ∀ (ctx : ScopeContext) (stuck late : String) pending fuel, pending.length < fuel →
      run late (siftRound stuck (ctx.checkGrant P) ctx.live) fuel (pending, []) =
        sift stuck (ctx.checkGrant P) ctx.live pending := by
  refine ⟨fun v => ⟨validate_reordered reordered, validate_reordered ?_⟩,
    fun ctx stuck _ _ _ => sift_ends stuck (ctx.checkGrant P) ctx.live⟩
  obtain ⟨genesis, issuers, grants, revocations, transfers, successions⟩ := reordered
  exact ⟨genesis.symm, issuers.symm, grants.symm, revocations.symm, transfers.symm,
    successions.symm⟩

theorem scope_records_in_any_order_sample :
    validateScopeAuthorityAt primitives { scopeLedger with
      grants := scopeLedger.grants.reverse } 0 = .ok scopeLedgerValid :=
  ((scope_records_in_any_order primitives scopeLedger
    { scopeLedger with grants := scopeLedger.grants.reverse } 0
    ⟨rfl, rfl, List.reverse_perm _, .refl _, .refl _, .refl _⟩).1 _).mp (by decide)

end MetaMesh
