import MetaMesh.Authorization.Context

/-!
# Signed changes

A device signs the hashes of a batch of changes.  `roleFor` reads the signer's
role from the validated authority, never from the record, and
`admitWithNeededForCausal` keeps the hashes that the boundaries of removed
people, removed devices and former owners allow.
-/

namespace MetaMesh

open Fallible

/-- Which changes a device vouches for. -/
structure WorkspaceChangeAuthorizationPayload where
  kind : String
  version : UInt8
  workspaceId : String
  hashes : List String
  personId : String
  deviceId : String
deriving DecidableEq, Repr

abbrev WorkspaceChangeAuthorization := SignedEnvelope WorkspaceChangeAuthorizationPayload

/-- A signed authorization with its grant and certificates. -/
structure IncomingWorkspaceChangeAuthorization where
  signed : WorkspaceChangeAuthorization
  publicKey : String
  certificates : List DeviceCertificate
  grant : Option WorkspaceGrant
deriving DecidableEq, Repr

instance : Serialize WorkspaceChangeAuthorizationPayload where
  toValue p := .object [("kind", toValue p.kind), ("version", toValue p.version),
    ("workspaceId", toValue p.workspaceId), ("hashes", toValue p.hashes),
    ("personId", toValue p.personId), ("deviceId", toValue p.deviceId)]

instance : Serialize IncomingWorkspaceChangeAuthorization where
  toValue r := .object [("signed", toValue r.signed), ("publicKey", toValue r.publicKey),
    ("certificates", toValue r.certificates), ("grant", toValue r.grant)]

/-- A change with the role it was written in. -/
structure AuthorizedWorkspaceChange where
  hash : String
  role : WorkspaceRole
deriving DecidableEq, Repr

def maxWorkspaceChangeAuthorizationHashes : Nat := 256

namespace ValidatedWorkspaceWriteAuthorizationContext

variable (P : Primitives) (context : ValidatedWorkspaceWriteAuthorizationContext)

def currentOwnerAndHistory : List WorkspaceAuthority :=
  context.currentOwner :: context.historicalOwners

variable (personId : String) (grant : Option WorkspaceGrant)

/-- The role and epoch of a grant that some owner, current or earlier, signed. -/
def verifiedGrant : Option (WorkspaceRole × Nat) :=
  context.currentOwnerAndHistory.findSome? fun authority => do
    let grant ← grant
    let role ← (verifyWorkspaceGrant P grant context.workspaceId personId authority.identity
      authority.certificates).toOption
    some (role, grant.payload.effectiveAccessEpoch)

/-- An automation grant holds only while the owner that signed it is in office. -/
def automationRole (epoch : Nat) : Except String (WorkspaceRole × Option Nat) := do
  let signed ← okOr grant "Invalid automation grant"
  let role ← verifyWorkspaceGrant P signed context.workspaceId personId
    context.currentOwner.identity context.currentOwner.certificates
  refuse (role ≠ .automation) "Invalid automation grant signer"
  let scope ← okOr signed.payload.automation "Invalid automation grant scope"
  scope.validate
  refuse (context.enforceAutomationExpiry = true ∧ (scope.expiresAt : Int) ≤ context.nowMs)
    "Automation grant has expired"
  .ok (.automation, some epoch)

/-- The owner, what a verified grant gives, or else a former owner. -/
def roleFor : Except String (WorkspaceRole × Option Nat) :=
  if personId = context.currentOwner.personId then .ok (.owner, none)
  else
    match context.verifiedGrant P personId grant with
    | some (.editor, epoch) => .ok (.editor, some epoch)
    | some (.visitor, epoch) => .ok (.visitor, some epoch)
    | some (.automation, epoch) => context.automationRole P personId grant epoch
    | _ =>
      if personId ∈ context.historicalHashes then .ok (.owner, none)
      else .error "Visitors cannot write workspace changes"

/-- A boundary lets through what a later grant covers, and what it contains. -/
def boundariesAllow (boundaries : Option (List RevocationBoundary)) (grantEpoch : Option Nat)
    (hash : String) : Bool :=
  boundaries.all fun boundaries => boundaries.all fun boundary =>
    (grantEpoch.any fun epoch => boundary.epoch < epoch) || hash ∈ boundary.hashes

/-- The hash is inside what revocations and departures leave to the person. -/
def revocationAllows (grantEpoch : Option Nat) (hash : String) : Bool :=
  boundariesAllow (context.revocationBoundaries.lookup personId) grantEpoch hash &&
    boundariesAllow (context.departureBoundaries.lookup personId) grantEpoch hash

def deviceRevocationAllows (personId deviceId hash : String) : Bool :=
  (context.revokedDevices.lookup (personId, deviceId)).all fun boundaries =>
    boundaries.all fun hashes => hash ∈ hashes

/-- Inside every boundary drawn for a person and a device, whatever its epoch. -/
def insideSignedFrontiers (personId deviceId hash : String) : Bool :=
  ((context.revocationBoundaries.lookup personId).all fun boundaries =>
      boundaries.all fun boundary => hash ∈ boundary.hashes) &&
    ((context.departureBoundaries.lookup personId).all fun boundaries =>
      boundaries.all fun boundary => hash ∈ boundary.hashes) &&
    context.deviceRevocationAllows personId deviceId hash

/-- Inside every boundary drawn for anybody. -/
def insideAllSignedFrontiers (hash : String) : Bool :=
  ((context.revocationBoundaries.values.flatten).all fun boundary => hash ∈ boundary.hashes) &&
    ((context.departureBoundaries.values.flatten).all fun boundary => hash ∈ boundary.hashes) &&
    (context.revokedDevices.values.flatten).all fun frontier => hash ∈ frontier

/-- A former owner acts as one only up to the transition that ended the office. -/
def formerOwnerAllows (role : WorkspaceRole) (personId hash : String) : Bool :=
  role ≠ .owner || personId = context.currentOwner.personId ||
    (context.historicalHashes.lookup personId).any fun hashes => hash ∈ hashes

end ValidatedWorkspaceWriteAuthorizationContext

section Admission

variable (P : Primitives)

/-- The record itself: its fields, the identity it names and its signature. -/
def verifyChangeAuthorization (incoming : IncomingWorkspaceChangeAuthorization)
    (workspaceId : String) (needed : Finset String) : Except String Unit := do
  let payload := incoming.signed.payload
  refuse (payload.kind ≠ "workspace-changes" ∨ payload.version ≠ 1 ∨
    payload.workspaceId ≠ workspaceId ∨ payload.hashes = [] ∨
    maxWorkspaceChangeAuthorizationHashes < payload.hashes.length ∨ "" ∈ payload.hashes)
    "Invalid workspace change authorization"
  refuse (¬ ∃ hash ∈ payload.hashes, hash ∈ needed)
    "Workspace change authorization does not cover an incoming change"
  let personId ← publicKeyId P incoming.publicKey
  refuse (personId ≠ payload.personId) "Invalid workspace change identity"
  verifyDeviceSignedEnvelope P ⟨payload.personId, incoming.publicKey, ""⟩ payload.deviceId
    incoming.certificates incoming.signed defaultSignatureDomain

/-- The needed changes of a record that its signer may write. -/
def admitWithNeededForCausal (incoming : IncomingWorkspaceChangeAuthorization)
    (context : ValidatedWorkspaceWriteAuthorizationContext) (needed : Finset String)
    (allowVisitorCandidate : Bool) : Except String (List AuthorizedWorkspaceChange) := do
  let payload := incoming.signed.payload
  verifyChangeAuthorization P incoming context.workspaceId needed
  let (role, grantEpoch) ← context.roleFor P payload.personId incoming.grant
  refuse (role = .visitor ∧ allowVisitorCandidate = false) "Visitors cannot write workspace changes"
  .ok ((payload.hashes.filter fun hash => hash ∈ needed ∧
    context.revocationAllows payload.personId grantEpoch hash = true ∧
    context.deviceRevocationAllows payload.personId payload.deviceId hash = true ∧
    context.formerOwnerAllows role payload.personId hash = true).map fun hash => ⟨hash, role⟩)

end Admission

/-! ## What an admitted record proves -/

section Spec

variable {P : Primitives} {context : ValidatedWorkspaceWriteAuthorizationContext}
  {incoming : IncomingWorkspaceChangeAuthorization} {needed : Finset String}

open ValidatedWorkspaceWriteAuthorizationContext

variable (P context) in
/-- Some owner, current or earlier, gave a person a grant. -/
def GrantedBy (personId : String) (grant : WorkspaceGrant) (role : WorkspaceRole) : Prop :=
  ∃ authority ∈ context.currentOwnerAndHistory, verifyWorkspaceGrant P grant context.workspaceId
    personId authority.identity authority.certificates = .ok role

variable {personId : String} {role : WorkspaceRole} {grant : Option WorkspaceGrant}
  {grantEpoch : Option Nat} {admitted : List AuthorizedWorkspaceChange} {hash : String}

theorem verifiedGrant_eq_some {epoch : Nat}
    (verified : context.verifiedGrant P personId grant = some (role, epoch)) :
    ∃ signed, grant = some signed ∧ GrantedBy P context personId signed role ∧
      epoch = signed.payload.effectiveAccessEpoch := by
  obtain ⟨authority, held, found⟩ := List.exists_of_findSome?_eq_some verified
  cases grant with
  | none => cases found
  | some signed =>
    simp only [Option.bind_eq_bind, Option.bind_some] at found
    obtain ⟨role', accepted, same⟩ := Option.bind_eq_some_iff.mp found
    obtain ⟨rfl, rfl⟩ := Prod.mk.inj (Option.some.inj same)
    refine ⟨signed, rfl, ⟨authority, held, ?_⟩, rfl⟩
    cases ran : verifyWorkspaceGrant P signed context.workspaceId personId authority.identity
      authority.certificates with
    | error e => simp [ran, Except.toOption] at accepted
    | ok other =>
      simp only [ran, Except.toOption, Option.some.injEq] at accepted
      rw [accepted]

theorem automationRole_ok {epoch : Nat}
    (read : context.automationRole P personId grant epoch = .ok (role, grantEpoch)) :
    role = .automation ∧ grantEpoch = some epoch := by
  obtain ⟨_, _, read⟩ := bind_ok.mp read
  obtain ⟨_, _, read⟩ := bind_ok.mp read
  obtain ⟨_, read⟩ := refuse_bind_ok.mp read
  obtain ⟨_, _, read⟩ := bind_ok.mp read
  obtain ⟨_, _, read⟩ := bind_ok.mp read
  obtain ⟨_, same⟩ := refuse_bind_ok.mp read
  obtain ⟨rfl, rfl⟩ := Prod.mk.inj (Except.ok.inj same)
  exact ⟨rfl, rfl⟩

/-- A role with an epoch comes from a grant of that role, and one without is the
owner's. -/
theorem roleFor_ok (read : context.roleFor P personId grant = .ok (role, grantEpoch)) :
    (role = .owner ∧ grantEpoch = none) ∨
      (role ≠ .owner ∧ ∃ signed, grant = some signed ∧ GrantedBy P context personId signed role ∧
        grantEpoch = some signed.payload.effectiveAccessEpoch) := by
  unfold roleFor at read
  split at read
  · obtain ⟨rfl, rfl⟩ := Prod.mk.inj (Except.ok.inj read)
    exact .inl ⟨rfl, rfl⟩
  · split at read
    case h_1 epoch verified | h_2 epoch verified =>
      obtain ⟨rfl, rfl⟩ := Prod.mk.inj (Except.ok.inj read)
      obtain ⟨signed, given, granted, rfl⟩ := verifiedGrant_eq_some verified
      exact .inr ⟨by decide, signed, given, granted, rfl⟩
    · next epoch verified =>
      obtain ⟨rfl, rfl⟩ := automationRole_ok read
      obtain ⟨signed, given, granted, rfl⟩ := verifiedGrant_eq_some verified
      exact .inr ⟨by decide, signed, given, granted, rfl⟩
    · split at read
      · obtain ⟨rfl, rfl⟩ := Prod.mk.inj (Except.ok.inj read)
        exact .inl ⟨rfl, rfl⟩
      · cases read

variable (context) in
/-- What `admitWithNeededForCausal` lets through, for a role and an epoch. -/
def LetsThrough (payload : WorkspaceChangeAuthorizationPayload) (role : WorkspaceRole)
    (grantEpoch : Option Nat) (hash : String) : Prop :=
  context.revocationAllows payload.personId grantEpoch hash = true ∧
    context.deviceRevocationAllows payload.personId payload.deviceId hash = true ∧
    context.formerOwnerAllows role payload.personId hash = true

theorem admitWithNeededForCausal_ok :
    admitWithNeededForCausal P incoming context needed true = .ok admitted ↔
      verifyChangeAuthorization P incoming context.workspaceId needed = .ok () ∧
      ∃ role grantEpoch,
        context.roleFor P incoming.signed.payload.personId incoming.grant = .ok (role, grantEpoch) ∧
        admitted = (incoming.signed.payload.hashes.filter fun hash => hash ∈ needed ∧
          context.revocationAllows incoming.signed.payload.personId grantEpoch hash = true ∧
          context.deviceRevocationAllows incoming.signed.payload.personId
            incoming.signed.payload.deviceId hash = true ∧
          context.formerOwnerAllows role incoming.signed.payload.personId hash = true).map
            fun hash => ⟨hash, role⟩ := by
  constructor
  · intro ran
    obtain ⟨_, verified, ran⟩ := bind_ok.mp ran
    obtain ⟨⟨role, grantEpoch⟩, read, ran⟩ := bind_ok.mp ran
    obtain ⟨_, same⟩ := refuse_bind_ok.mp ran
    exact ⟨verified, role, grantEpoch, read, (Except.ok.inj same).symm⟩
  · rintro ⟨verified, role, grantEpoch, read, rfl⟩
    exact bind_ok.mpr ⟨(), verified, bind_ok.mpr ⟨(role, grantEpoch), read,
      refuse_bind_ok.mpr ⟨by simp, rfl⟩⟩⟩

/-- A change that a record is admitted for. -/
theorem mem_admitted (ran : admitWithNeededForCausal P incoming context needed true = .ok admitted)
    (held : ⟨hash, role⟩ ∈ admitted) :
    verifyChangeAuthorization P incoming context.workspaceId needed = .ok () ∧
      hash ∈ incoming.signed.payload.hashes ∧ hash ∈ needed ∧ ∃ grantEpoch,
        context.roleFor P incoming.signed.payload.personId incoming.grant = .ok (role, grantEpoch) ∧
        LetsThrough context incoming.signed.payload role grantEpoch hash := by
  obtain ⟨verified, role', grantEpoch, read, rfl⟩ := admitWithNeededForCausal_ok.mp ran
  obtain ⟨other, passed, same⟩ := List.mem_map.mp held
  obtain ⟨rfl, rfl⟩ := AuthorizedWorkspaceChange.mk.inj same
  rw [List.mem_filter, decide_eq_true_eq] at passed
  exact ⟨verified, passed.1, passed.2.1, grantEpoch, read, passed.2.2⟩

/-- A boundary is passed under a later grant, or by what it contains. -/
theorem boundariesAllow_holds {boundaries : Table String (List RevocationBoundary)}
    (allowed : boundariesAllow (boundaries.lookup personId) grantEpoch hash = true)
    {boundary : RevocationBoundary} (held : boundaries.Holds personId boundary) :
    (∃ epoch, grantEpoch = some epoch ∧ boundary.epoch < epoch) ∨ hash ∈ boundary.hashes := by
  obtain ⟨all, found, member⟩ := held
  rw [boundariesAllow, found, Option.all_some, List.all_eq_true] at allowed
  have passes := allowed boundary member
  rw [Bool.or_eq_true, decide_eq_true_eq] at passes
  rcases passes with renewed | inside
  · obtain ⟨epoch, given, later⟩ := (Option.any_eq_true _ _).mp renewed
    exact .inl ⟨epoch, given, by simpa using later⟩
  · exact .inr inside

theorem deviceRevocationAllows_holds {deviceId : String}
    (allowed : context.deviceRevocationAllows personId deviceId hash = true)
    {frontier : Finset String} (held : context.revokedDevices.Holds (personId, deviceId) frontier) :
    hash ∈ frontier := by
  obtain ⟨all, found, member⟩ := held
  rw [deviceRevocationAllows, found, Option.all_some, List.all_eq_true] at allowed
  simpa using allowed frontier member

end Spec

namespace Sample

/-- Hashes that a person signed with their one device. -/
def signedChanges (person : Nat) (hashes : List String) (grant : Option WorkspaceGrant) :
    IncomingWorkspaceChangeAuthorization :=
  ⟨⟨⟨"workspace-changes", 1, "workspace", hashes, keyId person, keyId person⟩, keyId person,
    signatureBy person 3⟩, letters 43 person, [certificate person person], grant⟩

end Sample

end MetaMesh
