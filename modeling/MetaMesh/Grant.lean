import MetaMesh.Identity

/-!
# Workspace roles and grants

The grant half of `authorization.rs`.  A grant gives a person a role in one
workspace and is signed by an owner, by the root key or by a certified device.
An automation grant names the board, columns and fields it may touch.
-/

namespace MetaMesh

open Fallible

/-- What a member may do. -/
inductive WorkspaceRole
  | owner
  | editor
  | visitor
  | automation
deriving DecidableEq, Repr

def WorkspaceRole.text : WorkspaceRole → String
  | owner => "owner"
  | editor => "editor"
  | visitor => "visitor"
  | automation => "automation"

def WorkspaceRole.ofText : String → Option WorkspaceRole
  | "owner" => some owner
  | "editor" => some editor
  | "visitor" => some visitor
  | "automation" => some automation
  | _ => none

/-- A unit variant is read from its name, or from an object with that one
field and no content. -/
def WorkspaceRole.ofValue : Value → Option WorkspaceRole
  | .string name => ofText name
  | .object [(name, .null)] => ofText name
  | _ => none

instance : Serialize WorkspaceRole := ⟨fun role => .string role.text⟩
instance : Deserialize WorkspaceRole := ⟨WorkspaceRole.ofValue⟩

instance : RoundTrip WorkspaceRole where
  fromValue_toValue role := by cases role <;> rfl

/-- The columns an automation may work in. -/
structure AutomationGrantColumns where
  lead : String
  applied : Option String
  interview : String
  rejected : String
deriving DecidableEq, Repr

/-- Bounded authority for an automation integration on one existing board. -/
structure AutomationGrantScope where
  version : UInt8
  boardId : String
  columns : AutomationGrantColumns
  fieldIds : List String
  /-- A Unix timestamp in milliseconds. -/
  expiresAt : Nat
deriving DecidableEq, Repr

/-- The owner gives someone a role. -/
structure WorkspaceGrantPayload where
  kind : String
  version : UInt8
  grantId : String
  workspaceId : String
  personId : String
  role : WorkspaceRole
  /-- Absence is part of the signed legacy text. -/
  accessEpoch : Option Nat
  automation : Option AutomationGrantScope
deriving DecidableEq, Repr

def WorkspaceGrantPayload.effectiveAccessEpoch (p : WorkspaceGrantPayload) : Nat :=
  p.accessEpoch.getD 1

abbrev WorkspaceGrant := SignedEnvelope WorkspaceGrantPayload

/-! ## Text of the records -/

def AutomationGrantColumns.fields (c : AutomationGrantColumns) : List (String × Value) :=
  ("lead", toValue c.lead) :: optionalField "applied" c.applied ++
    [("interview", toValue c.interview), ("rejected", toValue c.rejected)]

def AutomationGrantColumns.ofValue (v : Value) : Option AutomationGrantColumns := do
  let names := ["lead", "applied", "interview", "rejected"]
  guard (v.knownFields names)
  let field := fun name => v.structField names name
  some ⟨← fromField (field "lead"), ← fromOptional (field "applied"),
    ← fromField (field "interview"), ← fromField (field "rejected")⟩

instance : Serialize AutomationGrantColumns := ⟨fun c => .object c.fields⟩
instance : Deserialize AutomationGrantColumns := ⟨AutomationGrantColumns.ofValue⟩

instance : RoundTrip AutomationGrantColumns where
  fromValue_toValue c := by
    show AutomationGrantColumns.ofValue (.object c.fields) = some c
    rcases c with ⟨lead, _ | applied, interview, rejected⟩ <;>
      simp [AutomationGrantColumns.ofValue, AutomationGrantColumns.fields, Value.structField,
        Value.knownFields, List.lookup_cons, optionalField, fromOptional]

def AutomationGrantScope.fields (s : AutomationGrantScope) : List (String × Value) :=
  [("version", toValue s.version), ("boardId", toValue s.boardId),
    ("columns", toValue s.columns), ("fieldIds", toValue s.fieldIds),
    ("expiresAt", toValue s.expiresAt)]

def AutomationGrantScope.ofValue (v : Value) : Option AutomationGrantScope := do
  let names := ["version", "boardId", "columns", "fieldIds", "expiresAt"]
  guard (v.knownFields names)
  let field := fun name => v.structField names name
  some ⟨← fromField (field "version"), ← fromField (field "boardId"),
    ← fromField (field "columns"), ← fromField (field "fieldIds"),
    ← fromField (field "expiresAt")⟩

instance : Serialize AutomationGrantScope := ⟨fun s => .object s.fields⟩
instance : Deserialize AutomationGrantScope := ⟨AutomationGrantScope.ofValue⟩

instance : RoundTrip AutomationGrantScope where
  fromValue_toValue s := by
    show AutomationGrantScope.ofValue (.object s.fields) = some s
    simp [AutomationGrantScope.ofValue, AutomationGrantScope.fields, Value.structField,
      Value.knownFields, List.lookup_cons]

def WorkspaceGrantPayload.fields (p : WorkspaceGrantPayload) : List (String × Value) :=
  [("kind", toValue p.kind), ("version", toValue p.version), ("grantId", toValue p.grantId),
    ("workspaceId", toValue p.workspaceId), ("personId", toValue p.personId),
    ("role", toValue p.role)] ++ optionalField "accessEpoch" p.accessEpoch ++
    optionalField "automation" p.automation

def WorkspaceGrantPayload.ofValue (v : Value) : Option WorkspaceGrantPayload := do
  let field := fun name => v.structField ["kind", "version", "grantId", "workspaceId",
    "personId", "role", "accessEpoch", "automation"] name
  some ⟨← fromField (field "kind"), ← fromField (field "version"),
    ← fromField (field "grantId"), ← fromField (field "workspaceId"),
    ← fromField (field "personId"), ← fromField (field "role"),
    ← fromOptional (field "accessEpoch"), ← fromOptional (field "automation")⟩

instance : Serialize WorkspaceGrantPayload := ⟨fun p => .object p.fields⟩
instance : Deserialize WorkspaceGrantPayload := ⟨WorkspaceGrantPayload.ofValue⟩

instance : RoundTrip WorkspaceGrantPayload where
  fromValue_toValue p := by
    show WorkspaceGrantPayload.ofValue (.object p.fields) = some p
    rcases p with ⟨kind, version, grantId, workspaceId, personId, role, _ | epoch, _ | scope⟩ <;>
      simp [WorkspaceGrantPayload.ofValue, WorkspaceGrantPayload.fields, Value.structField,
        List.lookup_cons, optionalField, fromOptional]

/-! ## Checks -/

def AutomationGrantScope.validate (s : AutomationGrantScope) : Except String Unit := do
  let columns := [s.columns.lead, s.columns.interview, s.columns.rejected] ++
    s.columns.applied.toList
  refuse (columns.toFinset.card ≠ columns.length ∨ (s.version ≠ 1 ∧ s.version ≠ 2) ∨
    s.boardId = "" ∨ "" ∈ columns ∨ s.columns.lead = s.columns.interview ∨
    s.columns.lead = s.columns.rejected ∨ s.columns.interview = s.columns.rejected ∨
    128 < s.fieldIds.length ∨ "" ∈ s.fieldIds) "Invalid automation grant scope"
  refuse (¬ s.fieldIds.Nodup) "Invalid automation grant scope"

/-- The role and the scope of a grant go together. -/
def checkRoleScope (role : WorkspaceRole) (automation : Option AutomationGrantScope) :
    Except String Unit :=
  match role, automation with
  | .automation, some scope => scope.validate
  | .automation, none => .error "Invalid workspace grant role and scope"
  | _, some _ => .error "Invalid workspace grant role and scope"
  | _, none => .ok ()

section Verification

variable (P : Primitives)

/-- Legacy invitations used the identity root key while labeling the envelope
with the active device id, so the root key is tried first. -/
def verifyWorkspaceGrant (grant : WorkspaceGrant) (workspaceId memberPersonId : String)
    (owner : PublicIdentity) (ownerCertificates : List DeviceCertificate) :
    Except String WorkspaceRole := do
  let payload := grant.payload
  refuse (payload.kind ≠ "workspace-grant" ∨ payload.version ≠ 1 ∨
    payload.workspaceId ≠ workspaceId ∨ payload.personId ≠ memberPersonId ∨
    payload.grantId = "" ∨ payload.effectiveAccessEpoch = 0) "Invalid workspace grant"
  checkRoleScope payload.role payload.automation
  let ownerId ← publicKeyId P owner.publicKey
  refuse (owner.personId ≠ ownerId) "Invalid workspace owner"
  let byRoot ← verifySignedEnvelope P grant owner.publicKey defaultSignatureDomain
  if byRoot then
    .ok payload.role
  else do
    let signerKey ← mapErr (verifyDeviceCertificateChain P owner grant.signerKeyId
      ownerCertificates defaultSignatureDomain) "Invalid workspace grant signature"
    let byDevice ← verifySignedEnvelope P grant signerKey defaultSignatureDomain
    refuse (byDevice = false) "Invalid workspace grant signature"
    .ok payload.role

def verifyDeviceSignedEnvelope {T : Type} [Serialize T] (identity : PublicIdentity)
    (deviceId : String) (certificates : List DeviceCertificate) (envelope : SignedEnvelope T)
    (domain : String) : Except String Unit := do
  refuse (envelope.signerKeyId ≠ deviceId) "Signed envelope device mismatch"
  let devicePublicKey ← verifyDeviceCertificateChain P identity deviceId certificates
    defaultSignatureDomain
  let verified ← verifySignedEnvelope P envelope devicePublicKey domain
  refuse (verified = false) "Invalid signed envelope signature"

/-- A verified grant is the member's, and gives the role it names. -/
theorem verifyWorkspaceGrant_ok {P : Primitives} {grant : WorkspaceGrant}
    {workspaceId memberPersonId : String} {owner : PublicIdentity}
    {certificates : List DeviceCertificate} {role : WorkspaceRole}
    (verified : verifyWorkspaceGrant P grant workspaceId memberPersonId owner certificates =
      .ok role) :
    role = grant.payload.role ∧ grant.payload.personId = memberPersonId ∧
      publicKeyId P owner.publicKey = .ok owner.personId ∧
      (verifySignedEnvelope P grant owner.publicKey defaultSignatureDomain = .ok true ∨
        ∃ key, verifyDeviceCertificateChain P owner grant.signerKeyId certificates
            defaultSignatureDomain = .ok key ∧
          verifySignedEnvelope P grant key defaultSignatureDomain = .ok true) := by
  obtain ⟨fields, verified⟩ := refuse_bind_ok.mp verified
  simp only [not_or, not_not] at fields
  obtain ⟨_, _, verified⟩ := bind_ok.mp verified
  obtain ⟨ownerId, hashed, verified⟩ := bind_ok.mp verified
  obtain ⟨same, verified⟩ := refuse_bind_ok.mp verified
  obtain ⟨byRoot, checked, verified⟩ := bind_ok.mp verified
  rw [← not_not.mp same] at hashed
  split at verified
  · next root =>
    exact ⟨(Except.ok.inj verified).symm, fields.2.2.2.1, hashed, .inl (root ▸ checked)⟩
  · obtain ⟨key, certified, verified⟩ := bind_ok.mp verified
    obtain ⟨byDevice, signed, verified⟩ := bind_ok.mp verified
    obtain ⟨good, same⟩ := refuse_bind_ok.mp verified
    rw [Bool.not_eq_false] at good
    exact ⟨(Except.ok.inj same).symm, fields.2.2.2.1, hashed,
      .inr ⟨key, mapErr_ok.mp certified, good ▸ signed⟩⟩

end Verification

end MetaMesh
