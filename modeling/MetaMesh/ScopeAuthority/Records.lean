import MetaMesh.Authority

/-!
# Records of a scope's authority

The signed records of `scope_authority.rs`: a genesis names the creator, who controls the
scope in its first epoch; control passes on by transfers and by claims of a successor;
grants give people capabilities, and revocations take grants back.  Each is signed by an
authority, with its root key or with a device it certified.
-/

namespace MetaMesh

open Fallible

def scopeAuthorityVersion : UInt8 := 1
def maxScopeCapabilities : Nat := 16
def maxScopeGrants : Nat := 4096
def maxScopeRevocations : Nat := 4096
def maxScopeControlTransfers : Nat := 128
def maxScopeSuccessionTransfers : Nat := 128

/-- A person with the certificates of their devices. -/
structure ScopeAuthority where
  personId : String
  publicKey : String
  certificates : List DeviceCertificate
deriving DecidableEq, Repr

namespace ScopeAuthority

def identity (a : ScopeAuthority) : PublicIdentity :=
  ⟨a.personId, a.publicKey, ""⟩

/-- The same person, as the owner of a workspace. -/
def asOwner (a : ScopeAuthority) : WorkspaceAuthority :=
  ⟨a.personId, a.publicKey, a.certificates⟩

end ScopeAuthority

instance : Serialize ScopeAuthority where
  toValue a := .object [("personId", toValue a.personId), ("publicKey", toValue a.publicKey),
    ("certificates", toValue a.certificates)]

/-- A scope is created. -/
structure ScopeGenesisPayload where
  kind : String
  version : UInt8
  scopeId : String
  creator : ScopeAuthority
  controlEpoch : Nat
deriving DecidableEq, Repr

abbrev SignedScopeGenesis := SignedEnvelope ScopeGenesisPayload

/-- What a grant allows. -/
inductive ScopeCapability
  | read
  | write
  | invite
  | manageMembers
  | grant
  | control
deriving DecidableEq, Repr

namespace ScopeCapability

def text : ScopeCapability → String
  | read => "read"
  | write => "write"
  | invite => "invite"
  | manageMembers => "managemembers"
  | grant => "grant"
  | control => "control"

/-- `capability_rank`. -/
def rank : ScopeCapability → Nat
  | read => 0
  | write => 1
  | invite => 2
  | manageMembers => 3
  | grant => 4
  | control => 5

end ScopeCapability

instance : Serialize ScopeCapability := ⟨fun c => .string c.text⟩

/-- Someone is given capabilities. -/
structure ScopeCapabilityGrantPayload where
  kind : String
  version : UInt8
  scopeId : String
  grantId : String
  issuerPersonId : String
  subjectPersonId : String
  capabilities : List ScopeCapability
  controlEpoch : Nat
deriving DecidableEq, Repr

abbrev ScopeCapabilityGrant := SignedEnvelope ScopeCapabilityGrantPayload

/-- Who signed a grant that the controller did not issue; not signed itself. -/
structure ScopeGrantIssuerEvidence where
  grantId : String
  issuer : ScopeAuthority
deriving DecidableEq, Repr

/-- A grant is taken back. -/
structure ScopeCapabilityRevocationPayload where
  kind : String
  version : UInt8
  scopeId : String
  grantId : String
  revokedByPersonId : String
  controlEpoch : Nat
deriving DecidableEq, Repr

abbrev ScopeCapabilityRevocation := SignedEnvelope ScopeCapabilityRevocationPayload

/-- The controller hands the scope over. -/
structure ScopeControlTransferPayload where
  kind : String
  version : UInt8
  scopeId : String
  fromControllerPersonId : String
  toController : ScopeAuthority
  fromControlEpoch : Nat
  toControlEpoch : Nat
deriving DecidableEq, Repr

abbrev ScopeControlTransfer := SignedEnvelope ScopeControlTransferPayload

/-- A claim to a workspace that also transfers control of its scope. -/
structure ScopeSuccessionTransfer where
  fromControlEpoch : Nat
  claim : WorkspaceSuccessionClaim
  revocations : List WorkspaceRevocation
deriving DecidableEq, Repr

/-- All records of a scope. -/
structure ScopeAuthoritySnapshot where
  genesis : SignedScopeGenesis
  grants : List ScopeCapabilityGrant
  grantIssuers : List ScopeGrantIssuerEvidence
  revocations : List ScopeCapabilityRevocation
  controlTransfers : List ScopeControlTransfer
  successionTransfers : List ScopeSuccessionTransfer
deriving DecidableEq, Repr

instance : Serialize ScopeGenesisPayload where
  toValue p := .object [("kind", toValue p.kind), ("version", toValue p.version),
    ("scopeId", toValue p.scopeId), ("creator", toValue p.creator),
    ("controlEpoch", toValue p.controlEpoch)]

instance : Serialize ScopeCapabilityGrantPayload where
  toValue p := .object [("kind", toValue p.kind), ("version", toValue p.version),
    ("scopeId", toValue p.scopeId), ("grantId", toValue p.grantId),
    ("issuerPersonId", toValue p.issuerPersonId), ("subjectPersonId", toValue p.subjectPersonId),
    ("capabilities", toValue p.capabilities), ("controlEpoch", toValue p.controlEpoch)]

instance : Serialize ScopeCapabilityRevocationPayload where
  toValue p := .object [("kind", toValue p.kind), ("version", toValue p.version),
    ("scopeId", toValue p.scopeId), ("grantId", toValue p.grantId),
    ("revokedByPersonId", toValue p.revokedByPersonId), ("controlEpoch", toValue p.controlEpoch)]

instance : Serialize ScopeControlTransferPayload where
  toValue p := .object [("kind", toValue p.kind), ("version", toValue p.version),
    ("scopeId", toValue p.scopeId), ("fromControllerPersonId", toValue p.fromControllerPersonId),
    ("toController", toValue p.toController), ("fromControlEpoch", toValue p.fromControlEpoch),
    ("toControlEpoch", toValue p.toControlEpoch)]

section Verification

variable (P : Primitives)

/-- `ScopeAuthority::validate`. -/
def ScopeAuthority.validate (a : ScopeAuthority) : Except String Unit := do
  refuse (a.personId = "" ∨ a.publicKey = "" ∨ a.certificates = []) "Invalid scope authority"
  let id ← publicKeyId P a.publicKey
  refuse (id ≠ a.personId) "Invalid scope authority"

def verifyAuthorityEnvelope {T : Type} [Serialize T] (record : SignedEnvelope T)
    (authority : ScopeAuthority) (label : String) : Except String Unit := do
  authority.validate P
  if ← verifySignedEnvelope P record authority.publicKey defaultSignatureDomain then .ok ()
  else
    let deviceKey ← mapErr (verifyDeviceCertificateChain P authority.identity record.signerKeyId
      authority.certificates defaultSignatureDomain) s!"Invalid {label} signer"
    let verified ← verifySignedEnvelope P record deviceKey defaultSignatureDomain
    refuse (verified = false) s!"Invalid {label} signature"

def validScopeId (value : String) : Except String Unit :=
  refuse (value = "" ∨ 512 < value.utf8ByteSize) "Invalid scope id"

def duplicateCapabilities (capabilities : List ScopeCapability) : Bool :=
  ¬ (capabilities.map ScopeCapability.rank).Nodup

def verifyScopeGenesis (record : SignedScopeGenesis) : Except String ScopeGenesisPayload := do
  let p := record.payload
  refuse (p.kind ≠ "scope-genesis" ∨ p.version ≠ scopeAuthorityVersion ∨ p.controlEpoch ≠ 1)
    "Invalid scope genesis"
  validScopeId p.scopeId
  p.creator.validate P
  verifyAuthorityEnvelope P record p.creator "scope genesis"
  .ok p

def verifyScopeCapabilityGrant (record : ScopeCapabilityGrant) (scopeId : String)
    (issuer : ScopeAuthority) : Except String Unit := do
  let p := record.payload
  refuse (p.kind ≠ "scope-capability-grant" ∨ p.version ≠ scopeAuthorityVersion ∨
    p.scopeId ≠ scopeId ∨ p.grantId = "" ∨ p.issuerPersonId ≠ issuer.personId ∨
    p.subjectPersonId = "" ∨ p.capabilities = [] ∨ maxScopeCapabilities < p.capabilities.length ∨
    duplicateCapabilities p.capabilities = true ∨ .control ∈ p.capabilities)
    "Invalid scope capability grant"
  verifyAuthorityEnvelope P record issuer "scope capability grant"

def verifyScopeCapabilityRevocation (record : ScopeCapabilityRevocation) (scopeId : String)
    (controller : ScopeAuthority) : Except String Unit := do
  let p := record.payload
  refuse (p.kind ≠ "scope-capability-revocation" ∨ p.version ≠ scopeAuthorityVersion ∨
    p.scopeId ≠ scopeId ∨ p.grantId = "" ∨ p.revokedByPersonId ≠ controller.personId)
    "Invalid scope capability revocation"
  verifyAuthorityEnvelope P record controller "scope capability revocation"

def verifyScopeControlTransfer (record : ScopeControlTransfer) (scopeId : String)
    (controller : ScopeAuthority) : Except String Unit := do
  let p := record.payload
  refuse (p.kind ≠ "scope-control-transfer" ∨ p.version ≠ scopeAuthorityVersion ∨
    p.scopeId ≠ scopeId ∨ p.fromControllerPersonId ≠ controller.personId ∨
    p.fromControlEpoch = 0 ∨ p.toControlEpoch = 0 ∨
    p.toController.personId = controller.personId) "Invalid scope control transfer"
  p.toController.validate P
  verifyAuthorityEnvelope P record controller "scope control transfer"

theorem payload_of_verifyScopeGenesis {P : Primitives} {record : SignedScopeGenesis}
    {p : ScopeGenesisPayload} (verified : verifyScopeGenesis P record = .ok p) :
    p = record.payload := by
  obtain ⟨_, verified⟩ := refuse_bind_ok.mp verified
  obtain ⟨_, _, verified⟩ := bind_ok.mp verified
  obtain ⟨_, _, verified⟩ := bind_ok.mp verified
  obtain ⟨_, _, verified⟩ := bind_ok.mp verified
  exact (Except.ok.inj verified).symm

/-- A verified grant never gives control. -/
theorem control_notMem_of_verified {P : Primitives} {record : ScopeCapabilityGrant}
    {scopeId : String} {issuer : ScopeAuthority}
    (verified : verifyScopeCapabilityGrant P record scopeId issuer = .ok ()) :
    ScopeCapability.control ∉ record.payload.capabilities := by
  obtain ⟨fields, _⟩ := refuse_bind_ok.mp verified
  simp only [not_or] at fields
  exact fields.2.2.2.2.2.2.2.2.2

end Verification

end MetaMesh
