import Mathlib.Data.Finset.Card
import MetaMesh.Identity

/-!
# Co-ownership records

The first half of `coownership.rs`: the signed records of a shared-owner
ledger, the checks on one record, and the count of approvals.  A ledger has one
genesis and two kinds of later record, transitions and resolutions, each with
the approvals of the owners that its parent certificate names.

Not modelled: the signing functions and the strict field sets of the
deserializers.
-/

namespace MetaMesh

open Fallible

def coownershipVersion : UInt8 := 2
def maxCoownershipOwners : Nat := 64
def maxCoownershipTransitions : Nat := 4096
def maxCoownershipResolutions : Nat := 4096
def maxCoownershipApprovals : Nat := maxCoownershipOwners * 32
def maxCoownershipLedgerBytes : Nat := 16 * 1024 * 1024
def maxScopeIdBytes : Nat := 512
def maxCoownershipPayloadBytes : Nat := 256 * 1024

/-- How many owners have to agree. -/
inductive CoownerPolicy
  | majority
  | unanimous
deriving DecidableEq, Repr

def CoownerPolicy.quorum : CoownerPolicy → Nat → Nat
  | majority, owners => owners / 2 + 1
  | unanimous, owners => owners

instance : Serialize CoownerPolicy where
  toValue
    | .majority => .string "majority"
    | .unanimous => .string "unanimous"

/-- An owner's signature over a payload. -/
structure CoownedApproval where
  signerKeyId : String
  signature : String
deriving DecidableEq, Repr

/-- Public owner identity and its certified signing devices. -/
structure CoownerIdentity where
  personId : String
  publicKey : String
  certificates : List DeviceCertificate
deriving DecidableEq, Repr

/-- The first owners. -/
structure CoownedGenesisPayload where
  kind : String
  version : UInt8
  scopeId : String
  creator : CoownerIdentity
  policy : CoownerPolicy
  epoch : Nat
deriving DecidableEq, Repr

/-- The owners change. -/
structure CoownedTransitionPayload where
  kind : String
  version : UInt8
  scopeId : String
  parentCertificateHash : String
  epoch : Nat
  owners : List CoownerIdentity
  policy : CoownerPolicy
deriving DecidableEq, Repr

/-- One of several successors is chosen. -/
structure CoownedResolutionPayload where
  kind : String
  version : UInt8
  scopeId : String
  parentCertificateHash : String
  epoch : Nat
  /-- Sorted certificate hashes of all known siblings, excluding this resolution. -/
  conflictingCertificateHashes : List String
  owners : List CoownerIdentity
  policy : CoownerPolicy
deriving DecidableEq, Repr

/-- A payload with its approvals: `CoownedTransition` and `CoownedResolution`. -/
structure CoownedRecord (T : Type) where
  payload : T
  approvals : List CoownedApproval
deriving DecidableEq, Repr

abbrev CoownedTransition := CoownedRecord CoownedTransitionPayload
abbrev CoownedResolution := CoownedRecord CoownedResolutionPayload

/-- `CoownedSignedRecord` has the fields of a `SignedEnvelope`. -/
abbrev SignedCoownedGenesis := SignedEnvelope CoownedGenesisPayload

/-- All records of a co-owned workspace. -/
structure CoownershipLedger where
  genesis : SignedCoownedGenesis
  transitions : List CoownedTransition
  resolutions : List CoownedResolution
deriving DecidableEq, Repr

/-! ## Text of the records -/

instance : Serialize CoownedApproval where
  toValue a := .object [("signerKeyId", toValue a.signerKeyId), ("signature", toValue a.signature)]

instance : Serialize CoownerIdentity where
  toValue o := .object [("personId", toValue o.personId), ("publicKey", toValue o.publicKey),
    ("certificates", toValue o.certificates)]

instance : Serialize CoownedGenesisPayload where
  toValue p := .object [("kind", toValue p.kind), ("version", toValue p.version),
    ("scopeId", toValue p.scopeId), ("creator", toValue p.creator),
    ("policy", toValue p.policy), ("epoch", toValue p.epoch)]

instance : Serialize CoownedTransitionPayload where
  toValue p := .object [("kind", toValue p.kind), ("version", toValue p.version),
    ("scopeId", toValue p.scopeId),
    ("parentCertificateHash", toValue p.parentCertificateHash),
    ("epoch", toValue p.epoch), ("owners", toValue p.owners), ("policy", toValue p.policy)]

instance : Serialize CoownedResolutionPayload where
  toValue p := .object [("kind", toValue p.kind), ("version", toValue p.version),
    ("scopeId", toValue p.scopeId),
    ("parentCertificateHash", toValue p.parentCertificateHash), ("epoch", toValue p.epoch),
    ("conflictingCertificateHashes", toValue p.conflictingCertificateHashes),
    ("owners", toValue p.owners), ("policy", toValue p.policy)]

instance {T : Type} [Serialize T] : Serialize (CoownedRecord T) where
  toValue r := .object [("payload", toValue r.payload), ("approvals", toValue r.approvals)]

instance : Serialize CoownershipLedger where
  toValue l := .object [("genesis", toValue l.genesis), ("transitions", toValue l.transitions),
    ("resolutions", toValue l.resolutions)]

/-- A certificate of the graph, whichever record made it. -/
structure Node where
  scopeId : String
  epoch : Nat
  owners : List CoownerIdentity
  policy : CoownerPolicy
deriving DecidableEq, Repr

def nodeFromTransition (payload : CoownedTransitionPayload) : Node :=
  ⟨payload.scopeId, payload.epoch, payload.owners, payload.policy⟩

def nodeFromResolution (payload : CoownedResolutionPayload) : Node :=
  ⟨payload.scopeId, payload.epoch, payload.owners, payload.policy⟩

section Checks

variable (P : Primitives) {T : Type} [Serialize T]

/-! ## Checks on one record -/

def validateSerializedLimit (value : T) (limit : Nat) : Except String Unit :=
  refuse (limit < (toValue value).toVec.length) "Co-ownership ledger byte limit exceeded"

variable (payload : T)

def validatePayloadSize : Except String Unit := do
  let canonical ← canonicalizeJson P (toValue payload)
  refuse (maxCoownershipPayloadBytes < canonical.length) "Co-ownership payload limit exceeded"

def payloadHash : Except String String := do
  let canonical ← canonicalizeJson P (toValue payload)
  refuse (maxCoownershipPayloadBytes < canonical.length) "Co-ownership payload limit exceeded"
  .ok (P.base64Encode (P.sha256 canonical))

def validateScopeId (value : String) : Except String Unit :=
  refuse (value = "" ∨ maxScopeIdBytes < value.utf8ByteSize) "Invalid co-ownership scope id"

/-- `checked_add` on a `u64`. -/
def nextEpoch (epoch : Nat) : Except String Nat := do
  refuse (2 ^ 64 ≤ epoch + 1) "Co-ownership epoch overflow"
  .ok (epoch + 1)

def CoownerIdentity.validate (owner : CoownerIdentity) : Except String Unit := do
  validateSerializedLimit owner maxCoownershipPayloadBytes
  refuse (owner.personId = "" ∨ maxScopeIdBytes < owner.personId.utf8ByteSize ∨
    owner.publicKey.utf8ByteSize ≠ 43 ∨ owner.certificates = [] ∨
    maxCertificateChainLength < owner.certificates.length) "Invalid co-owner identity"
  let keyId ← publicKeyId P owner.publicKey
  refuse (keyId ≠ owner.personId) "Invalid co-owner identity"
  owner.certificates.forM fun certificate =>
    refuse (certificate.signature.utf8ByteSize ≠ 86) "Invalid co-owner certificate signature length"
  let identity : PublicIdentity := ⟨owner.personId, owner.publicKey, ""⟩
  let device := (owner.certificates.head?.map fun leaf => leaf.payload.deviceId).getD ""
  let _ ← verifyDeviceCertificateChain P identity device owner.certificates
    defaultSignatureDomain
  .ok ()

def validateGenesis (payload : CoownedGenesisPayload) : Except String Unit := do
  validateScopeId payload.scopeId
  refuse (payload.kind ≠ "scope-coownership-genesis" ∨ payload.version ≠ coownershipVersion ∨
    payload.epoch ≠ 1) "Invalid co-ownership genesis"
  validatePayloadSize P payload

def validateCommonPayload (kind : String) (version : UInt8) (scopeId parentHash : String)
    (epoch : Nat) (parent : Node) (expectedKind : String) : Except String Unit := do
  let expectedEpoch ← nextEpoch parent.epoch
  refuse (kind ≠ expectedKind ∨ version ≠ coownershipVersion ∨ scopeId ≠ parent.scopeId ∨
    parentHash.utf8ByteSize ≠ 43 ∨ epoch ≠ expectedEpoch)
    "Invalid co-ownership transition parent or epoch"

variable (owners : List CoownerIdentity)

def validateOwnerSet : Except String Unit := do
  validateSerializedLimit owners maxCoownershipPayloadBytes
  refuse (owners = [] ∨ maxCoownershipOwners < owners.length) "Invalid co-owner count"
  refuse (¬ owners.IsChain fun a b => strKey a.personId < strKey b.personId)
    "Co-owners must be unique and sorted by person id"
  owners.forM (CoownerIdentity.validate P)

def validateTransition (payload : CoownedTransitionPayload) (parent : Node) :
    Except String Unit := do
  validateCommonPayload payload.kind payload.version payload.scopeId
    payload.parentCertificateHash payload.epoch parent "scope-coownership-transition"
  validateOwnerSet P payload.owners
  validatePayloadSize P payload

def validateResolution (payload : CoownedResolutionPayload) (parent : Node) :
    Except String Unit := do
  validateCommonPayload payload.kind payload.version payload.scopeId
    payload.parentCertificateHash payload.epoch parent "scope-coownership-resolution"
  validateOwnerSet P payload.owners
  refuse (payload.conflictingCertificateHashes.length < 2 ∨
    maxCoownershipTransitions + maxCoownershipResolutions <
      payload.conflictingCertificateHashes.length ∨
    (¬ payload.conflictingCertificateHashes.IsChain fun a b => strKey a < strKey b) ∨
    ∃ hash ∈ payload.conflictingCertificateHashes, hash.utf8ByteSize ≠ 43)
    "Invalid co-ownership conflict references"
  validatePayloadSize P payload

/-! ## Signatures and approvals -/

/-- The signature is the owner's, by the root key or by a certified device. -/
def verifyForOwner (record : SignedEnvelope T) (owner : CoownerIdentity) : Except String Unit := do
  let byRoot ← if record.signerKeyId = owner.personId then
      verifySignedEnvelope P record owner.publicKey defaultSignatureDomain
    else .ok false
  if byRoot then .ok () else do
    let identity : PublicIdentity := ⟨owner.personId, owner.publicKey, ""⟩
    let deviceKey ← verifyDeviceCertificateChain P identity record.signerKeyId
      owner.certificates defaultSignatureDomain
    let verified ← verifySignedEnvelope P record deviceKey defaultSignatureDomain
    refuse (verified = false) "Invalid co-ownership signature"

def verifySignedRecord (record : SignedEnvelope T) (owner : CoownerIdentity) :
    Except String Unit := do
  refuse (record.signature.utf8ByteSize ≠ 86) "Invalid co-ownership signature length"
  verifyForOwner P record owner

/-- The one owner whose signature an approval is. -/
def approvalSigner (approval : CoownedApproval) : Except String String := do
  let signed : SignedEnvelope T := ⟨payload, approval.signerKeyId, approval.signature⟩
  let matched ← owners.foldlM
    (fun matched owner =>
      if (verifyForOwner P signed owner).isOk then do
        refuse (Option.isSome matched = true) "Ambiguous co-ownership signer"
        .ok (some owner.personId)
      else .ok matched)
    (none : Option String)
  okOr matched "Invalid co-ownership signer"

/-- The signatures and the people seen so far. -/
structure Tally where
  seenSignatures : Finset (String × String)
  approvedPeople : Finset String

def countApproval (tally : Tally) (approval : CoownedApproval) : Except String Tally := do
  refuse (approval.signerKeyId = "" ∨ maxScopeIdBytes < approval.signerKeyId.utf8ByteSize ∨
    approval.signature.utf8ByteSize ≠ 86 ∨
    (approval.signerKeyId, approval.signature) ∈ tally.seenSignatures)
    "Invalid duplicate co-ownership approval"
  let person ← approvalSigner P payload owners approval
  .ok ⟨insert (approval.signerKeyId, approval.signature) tally.seenSignatures,
    insert person tally.approvedPeople⟩

/-- A quorum of distinct owners signed the payload. -/
def verifyApprovals (approvals : List CoownedApproval) (owners : List CoownerIdentity)
    (policy : CoownerPolicy) : Except String Unit := do
  refuse (approvals = [] ∨ maxCoownershipApprovals < approvals.length)
    "Invalid co-ownership approval count"
  let tally ← approvals.foldlM (countApproval P payload owners) ⟨∅, ∅⟩
  refuse (tally.approvedPeople.card < policy.quorum owners.length)
    "Insufficient distinct co-owner approvals"

end Checks

end MetaMesh
