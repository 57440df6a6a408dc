import Mathlib.Data.Finset.Card
import MetaMesh.Grant

/-!
# Workspace authority records

`authority.rs`: the signed records that change who may do what in a workspace,
and the check of each against the authority that has to sign it.  A transfer or
a succession claim names the next owner; a revocation, a departure or a device
revocation closes off a person or a device at a frontier of document heads.

Times are milliseconds; `nowMs` is an `i128` in the source.
-/

namespace MetaMesh

open Fallible

def maxAuthorityRecordBytes : Nat := 64 * 1024
def maxSuccessionClaimBytes : Nat := 128 * 1024
def maxSuccessionEditors : Nat := 32
def maxWorkspaceHeads : Nat := 256
def maxAuthorityFutureMs : Int := 5 * 60 * 1000

/-- A person with the certificates of their devices. -/
structure WorkspaceAuthority where
  personId : String
  publicKey : String
  certificates : List DeviceCertificate
deriving DecidableEq, Repr

def WorkspaceAuthority.identity (a : WorkspaceAuthority) : PublicIdentity :=
  ⟨a.personId, a.publicKey, ""⟩

/-- The owner takes a member out. -/
structure WorkspaceRevocationPayload where
  kind : String
  version : UInt8
  workspaceId : String
  ownerPersonId : String
  personId : String
  epoch : Nat
  workspaceHeads : List String
  revokedAt : String
deriving DecidableEq, Repr

abbrev WorkspaceRevocation := SignedEnvelope WorkspaceRevocationPayload

/-- A member leaves. -/
structure WorkspaceDeparturePayload where
  kind : String
  version : UInt8
  workspaceId : String
  personId : String
  accessEpoch : Nat
  workspaceHeads : List String
  leftAt : String
deriving DecidableEq, Repr

abbrev WorkspaceDeparture := SignedEnvelope WorkspaceDeparturePayload

/-- A device removal is scoped to one workspace and preserves person membership;
with `restores` the record takes back the removals it names. -/
structure WorkspaceDeviceRevocationPayload where
  kind : String
  version : UInt8
  workspaceId : String
  personId : String
  deviceId : String
  workspaceHeads : List String
  revokedAt : String
  restores : Option (List String)
deriving DecidableEq, Repr

abbrev WorkspaceDeviceRevocation := SignedEnvelope WorkspaceDeviceRevocationPayload

/-- The owner hands the workspace to someone. -/
structure WorkspaceOwnershipTransferPayload where
  kind : String
  version : UInt8
  workspaceId : String
  fromOwnerPersonId : String
  toOwnerPersonId : String
  toOwnerPublicKey : String
  toOwnerCertificates : List DeviceCertificate
  toOwnerGrant : WorkspaceGrant
  formerOwnerGrant : WorkspaceGrant
  workspaceHeads : List String
  epoch : Nat
  transferredAt : String
deriving DecidableEq, Repr

abbrev WorkspaceOwnershipTransfer := SignedEnvelope WorkspaceOwnershipTransferPayload

/-- Who may take over from an absent owner, and when. -/
structure WorkspaceSuccessionPolicyPayload where
  kind : String
  version : UInt8
  workspaceId : String
  ownerPersonId : String
  successorPersonId : Option String
  eligibleEditorPersonIds : List String
  epoch : Nat
  updatedAt : String
deriving DecidableEq, Repr

abbrev WorkspaceSuccessionPolicy := SignedEnvelope WorkspaceSuccessionPolicyPayload

/-- An editor's vote for a successor. -/
structure WorkspaceSuccessionVotePayload where
  kind : String
  version : UInt8
  workspaceId : String
  ownerPersonId : String
  voterPersonId : String
  candidatePersonId : String
  policySignature : String
  votedAt : String
deriving DecidableEq, Repr

/-- A vote with the grant of the voter. -/
structure WorkspaceSuccessionVote where
  signed : SignedEnvelope WorkspaceSuccessionVotePayload
  voterPublicKey : String
  voterCertificates : List DeviceCertificate
  voterGrant : WorkspaceGrant
deriving DecidableEq, Repr

/-- A successor claims the workspace. -/
structure WorkspaceSuccessionClaimPayload where
  kind : String
  version : UInt8
  workspaceId : String
  fromOwnerPersonId : String
  toOwnerPersonId : String
  toOwnerPublicKey : String
  toOwnerCertificates : List DeviceCertificate
  candidateGrant : WorkspaceGrant
  formerOwnerGrant : WorkspaceGrant
  policy : WorkspaceSuccessionPolicy
  votes : List WorkspaceSuccessionVote
  workspaceHeads : List String
  epoch : Nat
  claimedAt : String
deriving DecidableEq, Repr

abbrev WorkspaceSuccessionClaim := SignedEnvelope WorkspaceSuccessionClaimPayload

/-- The authority a transfer hands over to. -/
def WorkspaceOwnershipTransferPayload.nextAuthority (p : WorkspaceOwnershipTransferPayload) :
    WorkspaceAuthority :=
  ⟨p.toOwnerPersonId, p.toOwnerPublicKey, p.toOwnerCertificates⟩

/-- The authority a claim installs. -/
def WorkspaceSuccessionClaimPayload.nextAuthority (p : WorkspaceSuccessionClaimPayload) :
    WorkspaceAuthority :=
  ⟨p.toOwnerPersonId, p.toOwnerPublicKey, p.toOwnerCertificates⟩

/-! ## Text of the records -/

instance : Serialize WorkspaceRevocationPayload where
  toValue p := .object [("kind", toValue p.kind), ("version", toValue p.version),
    ("workspaceId", toValue p.workspaceId), ("ownerPersonId", toValue p.ownerPersonId),
    ("personId", toValue p.personId), ("epoch", toValue p.epoch),
    ("workspaceHeads", toValue p.workspaceHeads), ("revokedAt", toValue p.revokedAt)]

instance : Serialize WorkspaceDeparturePayload where
  toValue p := .object [("kind", toValue p.kind), ("version", toValue p.version),
    ("workspaceId", toValue p.workspaceId), ("personId", toValue p.personId),
    ("accessEpoch", toValue p.accessEpoch), ("workspaceHeads", toValue p.workspaceHeads),
    ("leftAt", toValue p.leftAt)]

instance : Serialize WorkspaceDeviceRevocationPayload where
  toValue p := .object ([("kind", toValue p.kind), ("version", toValue p.version),
    ("workspaceId", toValue p.workspaceId), ("personId", toValue p.personId),
    ("deviceId", toValue p.deviceId), ("workspaceHeads", toValue p.workspaceHeads),
    ("revokedAt", toValue p.revokedAt)] ++ optionalField "restores" p.restores)

def WorkspaceOwnershipTransferPayload.fields (p : WorkspaceOwnershipTransferPayload) :
    List (String × Value) :=
  [("kind", toValue p.kind), ("version", toValue p.version),
    ("workspaceId", toValue p.workspaceId), ("fromOwnerPersonId", toValue p.fromOwnerPersonId),
    ("toOwnerPersonId", toValue p.toOwnerPersonId),
    ("toOwnerPublicKey", toValue p.toOwnerPublicKey),
    ("toOwnerCertificates", toValue p.toOwnerCertificates),
    ("toOwnerGrant", toValue p.toOwnerGrant), ("formerOwnerGrant", toValue p.formerOwnerGrant),
    ("workspaceHeads", toValue p.workspaceHeads), ("epoch", toValue p.epoch),
    ("transferredAt", toValue p.transferredAt)]

def WorkspaceOwnershipTransferPayload.ofValue (v : Value) :
    Option WorkspaceOwnershipTransferPayload := do
  let field := fun name => v.structField ["kind", "version", "workspaceId", "fromOwnerPersonId",
    "toOwnerPersonId", "toOwnerPublicKey", "toOwnerCertificates", "toOwnerGrant",
    "formerOwnerGrant", "workspaceHeads", "epoch", "transferredAt"] name
  some ⟨← fromField (field "kind"), ← fromField (field "version"),
    ← fromField (field "workspaceId"), ← fromField (field "fromOwnerPersonId"),
    ← fromField (field "toOwnerPersonId"), ← fromField (field "toOwnerPublicKey"),
    ← fromField (field "toOwnerCertificates"), ← fromField (field "toOwnerGrant"),
    ← fromField (field "formerOwnerGrant"), ← fromField (field "workspaceHeads"),
    ← fromField (field "epoch"), ← fromField (field "transferredAt")⟩

instance : Serialize WorkspaceOwnershipTransferPayload := ⟨fun p => .object p.fields⟩
instance : Deserialize WorkspaceOwnershipTransferPayload :=
  ⟨WorkspaceOwnershipTransferPayload.ofValue⟩

instance : RoundTrip WorkspaceOwnershipTransferPayload where
  fromValue_toValue p := by
    show WorkspaceOwnershipTransferPayload.ofValue (.object p.fields) = some p
    simp [WorkspaceOwnershipTransferPayload.ofValue, WorkspaceOwnershipTransferPayload.fields,
      Value.structField, List.lookup_cons]

instance : Serialize WorkspaceSuccessionPolicyPayload where
  toValue p := .object [("kind", toValue p.kind), ("version", toValue p.version),
    ("workspaceId", toValue p.workspaceId), ("ownerPersonId", toValue p.ownerPersonId),
    ("successorPersonId", toValue p.successorPersonId),
    ("eligibleEditorPersonIds", toValue p.eligibleEditorPersonIds),
    ("epoch", toValue p.epoch), ("updatedAt", toValue p.updatedAt)]

instance : Serialize WorkspaceSuccessionVotePayload where
  toValue p := .object [("kind", toValue p.kind), ("version", toValue p.version),
    ("workspaceId", toValue p.workspaceId), ("ownerPersonId", toValue p.ownerPersonId),
    ("voterPersonId", toValue p.voterPersonId),
    ("candidatePersonId", toValue p.candidatePersonId),
    ("policySignature", toValue p.policySignature), ("votedAt", toValue p.votedAt)]

instance : Serialize WorkspaceSuccessionVote where
  toValue v := .object [("signed", toValue v.signed), ("voterPublicKey", toValue v.voterPublicKey),
    ("voterCertificates", toValue v.voterCertificates), ("voterGrant", toValue v.voterGrant)]

instance : Serialize WorkspaceSuccessionClaimPayload where
  toValue p := .object [("kind", toValue p.kind), ("version", toValue p.version),
    ("workspaceId", toValue p.workspaceId), ("fromOwnerPersonId", toValue p.fromOwnerPersonId),
    ("toOwnerPersonId", toValue p.toOwnerPersonId),
    ("toOwnerPublicKey", toValue p.toOwnerPublicKey),
    ("toOwnerCertificates", toValue p.toOwnerCertificates),
    ("candidateGrant", toValue p.candidateGrant),
    ("formerOwnerGrant", toValue p.formerOwnerGrant), ("policy", toValue p.policy),
    ("votes", toValue p.votes), ("workspaceHeads", toValue p.workspaceHeads),
    ("epoch", toValue p.epoch), ("claimedAt", toValue p.claimedAt)]

/-! ## Checks shared by the records -/

def validHeads (heads : List String) : Bool :=
  heads ≠ [] ∧ heads.length ≤ maxWorkspaceHeads ∧ "" ∉ heads

def bounded {T : Type} [Serialize T] (value : T) (maximum : Nat) (message : String) :
    Except String Unit :=
  refuse (maximum < (toValue value).toVec.length) message

section Verification

variable (P : Primitives)

/-- A time is written with milliseconds and `Z`, which is byte 90, and is at
most five minutes ahead. -/
def validTime (value : String) (nowMs : Int) : Except String Bool := do
  let nanos ← okOr (P.parseRfc3339 value) "Invalid authority timestamp"
  let timestampMs := nanos.tdiv 1000000
  .ok (value.utf8ByteSize = 24 ∧ (utf8 value).getLast? = some 90 ∧
    timestampMs ≤ nowMs + maxAuthorityFutureMs)

/-- The envelope is signed by the authority's root key or by one of its devices. -/
def verifyOwnerEnvelope {T : Type} [Serialize T] (envelope : SignedEnvelope T)
    (authority : WorkspaceAuthority) (label : String) : Except String Unit := do
  let key ← if envelope.signerKeyId = authority.personId then
      .ok authority.publicKey
    else
      mapErr (verifyDeviceCertificateChain P authority.identity envelope.signerKeyId
        authority.certificates defaultSignatureDomain) s!"Invalid {label} signature"
  let verified ← verifySignedEnvelope P envelope key defaultSignatureDomain
  refuse (verified = false) s!"Invalid {label} signature"

def validateAuthority (authority : WorkspaceAuthority) : Except String Unit := do
  refuse (authority.personId = "" ∨ authority.publicKey = "") "Invalid workspace authority"
  let id ← publicKeyId P authority.publicKey
  refuse (id ≠ authority.personId) "Invalid workspace authority"

/-! ## Removals -/

/-- A person leaves, signed by one of their own devices. -/
def verifyWorkspaceDeparture (record : WorkspaceDeparture) (workspaceId : String)
    (authority : WorkspaceAuthority) (nowMs : Int) : Except String Unit := do
  bounded record (32 * 1024) "Workspace departure too large"
  let p := record.payload
  refuse (p.kind ≠ "workspace-departure" ∨ p.version ≠ 1 ∨ p.workspaceId ≠ workspaceId ∨
    p.personId ≠ authority.personId ∨ p.accessEpoch < 1 ∨ validHeads p.workspaceHeads = false)
    "Invalid workspace departure"
  let id ← publicKeyId P authority.publicKey
  refuse (id ≠ authority.personId) "Invalid workspace departure"
  let timely ← validTime P p.leftAt nowMs
  refuse (timely = false) "Invalid workspace departure"
  verifyOwnerEnvelope P record authority "workspace departure"

/-- The signatures a restoration may name, and the device that may not sign it. -/
def invalidRestoration (signerKeyId deviceId : String) (signatures : List String) : Bool :=
  signatures = [] ∨ 512 < signatures.length ∨
    (signatures.any fun signature => signature = "" ∨ 128 < signature.utf8ByteSize) ∨
    signatures.toFinset.card ≠ signatures.length ∨ signerKeyId = deviceId

/-- A device is removed by the owner or by its own person. -/
def verifyWorkspaceDeviceRevocation (record : WorkspaceDeviceRevocation)
    (workspaceId ownerPersonId : String) (authority : WorkspaceAuthority) (nowMs : Int) :
    Except String Unit := do
  bounded record (32 * 1024) "Device revocation too large"
  let p := record.payload
  refuse (p.kind ≠ "workspace-device-revocation" ∨ p.version ≠ 1 ∨
    p.workspaceId ≠ workspaceId ∨ p.personId = "" ∨ p.deviceId = "" ∨
    validHeads p.workspaceHeads = false ∨
    (authority.personId ≠ ownerPersonId ∧ authority.personId ≠ p.personId))
    "Invalid workspace device revocation"
  let id ← publicKeyId P authority.publicKey
  refuse (id ≠ authority.personId) "Invalid workspace device revocation"
  let timely ← validTime P p.revokedAt nowMs
  refuse (timely = false ∨ p.restores.any (invalidRestoration record.signerKeyId p.deviceId) = true)
    "Invalid workspace device revocation"
  verifyOwnerEnvelope P record authority "workspace device revocation"

/-- The removals that a restoration takes back.  A restoration supersedes only
the removals it explicitly names. -/
def restoredDeviceRevocations
    (records : List (WorkspaceDeviceRevocation × WorkspaceAuthority)) (ownerPersonId : String) :
    Except String (Finset String) :=
  records.foldlM (fun restored (approval, signer) =>
    (approval.payload.restores.getD []).foldlM (fun restored signature => do
      let (removal, authority) ← okOr (records.find? fun entry => entry.1.signature = signature)
        "Device restoration is missing its removal evidence"
      refuse (removal.payload.restores.isSome ∨
        removal.payload.workspaceId ≠ approval.payload.workspaceId ∨
        removal.payload.personId ≠ approval.payload.personId ∨
        removal.payload.deviceId ≠ approval.payload.deviceId ∨
        (signer.personId ≠ ownerPersonId ∧ signer.personId ≠ authority.personId))
        "Device restoration does not authorize this removal"
      .ok (insert signature restored)) restored) ∅

/-- The owner revokes somebody else. -/
def verifyWorkspaceRevocation (record : WorkspaceRevocation) (workspaceId : String)
    (authority : WorkspaceAuthority) (nowMs : Int) : Except String Unit := do
  bounded record (32 * 1024) "Workspace revocation too large"
  let p := record.payload
  refuse (p.kind ≠ "workspace-revocation" ∨ p.version ≠ 1 ∨ p.workspaceId ≠ workspaceId ∨
    p.ownerPersonId ≠ authority.personId ∨ p.personId = "" ∨
    p.personId = authority.personId ∨ p.epoch < 2 ∨ validHeads p.workspaceHeads = false)
    "Invalid workspace revocation"
  let timely ← validTime P p.revokedAt nowMs
  refuse (timely = false) "Invalid workspace revocation"
  let id ← publicKeyId P authority.publicKey
  refuse (id ≠ authority.personId) "Invalid workspace revocation"
  verifyOwnerEnvelope P record authority "workspace revocation"

theorem owner_of_verifyWorkspaceRevocation {P : Primitives} {record : WorkspaceRevocation}
    {workspaceId : String} {authority : WorkspaceAuthority} {nowMs : Int}
    (verified : verifyWorkspaceRevocation P record workspaceId authority nowMs = .ok ()) :
    record.payload.ownerPersonId = authority.personId := by
  obtain ⟨fields, _⟩ := refuse_after_ok.mp verified
  simp only [not_or, not_not] at fields
  exact fields.2.2.2.1

/-! ## Changes of owner -/

/-- The owner signs the workspace over and stays as an editor. -/
def verifyWorkspaceOwnershipTransfer (record : WorkspaceOwnershipTransfer) (workspaceId : String)
    (authority : WorkspaceAuthority) (minimumEpoch : Nat) (nowMs : Int) : Except String Unit := do
  bounded record maxAuthorityRecordBytes "Workspace ownership transfer too large"
  let p := record.payload
  refuse (p.kind ≠ "workspace-ownership-transfer" ∨ p.version ≠ 1 ∨
    p.workspaceId ≠ workspaceId ∨ p.fromOwnerPersonId ≠ authority.personId ∨
    p.toOwnerPersonId = "" ∨ p.toOwnerPersonId = p.fromOwnerPersonId ∨
    p.toOwnerPublicKey = "" ∨ p.toOwnerCertificates = [] ∨
    validHeads p.workspaceHeads = false ∨ p.epoch ≤ minimumEpoch)
    "Invalid workspace ownership transfer"
  let timely ← validTime P p.transferredAt nowMs
  refuse (timely = false) "Invalid workspace ownership transfer"
  let fromId ← publicKeyId P authority.publicKey
  refuse (fromId ≠ authority.personId) "Invalid workspace ownership transfer"
  let toId ← publicKeyId P p.toOwnerPublicKey
  refuse (toId ≠ p.toOwnerPersonId) "Invalid workspace ownership transfer"
  let first ← okOr p.toOwnerCertificates.head? "Invalid workspace ownership transfer"
  let _ ← mapErr (verifyDeviceCertificateChain P p.nextAuthority.identity first.payload.deviceId
    p.toOwnerCertificates defaultSignatureDomain) "Invalid workspace ownership transfer"
  verifyOwnerEnvelope P record authority "ownership transfer"
  let toRole ← verifyWorkspaceGrant P p.toOwnerGrant workspaceId p.toOwnerPersonId
    authority.identity authority.certificates
  refuse (toRole ≠ .owner) "Invalid ownership transfer roles"
  let formerRole ← verifyWorkspaceGrant P p.formerOwnerGrant workspaceId p.fromOwnerPersonId
    authority.identity authority.certificates
  refuse (formerRole ≠ .editor) "Invalid ownership transfer roles"

section TransferFacts

variable {P} {record : WorkspaceOwnershipTransfer} {workspaceId : String}
  {authority : WorkspaceAuthority} {minimumEpoch : Nat} {nowMs : Int}

section

variable (verified : verifyWorkspaceOwnershipTransfer P record workspaceId authority minimumEpoch
  nowMs = .ok ())

include verified

theorem verifyWorkspaceOwnershipTransfer_fields :
    record.payload.fromOwnerPersonId = authority.personId ∧ record.payload.toOwnerPersonId ≠ "" ∧
      record.payload.toOwnerPersonId ≠ record.payload.fromOwnerPersonId ∧
      minimumEpoch < record.payload.epoch := by
  obtain ⟨fields, _⟩ := refuse_after_ok.mp verified
  simp only [not_or, not_not, not_le] at fields
  exact ⟨fields.2.2.2.1, fields.2.2.2.2.1, fields.2.2.2.2.2.1, fields.2.2.2.2.2.2.2.2.2⟩

/-- The minimum epoch enters the check only through its own comparison. -/
theorem verifyWorkspaceOwnershipTransfer_of_lt {other : Nat}
    (above : other < record.payload.epoch) :
    verifyWorkspaceOwnershipTransfer P record workspaceId authority other nowMs = .ok () := by
  obtain ⟨fields, rest⟩ := refuse_after_ok.mp verified
  refine refuse_after_ok.mpr ⟨?_, rest⟩
  simp only [not_or, not_not, not_le] at fields ⊢
  obtain ⟨kind, version, workspace, signer, named, other, key, certified, heads, _⟩ := fields
  exact ⟨kind, version, workspace, signer, named, other, key, certified, heads, above⟩

end

/-- What was timely stays timely. -/
theorem validTime_of_le {value : String} {later : Int} (timely : validTime P value nowMs = .ok true)
    (after : nowMs ≤ later) : validTime P value later = .ok true := by
  unfold validTime at timely ⊢
  obtain ⟨nanos, parsed, fits⟩ := bind_ok.mp timely
  rw [parsed, ok_bind]
  simp only [Except.ok.injEq, decide_eq_true_eq] at fits ⊢
  exact ⟨fits.1, fits.2.1, fits.2.2.trans (by omega)⟩

/-- A transfer that is valid stays valid. -/
theorem verifyWorkspaceOwnershipTransfer_of_le {later : Int}
    (verified : verifyWorkspaceOwnershipTransfer P record workspaceId authority minimumEpoch
      nowMs = .ok ())
    (after : nowMs ≤ later) :
    verifyWorkspaceOwnershipTransfer P record workspaceId authority minimumEpoch later =
      .ok () := by
  obtain ⟨_, size, verified⟩ := bind_ok.mp verified
  obtain ⟨fields, verified⟩ := refuse_bind_ok.mp verified
  obtain ⟨timely, checked, verified⟩ := bind_ok.mp verified
  obtain ⟨onTime, rest⟩ := refuse_bind_ok.mp verified
  rw [Bool.not_eq_false] at onTime
  subst onTime
  refine bind_ok.mpr ⟨(), size, refuse_bind_ok.mpr ⟨fields, ?_⟩⟩
  exact bind_ok.mpr ⟨true, validTime_of_le checked after, refuse_bind_ok.mpr ⟨by simp, rest⟩⟩

end TransferFacts

def verifyWorkspaceSuccessionPolicy (policy : WorkspaceSuccessionPolicy) (workspaceId : String)
    (authority : WorkspaceAuthority) (nowMs : Int) : Except String Unit := do
  bounded policy maxAuthorityRecordBytes "Workspace succession policy too large"
  let p := policy.payload
  let eligible := p.eligibleEditorPersonIds
  refuse (p.kind ≠ "workspace-succession-policy" ∨ p.version ≠ 1 ∨
    p.workspaceId ≠ workspaceId ∨ p.ownerPersonId ≠ authority.personId ∨ p.epoch < 1)
    "Invalid workspace succession policy"
  let timely ← validTime P p.updatedAt nowMs
  refuse (timely = false ∨ maxSuccessionEditors < eligible.length ∨
    eligible.toFinset.card ≠ eligible.length ∨ "" ∈ eligible ∨ authority.personId ∈ eligible ∨
    sortBy strKey eligible ≠ eligible ∨ p.successorPersonId.any (· ∉ eligible) = true)
    "Invalid workspace succession policy"
  verifyOwnerEnvelope P policy authority "workspace-succession-policy"

/-- An eligible editor votes for the candidate. -/
def verifyWorkspaceSuccessionVote (vote : WorkspaceSuccessionVote)
    (policy : WorkspaceSuccessionPolicy) (candidatePersonId : String)
    (authority : WorkspaceAuthority) (revoked : Finset String) (nowMs : Int) :
    Except String Unit := do
  bounded vote maxAuthorityRecordBytes "Workspace succession vote too large"
  let p := vote.signed.payload
  let eligible := policy.payload.eligibleEditorPersonIds
  refuse (p.kind ≠ "workspace-succession-vote" ∨ p.version ≠ 1 ∨
    p.workspaceId ≠ policy.payload.workspaceId ∨ p.ownerPersonId ≠ authority.personId ∨
    p.policySignature ≠ policy.signature ∨ p.candidatePersonId ≠ candidatePersonId ∨
    p.voterPersonId ∉ eligible ∨ p.candidatePersonId ∉ eligible ∨ p.voterPersonId ∈ revoked)
    "Invalid workspace succession vote"
  let timely ← validTime P p.votedAt nowMs
  refuse (timely = false ∨ vote.voterPublicKey = "") "Invalid workspace succession vote"
  let id ← publicKeyId P vote.voterPublicKey
  refuse (id ≠ p.voterPersonId) "Invalid succession voter identity"
  let signerKey ← mapErr (verifyDeviceCertificateChain P ⟨p.voterPersonId, vote.voterPublicKey, ""⟩
    vote.signed.signerKeyId vote.voterCertificates defaultSignatureDomain)
    "Invalid workspace succession vote signature"
  let verified ← verifySignedEnvelope P vote.signed signerKey defaultSignatureDomain
  refuse (verified = false) "Invalid workspace succession vote signature"
  let role ← verifyWorkspaceGrant P vote.voterGrant p.workspaceId p.voterPersonId
    authority.identity authority.certificates
  refuse (role ≠ .editor) "Succession voter is not an editor"

/-- The people whose votes a claim carries, each counted once. -/
def successionVoters (payload : WorkspaceSuccessionClaimPayload)
    (authority : WorkspaceAuthority) (revoked : Finset String) (nowMs : Int) :
    Except String (Finset String) :=
  payload.votes.foldlM (fun voters vote => do
    verifyWorkspaceSuccessionVote P vote payload.policy payload.toOwnerPersonId authority
      revoked nowMs
    refuse (vote.signed.payload.voterPersonId ∈ voters) "Duplicate succession voter"
    .ok (insert vote.signed.payload.voterPersonId voters)) ∅

/-- The successor is the one the policy names, or, when none is named or the
named one is revoked, an eligible editor with the votes of a majority of the
editors that are not revoked. -/
def checkSuccessor (payload : WorkspaceSuccessionClaimPayload) (authority : WorkspaceAuthority)
    (revoked : Finset String) (nowMs : Int) : Except String Unit := do
  let policy := payload.policy.payload
  if policy.successorPersonId.all (· ∈ revoked) then do
    refuse (payload.toOwnerPersonId ∉ policy.eligibleEditorPersonIds)
      "Candidate is not an eligible editor"
    let active := (policy.eligibleEditorPersonIds.filter (· ∉ revoked)).length
    let quorum := active / 2 + 1
    let voters ← successionVoters P payload authority revoked nowMs
    refuse (voters.card < quorum) s!"Editor quorum requires {quorum} votes"
  else
    refuse (policy.successorPersonId ≠ some payload.toOwnerPersonId) "Named successor has priority"

/-- `u64::checked_add`. -/
def checkedAdd (a b : Nat) : Option Nat :=
  if a + b < 2 ^ 64 then some (a + b) else none

/-- A successor claims the next epoch under the policy of this one. -/
def verifyWorkspaceSuccessionClaim (claim : WorkspaceSuccessionClaim) (workspaceId : String)
    (authority : WorkspaceAuthority) (minimumEpoch : Nat) (revoked : Finset String)
    (nowMs : Int) : Except String Unit := do
  bounded claim maxSuccessionClaimBytes "Workspace succession claim too large"
  let p := claim.payload
  refuse (p.kind ≠ "workspace-succession-claim" ∨ p.version ≠ 1 ∨
    p.workspaceId ≠ workspaceId ∨ p.fromOwnerPersonId ≠ authority.personId ∨
    p.toOwnerPersonId = "" ∨ p.toOwnerPersonId = authority.personId ∨
    p.toOwnerPersonId ∈ revoked) "Invalid workspace succession claim"
  let toId ← publicKeyId P p.toOwnerPublicKey
  refuse (toId ≠ p.toOwnerPersonId ∨ p.toOwnerCertificates = [] ∨
    validHeads p.workspaceHeads = false) "Invalid workspace succession claim"
  let nextEpoch ← okOr (checkedAdd minimumEpoch 1) "Invalid workspace succession claim"
  refuse (p.epoch ≠ nextEpoch) "Invalid workspace succession claim"
  let timely ← validTime P p.claimedAt nowMs
  refuse (timely = false ∨ maxSuccessionEditors < p.votes.length)
    "Invalid workspace succession claim"
  verifyWorkspaceSuccessionPolicy P p.policy workspaceId authority nowMs
  refuse (p.policy.payload.epoch ≠ minimumEpoch) "Succession policy epoch is stale"
  let candidateRole ← verifyWorkspaceGrant P p.candidateGrant workspaceId p.toOwnerPersonId
    authority.identity authority.certificates
  refuse (candidateRole ≠ .editor) "Successor is not an editor"
  let candidateKey ← mapErr (verifyDeviceCertificateChain P p.nextAuthority.identity
    claim.signerKeyId p.toOwnerCertificates defaultSignatureDomain)
    "Invalid workspace succession claim signature"
  let verified ← verifySignedEnvelope P claim candidateKey defaultSignatureDomain
  refuse (verified = false) "Invalid workspace succession claim signature"
  checkSuccessor P p authority revoked nowMs
  let formerRole ← verifyWorkspaceGrant P p.formerOwnerGrant workspaceId authority.personId
    p.nextAuthority.identity p.nextAuthority.certificates
  refuse (formerRole ≠ .editor) "Former owner grant is invalid"

end Verification

/-! ## Records to evaluate with -/

namespace Sample

def time : String := "2026-01-01T00:00:00.000Z"

/-- The person whose keys repeat a letter, with one device. -/
def authority (person : Nat) : WorkspaceAuthority :=
  ⟨keyId person, letters 43 person, [certificate person person]⟩

/-- A signature by a person's root key.  The tag tells records apart. -/
def signatureBy (person tag : Nat) : String :=
  letters 85 person ++ letters 1 tag

def grant (owner member : Nat) (role : WorkspaceRole) : WorkspaceGrant :=
  ⟨⟨"workspace-grant", 1, "grant", "workspace", keyId member, role, none, none⟩, keyId owner,
    signatureBy owner 0⟩

def transfer (fromOwner toOwner epoch tag : Nat) (heads : List String) :
    WorkspaceOwnershipTransfer :=
  ⟨⟨"workspace-ownership-transfer", 1, "workspace", keyId fromOwner, keyId toOwner,
    letters 43 toOwner, [certificate toOwner toOwner], grant fromOwner toOwner .owner,
    grant fromOwner fromOwner .editor, heads, epoch, time⟩, keyId fromOwner,
    signatureBy fromOwner tag⟩

def policy (owner : Nat) (successor : Option Nat) (eligible : List Nat) (epoch : Nat) :
    WorkspaceSuccessionPolicy :=
  ⟨⟨"workspace-succession-policy", 1, "workspace", keyId owner, successor.map keyId,
    sortBy strKey (eligible.map keyId), epoch, time⟩, keyId owner, signatureBy owner 0⟩

def vote (policy : WorkspaceSuccessionPolicy) (owner voter candidate : Nat) :
    WorkspaceSuccessionVote :=
  ⟨⟨⟨"workspace-succession-vote", 1, "workspace", keyId owner, keyId voter, keyId candidate,
    policy.signature, time⟩, keyId voter, signatureBy voter 0⟩, letters 43 voter,
    [certificate voter voter], grant owner voter .editor⟩

/-- The claim of an editor with the votes of others. -/
def claim (fromOwner toOwner : Nat) (policy : WorkspaceSuccessionPolicy) (voters : List Nat)
    (epoch : Nat) (heads : List String) : WorkspaceSuccessionClaim :=
  ⟨⟨"workspace-succession-claim", 1, "workspace", keyId fromOwner, keyId toOwner,
    letters 43 toOwner, [certificate toOwner toOwner], grant fromOwner toOwner .editor,
    grant toOwner fromOwner .editor, policy,
    voters.map fun voter => vote policy fromOwner voter toOwner, heads, epoch, time⟩,
    keyId toOwner, signatureBy toOwner 0⟩

def revocation (owner person : Nat) (heads : List String) : WorkspaceRevocation :=
  ⟨⟨"workspace-revocation", 1, "workspace", keyId owner, keyId person, 2, heads, time⟩,
    keyId owner, signatureBy owner 1⟩

def deviceRevocation (signer subject : Nat) (device : String) (heads : List String) :
    WorkspaceDeviceRevocation :=
  ⟨⟨"workspace-device-revocation", 1, "workspace", keyId subject, device, heads, time, none⟩,
    keyId signer, signatureBy signer 2⟩

end Sample

end MetaMesh
