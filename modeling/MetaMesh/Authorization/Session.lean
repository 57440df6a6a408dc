import MetaMesh.Authorization.Context

/-!
# Other readers of the device removals

Two functions that read device removals besides `fromSnapshot`.
`sessionAuthority` (`session_admission.rs`) decides who may connect, without the
document.  `planDeviceRevocations` is `plan_authority_merge`
(`authority_merge.rs`) on device revocations: it verifies the records of another
replica, adds them to the catalog of the own one and says which peers are
removed.
-/

namespace MetaMesh

open Fallible

/-! ## Sessions -/

/-- What a session knows about the workspace it joins. -/
structure SessionAuthority where
  currentOwner : WorkspaceAuthority
  historicalOwners : List WorkspaceAuthority
  revokedDevices : Finset (String × String)
deriving DecidableEq

section Session

variable (P : Primitives) (snapshot : WorkspaceWriteAuthorizationSnapshot)

/-- The people whom the revocations name, each signed by an owner of the chain. -/
def sessionRevokedPeople (authorities : List WorkspaceAuthority) (nowMs : Int) :
    Except String (Finset String) :=
  snapshot.revocations.foldlM (fun revokedPeople record => do
    let signer ← okOr (authorities.find? fun authority =>
      authority.personId = record.payload.ownerPersonId)
      "Workspace revocation has an unknown owner"
    verifyWorkspaceRevocation P record snapshot.workspaceId signer nowMs
    .ok (insert record.payload.personId revokedPeople)) ∅

/-- One removal: signed by the current owner, or valid for its own signer. -/
def sessionRemoveDevice (workspaceId : String) (currentOwner : WorkspaceAuthority)
    (restored : Finset String) (nowMs : Int) (revokedDevices : Finset (String × String))
    (evidence : WorkspaceDeviceRevocationEvidence) : Except String (Finset (String × String)) := do
  validateAuthority P evidence.signer
  let ownerSigned := (verifyWorkspaceDeviceRevocation P evidence.record workspaceId
    currentOwner.personId currentOwner nowMs).isOk
  let subjectSigned := (verifyWorkspaceDeviceRevocation P evidence.record workspaceId
    currentOwner.personId evidence.signer nowMs).isOk
  refuse (ownerSigned = false ∧ subjectSigned = false) "Invalid workspace device revocation"
  let payload := evidence.record.payload
  if payload.restores.isSome ∨ evidence.record.signature ∈ restored then
    .ok revokedDevices
  else
    .ok (insert (payload.personId, payload.deviceId) revokedDevices)

def sessionRevokedDevices (currentOwner : WorkspaceAuthority) (nowMs : Int) :
    Except String (Finset (String × String)) := do
  let restored ← restoredDeviceRevocations
    (snapshot.deviceRevocations.map fun evidence => (evidence.record, evidence.signer))
    currentOwner.personId
  snapshot.deviceRevocations.foldlM
    (sessionRemoveDevice P snapshot.workspaceId currentOwner restored nowMs) ∅

/-- The checks on a snapshot before its records are read. -/
def checkSession : Except String Unit := do
  refuse (snapshot.workspaceId = "" ∨ 32 < snapshot.ownershipTransfers.length ∨
    32 < snapshot.successionClaims.length ∨ 512 < snapshot.revocations.length ∨
    512 < snapshot.departures.length ∨ 512 < snapshot.deviceRevocations.length)
    "Invalid workspace session authority"
  validateAuthority P snapshot.genesisOwner
  validateAuthority P snapshot.expectedCurrentOwner

/-- The chain under the revocations; the document is not read. -/
def sessionChain {E : Type} (A : Automerge E) (snapshot : WorkspaceWriteAuthorizationSnapshot)
    (nowMs : Int) : Except String ChainState := do
  let first ← verifiedOwnershipChain P A snapshot nowMs ∅ false
  let revokedPeople ← sessionRevokedPeople P snapshot first.authorities nowMs
  let chain ← verifiedOwnershipChain P A snapshot nowMs revokedPeople false
  checkExpectedOwner snapshot chain
  .ok chain

def checkSessionDepartures (nowMs : Int) : Except String Unit :=
  snapshot.departures.forM fun evidence => do
    validateAuthority P evidence.authority
    verifyWorkspaceDeparture P evidence.record snapshot.workspaceId evidence.authority nowMs

/-- Signed authority records decide current access while a peer is still missing
document heads. -/
def sessionAuthority {E : Type} (A : Automerge E) (snapshot : WorkspaceWriteAuthorizationSnapshot)
    (nowMs : Int) : Except String SessionAuthority := do
  checkSession P snapshot
  let chain ← sessionChain P A snapshot nowMs
  let revokedDevices ← sessionRevokedDevices P snapshot chain.current nowMs
  checkSessionDepartures P snapshot nowMs
  .ok ⟨chain.current, chain.history, revokedDevices⟩

end Session

/-! ## Merging catalogs -/

/-- A removal with the authority of its signer. -/
structure SignedDeviceRevocation where
  record : WorkspaceDeviceRevocation
  authority : WorkspaceAuthority
deriving DecidableEq, Repr

/-- What the planner reads and writes of a peer. -/
structure WorkspacePeerRecord where
  personId : String
  deviceId : String
  revokedAt : Option (Option String)
deriving DecidableEq, Repr

/-- What the merge of removals asks the host to do. -/
structure DeviceRevocationPlan where
  deviceRevocations : List SignedDeviceRevocation
  updatedAt : String
  peers : List WorkspacePeerRecord
  evictDeviceIds : List String
  localAccessRevoked : Bool
deriving DecidableEq, Repr

instance : Serialize WorkspaceAuthority where
  toValue a := .object [("personId", toValue a.personId), ("publicKey", toValue a.publicKey),
    ("certificates", toValue a.certificates)]

instance : Serialize SignedDeviceRevocation where
  toValue r := .object [("record", toValue r.record), ("authority", toValue r.authority)]

/-- `contains_key`: a record is known when its JSON text is. -/
def containsKey {T : Type} [Serialize T] (items : List T) (value : T) : Bool :=
  items.any fun item => (toValue item).toVec = (toValue value).toVec

section Merge

variable (P : Primitives)

/-- The catalog with the records of another replica. -/
def mergeDeviceRevocations (workspaceId ownerPersonId : String) (nowMs : Nat)
    (catalog records : List SignedDeviceRevocation) :
    Except String (List SignedDeviceRevocation) := do
  let merged ← records.foldlM (fun merged record => do
    verifyWorkspaceDeviceRevocation P record.record workspaceId ownerPersonId record.authority nowMs
    .ok (if containsKey merged record then merged else merged ++ [record])) catalog
  refuse (512 < merged.length) "Too many device revocations"
  .ok (sortBy (fun value => strKey value.record.payload.deviceId) merged)

def isRemovalOf (peer : WorkspacePeerRecord) (value : SignedDeviceRevocation) : Bool :=
  value.record.payload.personId = peer.personId ∧ value.record.payload.deviceId = peer.deviceId

/-- What the catalog says about a peer, when it says something: the removal in
force, or that one was taken back. -/
def markPeer (merged active : List SignedDeviceRevocation) (peer : WorkspacePeerRecord) :
    Option WorkspacePeerRecord :=
  match active.find? (isRemovalOf peer) with
  | some removal => some { peer with revokedAt := some (some removal.record.payload.revokedAt) }
  | none =>
    if merged.any fun value => value.record.payload.restores.isSome ∧ isRemovalOf peer value then
      some { peer with revokedAt := some none }
    else none

/-- `plan_authority_merge` on device revocations, for a workspace and its owner. -/
def planDeviceRevocations (workspaceId ownerPersonId localPersonId localDeviceId : String)
    (nowMs : Nat) (catalog records : List SignedDeviceRevocation)
    (peers : List WorkspacePeerRecord) : Except String DeviceRevocationPlan := do
  let merged ← mergeDeviceRevocations P workspaceId ownerPersonId nowMs catalog records
  let restored ← restoredDeviceRevocations
    (merged.map fun value => (value.record, value.authority)) ownerPersonId
  let active := merged.filter fun value =>
    value.record.payload.restores.isNone ∧ value.record.signature ∉ restored
  let updatedAt ← okOr (P.formatRfc3339 nowMs) "Invalid authority timestamp"
  .ok {
    deviceRevocations := merged
    updatedAt := updatedAt
    peers := peers.filterMap (markPeer merged active)
    evictDeviceIds := sortedSet strKey strKey_injective
      ((peers.filter fun peer => active.any (isRemovalOf peer)).map
        fun peer => peer.deviceId).toFinset
    localAccessRevoked := active.any fun value =>
      value.record.payload.personId = localPersonId ∧
        value.record.payload.deviceId = localDeviceId }

end Merge

end MetaMesh
