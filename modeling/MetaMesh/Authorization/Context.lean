import MetaMesh.Authorization.Chain

/-!
# Validated write authority

`ValidatedWorkspaceWriteAuthorizationContext` of `authorization.rs`.
`fromSnapshot` walks the ownership chain of a snapshot twice: first with nobody
revoked, to find the authorities that the revocations have to be signed by, and
then with the people those revocations name.  It then reads which devices are
removed and who left.
-/

namespace MetaMesh

open Fallible

/-- What somebody who was removed, or left, at an access epoch may have signed. -/
structure RevocationBoundary where
  epoch : Nat
  hashes : Finset String
deriving DecidableEq

/-- What a validated snapshot says about who may write. -/
structure ValidatedWorkspaceWriteAuthorizationContext where
  workspaceId : String
  currentOwner : WorkspaceAuthority
  nowMs : Int
  enforceAutomationExpiry : Bool
  historicalOwners : List WorkspaceAuthority
  historicalHashes : Table String (Finset String)
  revokedDevices : Table (String × String) (List (Finset String))
  revocationBoundaries : Table String (List RevocationBoundary)
  departureBoundaries : Table String (List RevocationBoundary)

section FromSnapshot

variable (P : Primitives)

/-- A former owner may only act up to the frontiers of the transitions that took
the office away. -/
def ownerControlFrontierAllowed (personId currentOwnerId : String) (heads : List String)
    (ownershipFrontiers : Table String (Finset String)) : Bool :=
  personId = currentOwnerId ∨
    (ownershipFrontiers.lookup personId).any fun allowed => heads.all (· ∈ allowed)

variable (workspaceId : String)

/-- The boundary that one revocation draws. -/
def revocationBoundary (authorities : List WorkspaceAuthority) (currentOwnerId : String)
    (ownershipFrontiers : Table String (Finset String)) (nowMs : Int) (byHash : DocumentGraph)
    (record : WorkspaceRevocation) : Except String RevocationBoundary := do
  let authority ← okOr (authorities.find? fun authority =>
    authority.personId = record.payload.ownerPersonId) "Workspace revocation has an unknown owner"
  refuse (ownerControlFrontierAllowed authority.personId currentOwnerId
    record.payload.workspaceHeads ownershipFrontiers = false)
    "Workspace revocation exceeds historical Owner authority"
  verifyWorkspaceRevocation P record workspaceId authority nowMs
  let hashes ← ancestry record.payload.workspaceHeads byHash
  .ok ⟨record.payload.epoch, hashes⟩

variable (raw : WorkspaceWriteAuthorizationSnapshot)

def verifiedRevocationBoundaries (authorities : List WorkspaceAuthority) (currentOwnerId : String)
    (ownershipFrontiers : Table String (Finset String)) (nowMs : Int) (byHash : DocumentGraph) :
    Except String (Table String (List RevocationBoundary)) :=
  raw.revocations.foldlM (fun boundaries record => do
    let boundary ← revocationBoundary P raw.workspaceId authorities currentOwnerId
      ownershipFrontiers nowMs byHash record
    .ok (boundaries.push record.payload.personId boundary)) ∅

def departureBoundary (nowMs : Int) (byHash : DocumentGraph) (evidence : WorkspaceDepartureEvidence)
    : Except String RevocationBoundary := do
  validateAuthority P evidence.authority
  verifyWorkspaceDeparture P evidence.record workspaceId evidence.authority nowMs
  let hashes ← ancestry evidence.record.payload.workspaceHeads byHash
  .ok ⟨evidence.record.payload.accessEpoch, hashes⟩

def verifiedDepartureBoundaries (nowMs : Int) (byHash : DocumentGraph) :
    Except String (Table String (List RevocationBoundary)) :=
  raw.departures.foldlM (fun boundaries evidence => do
    let boundary ← departureBoundary P raw.workspaceId nowMs byHash evidence
    .ok (boundaries.push evidence.record.payload.personId boundary)) ∅

variable (chain : ChainState) (nowMs : Int)

/-- An owner, current or earlier, signed a removal inside their time in office. -/
def signedByOwner (evidence : WorkspaceDeviceRevocationEvidence) : Bool :=
  (chain.current :: chain.history).any fun authority =>
    authority.personId = evidence.signer.personId ∧
      authority.publicKey = evidence.signer.publicKey ∧
      ownerControlFrontierAllowed authority.personId chain.current.personId
        evidence.record.payload.workspaceHeads chain.historicalHashes = true ∧
      (verifyWorkspaceDeviceRevocation P evidence.record workspaceId authority.personId
        evidence.signer nowMs).isOk = true

/-- Otherwise the record has to hold for the current owner, or its subject. -/
def signedBySubject (evidence : WorkspaceDeviceRevocationEvidence) : Bool :=
  (verifyWorkspaceDeviceRevocation P evidence.record workspaceId chain.current.personId
    evidence.signer nowMs).isOk

/-- One removal of a device: checked, and noted unless it restores a device or
was taken back. -/
def removeDevice (restored : Finset String) (nowMs : Int) (byHash : DocumentGraph)
    (revokedDevices : Table (String × String) (List (Finset String)))
    (evidence : WorkspaceDeviceRevocationEvidence) :
    Except String (Table (String × String) (List (Finset String))) := do
  validateAuthority P evidence.signer
  refuse (signedByOwner P workspaceId chain nowMs evidence = false ∧
    signedBySubject P workspaceId chain nowMs evidence = false)
    "Invalid workspace device revocation"
  let payload := evidence.record.payload
  if payload.restores.isSome ∨ evidence.record.signature ∈ restored then
    .ok revokedDevices
  else do
    let hashes ← ancestry payload.workspaceHeads byHash
    .ok (revokedDevices.push (payload.personId, payload.deviceId) hashes)

def verifiedDeviceRevocations (byHash : DocumentGraph) :
    Except String (Table (String × String) (List (Finset String))) := do
  let restored ← restoredDeviceRevocations
    (raw.deviceRevocations.map fun evidence => (evidence.record, evidence.signer))
    chain.current.personId
  raw.deviceRevocations.foldlM (removeDevice P raw.workspaceId chain restored nowMs byHash) ∅

variable {E : Type} (A : Automerge E)

def maxWorkspaceDeviceRevocations : Nat := 512

/-- The checks on a snapshot before its records are read, and its document. -/
def snapshotGraph (raw : WorkspaceWriteAuthorizationSnapshot) : Except String DocumentGraph := do
  refuse (raw.workspaceId = "" ∨ raw.document = [] ∨ 32 < raw.ownershipTransfers.length ∨
    32 < raw.successionClaims.length ∨ 512 < raw.revocations.length ∨
    512 < raw.departures.length ∨ maxWorkspaceDeviceRevocations < raw.deviceRevocations.length)
    "Invalid workspace write authority context"
  validateAuthority P raw.genesisOwner
  validateAuthority P raw.expectedCurrentOwner
  documentHashes A raw.document

def checkExpectedOwner : Except String Unit :=
  refuse (chain.current.personId ≠ raw.expectedCurrentOwner.personId ∨
    chain.current.publicKey ≠ raw.expectedCurrentOwner.publicKey)
    "Workspace ownership chain does not match the expected owner"

/-- The owners of a chain, oldest first. -/
def ChainState.authorities : List WorkspaceAuthority :=
  chain.history ++ [chain.current]

/-- The boundaries of the revocations, each signed by an owner of the chain. -/
def chainBoundaries (byHash : DocumentGraph) (chain : ChainState) :
    Except String (Table String (List RevocationBoundary)) :=
  verifiedRevocationBoundaries P raw chain.authorities chain.current.personId
    chain.historicalHashes nowMs byHash

/-- What is read after the second walk. -/
def contextOfChain (byHash : DocumentGraph)
    (revocationBoundaries : Table String (List RevocationBoundary)) (chain : ChainState) :
    Except String ValidatedWorkspaceWriteAuthorizationContext := do
  let revokedDevices ← verifiedDeviceRevocations P raw chain nowMs byHash
  let departureBoundaries ← verifiedDepartureBoundaries P raw nowMs byHash
  .ok ⟨raw.workspaceId, chain.current, nowMs, true, chain.history, chain.historicalHashes,
    revokedDevices, revocationBoundaries, departureBoundaries⟩

/-- The chain is walked again once the revoked people are known. -/
def fromSnapshot (raw : WorkspaceWriteAuthorizationSnapshot) (nowMs : Int) :
    Except String ValidatedWorkspaceWriteAuthorizationContext := do
  let byHash ← snapshotGraph P A raw
  let first ← verifiedOwnershipChainWithGraph P raw nowMs ∅ true byHash
  checkExpectedOwner raw first
  let revocationBoundaries ← chainBoundaries P raw nowMs byHash first
  let chain ← verifiedOwnershipChainWithGraph P raw nowMs revocationBoundaries.keys.toFinset true
    byHash
  contextOfChain P raw nowMs byHash revocationBoundaries chain

/-- `i128::MAX / 2`. -/
def endOfTime : Int := 2 ^ 126 - 1

/-- Retained history is read without the expiry of automation grants. -/
def fromSnapshotCausal (raw : WorkspaceWriteAuthorizationSnapshot) :
    Except String ValidatedWorkspaceWriteAuthorizationContext := do
  let context ← fromSnapshot P A raw endOfTime
  .ok { context with enforceAutomationExpiry := false }

end FromSnapshot

/-! ## What a validated snapshot is -/

/-- The people whom the revocations of a snapshot name. -/
def WorkspaceWriteAuthorizationSnapshot.revokedPeople
    (raw : WorkspaceWriteAuthorizationSnapshot) : Finset String :=
  (raw.revocations.map fun record => record.payload.personId).toFinset

/-- A snapshot that is accepted when its own revocations are taken into account
from the start. -/
structure ValidSnapshot {E : Type} (P : Primitives) (A : Automerge E)
    (raw : WorkspaceWriteAuthorizationSnapshot) (nowMs : Int) (byHash : DocumentGraph)
    (chain : ChainState) (context : ValidatedWorkspaceWriteAuthorizationContext) : Prop where
  graph : snapshotGraph P A raw = .ok byHash
  walked : verifiedOwnershipChainWithGraph P raw nowMs raw.revokedPeople true byHash = .ok chain
  expected : checkExpectedOwner raw chain = .ok ()
  bounded : ∃ boundaries, chainBoundaries P raw nowMs byHash chain = .ok boundaries ∧
    contextOfChain P raw nowMs byHash boundaries chain = .ok context

section Validated

variable {E : Type} {P : Primitives} {A : Automerge E}
  {raw : WorkspaceWriteAuthorizationSnapshot} {nowMs : Int} {byHash : DocumentGraph}
  {chain : ChainState} {context : ValidatedWorkspaceWriteAuthorizationContext}

/-- The keys of a table of lists that a loop filled. -/
theorem keys_of_foldlM_push {α β : Type} {key : α → String} {f : α → Except String β}
    {items : List α} {t final : Table String (List β)}
    (filled : items.foldlM (fun t a => do
      let b ← f a
      .ok (t.push (key a) b)) t = .ok final) :
    final.keys.toFinset = t.keys.toFinset ∪ (items.map key).toFinset := by
  induction items generalizing t with
  | nil =>
    rw [← Except.ok.inj filled]
    simp
  | cons a items ih =>
    obtain ⟨next, step, rest⟩ := bind_ok.mp filled
    obtain ⟨b, _, step⟩ := bind_ok.mp step
    rw [ih rest, ← Except.ok.inj step]
    ext k
    simp only [Finset.mem_union, List.mem_toFinset, Table.push,
      AList.mem_insert, List.map_cons, List.mem_cons, ← AList.mem_keys]
    tauto

theorem keys_of_chainBoundaries {boundaries : Table String (List RevocationBoundary)}
    (verified : chainBoundaries P raw nowMs byHash chain = .ok boundaries) :
    boundaries.keys.toFinset = raw.revokedPeople := by
  have keys := keys_of_foldlM_push verified
  simpa [WorkspaceWriteAuthorizationSnapshot.revokedPeople] using keys

theorem revocationBoundary_ok {workspaceId currentOwnerId : String}
    {authorities : List WorkspaceAuthority} {frontiers : Table String (Finset String)}
    {record : WorkspaceRevocation} {boundary : RevocationBoundary} :
    revocationBoundary P workspaceId authorities currentOwnerId frontiers nowMs byHash record =
        .ok boundary ↔
      ∃ authority hashes, authorities.find? (fun authority =>
          authority.personId = record.payload.ownerPersonId) = some authority ∧
        ownerControlFrontierAllowed authority.personId currentOwnerId
          record.payload.workspaceHeads frontiers = true ∧
        verifyWorkspaceRevocation P record workspaceId authority nowMs = .ok () ∧
        ancestry record.payload.workspaceHeads byHash = .ok hashes ∧
        boundary = ⟨record.payload.epoch, hashes⟩ := by
  unfold revocationBoundary
  simp only [bind_ok, okOr_ok, Except.ok.injEq]
  constructor
  · rintro ⟨authority, found, ⟨⟩, passed, ⟨⟩, verified, hashes, reached, rfl⟩
    exact ⟨authority, hashes, found, by simpa using refuse_ok.mp passed, verified, reached, rfl⟩
  · rintro ⟨authority, hashes, found, allowed, verified, reached, rfl⟩
    exact ⟨authority, found, (), refuse_ok.mpr (by simp [allowed]), (), verified, hashes,
      reached, rfl⟩

/-- The walk of a snapshot's transitions under a set of revoked people. -/
theorem verifiedOwnershipChainWithGraph_ok {revoked : Finset String} :
    verifiedOwnershipChainWithGraph P raw nowMs revoked true byHash = .ok chain ↔
      ∃ ts, ts.Perm raw.transitions ∧
        Installs P ⟨raw.workspaceId, nowMs, revoked, true, byHash⟩ raw.genesis ts chain :=
  walkChain_ok

/-- Both walks of `fromSnapshot` end in one state. -/
theorem walks_agree {revoked : Finset String} {other : ChainState}
    (walked : verifiedOwnershipChainWithGraph P raw nowMs ∅ true byHash = .ok chain)
    (walked' : verifiedOwnershipChainWithGraph P raw nowMs revoked true byHash = .ok other) :
    other = chain := by
  obtain ⟨ts, same, order⟩ := verifiedOwnershipChainWithGraph_ok.mp walked
  obtain ⟨us, same', order'⟩ := verifiedOwnershipChainWithGraph_ok.mp walked'
  exact order.unique order' (same.trans same'.symm)

/-- A snapshot is accepted when it is valid and its first walk, with nobody
revoked, ends as the second does. -/
theorem fromSnapshot_ok :
    fromSnapshot P A raw nowMs = .ok context ↔ ∃ byHash chain,
      verifiedOwnershipChainWithGraph P raw nowMs ∅ true byHash = .ok chain ∧
        ValidSnapshot P A raw nowMs byHash chain context := by
  unfold fromSnapshot
  simp only [bind_ok]
  constructor
  · rintro ⟨byHash, graph, first, walked, _, expected, boundaries, verified, chain, walked', read⟩
    have same := walks_agree walked walked'
    subst same
    rw [keys_of_chainBoundaries verified] at walked'
    exact ⟨byHash, chain, walked, graph, walked', expected, boundaries, verified, read⟩
  · rintro ⟨byHash, chain, walked, graph, walked', expected, boundaries, verified, read⟩
    refine ⟨byHash, graph, chain, walked, (), expected, boundaries, verified, chain, ?_, read⟩
    rwa [keys_of_chainBoundaries verified]

theorem documentHashes_of_snapshotGraph (graph : snapshotGraph P A raw = .ok byHash) :
    documentHashes A raw.document = .ok byHash := by
  obtain ⟨_, graph⟩ := refuse_bind_ok.mp graph
  obtain ⟨_, _, graph⟩ := bind_ok.mp graph
  obtain ⟨_, _, graph⟩ := bind_ok.mp graph
  exact graph

theorem ValidSnapshot.currentOwner (valid : ValidSnapshot P A raw nowMs byHash chain context) :
    context.currentOwner = chain.current ∧ context.historicalOwners = chain.history := by
  obtain ⟨boundaries, _, read⟩ := valid.bounded
  obtain ⟨_, _, read⟩ := bind_ok.mp read
  obtain ⟨_, _, same⟩ := bind_ok.mp read
  rw [← Except.ok.inj same]
  exact ⟨rfl, rfl⟩

end Validated

namespace Sample

/-- The owner that a snapshot is accepted with. -/
def acceptedOwner (raw : WorkspaceWriteAuthorizationSnapshot) :
    Except String WorkspaceAuthority := do
  let context ← fromSnapshot primitives automerge raw 0
  .ok context.currentOwner

theorem fromSnapshot_of_acceptedOwner {raw : WorkspaceWriteAuthorizationSnapshot}
    {owner : WorkspaceAuthority} (accepted : acceptedOwner raw = .ok owner) :
    ∃ context, fromSnapshot primitives automerge raw 0 = .ok context ∧
      context.currentOwner = owner := by
  obtain ⟨context, validated, same⟩ := bind_ok.mp accepted
  exact ⟨context, validated, Except.ok.inj same⟩

end Sample

end MetaMesh
