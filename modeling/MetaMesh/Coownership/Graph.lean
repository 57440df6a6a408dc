import MetaMesh.Coownership.Records
import MetaMesh.Lib.Loop

/-!
# The certificate graph, its reading and the merge of ledgers

The second half of `coownership.rs`.  `buildGraph` files the records of a
ledger by their parent and visits the parents in the order in which they become
known, starting from the genesis.  `validateCoownershipLedger` walks the graph
from the genesis to the certificate in force, or to the first conflict no
resolution settles.  `mergeCoownershipLedgers` pools two ledgers.
-/

namespace MetaMesh

open Fallible

/-- A record that is not placed yet. -/
inductive Pending
  | transition (id : String) (record : CoownedTransition)
  | resolution (id : String) (record : CoownedResolution)
deriving DecidableEq

namespace Pending

def id : Pending → String
  | transition id _ => id
  | resolution id _ => id

def parentHash : Pending → String
  | transition _ record => record.payload.parentCertificateHash
  | resolution _ record => record.payload.parentCertificateHash

def node : Pending → Node
  | transition _ record => nodeFromTransition record.payload
  | resolution _ record => nodeFromResolution record.payload

/-- The payload of a resolution, which the graph keeps. -/
def resolution? : Pending → Option CoownedResolutionPayload
  | transition _ _ => none
  | resolution _ record => some record.payload

end Pending

/-- The states a ledger leads to. -/
structure Graph where
  genesisHash : String
  nodes : Table String Node
  children : Table String (Finset String)
  resolutions : Table String CoownedResolutionPayload

section Graph

variable (P : Primitives)

/-! ## Filing the records -/

/-- The records by the parent they name. -/
structure Filing where
  seenPayloads : Finset String
  pending : Table String (List Pending)

def fileRecord {T : Type} [Serialize T] (filed : String → CoownedRecord T → Pending)
    (filing : Filing) (record : CoownedRecord T) : Except String Filing := do
  let id ← payloadHash P record.payload
  refuse (id ∈ filing.seenPayloads) "Duplicate co-ownership payload record"
  .ok ⟨insert id filing.seenPayloads,
    filing.pending.push (filed id record).parentHash (filed id record)⟩

variable (ledger : CoownershipLedger)

def fileRecords : Except String Filing := do
  let filing ← ledger.transitions.foldlM (fileRecord P .transition) ⟨∅, ∅⟩
  ledger.resolutions.foldlM (fileRecord P .resolution) filing

/-! ## Visiting the parents -/

/-- Where the walk over the records stands. -/
structure Visit where
  nodes : Table String Node
  children : Table String (Finset String)
  resolutions : Table String CoownedResolutionPayload
  pending : Table String (List Pending)
  ready : List String

/-- A record against the certificate it follows. -/
def checkRecord (parent : Node) : Pending → Except String Unit
  | .transition _ record => do
      validateTransition P record.payload parent
      verifyApprovals P record.payload record.approvals parent.owners parent.policy
  | .resolution _ record => do
      validateResolution P record.payload parent
      verifyApprovals P record.payload record.approvals parent.owners parent.policy

/-- What a checked record adds to the graph. -/
def Visit.add (visit : Visit) (parentHash : String) (record : Pending) : Visit :=
  { visit with
    nodes := visit.nodes.insert record.id record.node
    children := visit.children.insert parentHash
      (insert record.id ((visit.children.lookup parentHash).getD ∅))
    resolutions := record.resolution?.elim visit.resolutions (visit.resolutions.insert record.id)
    ready := visit.ready ++ [record.id] }

def visitRecord (parentHash : String) (parent : Node) (visit : Visit) (record : Pending) :
    Except String Visit := do
  checkRecord P parent record
  .ok (visit.add parentHash record)

/-- One parent leaves the queue. -/
def visitParent (visit : Visit) : Except String (Visit ⊕ Visit) :=
  match visit.ready with
  | [] => .ok (.inr visit)
  | parentHash :: ready =>
    match visit.pending.lookup parentHash with
    | none => .ok (.inl { visit with ready })
    | some records => do
        let parent ← okOr (visit.nodes.lookup parentHash) "Invalid co-ownership parent"
        let next ← records.foldlM (visitRecord P parentHash parent)
          { visit with ready, pending := visit.pending.erase parentHash }
        .ok (.inl next)

/-- Every record enters the queue once, after the genesis. -/
def visitAll (start : Visit) : Except String Visit :=
  run "Co-ownership visit did not end" (visitParent P)
    (ledger.transitions.length + ledger.resolutions.length + 2) start

/-- Resolution references must name sibling evidence retained in this ledger. -/
def checkEvidence (children : Table String (Finset String))
    (resolution : String × CoownedResolutionPayload) : Except String Unit := do
  let siblings ← okOr (children.lookup resolution.2.parentCertificateHash)
    "Co-ownership resolution lacks conflict evidence"
  let referenced := resolution.2.conflictingCertificateHashes.toFinset
  refuse (referenced.card < 2 ∨ resolution.1 ∈ referenced ∨ ¬ referenced ⊆ siblings)
    "Co-ownership resolution references missing evidence"

def genesisNode (genesis : CoownedGenesisPayload) : Node :=
  ⟨genesis.scopeId, genesis.epoch, [genesis.creator], genesis.policy⟩

def buildGraph : Except String Graph := do
  refuse (maxCoownershipTransitions < ledger.transitions.length ∨
    maxCoownershipResolutions < ledger.resolutions.length) "Co-ownership record limit exceeded"
  validateSerializedLimit ledger maxCoownershipLedgerBytes
  let genesis := ledger.genesis.payload
  validateGenesis P genesis
  genesis.creator.validate P
  verifySignedRecord P ledger.genesis genesis.creator
  let genesisHash ← payloadHash P genesis
  let nodes := (∅ : Table String Node).insert genesisHash (genesisNode genesis)
  let filing ← fileRecords P ledger
  let visit ← visitAll P ledger ⟨nodes, ∅, ∅, filing.pending, [genesisHash]⟩
  refuse (visit.pending.keys ≠ []) "Co-ownership ledger contains an orphan or cycle"
  (visit.resolutions.entries.map fun entry => (entry.1, entry.2)).forM
    (checkEvidence visit.children)
  .ok ⟨genesisHash, visit.nodes, visit.children, visit.resolutions⟩

/-! ## Reading the graph -/

/-- Owners, policy and epoch. -/
structure CoownershipState where
  scopeId : String
  certificateHash : String
  epoch : Nat
  owners : List CoownerIdentity
  policy : CoownerPolicy
deriving DecidableEq, Repr

/-- Successors of one state that contradict each other. -/
structure CoownershipConflict where
  parentCertificateHash : String
  conflictingCertificateHashes : List String
deriving DecidableEq, Repr

/-- One current state, or a conflict. -/
inductive CoownershipStatus
  | authorized (state : CoownershipState)
  | ambiguous (conflicts : List CoownershipConflict)
deriving DecidableEq, Repr

/-- A ledger that was checked, with its status. -/
structure ValidatedCoownership where
  scopeId : String
  status : CoownershipStatus
deriving DecidableEq, Repr

def state (node : Node) (certificateHash : String) : CoownershipState :=
  ⟨node.scopeId, certificateHash, node.epoch, node.owners, node.policy⟩

/-- The resolutions of a parent that name exactly all their siblings. -/
def resolverIds (graph : Graph) (parentHash : String) (siblings : Finset String) : List String :=
  (graph.resolutions.entries.filter fun entry =>
    entry.2.parentCertificateHash = parentHash ∧
      entry.2.conflictingCertificateHashes.toFinset = siblings.erase entry.1).map Sigma.fst

/-- A `BTreeSet` of hashes in order. -/
def sortedHashes (hashes : Finset String) : List String :=
  sortedSet strKey strKey_injective hashes

/-- One step from the certificate at the cursor. -/
def readCertificate (graph : Graph) (cursor : String) :
    Except String (String ⊕ ValidatedCoownership) := do
  let node ← okOr (graph.nodes.lookup cursor) "Invalid co-ownership parent"
  let siblings := (graph.children.lookup cursor).getD ∅
  if siblings = ∅ then
    .ok (.inr ⟨node.scopeId, .authorized (state node cursor)⟩)
  else
    match sortedHashes siblings, resolverIds graph cursor siblings with
    | [only], _ => .ok (.inl only)
    | _, [resolver] => .ok (.inl resolver)
    | _, _ => .ok (.inr ⟨node.scopeId, .ambiguous [⟨cursor, sortedHashes siblings⟩]⟩)

/-- Each step raises the epoch, so the walk sees a certificate at most once. -/
def validateCoownershipLedger : Except String ValidatedCoownership := do
  let graph ← buildGraph P ledger
  run "Co-ownership walk did not end" (readCertificate graph)
    (graph.nodes.keys.length + 1) graph.genesisHash

end Graph

end MetaMesh
