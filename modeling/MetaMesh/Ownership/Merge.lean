import Mathlib.Data.Finset.Card
import Mathlib.Data.Prod.Lex
import MetaMesh.Authority
import MetaMesh.Lib.Loop

/-!
# Merging ownership transfers

`ownership_merge.rs` and the parts of `authority.rs` and
`ownership_adoption.rs` it works with.  A replica holds a catalog of accepted
transfers, the current owner and the owners before.  `planOwnershipMerge` takes
a batch of unverified records: it files late records of earlier owners, then
follows the transfers of the current owner epoch by epoch, until no further
transfer is known or two of them contradict each other.
`planOwnershipAdoption` turns one step of a plan into the next credential.

A `BTreeMap` is a `Table` that is read with `orderedValues`.  The peers that an
adoption also updates are left out: no later merge reads them.
-/

namespace MetaMesh

open Fallible

/-! ## Fields of unverified records -/

variable (record : Value)

def transferSigner? : Option String :=
  (record.pointer? ["payload", "fromOwnerPersonId"]).bind Value.asStr?

def transferEpoch? : Option Nat :=
  (record.pointer? ["payload", "epoch"]).bind Value.asU64?

def recordSignature? : Option String :=
  (record.get? "signature").bind Value.asStr?

/-- What `has_conflicting_ownership_transfers` reads of a record: the epoch and
the former owner, and the successor. -/
def transferEdge? : Option ((Nat × String) × String) := do
  let payload ← record.get? "payload"
  let epoch ← (payload.get? "epoch").bind Value.asU64?
  let fromOwner ← ((payload.get? "fromOwnerPersonId").bind Value.asStr?).filter (· ≠ "")
  let toOwner ← ((payload.get? "toOwnerPersonId").bind Value.asStr?).filter (· ≠ "")
  if maxSafeInteger < epoch then none else some ((epoch, fromOwner), toOwner)

def hasConflictingOwnershipTransfers (records : List Value) : Bool :=
  let successors := Table.groupBy (fun edge => edge.1) (records.filterMap transferEdge?)
  successors.entries.any fun entry => 1 < (entry.2.map fun edge => edge.2).toFinset.card

/-! ## The next transfer of an owner -/

/-- The epoch of the owner's next transfer. -/
def nextTransferEpoch (records : List Value) (owner : String) (epoch : Nat) : Option Nat :=
  (((records.filter fun record => transferSigner? record = some owner).filterMap
    transferEpoch?).filter (epoch < ·)).min?

/-- The owner's transfers at one epoch. -/
def transfersAt (records : List Value) (owner : String) (epoch : Nat) : List Value :=
  records.filter fun record =>
    transferSigner? record = some owner ∧ transferEpoch? record = some epoch

/-- The transfers at the next epoch, and the one that is followed. -/
structure VerifiedOwnershipTransition where
  candidates : List WorkspaceOwnershipTransfer
  selected : Option WorkspaceOwnershipTransfer
  conflicted : Bool
deriving DecidableEq, Repr

def parseTransfer : Except String WorkspaceOwnershipTransfer :=
  okOr (fromValue record) "Invalid workspace ownership transfer"

section Planning

variable (P : Primitives)

/-- The check of one proposal for the next owner. -/
def checkProposal (workspaceId : String) (currentOwner : WorkspaceAuthority)
    (currentEpoch : Nat) (revokedPeople : Finset String) (nowMs : Int)
    (record : WorkspaceOwnershipTransfer) : Except String Unit := do
  verifyWorkspaceOwnershipTransfer P record workspaceId currentOwner currentEpoch nowMs
  refuse (record.payload.toOwnerPersonId ∈ revokedPeople) "New owner access is revoked"

/-- Verify every proposal at the next ownership epoch before selecting a
successor. -/
def nextVerifiedOwnershipTransition (records : List Value) (workspaceId : String)
    (currentOwner : WorkspaceAuthority) (currentEpoch : Nat) (revokedPeople : Finset String)
    (nowMs : Int) : Except String VerifiedOwnershipTransition := do
  refuse (512 < records.length ∨ workspaceId = "") "Invalid workspace ownership transition catalog"
  match nextTransferEpoch records currentOwner.personId currentEpoch with
  | none => .ok ⟨[], none, false⟩
  | some nextEpoch => do
      let parsed ← (transfersAt records currentOwner.personId nextEpoch).mapM parseTransfer
      let candidates := sortBy (fun record => strKey record.signature) parsed
      let successors ← candidates.foldlM (fun successors record => do
        checkProposal P workspaceId currentOwner currentEpoch revokedPeople nowMs record
        .ok (insert record.payload.toOwnerPersonId successors)) (∅ : Finset String)
      let conflicted : Bool := 1 < successors.card
      .ok ⟨candidates, if conflicted then none else candidates.head?, conflicted⟩

/-- What a replica has, and what came in. -/
structure OwnershipMergeInput where
  workspaceId : String
  currentOwner : WorkspaceAuthority
  ownerHistory : List WorkspaceAuthority
  ownerEpoch : Nat
  current : List WorkspaceOwnershipTransfer
  incoming : List Value
  revokedPeople : Finset String
  nowMs : Nat

/-- One transfer to adopt. -/
structure OwnershipMergeStep where
  record : WorkspaceOwnershipTransfer
  accepted : List WorkspaceOwnershipTransfer
  previousOwnerEpoch : Nat
deriving DecidableEq, Repr

/-- The steps, and the catalog they leave. -/
structure OwnershipMergePlan where
  accepted : List WorkspaceOwnershipTransfer
  steps : List OwnershipMergeStep
  conflicted : Bool
  persistCatalog : Bool
deriving DecidableEq, Repr

abbrev TransferTable := Table String WorkspaceOwnershipTransfer

def fileIncoming (known : Table String Value) (raw : Value) : Table String Value :=
  match recordSignature? raw with
  | none => known
  | some signature => if signature = "" then known else known.insert signature raw

variable (input : OwnershipMergeInput)

/-- Every record by its signature: the catalog, and over it what came in with a
signature. -/
def knownTransfers : Table String Value :=
  input.incoming.foldl fileIncoming
    (input.current.foldl (fun known record => known.insert record.signature (toValue record)) ∅)

def knownValues : List Value :=
  (knownTransfers input).orderedValues strKey

def catalogTable (records : List WorkspaceOwnershipTransfer) : TransferTable :=
  (∅ : TransferTable).insertAll (fun record => record.signature) records

/-- The owner, current or earlier, who has to have signed a record. -/
def lateAuthority? (raw : Value) : Option WorkspaceAuthority :=
  (input.currentOwner :: input.ownerHistory).find? fun authority =>
    some authority.personId = transferSigner? raw

def verifyLateTransfer (authority : WorkspaceAuthority) (raw : Value) :
    Except String WorkspaceOwnershipTransfer := do
  let record ← parseTransfer raw
  verifyWorkspaceOwnershipTransfer P record input.workspaceId authority
    ((transferEpoch? raw).getD 0 - 1) input.nowMs
  .ok record

/-- One record of the late history: an unknown record up to the owner's epoch,
signed by the current owner or an earlier one, is verified and filed. -/
def fileLateTransfer (accepted : TransferTable) (raw : Value) : Except String TransferTable :=
  if (accepted.lookup ((recordSignature? raw).getD "")).isSome then
    .ok accepted
  else if input.ownerEpoch < (transferEpoch? raw).getD 0 then
    .ok accepted
  else
    match lateAuthority? input raw with
    | none => .ok accepted
    | some authority => do
        let record ← verifyLateTransfer P input authority raw
        .ok (accepted.insert record.signature record)

def orderedTransfers (records : List WorkspaceOwnershipTransfer) :
    List WorkspaceOwnershipTransfer :=
  sortBy (fun record => toLex (record.payload.epoch, strKey record.signature)) records

/-- `ordered` of `ownership_merge.rs`. -/
def orderedCatalog (accepted : TransferTable) : List WorkspaceOwnershipTransfer :=
  orderedTransfers (accepted.orderedValues strKey)

/-- Where the loop stands. -/
structure MergeState where
  accepted : TransferTable
  steps : List OwnershipMergeStep
  owner : WorkspaceAuthority
  ownerEpoch : Nat

/-- One round of the `while` loop.  It leaves with the state and whether the
ownership is conflicted. -/
def mergeRound (state : MergeState) : Except String (MergeState ⊕ (MergeState × Bool)) := do
  let transition ← nextVerifiedOwnershipTransition P (knownValues input) input.workspaceId
    state.owner state.ownerEpoch input.revokedPeople input.nowMs
  let accepted := state.accepted.insertAll (fun record => record.signature) transition.candidates
  if transition.conflicted then
    .ok (.inr (⟨accepted, state.steps, state.owner, state.ownerEpoch⟩, true))
  else
    match transition.selected with
    | none => .ok (.inr (⟨accepted, state.steps, state.owner, state.ownerEpoch⟩, false))
    | some record =>
      .ok (.inl ⟨accepted,
        state.steps ++ [⟨record, orderedCatalog accepted, state.ownerEpoch⟩],
        record.payload.nextAuthority, record.payload.epoch⟩)

/-- Every round that goes on moves to a later epoch of a known record, so the
number of known records is enough fuel. -/
def mergeLoop (state : MergeState) : Except String (MergeState × Bool) :=
  run "Invalid workspace ownership transition catalog" (mergeRound P input)
    ((knownValues input).length + 1) state

/-- A conflict in the history stalls the chain before the loop. -/
def mergeOutcome (accepted : TransferTable) : Except String (MergeState × Bool) :=
  let start : MergeState := ⟨accepted, [], input.currentOwner, input.ownerEpoch⟩
  if hasConflictingOwnershipTransfers ((accepted.orderedValues strKey).map toValue) then
    .ok (start, true)
  else
    mergeLoop P input start

/-- The plan that the state after the loop makes. -/
def mergePlan (state : MergeState) (conflicted : Bool) : OwnershipMergePlan where
  accepted := orderedCatalog state.accepted
  steps := state.steps
  conflicted := conflicted
  persistCatalog := conflicted ∨
    (state.steps = [] ∧ input.current.length < state.accepted.keys.length)

/-- Files late records, then follows the owners. -/
def planOwnershipMerge : Except String OwnershipMergePlan := do
  let accepted ← (knownValues input).foldlM (fileLateTransfer P input) (catalogTable input.current)
  let outcome ← mergeOutcome P input accepted
  .ok (mergePlan input outcome.1 outcome.2)

end Planning

/-! ## Adoption -/

/-- The part of a workspace credential that ownership is read from. -/
structure OwnershipCredential where
  owner : WorkspaceAuthority
  epoch : Nat
  ownerHistory : List WorkspaceAuthority
  localGrant : Option WorkspaceGrant
  ownershipTransfers : List WorkspaceOwnershipTransfer
  successionPolicy : Option WorkspaceSuccessionPolicy
  successionVotes : List WorkspaceSuccessionVote
  successionClaims : List WorkspaceSuccessionClaim
  updatedAt : String
deriving DecidableEq, Repr

/-- What makes someone the owner. -/
inductive OwnershipAdoptionRecord
  | transfer (record : WorkspaceOwnershipTransfer) (accepted : List WorkspaceOwnershipTransfer)
  | succession (record : WorkspaceSuccessionClaim) (claims : List WorkspaceSuccessionClaim)

/-- The former owner joins the history, once. -/
def OwnershipCredential.historyWithOwner (c : OwnershipCredential) : List WorkspaceAuthority :=
  if c.ownerHistory.any fun owner => owner.personId = c.owner.personId then c.ownerHistory
  else c.ownerHistory ++ [c.owner]

/-- The local person's own grant after a change of owner. -/
def OwnershipCredential.grantAfter (c : OwnershipCredential) (localPersonId toPerson : String)
    (newOwnerGrant : Option WorkspaceGrant) (formerGrant : WorkspaceGrant) :
    Option WorkspaceGrant :=
  if localPersonId = toPerson then newOwnerGrant
  else if localPersonId = c.owner.personId then some formerGrant
  else c.localGrant

/-- The credential after one transition. -/
def planOwnershipAdoption (credential : OwnershipCredential) (localPersonId : String)
    (verifiedCurrentOwnerEpoch : Nat) : OwnershipAdoptionRecord →
    Except String OwnershipCredential
  | .transfer record accepted => do
      let p := record.payload
      refuse (p.fromOwnerPersonId ≠ credential.owner.personId ∨
        p.epoch ≤ verifiedCurrentOwnerEpoch) "Invalid ownership transition"
      .ok { credential with
        owner := p.nextAuthority
        epoch := max credential.epoch p.epoch
        ownerHistory := credential.historyWithOwner
        localGrant := credential.grantAfter localPersonId p.toOwnerPersonId
          (some p.toOwnerGrant) p.formerOwnerGrant
        ownershipTransfers := orderedTransfers accepted
        successionPolicy := none
        successionVotes := []
        updatedAt := p.transferredAt }
  | .succession record claims => do
      let p := record.payload
      refuse (p.fromOwnerPersonId ≠ credential.owner.personId ∨
        p.epoch ≤ verifiedCurrentOwnerEpoch) "Invalid ownership transition"
      .ok { credential with
        owner := p.nextAuthority
        epoch := p.epoch
        ownerHistory := credential.historyWithOwner
        localGrant := credential.grantAfter localPersonId p.toOwnerPersonId none p.formerOwnerGrant
        successionPolicy := none
        successionVotes := []
        successionClaims := sortBy (fun claim =>
          toLex (claim.payload.epoch, strKey claim.signature)) claims
        updatedAt := p.claimedAt }

end MetaMesh
