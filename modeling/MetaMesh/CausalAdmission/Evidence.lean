import MetaMesh.Authorization.Changes

/-!
# Evidence for the changes of a history

The first half of `evaluate_causal_admission_inner`: the raw history, with the
pending changes that are not in the document yet, and what the signed records
say about each change.  A record that covers some change of the history must be
valid, or the whole evaluation is refused; what it proves is then held against
the metadata inside the change itself.

The checks that read the contents of a document at a change are fields of
`ScopeChecks`; nothing below depends on how they decide.
-/

namespace MetaMesh

open Fallible

/-- A document, more changes, and the records about them. -/
structure CausalAdmissionInput where
  records : List IncomingWorkspaceChangeAuthorization
  snapshot : WorkspaceWriteAuthorizationSnapshot
  /-- Changes that are not in the snapshot's document yet. -/
  pendingChangeBytes : List (List UInt8)
  nowMs : Int

/-- What the author of a change wrote into its message. -/
structure ChangeAuthorityMetadata where
  kind : Option String
  version : UInt8
  authorityGrantHash : Option String
  personId : Option String
  deviceId : Option String
  transactionId : Option String
  action : Option String
  entityIds : Option (List String)
deriving DecidableEq, Repr

def ChangeAuthorityMetadata.ofValue (v : Value) : Option ChangeAuthorityMetadata := do
  let field := fun name => v.structField ["kind", "version", "authorityGrantHash", "personId",
    "deviceId", "transactionId", "action", "entityIds"] name
  some ⟨← fromOptional (field "kind"), ← fromField (field "version"),
    ← fromOptional (field "authorityGrantHash"), ← fromOptional (field "personId"),
    ← fromOptional (field "deviceId"), ← fromOptional (field "transactionId"),
    ← fromOptional (field "action"), ← fromOptional (field "entityIds")⟩

instance : Deserialize ChangeAuthorityMetadata := ⟨ChangeAuthorityMetadata.ofValue⟩

def parseChangeAuthorityMetadata (P : Primitives) (message : Option String) :
    Option ChangeAuthorityMetadata := do
  let value ← P.parseJson (← message)
  let metadata : ChangeAuthorityMetadata ← fromValue value
  guard ((metadata.kind = some "workspace-change-metadata" ∨ metadata.transactionId.isSome ∨
    metadata.action.isSome ∨ metadata.entityIds.isSome) ∧ metadata.version = 1)
  some metadata

/-- A change by its hash. -/
structure ChangeNode (E : Type) where
  change : Change E
  hash : String
  dependencies : List String
  authority : Option ChangeAuthorityMetadata

def changeNode {E : Type} (P : Primitives) (change : Change E) : ChangeNode E :=
  ⟨change, change.hash, change.deps, parseChangeAuthorityMetadata P change.message⟩

/-- What an automation change did to an item of its board. -/
structure AutomationEffect where
  itemId : String
  moved : Bool
deriving DecidableEq, Repr

/-- What a change did to one application source record. -/
inductive SourceDelta
  | untouched
  /-- It was there before. -/
  | edited
  /-- It was not; the id is noted if the record is there afterwards and valid. -/
  | created (validated : Except String (Option String))

/-- The checks that look into the document, before and after a change. -/
structure ScopeChecks {E : Type} (A : Automerge E) where
  ObjId : Type
  decidableObjId : DecidableEq ObjId
  visitorProfileChangeOnly : A.Document → ChangeNode E → String → Except String Unit
  /-- The entities map that a change replaced. -/
  workspaceEntitiesMapRebound : A.Document → ChangeNode E → Option ObjId
  applicationSourceChangeMayTouch : A.Document → ChangeNode E → Bool
  /-- The application source records in the views around a change, by id. -/
  applicationSourceDeltas : A.Document → ChangeNode E → String → Except String (List SourceDelta)
  workspaceEntitiesObjectAtFrontier : A.Document → List String → Option ObjId
  automationChangeAllowed :
    A.Document → ChangeNode E → AutomationGrantScope → Except String AutomationEffect
  applicationSourceConflicts : A.Document → Finset String
  projectedItemHasParentConflict : A.Document → String → Bool

instance {E : Type} {A : Automerge E} (checks : ScopeChecks A) : DecidableEq checks.ObjId :=
  checks.decidableObjId

/-! ## The history -/

/-- The raw history that is evaluated, and the change it is trusted up to. -/
structure CausalHistory {E : Type} (A : Automerge E) where
  snapshot : WorkspaceWriteAuthorizationSnapshot
  document : A.Document
  nodes : List (ChangeNode E)
  trustedBasisHash : Option String

def CausalHistory.hashes {E : Type} {A : Automerge E} (history : CausalHistory A) : List String :=
  history.nodes.map ChangeNode.hash

/-- The changes that need a proof. -/
def CausalHistory.needed {E : Type} {A : Automerge E} (history : CausalHistory A) : Finset String :=
  history.hashes.toFinset.filter fun hash => some hash ≠ history.trustedBasisHash

def maxCausalAdmissionBytes : Nat := 256 * 1024 * 1024

section History

variable (P : Primitives) {E : Type} (A : Automerge E)

def checkCausalEvidence (input : CausalAdmissionInput) : Except String Unit := do
  refuse (20000 < input.records.length) "Too many workspace change authorizations"
  refuse (maxCausalAdmissionBytes < input.snapshot.document.length +
    (input.pendingChangeBytes.map List.length).sum) "Workspace causal evidence exceeds size limit"
  refuse (64 * 1024 * 1024 < (input.records.map fun record => (toValue record).toVec.length).sum)
    "Workspace causal authorization evidence exceeds size limit"

/-- A pending change joins the history unless its hash is there. -/
def addPendingChange (changes : List (Change E)) (bytes : List UInt8) :
    Except String (List (Change E)) := do
  let change ← okOr (A.changeFromBytes bytes) "Invalid pending Automerge change"
  .ok (if change.hash ∈ changes.map Change.hash then changes else changes ++ [change])

/-- The document's changes and the pending ones. -/
def readHistory (input : CausalAdmissionInput) (trustedBasisHash : Option String) :
    Except String (CausalHistory A) := do
  checkCausalEvidence input
  let document ← okOr (A.load input.snapshot.document) "Invalid workspace authority document"
  let changes ← input.pendingChangeBytes.foldlM (addPendingChange A) (A.changes document)
  refuse (1000000 < changes.length) "Workspace change history exceeds size limit"
  .ok ⟨input.snapshot, document, changes.map (changeNode P), trustedBasisHash⟩

end History

/-! ## Provenance -/

section Provenance

variable (P : Primitives) {E : Type} (record : IncomingWorkspaceChangeAuthorization)

/-- Metadata names the signer, person and device, or nobody. -/
def metadataIdentityMatches (node : ChangeNode E) : Bool :=
  node.authority.all fun metadata =>
    match metadata.personId, metadata.deviceId with
    | some personId, some deviceId =>
      personId = record.signed.payload.personId ∧ deviceId = record.signed.payload.deviceId
    | none, none => true
    | _, _ => false

/-- An owner may not claim old changes that name nobody. -/
def identitylessLegacyOwnerRebind (context : ValidatedWorkspaceWriteAuthorizationContext)
    (node : ChangeNode E) (role : WorkspaceRole) : Bool :=
  role = .owner ∧ node.dependencies ≠ [] ∧
    (node.authority.all fun metadata => metadata.personId = none ∧ metadata.deviceId = none) =
      true ∧
    context.insideAllSignedFrontiers node.hash = false

def grantHash (grant : WorkspaceGrant) : Except String String := do
  let canonical ← canonicalizeJson P (toValue grant)
  .ok (P.base64Encode (P.sha256 canonical))

/-- The change names the very grant of the record, and its signer. -/
def boundToGrant (grant : WorkspaceGrant) (metadata : ChangeAuthorityMetadata) : Bool :=
  match grantHash P grant with
  | .ok hash => metadata.authorityGrantHash = some hash ∧
      metadata.personId = some record.signed.payload.personId ∧
      metadata.deviceId = some record.signed.payload.deviceId
  | .error _ => false

/-- A boundary of the signer is older than the grant. -/
def hasNewerBoundary (snapshot : WorkspaceWriteAuthorizationSnapshot) (personId : String)
    (epoch : Nat) : Bool :=
  (snapshot.revocations.any fun boundary =>
      boundary.payload.personId = personId ∧ boundary.payload.epoch < epoch) ||
    snapshot.departures.any fun boundary =>
      boundary.record.payload.personId = personId ∧ boundary.record.payload.accessEpoch < epoch

def editorProvenanceMatches (node : ChangeNode E) (snapshot : WorkspaceWriteAuthorizationSnapshot)
    (context : ValidatedWorkspaceWriteAuthorizationContext) : Bool :=
  record.grant.any fun grant =>
    match node.authority.filter fun metadata => metadata.authorityGrantHash.isSome with
    | some metadata => boundToGrant P record grant metadata
    -- history from before changes named their grant
    | none =>
      hasNewerBoundary snapshot record.signed.payload.personId
          grant.payload.effectiveAccessEpoch = false ∧
        context.insideSignedFrontiers record.signed.payload.personId
          record.signed.payload.deviceId node.hash = true

def automationProvenanceMatches (node : ChangeNode E) : Bool :=
  record.grant.any fun grant => node.authority.any (boundToGrant P record grant)

end Provenance

/-! ## What the records prove -/

/-- What the records say about each change. -/
structure Evidence where
  roles : Table String WorkspaceRole
  automationScopes : Table String AutomationGrantScope
  provenanceErrors : Table String String
  verifiedAuthorizations : List IncomingWorkspaceChangeAuthorization

section Records

variable (P : Primitives) {E : Type} {A : Automerge E} (checks : ScopeChecks A)
  (history : CausalHistory A) (context : ValidatedWorkspaceWriteAuthorizationContext)

/-- Whether a change bears out what a record proves about it; the error is the
reason it does not. -/
def checkProvenance (record : IncomingWorkspaceChangeAuthorization) (node : ChangeNode E)
    (role : WorkspaceRole) : Except String Unit := do
  refuse (metadataIdentityMatches record node = false ∨
    identitylessLegacyOwnerRebind context node role = true)
    "Change identity metadata does not match its signed authorization"
  refuse (role = .editor ∧ editorProvenanceMatches P record node history.snapshot context = false)
    "Editor change grant provenance does not match its signed change metadata"
  refuse (role = .automation ∧ automationProvenanceMatches P record node = false)
    "Automation grant provenance does not match its signed change metadata"
  match role, checks.visitorProfileChangeOnly history.document node
      record.signed.payload.personId with
  | .visitor, .error reason =>
    .error ("Visitors may change only their own avatar profile (" ++ reason ++ ")")
  | _, _ => .ok ()

variable (evidence : Evidence)

def Evidence.withError (hash reason : String) : Evidence :=
  { evidence with provenanceErrors := evidence.provenanceErrors.insert hash reason }

/-- Owner evidence wins over any other. -/
def Evidence.withRole (hash : String) (role : WorkspaceRole) : Evidence :=
  if evidence.roles.lookup hash = some .owner then evidence
  else { evidence with roles := evidence.roles.insert hash role }

def Evidence.withAutomation (hash : String) (scope : Option AutomationGrantScope) : Evidence :=
  match scope with
  | none => evidence.withError hash "Automation grant scope is missing"
  | some scope =>
    if (evidence.automationScopes.lookup hash).any (· ≠ scope) then
      evidence.withError hash "Conflicting automation grant scopes"
    else
      { evidence with
        automationScopes := evidence.automationScopes.insert hash scope }.withRole hash .automation

/-- Notes what a record proves about one change. -/
def takeProof (record : IncomingWorkspaceChangeAuthorization) (evidence : Evidence)
    (proof : AuthorizedWorkspaceChange) : Evidence :=
  match history.nodes.find? fun node => node.hash = proof.hash with
  | none => evidence
  | some node =>
    match checkProvenance P checks history context record node proof.role with
    | .error reason => evidence.withError proof.hash reason
    | .ok () =>
      if proof.role = .automation then
        evidence.withAutomation proof.hash (record.grant.bind fun grant => grant.payload.automation)
      else evidence.withRole proof.hash proof.role

def takeRecord (record : IncomingWorkspaceChangeAuthorization) : Except String Evidence :=
  if ∃ hash ∈ record.signed.payload.hashes, hash ∈ history.needed then do
    let admitted ← admitWithNeededForCausal P record context history.needed true
    .ok (admitted.foldl (takeProof P checks history context record)
      { evidence with verifiedAuthorizations := evidence.verifiedAuthorizations ++ [record] })
  else .ok evidence

def readEvidence (records : List IncomingWorkspaceChangeAuthorization) : Except String Evidence :=
  records.foldlM (takeRecord P checks history context) ⟨∅, ∅, ∅, []⟩

end Records

namespace Sample

/-- Scope checks on changes that touch the signer's own profile and nothing
else. -/
def profileScope {E : Type} (A : Automerge E) : ScopeChecks A where
  ObjId := Unit
  decidableObjId := inferInstance
  visitorProfileChangeOnly _ _ _ := .ok ()
  workspaceEntitiesMapRebound _ _ := none
  applicationSourceChangeMayTouch _ _ := false
  applicationSourceDeltas _ _ _ := .ok []
  workspaceEntitiesObjectAtFrontier _ _ := some ()
  automationChangeAllowed _ _ _ := .error "Automation can change only leaf job cards"
  applicationSourceConflicts _ := ∅
  projectedItemHasParentConflict _ _ := false

/-- A workspace of one owner, and its document. -/
def workspace (document : List UInt8) : WorkspaceWriteAuthorizationSnapshot where
  workspaceId := "workspace"
  genesisOwner := authority 0
  genesisEpoch := 1
  expectedCurrentOwner := authority 0
  document := document
  ownershipTransfers := []
  successionClaims := []
  revocations := []
  deviceRevocations := []
  departures := []

end Sample

end MetaMesh
