import MetaMesh.CausalAdmission.Evidence
import MetaMesh.Lib.Layers

/-!
# Causal admission

The second half of `evaluate_causal_admission_inner`.  A change is classified
once its dependencies are; rounds over all changes repeat until nothing more can
be classified.  Changes that conflict with each other are then quarantined, and
what depends on them leaves the projection in a second loop of rounds.  The
authorized document is rebuilt from the admitted changes, in dependency layers,
unless the given document is already it.
-/

namespace MetaMesh

open Fallible

/-- What becomes of a change. -/
inductive CausalAdmissionStatus
  | admitted (role : WorkspaceRole)
  | quarantined (reason : String)
  | pending (reason : String)
deriving DecidableEq, Repr

/-- A change with its status. -/
structure CausalAdmissionDecision where
  hash : String
  status : CausalAdmissionStatus
deriving DecidableEq, Repr

/-- The decisions, and the document they leave. -/
structure CausalAdmissionPlan where
  decisions : List CausalAdmissionDecision
  verifiedAuthorizations : List IncomingWorkspaceChangeAuthorization
  authorizedDocument : List UInt8
deriving DecidableEq, Repr

/-- The reason of a change that has not been classified yet. -/
def unresolvedReason : String := "Change dependencies are unresolved"

namespace CausalAdmissionStatus

def unresolved : CausalAdmissionStatus := .pending unresolvedReason

def isAdmitted : CausalAdmissionStatus → Bool
  | admitted _ => true
  | _ => false

/-- Classified, and not admitted. -/
def isExcluded (status : CausalAdmissionStatus) : Bool :=
  !status.isAdmitted && status ≠ unresolved

def outsideProjection : CausalAdmissionStatus :=
  .pending "Change depends on a change outside the authorized projection"

end CausalAdmissionStatus

abbrev Statuses := Table String CausalAdmissionStatus

def Statuses.isAdmitted (statuses : Statuses) (hash : String) : Bool :=
  (statuses.lookup hash).any CausalAdmissionStatus.isAdmitted

/-- `statuses.insert(hash, Quarantined { reason })` for each hash. -/
def Statuses.quarantine (statuses : Statuses) (reason : String) (hashes : List String) : Statuses :=
  hashes.foldl (fun statuses hash => statuses.insert hash (.quarantined reason)) statuses

section Resolution

variable {E : Type} {A : Automerge E} (checks : ScopeChecks A) (history : CausalHistory A)
  (evidence : Evidence)

/-- The statuses, and what was noted about the changes classified so far. -/
structure Resolution where
  statuses : Statuses
  applicationSourceCreations : Table String (List String × Option checks.ObjId)
  entitiesMapRebindings : Table String checks.ObjId
  automationEffects : Table String AutomationEffect

/-- What is decided about one change. -/
structure Verdict where
  status : CausalAdmissionStatus
  creation : Option (List String × Option checks.ObjId)
  rebinding : Option checks.ObjId
  effect : Option AutomationEffect

/-- The roles that may create application source records. -/
def mayCreateSources (role : WorkspaceRole) (scope : Option AutomationGrantScope) : Bool :=
  role = .owner || role = .editor ||
    (role = .automation && scope.any fun scope => scope.version = 2)

def takeSourceDelta (mayCreate : Bool) (createdIds : List String) :
    SourceDelta → Except String (List String)
  | .untouched => .ok createdIds
  | .edited => .error "Application source records cannot be edited, deleted, moved, or archived"
  | .created validated => do
      refuse (mayCreate = false) "This workspace role cannot create application source records"
      let id ← validated
      .ok (createdIds ++ id.toList)

variable (node : ChangeNode E) (role : WorkspaceRole) (scope : Option AutomationGrantScope)

def applicationSourceChangeAllowed : Except String (List String) := do
  let deltas ← checks.applicationSourceDeltas history.document node history.snapshot.workspaceId
  deltas.foldlM (takeSourceDelta (mayCreateSources role scope)) []

def sourceResult : Except String (List String) :=
  if checks.applicationSourceChangeMayTouch history.document node then
    applicationSourceChangeAllowed checks history node role scope
  else .ok []

/-- The status of a change whose source records are in order, and the effect of
an automation change. -/
def roleStatus : CausalAdmissionStatus × Option AutomationEffect :=
  if role = .editor ∧ node.dependencies = [] then
    (.quarantined "Editors cannot create the initial workspace change", none)
  else if role = .automation then
    match scope with
    | none => (.quarantined "Automation grant scope is missing", none)
    | some scope =>
      match checks.automationChangeAllowed history.document node scope with
      | .ok effect => (.admitted role, some effect)
      | .error reason => (.quarantined reason, none)
  else (.admitted role, none)

/-- The verdict on a change with a proven role. -/
def roleVerdict : Verdict checks :=
  let rebinding := checks.workspaceEntitiesMapRebound history.document node
  match sourceResult checks history node role scope with
  | .error reason => ⟨.quarantined reason, none, rebinding, none⟩
  | .ok createdIds =>
    let creation := if createdIds = [] then none else
      some (createdIds, checks.workspaceEntitiesObjectAtFrontier history.document [node.hash])
    let (status, effect) := roleStatus checks history node role scope
    ⟨status, creation, rebinding, effect⟩

/-- The verdict on a change whose dependencies are admitted. -/
def ownVerdict : Verdict checks :=
  match evidence.roles.lookup node.hash with
  | some role => roleVerdict checks history node role (evidence.automationScopes.lookup node.hash)
  | none =>
    let reason := (evidence.provenanceErrors.lookup node.hash).getD
      "No verified signed authorization covers this change"
    ⟨.quarantined reason, none, none, none⟩

variable {checks}

def insertNoted {α : Type} (t : Table String α) (hash : String) : Option α → Table String α
  | some a => t.insert hash a
  | none => t

variable (r : Resolution checks)

def Resolution.withStatus (hash : String) (status : CausalAdmissionStatus) : Resolution checks :=
  { r with statuses := r.statuses.insert hash status }

def Resolution.withVerdict (hash : String) (verdict : Verdict checks) : Resolution checks where
  statuses := r.statuses.insert hash verdict.status
  applicationSourceCreations :=
    insertNoted r.applicationSourceCreations hash verdict.creation
  entitiesMapRebindings := insertNoted r.entitiesMapRebindings hash verdict.rebinding
  automationEffects := insertNoted r.automationEffects hash verdict.effect

variable (checks)

/-- What a round does to one change: nothing, unless it is unresolved and its
dependencies decide. -/
def resolveNode (node : ChangeNode E) : Option (Resolution checks) :=
  if r.statuses.lookup node.hash ≠ some .unresolved then none
  else if node.dependencies.any fun dependency => dependency ∉ history.hashes then
    some (r.withStatus node.hash (.pending "Change dependency is missing"))
  else if node.dependencies.any fun dependency =>
      (r.statuses.lookup dependency).any CausalAdmissionStatus.isExcluded then
    some (r.withStatus node.hash .outsideProjection)
  else if node.dependencies.any fun dependency =>
      r.statuses.lookup dependency = some .unresolved then none
  else if node.dependencies.all r.statuses.isAdmitted then
    some (r.withVerdict node.hash (ownVerdict checks history evidence node))
  else none

/-- The statuses at the start: only the basis is trusted. -/
def initialStatus : CausalAdmissionStatus :=
  if some node.hash = history.trustedBasisHash then .admitted .owner else .unresolved

def initialStatuses : Statuses :=
  history.nodes.foldl (fun statuses node =>
    statuses.insert node.hash (initialStatus history node)) ∅

end Resolution

section Evaluation

variable (P : Primitives) {E : Type} {A : Automerge E} (checks : ScopeChecks A)
  (history : CausalHistory A)

/-- Resolve repeatedly; every changing round classifies a change. -/
def resolve (evidence : Evidence) : Resolution checks :=
  settle (pass (resolveNode checks history evidence) history.nodes) (history.nodes.length + 1)
    ⟨initialStatuses history, ∅, ∅, ∅⟩

/-- What is still unresolved after the last round has no way to be resolved. -/
def closeUnresolved (statuses : Statuses) : Statuses :=
  statuses.mapValues fun status =>
    if status = .unresolved then .pending "Change dependency chain is unresolved" else status

variable (r : Resolution checks)

/-- Changes that created an application source with an id that is in conflict. -/
def conflictingCreations : List String :=
  let conflicted := if r.applicationSourceCreations = ∅ then ∅
    else checks.applicationSourceConflicts history.document
  (r.applicationSourceCreations.entries.filter fun entry =>
    entry.2.1.any (· ∈ conflicted)).map fun entry => entry.1

/-- Changes that replaced the entities map an application source was created in. -/
def conflictingRebindings : List String :=
  (r.entitiesMapRebindings.entries.filter fun entry =>
    r.applicationSourceCreations.values.any fun creation =>
      creation.2 = some entry.2).map fun entry => entry.1

/-- The statuses after the conflicts that the raw document shows. -/
def statusesWithoutConflicts : Statuses :=
  ((closeUnresolved r.statuses).quarantine
      "Concurrent application source creation conflicts on the same record id"
      (conflictingCreations checks history r)).quarantine
    "Workspace entities map rebind conflicts with an application source created from that map"
    (conflictingRebindings checks r)

/-- Admitted moves of items whose column is in conflict in the projection. -/
def conflictingAutomation (statuses : Statuses) (authorized : A.Document) : List String :=
  (r.automationEffects.entries.filter fun entry => entry.2.moved ∧
    statuses.isAdmitted entry.1 = true ∧
    checks.projectedItemHasParentConflict authorized entry.2.itemId = true).map
      fun entry => entry.1

/-- What a round of the cascade does to one change. -/
def excludeNode (statuses : Statuses) (node : ChangeNode E) : Option Statuses :=
  if statuses.isAdmitted node.hash ∧ node.dependencies.any fun dependency =>
      (statuses.lookup dependency).any fun status => !status.isAdmitted then
    some (statuses.insert node.hash .outsideProjection)
  else none

variable (nodes : List (ChangeNode E)) (statuses : Statuses)

/-- Every changing round takes a change out of the projection. -/
def cascade : Statuses :=
  settle (pass excludeNode nodes) (nodes.length + 1) statuses

def admittedHashes : Finset String :=
  ((nodes.map ChangeNode.hash).filter statuses.isAdmitted).toFinset

/-- The admitted changes, each after its dependencies. -/
def orderedAdmittedHashes (admitted : Finset String) : Except String (List String) :=
  Layers.order ChangeNode.hash ChangeNode.dependencies admitted strKey strKey_injective
    "Authorized workspace change dependencies are cyclic" nodes

variable (A) in
/-- The document of the admitted changes. -/
def buildAuthorizedProjection : Except String A.Document := do
  let orderedHashes ← orderedAdmittedHashes nodes (admittedHashes nodes statuses)
  let orderedChanges := orderedHashes.filterMap fun hash =>
    (nodes.find? fun node => node.hash = hash).map ChangeNode.change
  okOr (A.build orderedChanges) "Unable to rebuild authorized workspace projection"

/-- One decision for each change, in the order of the hashes. -/
def admissionPlan (verifiedAuthorizations : List IncomingWorkspaceChangeAuthorization)
    (authorizedDocument : List UInt8) : CausalAdmissionPlan where
  decisions := sortBy (fun decision => strKey decision.hash)
    (nodes.filterMap fun node => (statuses.lookup node.hash).map fun status =>
      ⟨node.hash, status⟩)
  verifiedAuthorizations := verifiedAuthorizations
  authorizedDocument := authorizedDocument

/-- The basis has to be the one root of the history. -/
def checkHistoryBasis : Except String Unit :=
  match history.trustedBasisHash with
  | none => .ok ()
  | some basisHash => do
      let basis ← okOr (history.nodes.find? fun node => node.hash = basisHash)
        "Verified history basis is absent from the admitted document"
      refuse (basis.dependencies ≠ [] ∨
        (history.nodes.filter fun node => node.dependencies = []).length ≠ 1)
        "History basis must be the single root of the compact active history"

def allAdmitted : Bool :=
  statuses.values.all CausalAdmissionStatus.isAdmitted

variable (hasPendingBytes : Bool)

/-- The projection before automation moves are checked against each other. -/
def firstProjection (statuses : Statuses) : Except String A.Document :=
  if !hasPendingBytes && allAdmitted statuses then
    okOr (A.load history.snapshot.document) "Invalid workspace authority document"
  else buildAuthorizedProjection A history.nodes statuses

/-- The projection is rebuilt when a change left it. -/
def finalProjection (authorized : A.Document) (statuses : Statuses) : Except String A.Document :=
  if allAdmitted statuses then .ok authorized
  else buildAuthorizedProjection A history.nodes statuses

/-- The end of an evaluation that has to look at the projection. -/
def projectAndPlan (evidence : Evidence) (r : Resolution checks) (statuses : Statuses) :
    Except String CausalAdmissionPlan := do
  let authorized ← firstProjection history hasPendingBytes statuses
  let final := cascade history.nodes (statuses.quarantine
    "Automation move conflicts with a concurrent authorized status change"
    (conflictingAutomation checks r statuses authorized))
  let document ← finalProjection history authorized final
  .ok (admissionPlan history.nodes final evidence.verifiedAuthorizations (A.save document))

/-- From the evidence to the plan.  The given document is the projection when all
of it is admitted and nothing was moved. -/
def planAdmission (evidence : Evidence) : Except String CausalAdmissionPlan :=
  let r := resolve checks history evidence
  let statuses := statusesWithoutConflicts checks history r
  if !hasPendingBytes && allAdmitted statuses &&
      r.automationEffects.values.all fun effect => !effect.moved then
    .ok (admissionPlan history.nodes statuses evidence.verifiedAuthorizations
      history.snapshot.document)
  else projectAndPlan checks history hasPendingBytes evidence r statuses

variable (input : CausalAdmissionInput)

def evaluateCausalAdmissionInner (trustedBasisHash : Option String) :
    Except String CausalAdmissionPlan := do
  let history ← readHistory P A input trustedBasisHash
  let context ← fromSnapshotCausal P A input.snapshot
  let evidence ← readEvidence P checks history context input.records
  checkHistoryBasis history
  planAdmission checks history (input.pendingChangeBytes ≠ []) evidence

def evaluateCausalAdmission : Except String CausalAdmissionPlan :=
  evaluateCausalAdmissionInner P checks input none

def evaluateCausalAdmissionFromHistoryBasis (trustedBasisHash : String) :
    Except String CausalAdmissionPlan := do
  refuse (trustedBasisHash = "") "History basis admission requires a verified basis hash"
  evaluateCausalAdmissionInner P checks input (some trustedBasisHash)

end Evaluation

end MetaMesh
