import MetaMesh.CausalAdmission.Boundaries

/-!
# The order of the records

Several records may cover one change.  What they say about it ends up in one
slot: a role, a scope and a reason.  An owner's proof stays in the slot, any
other role is overwritten by the next one, and so is the reason; the scope is the
first one.  `Slot.take` is that rule for one change, `readEvidence_slot` says that
the records are read by it, and `records_in_any_order` that the order of the
records is irrelevant while they do not contradict each other.
-/

namespace MetaMesh

open Fallible

/-- What one proof comes to for its change. -/
inductive Finding
  | proves (role : WorkspaceRole) (scope : Option AutomationGrantScope)
  | refused (reason : String)
deriving DecidableEq

/-- What is known about one change. -/
structure Slot where
  role : Option WorkspaceRole
  scope : Option AutomationGrantScope
  reason : Option String

namespace Slot

def withRole (slot : Slot) (role : WorkspaceRole) : Slot :=
  if slot.role = some .owner then slot else { slot with role := some role }

def take (slot : Slot) : Finding → Slot
  | .refused reason => { slot with reason := some reason }
  | .proves role none => slot.withRole role
  | .proves role (some scope) =>
    if slot.scope.any (· ≠ scope) then
      { slot with reason := some "Conflicting automation grant scopes" }
    else { slot with scope := some scope }.withRole role

def empty : Slot := ⟨none, none, none⟩

/-- The same for the verdict: a scope counts for an automation only, and a reason
only where nothing is proved. -/
structure Agrees (slot other : Slot) : Prop where
  role : slot.role = other.role
  scope : slot.role = some .automation → slot.scope = other.scope
  reason : slot.role = none → slot.reason = other.reason

end Slot

/-- The findings about a change do not contradict each other: an owner signed
for it, or all who prove anything prove the same, or all are refused for the same
reason. -/
def Unanimous (found : List Finding) : Prop :=
  .proves .owner none ∈ found ∨
    (∃ role scope, .proves role scope ∈ found ∧ ∀ role' scope', .proves role' scope' ∈ found →
      role' = role ∧ scope' = scope) ∨
    ∃ reason, ∀ finding ∈ found, finding = .refused reason

/-! ## One slot -/

namespace Slot

variable {slot : Slot} {found : List Finding}

variable {role : WorkspaceRole} {scope : Option AutomationGrantScope}

@[simp] theorem role_withRole : (slot.withRole role).role =
    if slot.role = some .owner then some .owner else some role := by
  unfold withRole
  split
  · next owner => exact owner
  · rfl

@[simp] theorem scope_withRole : (slot.withRole role).scope = slot.scope := by
  unfold withRole
  split <;> rfl

theorem take_keeps_owner {finding : Finding} (owner : slot.role = some .owner) :
    (slot.take finding).role = some .owner := by
  unfold take
  split
  · exact owner
  · simp [owner]
  · split
    · exact owner
    · simp [owner]

/-- An owner's proof stays. -/
theorem owner_of_mem (held : slot.role = some .owner ∨ .proves .owner none ∈ found) :
    (found.foldl take slot).role = some .owner := by
  induction found generalizing slot with
  | nil => simpa using held
  | cons finding found ih =>
    apply ih
    rcases held with owner | held
    · exact .inl (take_keeps_owner owner)
    · rcases List.mem_cons.mp held with rfl | later
      · exact .inl (by simp [take])
      · exact .inr later

variable (role scope) in
/-- The slot holds nothing but what is to be proved. -/
def Toward (slot : Slot) : Prop :=
  (slot.role = none ∨ slot.role = some role) ∧ (slot.scope = none ∨ slot.scope = scope)

theorem take_of_toward (toward : Toward role scope slot) :
    (slot.take (.proves role scope)).role = some role ∧
      (slot.take (.proves role scope)).scope = scope := by
  obtain ⟨roles, scopes⟩ := toward
  have given : ∀ other : Slot, other.role = none ∨ other.role = some role →
      (other.withRole role).role = some role := by
    intro other before
    rw [role_withRole]
    rcases before with none | same
    · simp [none]
    · rw [same]
      split
      · next owner => exact owner.symm
      · rfl
  cases scope with
  | none => exact ⟨given slot roles, by simpa [take] using scopes⟩
  | some scope =>
    have fresh : (slot.scope.any (· ≠ scope)) = false := by
      rcases scopes with none | same <;> simp [*]
    simp only [take, fresh, Bool.false_eq_true, if_false, scope_withRole, and_true]
    exact given _ roles

/-- Where all who prove anything prove the same, that is what ends up. -/
theorem same_of_all (toward : Toward role scope slot)
    (all : ∀ role' scope', .proves role' scope' ∈ found → role' = role ∧ scope' = scope)
    (some' : (slot.role = some role ∧ slot.scope = scope) ∨ .proves role scope ∈ found) :
    (found.foldl take slot).role = some role ∧ (found.foldl take slot).scope = scope := by
  induction found generalizing slot with
  | nil => simpa using some'
  | cons finding found ih =>
    have later := fun role' scope' held => all role' scope' (List.mem_cons_of_mem finding held)
    cases finding with
    | refused reason =>
      refine ih toward later ?_
      rcases some' with done | held
      · exact .inl done
      · exact .inr (by simpa using held)
    | proves role' scope' =>
      obtain ⟨rfl, rfl⟩ := all role' scope' (by simp)
      have done := take_of_toward toward
      exact ih ⟨.inr done.1, .inr done.2⟩ later (.inl done)

/-- Where nothing is proved, the slot has no role, and the one reason there is. -/
theorem reason_of_all {reason : String} (all : ∀ finding ∈ found, finding = .refused reason) :
    (found.foldl take slot).role = slot.role ∧
      (found.foldl take slot).reason = if found = [] then slot.reason else some reason := by
  induction found generalizing slot with
  | nil => simp
  | cons finding found ih =>
    rw [List.forall_mem_cons] at all
    obtain ⟨rfl, later⟩ := all
    rw [List.foldl_cons]
    obtain ⟨role, last⟩ := @ih (slot.take (.refused reason)) later
    rw [role, last]
    simp [take]

/-- Unanimous findings come to the same in any order. -/
theorem agrees_of_perm {other : List Finding} (perm : found.Perm other)
    (unanimous : Unanimous found) : (found.foldl take empty).Agrees (other.foldl take empty) := by
  rcases unanimous with owner | ⟨role, scope, held, all⟩ | ⟨reason, all⟩
  · have here := @owner_of_mem empty found (.inr owner)
    have there := @owner_of_mem empty other (.inr (perm.mem_iff.mp owner))
    exact ⟨here.trans there.symm, by simp [here], by simp [here]⟩
  · have start : Toward role scope empty := ⟨.inl rfl, .inl rfl⟩
    have here := same_of_all start all (.inr held)
    have there := same_of_all start
      (fun role' scope' held => all role' scope' (perm.mem_iff.mpr held))
      (.inr (perm.mem_iff.mp held))
    exact ⟨here.1.trans there.1.symm, fun _ => here.2.trans there.2.symm, by simp [here.1]⟩
  · have here := @reason_of_all empty found reason all
    have there := @reason_of_all empty other reason
      (fun finding held => all finding (perm.mem_iff.mpr held))
    have unproved : (found.foldl take empty).role = none := here.1
    refine ⟨here.1.trans there.1.symm, by simp [unproved], fun _ => ?_⟩
    rw [here.2, there.2]
    by_cases none : found = []
    · rw [if_pos none, if_pos (List.perm_nil.mp (none ▸ perm.symm))]
    · have still : other ≠ [] := by
        intro empty
        exact none (List.perm_nil.mp (empty ▸ perm))
      rw [if_neg none, if_neg still]

end Slot

/-! ## The records, change by change -/

section Records

variable (P : Primitives) {E : Type} {A : Automerge E} (checks : ScopeChecks A)
  (history : CausalHistory A) (context : ValidatedWorkspaceWriteAuthorizationContext)
  (record : IncomingWorkspaceChangeAuthorization) (node : ChangeNode E)

def finding (role : WorkspaceRole) : Finding :=
  match checkProvenance P checks history context record node role with
  | .error reason => .refused reason
  | .ok () =>
    if role = .automation then
      match record.grant.bind fun grant => grant.payload.automation with
      | none => .refused "Automation grant scope is missing"
      | some scope => .proves .automation (some scope)
    else .proves role none

/-- What the proofs of one record come to for a change. -/
def proofFindings (proofs : List AuthorizedWorkspaceChange) : List Finding :=
  (proofs.filter fun proof => proof.hash = node.hash).map fun proof =>
    finding P checks history context record node proof.role

def recordFindings (record : IncomingWorkspaceChangeAuthorization) : List Finding :=
  if ∃ hash ∈ record.signed.payload.hashes, hash ∈ history.needed then
    match admitWithNeededForCausal P record context history.needed true with
    | .ok admitted => proofFindings P checks history context record node admitted
    | .error _ => []
  else []

/-- What the records come to for a change, in their order. -/
def findings (records : List IncomingWorkspaceChangeAuthorization) (node : ChangeNode E) :
    List Finding :=
  records.flatMap (recordFindings P checks history context node)

def Evidence.slot (evidence : Evidence) (hash : String) : Slot :=
  ⟨evidence.roles.lookup hash, evidence.automationScopes.lookup hash,
    evidence.provenanceErrors.lookup hash⟩

/-- A record that covers a change of the history is admitted. -/
def RecordAdmitted : Prop :=
  (∃ hash ∈ record.signed.payload.hashes, hash ∈ history.needed) →
    ∃ admitted, admitWithNeededForCausal P record context history.needed true = .ok admitted

variable {P checks history context}

variable {evidence : Evidence} {other : String} {hash : String}

theorem Evidence.slot_withError {reason : String} :
    (evidence.withError hash reason).slot other =
      if other = hash then (evidence.slot other).take (.refused reason)
      else evidence.slot other := by
  unfold slot withError
  rw [Table.lookup_insert_ite]
  split <;> rfl

theorem Evidence.slot_withRole {role : WorkspaceRole} :
    (evidence.withRole hash role).slot other =
      if other = hash then (evidence.slot other).withRole role else evidence.slot other := by
  by_cases same : other = hash
  · subst same
    rw [if_pos rfl]
    unfold withRole Slot.withRole
    by_cases owner : evidence.roles.lookup other = some .owner
    · rw [if_pos owner, if_pos (show (evidence.slot other).role = some .owner from owner)]
    · rw [if_neg owner, if_neg (show ¬ (evidence.slot other).role = some .owner from owner)]
      simp [slot]
  · unfold withRole
    split
    · rfl
    · unfold slot
      rw [Table.lookup_insert_ite, if_neg same]

theorem Evidence.slot_withAutomation {scope : AutomationGrantScope} :
    (evidence.withAutomation hash (some scope)).slot other =
      if other = hash then (evidence.slot other).take (.proves .automation (some scope))
      else evidence.slot other := by
  dsimp only [withAutomation]
  by_cases same : other = hash
  · subst same
    rw [if_pos rfl]
    dsimp only [Slot.take]
    by_cases conflict : (evidence.automationScopes.lookup other).any (· ≠ scope) = true
    · rw [if_pos conflict, slot_withError, if_pos rfl, if_pos (show
        ((evidence.slot other).scope.any (· ≠ scope)) = true from conflict)]
      rfl
    · rw [if_neg conflict, slot_withRole, if_pos rfl, if_neg (show
        ¬ ((evidence.slot other).scope.any (· ≠ scope)) = true from conflict)]
      unfold slot
      rw [Table.lookup_insert_ite, if_pos rfl]
  · split
    · rw [slot_withError, if_neg same]
    · rw [slot_withRole, if_neg same]
      unfold slot
      rw [Table.lookup_insert_ite, if_neg same]

variable {record : IncomingWorkspaceChangeAuthorization}
  {records : List IncomingWorkspaceChangeAuthorization}

section

variable (distinct : history.hashes.Nodup)

include distinct

/-- A proof touches the slot of its own change only. -/
theorem slot_takeProof {proof : AuthorizedWorkspaceChange} {node : ChangeNode E}
    (held : node ∈ history.nodes) :
    (takeProof P checks history context record evidence proof).slot node.hash =
      if proof.hash = node.hash then
        (evidence.slot node.hash).take (finding P checks history context record node proof.role)
      else evidence.slot node.hash := by
  by_cases same : proof.hash = node.hash
  · rw [if_pos same]
    unfold takeProof finding
    rw [same, find_node distinct held]
    dsimp only
    cases checkProvenance P checks history context record node proof.role with
    | error reason => simp [Evidence.slot_withError]
    | ok _ =>
      by_cases automation : proof.role = .automation
      · rw [if_pos automation, if_pos automation]
        cases record.grant.bind fun grant => grant.payload.automation with
        | none => simp [Evidence.withAutomation, Evidence.slot_withError]
        | some scope => simp [Evidence.slot_withAutomation]
      · rw [if_neg automation, if_neg automation, Evidence.slot_withRole, if_pos rfl]
        rfl
  · have apart : node.hash ≠ proof.hash := fun equal => same equal.symm
    rw [if_neg same]
    unfold takeProof
    split
    · rfl
    · split
      · rw [Evidence.slot_withError, if_neg apart]
      · split
        · cases record.grant.bind fun grant => grant.payload.automation with
          | none => simp [Evidence.withAutomation, Evidence.slot_withError, apart]
          | some scope => rw [Evidence.slot_withAutomation, if_neg apart]
        · rw [Evidence.slot_withRole, if_neg apart]

theorem slot_takeProofs {proofs : List AuthorizedWorkspaceChange} {node : ChangeNode E}
    (held : node ∈ history.nodes) :
    (proofs.foldl (takeProof P checks history context record) evidence).slot node.hash =
      (proofFindings P checks history context record node proofs).foldl Slot.take
        (evidence.slot node.hash) := by
  induction proofs generalizing evidence with
  | nil => rfl
  | cons proof proofs ih =>
    rw [List.foldl_cons, ih, slot_takeProof distinct held]
    unfold proofFindings
    by_cases same : proof.hash = node.hash <;> simp [same]

theorem takeRecord_slot {before after : Evidence}
    (taken : takeRecord P checks history context before record = .ok after) :
    RecordAdmitted P history context record ∧ ∀ node ∈ history.nodes, after.slot node.hash =
      (recordFindings P checks history context node record).foldl Slot.take
        (before.slot node.hash) := by
  unfold takeRecord at taken
  split at taken
  · next covers =>
    obtain ⟨admitted, ran, same⟩ := bind_ok.mp taken
    refine ⟨fun _ => ⟨admitted, ran⟩, ?_⟩
    intro node held
    rw [← Except.ok.inj same, slot_takeProofs distinct held]
    unfold recordFindings
    rw [if_pos covers, ran]
    rfl
  · next covers =>
    refine ⟨fun covered => absurd covered covers, ?_⟩
    intro node held
    unfold recordFindings
    rw [if_neg covers, ← Except.ok.inj taken]
    rfl

/-- The records fill each slot with what they come to for its change. -/
theorem readEvidence_slot
    (gathered : readEvidence P checks history context records = .ok evidence) :
    (∀ record ∈ records, RecordAdmitted P history context record) ∧
      ∀ node ∈ history.nodes, evidence.slot node.hash =
        (findings P checks history context records node).foldl Slot.take Slot.empty := by
  apply foldlM_invariant gathered
  · exact ⟨by simp, fun node _ => by simp [findings, Evidence.slot, Slot.empty]⟩
  · intro seen record _ before after _ known step
    obtain ⟨admittedAll, filled⟩ := takeRecord_slot distinct step
    refine ⟨?_, ?_⟩
    · intro other held
      rcases List.mem_append.mp held with earlier | last
      · exact known.1 other earlier
      · exact List.mem_singleton.mp last ▸ admittedAll
    · intro node held
      rw [filled node held, known.2 node held]
      simp [findings]

end

/-- Records that are each admitted are read. -/
theorem exists_readEvidence
    (admittedAll : ∀ record ∈ records, RecordAdmitted P history context record) :
    ∃ evidence, readEvidence P checks history context records = .ok evidence := by
  have total : ∃ evidence, readEvidence P checks history context records = .ok evidence ∧ True := by
    apply foldlM_total (fun _ _ => True) trivial
    intro seen record rest before split _
    unfold takeRecord
    split
    · next covers =>
      obtain ⟨admitted, ran⟩ := admittedAll record (by simp [split]) covers
      exact ⟨_, bind_ok.mpr ⟨admitted, ran, rfl⟩, trivial⟩
    · exact ⟨before, rfl, trivial⟩
  obtain ⟨evidence, gathered, _⟩ := total
  exact ⟨evidence, gathered⟩

end Records

/-! ## From the slots to the plan -/

section Plan

variable {P : Primitives} {E : Type} {A : Automerge E} {checks : ScopeChecks A}
  {history : CausalHistory A} {evidence other : Evidence}

/-- Only an automation's verdict reads the scope. -/
theorem roleVerdict_scope {node : ChangeNode E} {role : WorkspaceRole}
    {scope scope' : Option AutomationGrantScope} (same : role = .automation → scope = scope') :
    roleVerdict checks history node role scope = roleVerdict checks history node role scope' := by
  by_cases automation : role = .automation
  · rw [same automation]
  · have creates : mayCreateSources role scope = mayCreateSources role scope' := by
      simp [mayCreateSources, automation]
    have status : roleStatus checks history node role scope =
        roleStatus checks history node role scope' := by
      simp [roleStatus, automation]
    unfold roleVerdict sourceResult applicationSourceChangeAllowed
    rw [creates, status]

/-- Slots that agree give one verdict. -/
theorem ownVerdict_congr {node : ChangeNode E}
    (agrees : (evidence.slot node.hash).Agrees (other.slot node.hash)) :
    ownVerdict checks history evidence node = ownVerdict checks history other node := by
  have role : evidence.roles.lookup node.hash = other.roles.lookup node.hash := agrees.role
  unfold ownVerdict
  rw [← role]
  cases known : evidence.roles.lookup node.hash with
  | none =>
    have reason : evidence.provenanceErrors.lookup node.hash =
        other.provenanceErrors.lookup node.hash := agrees.reason known
    rw [reason]
  | some role =>
    apply roleVerdict_scope
    intro automation
    exact agrees.scope (automation ▸ known)

section

variable (same : ∀ node ∈ history.nodes,
    ownVerdict checks history evidence node = ownVerdict checks history other node)
include same

/-- The evidence matters through the verdicts only. -/
theorem resolve_congr : resolve checks history evidence = resolve checks history other := by
  unfold resolve
  rw [pass_congr]
  intro state node held
  unfold resolveNode
  rw [same node held]

theorem planAdmission_congr {hasPendingBytes : Bool} {plan : CausalAdmissionPlan}
    (planned : planAdmission checks history hasPendingBytes evidence = .ok plan) :
    ∃ plan', planAdmission checks history hasPendingBytes other = .ok plan' ∧
      plan'.decisions = plan.decisions ∧ plan'.authorizedDocument = plan.authorizedDocument := by
  unfold planAdmission at planned ⊢
  rw [resolve_congr same] at planned
  dsimp only at planned ⊢
  split at planned
  · next unmoved =>
    rw [if_pos unmoved, ← Except.ok.inj planned]
    exact ⟨_, rfl, rfl, rfl⟩
  · next moved =>
    rw [if_neg moved]
    obtain ⟨authorized, projected, planned⟩ := bind_ok.mp planned
    obtain ⟨document, rebuilt, planned⟩ := bind_ok.mp planned
    rw [← Except.ok.inj planned]
    exact ⟨_, bind_ok.mpr ⟨authorized, projected, bind_ok.mpr ⟨document, rebuilt, rfl⟩⟩, rfl, rfl⟩

end

/-- The same records in another order. -/
theorem readHistory_perm {input : CausalAdmissionInput}
    {records : List IncomingWorkspaceChangeAuthorization} {basis : Option String}
    (perm : input.records.Perm records) :
    readHistory P A { input with records := records } basis = readHistory P A input basis := by
  have checked : checkCausalEvidence { input with records := records } =
      checkCausalEvidence input := by
    unfold checkCausalEvidence
    simp only [perm.length_eq, (perm.map _).sum_eq]
  unfold readHistory
  rw [checked]

/-- Records that do not contradict each other about any change give the same
decisions, and the same document, in any order. -/
theorem records_in_any_order (lawful : A.Lawful) {input : CausalAdmissionInput}
    {records : List IncomingWorkspaceChangeAuthorization} {basis : Option String}
    {plan : CausalAdmissionPlan} (perm : input.records.Perm records)
    (evaluated : evaluateCausalAdmissionInner P checks input basis = .ok plan)
    (unanimous : ∀ history context, readHistory P A input basis = .ok history →
      fromSnapshotCausal P A input.snapshot = .ok context → ∀ node ∈ history.nodes,
        Unanimous (findings P checks history context input.records node)) :
    ∃ other, evaluateCausalAdmissionInner P checks { input with records := records } basis =
        .ok other ∧
      other.decisions = plan.decisions ∧ other.authorizedDocument = plan.authorizedDocument := by
  unfold evaluateCausalAdmissionInner at evaluated ⊢
  rw [readHistory_perm perm]
  obtain ⟨history, read, evaluated⟩ := bind_ok.mp evaluated
  obtain ⟨context, validated, evaluated⟩ := bind_ok.mp evaluated
  obtain ⟨evidence, gathered, evaluated⟩ := bind_ok.mp evaluated
  obtain ⟨_, checked, planned⟩ := bind_ok.mp evaluated
  obtain ⟨_, _, _, distinct, _⟩ := readHistory_ok lawful read
  obtain ⟨admittedAll, filled⟩ := readEvidence_slot distinct gathered
  obtain ⟨again, gathered'⟩ := @exists_readEvidence P _ _ checks history context records
    (fun record held => admittedAll record (perm.mem_iff.mpr held))
  obtain ⟨_, filled'⟩ := readEvidence_slot distinct gathered'
  have same : ∀ node ∈ history.nodes,
      ownVerdict checks history evidence node = ownVerdict checks history again node := by
    intro node held
    apply ownVerdict_congr
    rw [filled node held, filled' node held]
    exact Slot.agrees_of_perm (perm.flatMap_right _)
      (unanimous history context read validated node held)
  obtain ⟨other, planned', decisions, document⟩ := planAdmission_congr same planned
  exact ⟨other, bind_ok.mpr ⟨history, read, bind_ok.mpr ⟨context, validated,
    bind_ok.mpr ⟨again, gathered', bind_ok.mpr ⟨(), checked, planned'⟩⟩⟩⟩,
    decisions, document⟩

end Plan

namespace Sample

def automationGrant : WorkspaceGrant :=
  { grant 0 2 .automation with
    payload := { (grant 0 2 .automation).payload with
      automation := some ⟨1, "board", ⟨"lead", none, "interview", "rejected"⟩, [], 0⟩ } }

/-- The metadata of a change that names a grant and its signer. -/
def boundMetadata (person : Nat) (hash : String) : Value :=
  .object [("kind", .string "workspace-change-metadata"), ("version", .number (.posInt 1)),
    ("authorityGrantHash", .string hash), ("personId", .string (keyId person)),
    ("deviceId", .string (keyId person))]

def automationMetadata : Value :=
  boundMetadata 2 ((grantHash primitives automationGrant).toOption.getD "")

/-- Primitives that read one text. -/
def reading (text : String) (value : Value) : Primitives :=
  { primitives with parseJson := fun other => if other = text then some value else none }

def textOf (value : Value) : String :=
  String.ofList (value.toVec.map fun byte => Char.ofNat byte.toNat)

/-- A change of a person's own profile that names their automation grant. -/
def profileChange : Change Unit := ⟨"edit", ["root"], some (textOf automationMetadata), ()⟩

def profileEdits : Automerge Unit :=
  journal [[], [rootChange], [rootChange, profileChange]]

def automationRecord : IncomingWorkspaceChangeAuthorization :=
  signedChanges 2 ["edit"] (some automationGrant)

def visitorRecord : IncomingWorkspaceChangeAuthorization :=
  signedChanges 2 ["edit"] (some (grant 0 2 .visitor))

def editorRecord (hashes : List String) : IncomingWorkspaceChangeAuthorization :=
  signedChanges 2 hashes (some (grant 0 2 .editor))

def twoProofs (records : List IncomingWorkspaceChangeAuthorization) : CausalAdmissionInput where
  records := signedChanges 0 ["root"] none :: records
  snapshot := workspace [2]
  pendingChangeBytes := []
  nowMs := 0

abbrev editedTwice : CausalAdmissionInput :=
  twoProofs [editorRecord ["edit"], editorRecord ["root", "edit"]]

end Sample

open Sample

set_option maxRecDepth 100000

/-- With the automation's record last, the change is quarantined; with the visitor's
record last, it is admitted. -/
theorem record_order_decides :
    (evaluateCausalAdmission (reading (textOf automationMetadata)
        automationMetadata) (profileScope profileEdits)
        (twoProofs [visitorRecord, automationRecord])).map CausalAdmissionPlan.decisions =
      .ok [⟨"edit", .quarantined "Automation can change only leaf job cards"⟩,
        ⟨"root", .admitted .owner⟩] ∧
      (evaluateCausalAdmission (reading (textOf automationMetadata)
          automationMetadata) (profileScope profileEdits)
          (twoProofs [automationRecord, visitorRecord])).map CausalAdmissionPlan.decisions =
        .ok [⟨"edit", .admitted .visitor⟩, ⟨"root", .admitted .owner⟩] := by
  decide

/-- Two records of the editor for one edit, in either order. -/
theorem records_in_any_order_sample :
    ∃ plan other, evaluateCausalAdmissionInner primitives (profileScope edits)
        (twoProofs [editorRecord ["edit"], editorRecord ["root", "edit"]]) none = .ok plan ∧
      evaluateCausalAdmissionInner primitives (profileScope edits)
        (twoProofs [editorRecord ["root", "edit"], editorRecord ["edit"]]) none = .ok other ∧
      plan.decisions = [⟨"edit", .admitted .editor⟩, ⟨"root", .admitted .owner⟩] ∧
      other.decisions = plan.decisions := by
  have evaluated : evaluateCausalAdmissionInner primitives (profileScope edits) editedTwice none =
      .ok ⟨[⟨"edit", .admitted .editor⟩, ⟨"root", .admitted .owner⟩], editedTwice.records, [2]⟩ :=
      by
    decide
  have found : (do
      let history ← readHistory primitives edits editedTwice none
      let context ← fromSnapshotCausal primitives edits (workspace [2])
      .ok (history.nodes.map (findings primitives (profileScope edits) history
        context editedTwice.records)) : Except String (List (List Finding))) =
      .ok [[.proves .owner none, .proves .editor none],
        [.proves .editor none, .proves .editor none]] := by
    decide
  obtain ⟨other, again, decisions, _⟩ := records_in_any_order edits_lawful
    ((List.Perm.swap _ _ _).cons _) evaluated (by
      intro history context read validated node held
      rw [read, show fromSnapshotCausal primitives edits (workspace [2]) =
        .ok context from validated] at found
      have inside := List.mem_map_of_mem (f := findings primitives
        (profileScope edits) history context editedTwice.records) held
      rw [Except.ok.inj found] at inside
      rcases List.mem_cons.mp inside with root | edit
      · rw [root]
        exact .inl (by simp)
      · rw [List.mem_singleton.mp edit]
        exact .inr (.inl ⟨.editor, none, by simp, by simp⟩))
  exact ⟨_, other, evaluated, again, rfl, decisions⟩

end MetaMesh
