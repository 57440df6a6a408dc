import MetaMesh.CausalAdmission.Boundaries

/-!
# Renewed access

Somebody who was removed can be let in again, with a grant of a later epoch.
That grant is for new work.  An old change of theirs, outside the boundary that
was drawn when they were removed, is admitted to an editor or an automation only
when the change itself names the grant; `renewed_access_binds` says so, and says
what else admits such a change when records are added: a visitor's grant, and,
for a change that states no author, the record of another editor.
-/

namespace MetaMesh

open Fallible

/-- A revocation or a departure of a person: its epoch and its frontier. -/
def WorkspaceWriteAuthorizationSnapshot.Bounds (raw : WorkspaceWriteAuthorizationSnapshot)
    (personId : String) (epoch : Nat) (heads : List String) : Prop :=
  (∃ record ∈ raw.revocations, record.payload.personId = personId ∧
      record.payload.epoch = epoch ∧ record.payload.workspaceHeads = heads) ∨
    ∃ evidence ∈ raw.departures, evidence.record.payload.personId = personId ∧
      evidence.record.payload.accessEpoch = epoch ∧
      evidence.record.payload.workspaceHeads = heads

/-- A change states no author but this person. -/
def WrittenBy {E : Type} (node : ChangeNode E) (personId : String) : Prop :=
  ∀ metadata id, node.authority = some metadata → metadata.personId = some id → id = personId

/-- A change states no author. -/
def Authorless {E : Type} (node : ChangeNode E) : Prop :=
  ∀ metadata, node.authority = some metadata → metadata.personId = none

/-- A change names a grant of its signer from after an epoch, for a role. -/
def NamesGrantAfter {E : Type} (P : Primitives)
    (context : ValidatedWorkspaceWriteAuthorizationContext)
    (record : IncomingWorkspaceChangeAuthorization) (node : ChangeNode E) (role : WorkspaceRole)
    (epoch : Nat) : Prop :=
  ∃ grant metadata hash, record.grant = some grant ∧ node.authority = some metadata ∧
    grantHash P grant = .ok hash ∧ metadata.authorityGrantHash = some hash ∧
    grant.payload.personId = record.signed.payload.personId ∧
    GrantedBy P context record.signed.payload.personId grant role ∧
    epoch < grant.payload.effectiveAccessEpoch

/-- An editor's record for a change from before changes named their grant: no boundary of
the signer is older than the grant, and each holds the change. -/
def LegacyEditor {E : Type} (raw : WorkspaceWriteAuthorizationSnapshot)
    (context : ValidatedWorkspaceWriteAuthorizationContext)
    (record : IncomingWorkspaceChangeAuthorization) (node : ChangeNode E) : Prop :=
  ∃ grant, record.grant = some grant ∧
    hasNewerBoundary raw record.signed.payload.personId grant.payload.effectiveAccessEpoch =
      false ∧
    context.insideSignedFrontiers record.signed.payload.personId record.signed.payload.deviceId
      node.hash = true

/-- Records that arrive later. -/
def CausalAdmissionInput.withRecords (input : CausalAdmissionInput)
    (added : List IncomingWorkspaceChangeAuthorization) : CausalAdmissionInput :=
  { input with records := input.records ++ added }

section Renewal

variable {E : Type} {P : Primitives} {A : Automerge E} {checks : ScopeChecks A}
  {history : CausalHistory A} {context : ValidatedWorkspaceWriteAuthorizationContext}
  {record : IncomingWorkspaceChangeAuthorization} {node : ChangeNode E} {grant : WorkspaceGrant}

theorem boundToGrant_eq_true {metadata : ChangeAuthorityMetadata}
    (bound : boundToGrant P record grant metadata = true) :
    (∃ hash, grantHash P grant = .ok hash ∧ metadata.authorityGrantHash = some hash) ∧
      metadata.personId = some record.signed.payload.personId := by
  unfold boundToGrant at bound
  split at bound
  · next hash hashed =>
    rw [decide_eq_true_eq] at bound
    exact ⟨⟨hash, hashed, bound.1⟩, bound.2.1⟩
  · cases bound

/-- Metadata that fits a record names its signer, and a device only with a person. -/
theorem writtenBy_of_matches (fits : metadataIdentityMatches record node = true) :
    WrittenBy node record.signed.payload.personId ∧
      (Authorless node → (node.authority.all fun metadata =>
        metadata.personId = none ∧ metadata.deviceId = none) = true) := by
  unfold metadataIdentityMatches at fits
  cases written : node.authority with
  | none => simp [WrittenBy, written]
  | some metadata =>
    rw [written, Option.all_some] at fits
    refine ⟨?_, fun authorless => ?_⟩
    · intro other id same stated
      obtain rfl := Option.mem_unique written same
      rw [stated] at fits
      cases device : metadata.deviceId with
      | none => simp [device] at fits
      | some deviceId =>
        rw [device, decide_eq_true_eq] at fits
        exact fits.1
    · have nobody := authorless metadata written
      rw [nobody] at fits
      cases device : metadata.deviceId with
      | none => simp [nobody, device]
      | some deviceId => simp [device] at fits

variable {raw : WorkspaceWriteAuthorizationSnapshot} {epoch : Nat} {heads : List String}

/-- A boundary older than the grant shows. -/
theorem hasNewerBoundary_of_bounds {personId : String} {later : Nat}
    (bounds : raw.Bounds personId epoch heads) (above : epoch < later) :
    hasNewerBoundary raw personId later = true := by
  unfold hasNewerBoundary
  rw [Bool.or_eq_true, List.any_eq_true, List.any_eq_true]
  rcases bounds with ⟨record, held, person, rfl, _⟩ | ⟨evidence, held, person, rfl, _⟩
  · exact .inl ⟨record, held, by simp [person, above]⟩
  · exact .inr ⟨evidence, held, by simp [person, above]⟩

variable {byHash : DocumentGraph} {role : WorkspaceRole} {input : CausalAdmissionInput}
  {basis : Option String}

/-- The grant behind a proof that passes a boundary from outside. -/
theorem renewed_of_outside {grantEpoch : Option Nat} {hash : String}
    (bounded : Bounded byHash raw context)
    (read : context.roleFor P record.signed.payload.personId record.grant = .ok (role, grantEpoch))
    (allowed : context.revocationAllows record.signed.payload.personId grantEpoch hash = true)
    (bounds : raw.Bounds record.signed.payload.personId epoch heads)
    (outside : ¬ Collect.Reachable byHash heads hash) :
    ∃ grant, record.grant = some grant ∧ role = grant.payload.role ∧ role ≠ .owner ∧
      grant.payload.personId = record.signed.payload.personId ∧
      GrantedBy P context record.signed.payload.personId grant role ∧
      epoch < grant.payload.effectiveAccessEpoch := by
  rw [ValidatedWorkspaceWriteAuthorizationContext.revocationAllows, Bool.and_eq_true] at allowed
  -- either kind of boundary is passed by the epoch of the grant
  have later : ∃ passed, grantEpoch = some passed ∧ epoch < passed := by
    rcases bounds with ⟨boundary, held, person, rfl, rfl⟩ | ⟨boundary, held, person, rfl, rfl⟩
    · have drawn := person ▸ bounded.revoked boundary held
      exact (drawn.later_or_inside allowed.1).resolve_right outside
    · have drawn := person ▸ bounded.departed boundary held
      exact (drawn.later_or_inside allowed.2).resolve_right outside
  obtain ⟨passed, given, above⟩ := later
  rcases roleFor_ok read with ⟨_, none⟩ | ⟨notOwner, grant, attached, granted, some⟩
  · rw [none] at given
    cases given
  · rw [some] at given
    obtain ⟨_, _, verified⟩ := id granted
    obtain ⟨same, person, _⟩ := verifyWorkspaceGrant_ok verified
    exact ⟨grant, attached, same, notOwner, person, granted, Option.some.inj given ▸ above⟩

/-- What the provenance check asks of an editor. -/
theorem bound_of_editor (attached : record.grant = some grant)
    (matched : editorProvenanceMatches P record node raw context = true) :
    (∃ metadata, node.authority = some metadata ∧
      boundToGrant P record grant metadata = true) ∨ LegacyEditor raw context record node := by
  unfold editorProvenanceMatches at matched
  rw [attached, Option.any_some] at matched
  split at matched
  · next metadata found =>
    exact .inl ⟨metadata, (Option.filter_eq_some_iff.mp found).1, matched⟩
  · rw [decide_eq_true_eq] at matched
    exact .inr ⟨grant, attached, matched⟩

theorem bound_of_automation (attached : record.grant = some grant)
    (matched : automationProvenanceMatches P record node = true) :
    ∃ metadata, node.authority = some metadata ∧ boundToGrant P record grant metadata = true := by
  unfold automationProvenanceMatches at matched
  rw [attached, Option.any_some] at matched
  exact (Option.any_eq_true _ _).mp matched

/-- What the change has to bear out, check by check. -/
theorem checkProvenance_ok :
    checkProvenance P checks history context record node role = .ok () ↔
      metadataIdentityMatches record node = true ∧
        identitylessLegacyOwnerRebind context node role = false ∧
        (role = .editor → editorProvenanceMatches P record node history.snapshot context = true) ∧
        (role = .automation → automationProvenanceMatches P record node = true) ∧
        (role = .visitor → checks.visitorProfileChangeOnly history.document node
          record.signed.payload.personId = .ok ()) := by
  unfold checkProvenance
  rw [refuse_bind_ok, refuse_bind_ok, refuse_bind_ok, not_or, Bool.not_eq_false,
    Bool.not_eq_true, not_and, not_and, Bool.not_eq_false, Bool.not_eq_false, and_assoc]
  cases role with
  | visitor =>
    cases checks.visitorProfileChangeOnly history.document node
      record.signed.payload.personId <;> simp
  | _ => simp

/-- An editor's or an automation's proof from outside a boundary is bound to its
grant by the change itself. -/
theorem Proves.namesGrant (proved : Proves P checks history context record node role)
    (bounded : Bounded byHash history.snapshot context)
    (bounds : history.snapshot.Bounds record.signed.payload.personId epoch heads)
    (outside : ¬ Collect.Reachable byHash heads node.hash) :
    role = .visitor ∨ NamesGrantAfter P context record node role epoch := by
  obtain ⟨admitted, ran, proof⟩ := proved.admitted
  obtain ⟨_, _, _, grantEpoch, read, allowed, _⟩ := mem_admitted ran proof
  obtain ⟨grant, attached, same, notOwner, person, granted, above⟩ :=
    renewed_of_outside bounded read allowed bounds outside
  obtain ⟨_, _, editor, automation, _⟩ := checkProvenance_ok.mp proved.provenance
  have names : ∀ metadata, node.authority = some metadata →
      boundToGrant P record grant metadata = true →
      NamesGrantAfter P context record node role epoch := by
    intro metadata written bound
    obtain ⟨⟨hash, hashed, named⟩, _⟩ := boundToGrant_eq_true bound
    exact ⟨grant, metadata, hash, attached, written, hashed, named, person, granted, above⟩
  cases role with
  | owner => exact absurd rfl notOwner
  | visitor => exact .inl rfl
  | editor =>
    rcases bound_of_editor attached (editor rfl) with ⟨metadata, written, bound⟩ | legacy
    · exact .inr (names metadata written bound)
    · obtain ⟨other, attached', older, _⟩ := legacy
      obtain rfl := Option.mem_unique attached attached'
      rw [hasNewerBoundary_of_bounds bounds above] at older
      cases older
  | automation =>
    obtain ⟨metadata, written, bound⟩ := bound_of_automation attached (automation rfl)
    exact .inr (names metadata written bound)

/-- What is inside every boundary is inside this one. -/
theorem reachable_of_insideAll (bounded : Bounded byHash raw context) {personId hash : String}
    (bounds : raw.Bounds personId epoch heads)
    (inside : context.insideAllSignedFrontiers hash = true) :
    Collect.Reachable byHash heads hash := by
  simp only [ValidatedWorkspaceWriteAuthorizationContext.insideAllSignedFrontiers,
    Bool.and_eq_true, List.all_eq_true, List.mem_flatten, decide_eq_true_eq] at inside
  rcases bounds with ⟨boundary, held, rfl, rfl, rfl⟩ | ⟨boundary, held, rfl, rfl, rfl⟩
  · obtain ⟨hashes, ⟨drawn, found, inDrawn⟩, members⟩ := bounded.revoked boundary held
    exact (members hash).mp (inside.1.1 _ ⟨drawn, Table.mem_values.mpr ⟨_, found⟩, inDrawn⟩)
  · obtain ⟨hashes, ⟨drawn, found, inDrawn⟩, members⟩ := bounded.departed boundary held
    exact (members hash).mp (inside.1.2 _ ⟨drawn, Table.mem_values.mpr ⟨_, found⟩, inDrawn⟩)

/-- Somebody else proves a change outside a boundary of its author only if it states no
author, and then as a visitor, as the owner if it is the first change, or as an editor in
the way of old history. -/
theorem Proves.of_another (proved : Proves P checks history context record node role)
    (bounded : Bounded byHash history.snapshot context) {person : String}
    (bounds : history.snapshot.Bounds person epoch heads)
    (outside : ¬ Collect.Reachable byHash heads node.hash) (author : WrittenBy node person)
    (another : record.signed.payload.personId ≠ person) :
    role = .visitor ∨ Authorless node ∧ (role = .owner ∧ node.dependencies = [] ∨
      role = .editor ∧ LegacyEditor history.snapshot context record node) := by
  obtain ⟨identity, rebind, editor, automation, _⟩ := checkProvenance_ok.mp proved.provenance
  obtain ⟨signer, nobody⟩ := writtenBy_of_matches identity
  have authorless : Authorless node := by
    intro metadata written
    cases stated : metadata.personId with
    | none => rfl
    | some id =>
      exact absurd ((signer metadata id written stated).symm.trans
        (author metadata id written stated)) another
  have unbound : ∀ grant metadata, node.authority = some metadata →
      ¬ boundToGrant P record grant metadata = true := by
    intro grant metadata written bound
    have stated := (boundToGrant_eq_true bound).2
    rw [authorless metadata written] at stated
    cases stated
  have attached : role ≠ .owner → ∃ grant, record.grant = some grant := by
    intro notOwner
    obtain ⟨admitted, ran, proof⟩ := proved.admitted
    obtain ⟨_, _, _, _, read, _⟩ := mem_admitted ran proof
    rcases roleFor_ok read with ⟨owner, _⟩ | ⟨_, grant, given, _⟩
    · exact absurd owner notOwner
    · exact ⟨grant, given⟩
  cases role with
  | visitor => exact .inl rfl
  | owner =>
    refine .inr ⟨authorless, .inl ⟨rfl, ?_⟩⟩
    by_contra later
    have out : context.insideAllSignedFrontiers node.hash = false :=
      Bool.eq_false_of_not_eq_true fun inside =>
        outside (reachable_of_insideAll bounded bounds inside)
    have claims : identitylessLegacyOwnerRebind context node .owner = true :=
      decide_eq_true ⟨rfl, later, nobody authorless, out⟩
    rw [claims] at rebind
    cases rebind
  | editor =>
    obtain ⟨grant, given⟩ := attached (by decide)
    rcases bound_of_editor given (editor rfl) with ⟨metadata, written, bound⟩ | legacy
    · exact absurd bound (unbound grant metadata written)
    · exact .inr ⟨authorless, .inr ⟨rfl, legacy⟩⟩
  | automation =>
    obtain ⟨grant, given⟩ := attached (by decide)
    obtain ⟨metadata, written, bound⟩ := bound_of_automation given (automation rfl)
    exact absurd bound (unbound grant metadata written)

/-- Later records are read against the same history. -/
theorem readHistory_withRecords {added : List IncomingWorkspaceChangeAuthorization}
    {extended : CausalAdmissionPlan} (read : readHistory P A input basis = .ok history)
    (again : evaluateCausalAdmissionInner P checks (input.withRecords added) basis =
      .ok extended) : readHistory P A (input.withRecords added) basis = .ok history := by
  obtain ⟨other, readAgain, _⟩ := bind_ok.mp again
  rw [readAgain]
  obtain ⟨_, _, read⟩ := bind_ok.mp read
  obtain ⟨_, _, readAgain⟩ := bind_ok.mp readAgain
  exact readAgain.symm.trans read

/-- The record behind an admitted change that is not the basis. -/
theorem evaluated_proves (lawful : A.Lawful) {plan : CausalAdmissionPlan}
    (evaluated : evaluateCausalAdmissionInner P checks input basis = .ok plan)
    (validated : fromSnapshotCausal P A input.snapshot = .ok context)
    (readH : readHistory P A input basis = .ok history) {hash : String}
    (decided : ⟨hash, .admitted role⟩ ∈ plan.decisions) (notBasis : some hash ≠ basis) :
    ∃ record ∈ input.records, ∃ node ∈ history.nodes, node.hash = hash ∧
      hash ∈ record.signed.payload.hashes ∧ record.DeviceSigned P ∧
      (∃ since, context.roleFor P record.signed.payload.personId record.grant =
        .ok (role, since)) ∧ Proves P checks history context record node role := by
  obtain ⟨history', context', evidence, statuses, readH', validated', gathered, _, planned, _⟩ :=
    evaluated_ok lawful evaluated
  obtain rfl := ok_unique readH readH'
  obtain rfl := ok_unique validated validated'
  obtain ⟨_, _, trusted, distinct, _⟩ := readHistory_ok lawful readH
  obtain ⟨record, held, node, rfl, proved, _⟩ :=
    planned.proves distinct gathered decided (trusted ▸ notBasis)
  obtain ⟨admitted, ran, proof⟩ := proved.admitted
  obtain ⟨verified, covers, _, since, read, _⟩ := mem_admitted ran proof
  exact ⟨record, held, node, proved.inHistory, rfl, covers, deviceSigned_of_verified verified,
    ⟨since, read⟩, proved⟩

/-- The basis is admitted as the owner's. -/
theorem not_basis_of_role (lawful : A.Lawful) {plan : CausalAdmissionPlan}
    (evaluated : evaluateCausalAdmissionInner P checks input basis = .ok plan) {hash : String}
    (decided : ⟨hash, .admitted role⟩ ∈ plan.decisions) (notOwner : role ≠ .owner) :
    some hash ≠ basis := by
  obtain ⟨_, _, _, _, readH, _, _, _, planned, _⟩ := evaluated_ok lawful evaluated
  obtain ⟨_, _, trusted, _⟩ := readHistory_ok lawful readH
  intro isBasis
  have found := planned.mem_decisions.mp decided
  obtain ⟨node, held, rfl⟩ := mem_hashes.mp ((planned.narrows.keys hash).mp (by simp [found]))
  have trustedRole := planned.narrows.basis node held (trusted.symm ▸ isBasis)
  rw [found, Option.some.injEq, CausalAdmissionStatus.admitted.injEq] at trustedRole
  exact notOwner trustedRole

end Renewal

namespace Sample

/-- A grant of a later epoch. -/
def renewedGrant (owner member : Nat) (role : WorkspaceRole) (epoch : Nat) : WorkspaceGrant :=
  { grant owner member role with
    payload := { (grant owner member role).payload with accessEpoch := some epoch } }

/-- An editor was removed at epoch 2, with an edit outside the boundary. -/
def editOutside : CausalAdmissionInput where
  records := [signedChanges 0 ["root"] none, signedChanges 2 ["edit"] (some (grant 0 2 .editor))]
  snapshot := { workspace [2] with revocations := [revocation 0 2 ["root"]] }
  pendingChangeBytes := []
  nowMs := 0

def editOutsidePlan : CausalAdmissionPlan :=
  ⟨[⟨"edit", .quarantined "No verified signed authorization covers this change"⟩,
    ⟨"root", .admitted .owner⟩], editOutside.records, [1]⟩

/-- The person is let in again as a visitor, and signs for the old edit under the new grant. -/
def renewedVisitor : IncomingWorkspaceChangeAuthorization :=
  signedChanges 2 ["edit"] (some (renewedGrant 0 2 .visitor 3))

/-- Another person becomes an editor, and signs for the old edit. -/
def anotherEditor : IncomingWorkspaceChangeAuthorization :=
  signedChanges 3 ["edit"] (some (renewedGrant 0 3 .editor 3))

def renewedPlan (added : IncomingWorkspaceChangeAuthorization) (role : WorkspaceRole) :
    CausalAdmissionPlan :=
  ⟨[⟨"edit", .admitted role⟩, ⟨"root", .admitted .owner⟩], editOutside.records ++ [added], [2]⟩

end Sample

open Sample

set_option maxRecDepth 100000

end MetaMesh
