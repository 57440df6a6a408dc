import MetaMesh.CausalAdmission.Closure

/-!
# Boundaries of removed people and devices

Who was removed, or left, may still be the author of what lies inside the
boundary that was signed then, and of what a later grant covers.  A change is
admitted because of some record, and `boundary_soundness` says what that record
had to satisfy for every boundary of its signer.
-/

namespace MetaMesh

open Fallible

variable {E : Type} {P : Primitives} {A : Automerge E}
  {context : ValidatedWorkspaceWriteAuthorizationContext}
  {raw : WorkspaceWriteAuthorizationSnapshot} {checks : ScopeChecks A}

/-! ## Boundaries of a validated snapshot -/

section Context

variable {nowMs : Int} {byHash : DocumentGraph}
  {boundaries : Table String (List RevocationBoundary)}

theorem mem_ancestry {heads : List String} {hashes : Finset String}
    (walked : ancestry heads byHash = .ok hashes) {hash : String} :
    hash ∈ hashes ↔ Collect.Reachable byHash heads hash :=
  (Collect.collect_ok.mp walked).2 hash

/-- A loop that files what it reads from each item files it for every item. -/
theorem holds_of_foldlM_push {α β : Type} {key : α → String} {f : α → Except String β}
    {items : List α} {final : Table String (List β)}
    (filled : items.foldlM (fun (t : Table String (List β)) a => do
      let b ← f a
      .ok (t.push (key a) b)) (∅ : Table String (List β)) = .ok final) {a : α} (held : a ∈ items) :
    ∃ b, f a = .ok b ∧ final.Holds (key a) b := by
  revert a
  apply foldlM_invariant filled
  · simp
  intro seen item _ before after _ filed step a inSeen
  obtain ⟨b, read, same⟩ := bind_ok.mp step
  rw [← Except.ok.inj same]
  rcases List.mem_append.mp inSeen with earlier | last
  · obtain ⟨c, read', held⟩ := filed earlier
    exact ⟨c, read', Table.holds_push.mpr (.inr held)⟩
  · rw [List.mem_singleton.mp last]
    exact ⟨b, read, Table.holds_push.mpr (.inl ⟨rfl, rfl⟩)⟩

variable (byHash boundaries) in
/-- The boundary that evidence drew: an epoch and the changes up to some heads. -/
def Drawn (personId : String) (epoch : Nat) (heads : List String) : Prop :=
  ∃ hashes, boundaries.Holds personId ⟨epoch, hashes⟩ ∧
    ∀ hash, hash ∈ hashes ↔ Collect.Reachable byHash heads hash

theorem drawn_of_revocation {chain : ChainState}
    (verified : chainBoundaries P raw nowMs byHash chain = .ok boundaries)
    {record : WorkspaceRevocation} (held : record ∈ raw.revocations) :
    Drawn byHash boundaries record.payload.personId record.payload.epoch
      record.payload.workspaceHeads := by
  obtain ⟨boundary, drawn, filed⟩ := holds_of_foldlM_push verified held
  obtain ⟨_, hashes, _, _, _, walked, rfl⟩ := revocationBoundary_ok.mp drawn
  exact ⟨hashes, filed, fun hash => mem_ancestry walked⟩

theorem drawn_of_departure
    (verified : verifiedDepartureBoundaries P raw nowMs byHash = .ok boundaries)
    {evidence : WorkspaceDepartureEvidence} (held : evidence ∈ raw.departures) :
    Drawn byHash boundaries evidence.record.payload.personId evidence.record.payload.accessEpoch
      evidence.record.payload.workspaceHeads := by
  obtain ⟨boundary, drawn, filed⟩ := holds_of_foldlM_push verified held
  obtain ⟨_, _, drawn⟩ := bind_ok.mp drawn
  obtain ⟨_, _, drawn⟩ := bind_ok.mp drawn
  obtain ⟨hashes, walked, same⟩ := bind_ok.mp drawn
  obtain rfl := Except.ok.inj same
  exact ⟨hashes, filed, fun hash => mem_ancestry walked⟩

variable (raw) in
/-- Some record of the catalog takes a removal back. -/
def WorkspaceWriteAuthorizationSnapshot.Restored (removal : WorkspaceDeviceRevocation) : Prop :=
  ∃ evidence ∈ raw.deviceRevocations,
    removal.signature ∈ evidence.record.payload.restores.getD []

theorem mem_restoredDeviceRevocations
    {records : List (WorkspaceDeviceRevocation × WorkspaceAuthority)} {owner : String}
    {restored : Finset String} (taken : restoredDeviceRevocations records owner = .ok restored)
    {signature : String} (named : signature ∈ restored) :
    ∃ entry ∈ records, signature ∈ entry.1.payload.restores.getD [] := by
  revert signature
  apply foldlM_invariant taken
  · simp
  rintro seen ⟨approval, signer⟩ _ before after _ known step signature inAfter
  have added := foldlM_invariant step (fun _ restored => ∀ signature ∈ restored,
    signature ∈ before ∨ signature ∈ approval.payload.restores.getD [])
    (fun _ => Or.inl) (by
      intro _ name rest middle next split holds ran other inNext
      obtain ⟨_, _, ran⟩ := bind_ok.mp ran
      obtain ⟨_, same⟩ := refuse_bind_ok.mp ran
      rw [← Except.ok.inj same, Finset.mem_insert] at inNext
      rcases inNext with rfl | earlier
      · exact .inr (by simp [split])
      · exact holds other earlier)
  rcases added signature inAfter with earlier | here
  · obtain ⟨entry, held, names⟩ := known earlier
    exact ⟨entry, List.mem_append_left _ held, names⟩
  · exact ⟨(approval, signer), by simp, here⟩

/-- A removal keeps its device to what it contains. -/
def Confines (byHash : DocumentGraph) (devices : Table (String × String) (List (Finset String)))
    (removal : WorkspaceDeviceRevocation) : Prop :=
  ∃ hashes, devices.Holds (removal.payload.personId, removal.payload.deviceId) hashes ∧
    ∀ hash, hash ∈ hashes ↔ Collect.Reachable byHash removal.payload.workspaceHeads hash

/-- A removal that nothing takes back confines its device. -/
theorem removed_of_evidence {chain : ChainState}
    {devices : Table (String × String) (List (Finset String))}
    (verified : verifiedDeviceRevocations P raw chain nowMs byHash = .ok devices)
    {evidence : WorkspaceDeviceRevocationEvidence} (held : evidence ∈ raw.deviceRevocations)
    (removal : evidence.record.payload.restores = none)
    (standing : ¬ raw.Restored evidence.record) : Confines byHash devices evidence.record := by
  obtain ⟨restored, taken, filled⟩ := bind_ok.mp verified
  have kept : evidence.record.signature ∉ restored := by
    intro named
    obtain ⟨entry, inRecords, names⟩ := mem_restoredDeviceRevocations taken named
    obtain ⟨other, inCatalog, rfl⟩ := List.mem_map.mp inRecords
    exact standing ⟨other, inCatalog, names⟩
  clear standing
  generalize raw.deviceRevocations = removals at held filled
  revert evidence
  apply foldlM_invariant filled
  · simp
  · intro seen item _ before after _ known step other plain unrestored inSeen
    obtain ⟨_, _, step⟩ := bind_ok.mp step
    obtain ⟨_, step⟩ := refuse_bind_ok.mp step
    dsimp only at step
    split at step
    · next skipped =>
      rw [← Except.ok.inj step]
      rcases List.mem_append.mp inSeen with earlier | last
      · exact known plain unrestored earlier
      · rw [← List.mem_singleton.mp last] at skipped
        rcases skipped with restores | named
        · simp [plain] at restores
        · exact absurd named unrestored
    · obtain ⟨hashes, walked, same⟩ := bind_ok.mp step
      rw [← Except.ok.inj same]
      rcases List.mem_append.mp inSeen with earlier | last
      · obtain ⟨frontier, holds, members⟩ := known plain unrestored earlier
        exact ⟨frontier, Table.holds_push.mpr (.inr holds), members⟩
      · rw [List.mem_singleton.mp last]
        exact ⟨hashes, Table.holds_push.mpr (.inl ⟨rfl, rfl⟩), fun hash => mem_ancestry walked⟩

end Context

/-! ## The record behind a role -/

section Roles

variable {history : CausalHistory A} {records : List IncomingWorkspaceChangeAuthorization}
  {evidence : Evidence} {hash other : String} {role found : WorkspaceRole}

/-- A record proves a role for a change, and the change bears it out. -/
structure Proves (P : Primitives) (checks : ScopeChecks A) (history : CausalHistory A)
    (context : ValidatedWorkspaceWriteAuthorizationContext)
    (record : IncomingWorkspaceChangeAuthorization) (node : ChangeNode E) (role : WorkspaceRole) :
    Prop where
  inHistory : node ∈ history.nodes
  admitted : ∃ admitted, admitWithNeededForCausal P record context history.needed true =
    .ok admitted ∧ ⟨node.hash, role⟩ ∈ admitted
  provenance : checkProvenance P checks history context record node role = .ok ()

theorem Evidence.lookup_withRole
    (known : (evidence.withRole hash role).roles.lookup other = some found) :
    evidence.roles.lookup other = some found ∨ (other = hash ∧ found = role) := by
  unfold withRole at known
  split at known
  · exact .inl known
  · rw [Table.lookup_insert_ite] at known
    split at known
    · next same => exact .inr ⟨same, (Option.some.inj known).symm⟩
    · exact .inl known

theorem Evidence.lookup_withAutomation {scope : Option AutomationGrantScope}
    (known : (evidence.withAutomation hash scope).roles.lookup other = some found) :
    evidence.roles.lookup other = some found ∨ (other = hash ∧ found = .automation) := by
  unfold withAutomation at known
  split at known
  · exact .inl known
  · split at known
    · exact .inl known
    · rcases lookup_withRole known with before | here
      · exact .inl before
      · exact .inr here

/-- A proof that is taken in gives its own role to its own change, if any. -/
theorem lookup_takeProof {record : IncomingWorkspaceChangeAuthorization}
    {proof : AuthorizedWorkspaceChange}
    (known : (takeProof P checks history context record evidence proof).roles.lookup hash =
      some role) :
    evidence.roles.lookup hash = some role ∨ (hash = proof.hash ∧ role = proof.role ∧
      ∃ node ∈ history.nodes, node.hash = hash ∧
        checkProvenance P checks history context record node role = .ok ()) := by
  unfold takeProof at known
  split at known
  · exact .inl known
  · next node located =>
    have inHistory := List.mem_of_find?_eq_some located
    have named := List.find?_some located
    rw [decide_eq_true_eq] at named
    split at known
    · exact .inl known
    · next passed =>
      have given : evidence.roles.lookup hash = some role ∨
          (hash = proof.hash ∧ role = proof.role) := by
        split at known
        · next automation =>
          rw [automation]
          exact Evidence.lookup_withAutomation known
        · exact Evidence.lookup_withRole known
      rcases given with before | ⟨same, rfl⟩
      · exact .inl before
      · exact .inr ⟨same, rfl, node, inHistory, named.trans same.symm, passed⟩

/-- Behind every role is a record that proves it. -/
theorem proves_of_role (gathered : readEvidence P checks history context records = .ok evidence)
    (known : evidence.roles.lookup hash = some role) :
    ∃ record ∈ records, ∃ node, node.hash = hash ∧
      Proves P checks history context record node role := by
  revert hash role
  apply foldlM_invariant gathered
  · intro hash role known
    simp at known
  · intro seen record _ before after _ behind step hash role known
    have earlier : before.roles.lookup hash = some role → ∃ other ∈ seen ++ [record],
        ∃ node, node.hash = hash ∧ Proves P checks history context other node role := by
      intro found
      obtain ⟨other, held, rest⟩ := behind found
      exact ⟨other, List.mem_append_left _ held, rest⟩
    unfold takeRecord at step
    split at step
    · obtain ⟨admitted, ran, same⟩ := bind_ok.mp step
      rw [← Except.ok.inj same] at known
      -- the proofs of the record, one by one
      revert known
      refine List.foldlRecOn (motive := fun evidence : Evidence =>
        evidence.roles.lookup hash = some role → _) admitted _ earlier ?_
      intro evidence known proof held found
      rcases lookup_takeProof found with found | ⟨rfl, rfl, node, inHistory, named, passed⟩
      · exact known found
      · exact ⟨record, by simp, node, named, inHistory, ⟨admitted, ran, named ▸ held⟩, passed⟩
    · rw [← Except.ok.inj step] at known
      exact earlier known

/-- Behind every admitted change outside the basis is a record that proves the
role it is admitted in. -/
theorem Planned.proves {plan : CausalAdmissionPlan} {statuses : Statuses}
    (distinct : history.hashes.Nodup) (planned : Planned checks history evidence plan statuses)
    (gathered : readEvidence P checks history context records = .ok evidence)
    (admits : ⟨hash, .admitted role⟩ ∈ plan.decisions)
    (outside : some hash ≠ history.trustedBasisHash) :
    ∃ record ∈ records, ∃ node, node.hash = hash ∧
      Proves P checks history context record node role ∧
      (ownVerdict checks history evidence node).status = .admitted role := by
  have admitted := planned.narrows.admitted hash role (planned.mem_decisions.mp admits)
  obtain ⟨resolved, _⟩ := @resolve_spec _ _ checks history evidence distinct
  have present : hash ∈ history.hashes := (resolved.keys hash).mp (by simp [admitted])
  obtain ⟨node, inHistory, rfl⟩ := mem_hashes.mp present
  obtain ⟨_, verdict, _⟩ := resolved.judged inHistory outside admitted
  obtain ⟨record, held, other, named, proved⟩ :=
    proves_of_role gathered (role_of_ownVerdict verdict)
  obtain rfl := List.inj_on_of_nodup_map distinct proved.inHistory inHistory named
  exact ⟨record, held, other, rfl, proved, verdict⟩

end Roles

/-! ## Boundary soundness -/

section Soundness

variable {record : IncomingWorkspaceChangeAuthorization}

/-- The boundaries of everybody who was removed from a snapshot, or left it. -/
structure Bounded (byHash : DocumentGraph) (raw : WorkspaceWriteAuthorizationSnapshot)
    (context : ValidatedWorkspaceWriteAuthorizationContext) : Prop where
  revoked : ∀ record ∈ raw.revocations, Drawn byHash context.revocationBoundaries
    record.payload.personId record.payload.epoch record.payload.workspaceHeads
  departed : ∀ evidence ∈ raw.departures, Drawn byHash context.departureBoundaries
    evidence.record.payload.personId evidence.record.payload.accessEpoch
    evidence.record.payload.workspaceHeads

/-- What a validated snapshot knows about the people and devices removed in it. -/
theorem boundaries_of_fromSnapshotCausal (validated : fromSnapshotCausal P A raw = .ok context) :
    ∃ byHash, documentHashes A raw.document = .ok byHash ∧ Bounded byHash raw context ∧
      ∀ evidence ∈ raw.deviceRevocations, evidence.record.payload.restores = none →
        ¬ raw.Restored evidence.record →
          Confines byHash context.revokedDevices evidence.record := by
  obtain ⟨inner, validated, same⟩ := bind_ok.mp validated
  rw [← Except.ok.inj same]
  obtain ⟨byHash, chain, _, valid⟩ := fromSnapshot_ok.mp validated
  obtain ⟨boundaries, verified, read⟩ := valid.bounded
  obtain ⟨devices, removed, read⟩ := bind_ok.mp read
  obtain ⟨departures, left, read⟩ := bind_ok.mp read
  rw [← Except.ok.inj read]
  exact ⟨byHash, documentHashes_of_snapshotGraph valid.graph,
    ⟨fun record held => drawn_of_revocation verified held,
      fun evidence held => drawn_of_departure left held⟩,
    fun evidence held plain standing => removed_of_evidence removed held plain standing⟩

variable (P record) in
/-- A device that the record's identity certifies signed the record. -/
def IncomingWorkspaceChangeAuthorization.DeviceSigned : Prop :=
  publicKeyId P record.publicKey = .ok record.signed.payload.personId ∧
    verifyDeviceSignedEnvelope P ⟨record.signed.payload.personId, record.publicKey, ""⟩
      record.signed.payload.deviceId record.certificates record.signed defaultSignatureDomain =
        .ok ()

variable (P context record) in
/-- The record carries a verified grant of its signer from after an epoch. -/
def IncomingWorkspaceChangeAuthorization.RenewedAfter (epoch : Nat) : Prop :=
  ∃ grant role, record.grant = some grant ∧
    GrantedBy P context record.signed.payload.personId grant role ∧
    epoch < grant.payload.effectiveAccessEpoch

theorem deviceSigned_of_verified {workspaceId : String} {needed : Finset String}
    (verified : verifyChangeAuthorization P record workspaceId needed = .ok ()) :
    record.DeviceSigned P := by
  obtain ⟨_, verified⟩ := refuse_bind_ok.mp verified
  obtain ⟨_, verified⟩ := refuse_bind_ok.mp verified
  obtain ⟨id, read, verified⟩ := bind_ok.mp verified
  obtain ⟨same, signed⟩ := refuse_bind_ok.mp verified
  exact ⟨not_not.mp same ▸ read, signed⟩

section

variable {byHash : DocumentGraph} {boundaries : Table String (List RevocationBoundary)}
  {personId : String} {role : WorkspaceRole} {grantEpoch : Option Nat} {hash : String}
  {epoch : Nat} {heads : List String}

/-- Who passes a boundary has a later epoch or stays inside. -/
theorem Drawn.later_or_inside (drawn : Drawn byHash boundaries personId epoch heads)
    (allowed : ValidatedWorkspaceWriteAuthorizationContext.boundariesAllow
      (boundaries.lookup personId) grantEpoch hash = true) :
    (∃ later, grantEpoch = some later ∧ epoch < later) ∨ Collect.Reachable byHash heads hash := by
  obtain ⟨hashes, held, members⟩ := drawn
  exact (boundariesAllow_holds allowed held).imp id (members hash).mp

/-- Whoever passes a person's boundaries has a later grant or stays inside. -/
theorem passes_drawn
    (read : context.roleFor P record.signed.payload.personId record.grant = .ok (role, grantEpoch))
    (allowed : ValidatedWorkspaceWriteAuthorizationContext.boundariesAllow
      (boundaries.lookup record.signed.payload.personId) grantEpoch hash = true)
    (drawn : Drawn byHash boundaries record.signed.payload.personId epoch heads) :
    record.RenewedAfter P context epoch ∨ Collect.Reachable byHash heads hash := by
  rcases drawn.later_or_inside allowed with ⟨later, given, above⟩ | inside
  · rcases roleFor_ok read with ⟨_, none⟩ | ⟨_, grant, attached, granted, some⟩
    · rw [none] at given
      cases given
    · rw [some] at given
      exact .inl ⟨grant, role, attached, granted, Option.some.inj given ▸ above⟩
  · exact .inr inside

end

/-- An admitted change outside the basis is covered by a signed record of its
author; for every revocation or departure of that person the record carries a
later grant or the change lies inside the boundary; and it lies inside every
removal of the signing device that was not taken back. -/
theorem boundary_soundness (lawful : A.Lawful) {input : CausalAdmissionInput}
    {basis : Option String} {plan : CausalAdmissionPlan}
    (evaluated : evaluateCausalAdmissionInner P checks input basis = .ok plan) :
    ∃ context byHash history,
      fromSnapshotCausal P A input.snapshot = .ok context ∧
      documentHashes A input.snapshot.document = .ok byHash ∧
      readHistory P A input basis = .ok history ∧
      ∀ hash, plan.Admits hash → some hash ≠ basis →
        ∃ record ∈ input.records, ∃ node ∈ history.nodes, node.hash = hash ∧
          hash ∈ record.signed.payload.hashes ∧ record.DeviceSigned P ∧
          metadataIdentityMatches record node = true ∧
          (∀ revocation ∈ input.snapshot.revocations,
            revocation.payload.personId = record.signed.payload.personId →
            record.RenewedAfter P context revocation.payload.epoch ∨
              Collect.Reachable byHash revocation.payload.workspaceHeads hash) ∧
          (∀ departure ∈ input.snapshot.departures,
            departure.record.payload.personId = record.signed.payload.personId →
            record.RenewedAfter P context departure.record.payload.accessEpoch ∨
              Collect.Reachable byHash departure.record.payload.workspaceHeads hash) ∧
          ∀ removal ∈ input.snapshot.deviceRevocations,
            removal.record.payload.personId = record.signed.payload.personId →
            removal.record.payload.deviceId = record.signed.payload.deviceId →
            removal.record.payload.restores = none →
            ¬ input.snapshot.Restored removal.record →
              Collect.Reachable byHash removal.record.payload.workspaceHeads hash := by
  obtain ⟨history, context, evidence, statuses, readH, validated, gathered, _, planned, _⟩ :=
    evaluated_ok lawful evaluated
  obtain ⟨byHash, graph, bounded, removed⟩ := boundaries_of_fromSnapshotCausal validated
  obtain ⟨_, _, trusted, distinct, _⟩ := readHistory_ok lawful readH
  refine ⟨context, byHash, history, validated, graph, readH, ?_⟩
  rintro hash ⟨role, decided⟩ outside
  obtain ⟨record, held, node, rfl, proved, _⟩ :=
    planned.proves distinct gathered decided (trusted ▸ outside)
  obtain ⟨admitted, ran, proof⟩ := proved.admitted
  obtain ⟨verified, covers, _, grantEpoch, read, allowed, device, _⟩ := mem_admitted ran proof
  rw [ValidatedWorkspaceWriteAuthorizationContext.revocationAllows, Bool.and_eq_true] at allowed
  have identity : metadataIdentityMatches record node = true := by
    have passed := proved.provenance
    unfold checkProvenance at passed
    obtain ⟨matches', _⟩ := refuse_bind_ok.mp passed
    rw [not_or] at matches'
    simpa using matches'.1
  refine ⟨record, held, node, proved.inHistory, rfl, covers, deviceSigned_of_verified verified,
    identity, ?_, ?_, ?_⟩
  · intro revocation inSnapshot person
    exact passes_drawn read allowed.1 (person ▸ bounded.revoked revocation inSnapshot)
  · intro departure inSnapshot person
    exact passes_drawn read allowed.2 (person ▸ bounded.departed departure inSnapshot)
  · intro removal inSnapshot person device' plain standing
    obtain ⟨frontier, holds, members⟩ := removed removal inSnapshot plain standing
    rw [person, device'] at holds
    exact (members _).mp (deviceRevocationAllows_holds device holds)

end Soundness

namespace Sample

/-- An editor was removed after an edit, with the edit inside the boundary. -/
def removedEditor : CausalAdmissionInput where
  records := [signedChanges 0 ["root"] none, signedChanges 2 ["edit"] (some (grant 0 2 .editor))]
  snapshot := { workspace [2] with revocations := [revocation 0 2 ["edit"]] }
  pendingChangeBytes := []
  nowMs := 0

def removedEditorPlan : CausalAdmissionPlan :=
  ⟨[⟨"edit", .admitted .editor⟩, ⟨"root", .admitted .owner⟩], removedEditor.records, [2]⟩

end Sample

open Sample

set_option maxRecDepth 100000 in
/-- The edit stays admitted, and it is inside the boundary. -/
theorem boundary_soundness_sample :
    evaluateCausalAdmissionInner primitives (profileScope edits)
        removedEditor none = .ok removedEditorPlan ∧
      ∃ context byHash, fromSnapshotCausal primitives edits removedEditor.snapshot = .ok context ∧
        documentHashes edits removedEditor.snapshot.document = .ok byHash ∧
        ∃ record ∈ removedEditor.records, "edit" ∈ record.signed.payload.hashes ∧
          record.DeviceSigned primitives ∧
          ∀ revocation ∈ removedEditor.snapshot.revocations,
            revocation.payload.personId = record.signed.payload.personId →
            record.RenewedAfter primitives context revocation.payload.epoch ∨
              Collect.Reachable byHash revocation.payload.workspaceHeads "edit" := by
  refine (and_iff_left_of_imp fun evaluated => ?_).mpr (by decide)
  obtain ⟨context, byHash, _, validated, graph, _, sound⟩ :=
    boundary_soundness edits_lawful evaluated
  obtain ⟨record, held, _, _, _, covers, signed, _, revoked, _⟩ :=
    sound "edit" ⟨.editor, by decide⟩ (by decide)
  exact ⟨context, byHash, validated, graph, record, held, covers, signed, revoked⟩

end MetaMesh
