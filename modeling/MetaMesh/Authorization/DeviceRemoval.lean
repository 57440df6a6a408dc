import MetaMesh.Authorization.Session

/-!
# Device removals and changes of owner

A device removal is signed by the owner or by the person whose device it is.
Three readers check it, each against the owner of the moment: `fromSnapshot`,
`sessionAuthority` and `planDeviceRevocations`.  `removals_survive_iff` says
which catalogs all three still accept, with the same devices removed, when the
owner hands the workspace over.
-/

namespace MetaMesh

open Fallible

/-! ## Who signed a removal -/

section Signers

variable {P : Primitives} {record : WorkspaceDeviceRevocation} {workspaceId owner other : String}
  {authority : WorkspaceAuthority} {nowMs : Int}

theorem signer_of_verified
    (verified : verifyWorkspaceDeviceRevocation P record workspaceId owner authority nowMs =
      .ok ()) : authority.personId = owner ∨ authority.personId = record.payload.personId := by
  obtain ⟨fields, _⟩ := refuse_after_ok.mp verified
  simp only [not_or] at fields
  have signer := fields.2.2.2.2.2.2
  by_contra neither
  rw [not_or] at neither
  exact signer neither

/-- What the subject signed holds under any owner. -/
theorem verified_of_subject (subject : authority.personId = record.payload.personId)
    (verified : verifyWorkspaceDeviceRevocation P record workspaceId owner authority nowMs =
      .ok ()) :
    verifyWorkspaceDeviceRevocation P record workspaceId other authority nowMs = .ok () := by
  obtain ⟨fields, rest⟩ := refuse_after_ok.mp verified
  refine refuse_after_ok.mpr ⟨?_, rest⟩
  simp only [not_or] at fields ⊢
  obtain ⟨kind, version, workspace, person, device, heads, _⟩ := fields
  exact ⟨kind, version, workspace, person, device, heads, fun neither => neither.2 subject⟩

variable {records : List (WorkspaceDeviceRevocation × WorkspaceAuthority)}
  {restored : Finset String}

/-- Restorations that take back what their signer removed hold under any owner. -/
theorem restored_of_own
    (own : ∀ entry ∈ records, ∀ removal ∈ records,
      removal.1.signature ∈ entry.1.payload.restores.getD [] →
      removal.1.payload.personId = entry.1.payload.personId →
      (entry.2.personId ≠ owner → entry.2.personId = removal.2.personId) →
        entry.2.personId = removal.2.personId)
    (taken : restoredDeviceRevocations records owner = .ok restored) :
    restoredDeviceRevocations records other = .ok restored := by
  refine foldlM_ok_of_imp ?_ taken
  rintro ⟨approval, signer⟩ inRecords before after ran
  refine foldlM_ok_of_imp ?_ ran
  intro signature named seen next step
  obtain ⟨⟨removal, authority⟩, found, step⟩ := bind_ok.mp step
  obtain ⟨fields, same⟩ := refuse_bind_ok.mp step
  refine bind_ok.mpr ⟨(removal, authority), found, refuse_bind_ok.mpr ⟨?_, same⟩⟩
  simp only [not_or, not_and, not_not] at fields ⊢
  obtain ⟨plain, workspace, person, device, bySigner⟩ := fields
  rw [okOr_ok] at found
  have signs := List.find?_some found
  rw [decide_eq_true_eq] at signs
  exact ⟨plain, workspace, person, device, fun _ => own _ inRecords _
    (List.mem_of_find?_eq_some found) (signs ▸ named) person bySigner⟩

/-- Restorations that subjects signed hold under any owner. -/
theorem restored_of_subjects {α : Type} {items : List α} {record : α → WorkspaceDeviceRevocation}
    {signer : α → WorkspaceAuthority}
    (subjects : ∀ a ∈ items, (signer a).personId = (record a).payload.personId)
    (taken : restoredDeviceRevocations (items.map fun a => (record a, signer a)) owner =
      .ok restored) :
    restoredDeviceRevocations (items.map fun a => (record a, signer a)) other = .ok restored := by
  refine restored_of_own ?_ taken
  simp only [List.forall_mem_map]
  intro a held b held' _ person _
  rw [subjects a held, subjects b held', person]

end Signers

variable (raw : WorkspaceWriteAuthorizationSnapshot)

/-- Every record of a snapshot's catalog is signed by the person whose device it
removes or restores. -/
def WorkspaceWriteAuthorizationSnapshot.SubjectsSigned : Prop :=
  ∀ evidence ∈ raw.deviceRevocations,
    evidence.signer.personId = evidence.record.payload.personId

/-- A snapshot after its owner handed the workspace over. -/
def WorkspaceWriteAuthorizationSnapshot.withTransfer (transfer : WorkspaceOwnershipTransfer) :
    WorkspaceWriteAuthorizationSnapshot :=
  { raw with
    ownershipTransfers := raw.ownershipTransfers ++ [transfer]
    expectedCurrentOwner := transfer.payload.nextAuthority }

/-- A snapshot without its device removals. -/
def WorkspaceWriteAuthorizationSnapshot.withoutRemovals : WorkspaceWriteAuthorizationSnapshot :=
  { raw with deviceRevocations := [] }

/-- The catalog as replicas exchange it. -/
def WorkspaceWriteAuthorizationSnapshot.signedRemovals : List SignedDeviceRevocation :=
  raw.deviceRevocations.map fun evidence => ⟨evidence.record, evidence.signer⟩

/-! ## The three readers -/

section Readers

variable {E : Type} {P : Primitives} {A : Automerge E}
  {raw after : WorkspaceWriteAuthorizationSnapshot} {nowMs : Int} {byHash : DocumentGraph}
  {chain chain' : ChainState} {context : ValidatedWorkspaceWriteAuthorizationContext}
  {devices : Table (String × String) (List (Finset String))}

/-- Evidence that `fromSnapshot` accepts verifies for its own signer. -/
theorem verified_of_removeDevice {restored : Finset String} {workspaceId : String}
    {before next : Table (String × String) (List (Finset String))}
    {evidence : WorkspaceDeviceRevocationEvidence}
    (removed : removeDevice P workspaceId chain restored nowMs byHash before evidence = .ok next) :
    ∃ owner, verifyWorkspaceDeviceRevocation P evidence.record workspaceId owner evidence.signer
      nowMs = .ok () := by
  obtain ⟨_, _, removed⟩ := bind_ok.mp removed
  obtain ⟨signed, _⟩ := refuse_bind_ok.mp removed
  cases byOwner : signedByOwner P workspaceId chain nowMs evidence with
  | true =>
    obtain ⟨authority, _, holds⟩ := List.any_eq_true.mp byOwner
    simp only [decide_eq_true_eq] at holds
    obtain ⟨⟨⟩, verified⟩ := isOk_iff.mp holds.2.2.2
    exact ⟨_, verified⟩
  | false =>
    have bySubject : signedBySubject P workspaceId chain nowMs evidence = true := by
      simpa [byOwner] using signed
    obtain ⟨⟨⟩, verified⟩ := isOk_iff.mp bySubject
    exact ⟨_, verified⟩

section

variable (workspace : after.workspaceId = raw.workspaceId)
  (catalog : after.deviceRevocations = raw.deviceRevocations) (subjects : raw.SubjectsSigned)
include workspace catalog subjects

/-- `fromSnapshot` reads the same removals under another owner. -/
theorem verifiedDeviceRevocations_of_subjects
    (read : verifiedDeviceRevocations P raw chain nowMs byHash = .ok devices) :
    verifiedDeviceRevocations P after chain' nowMs byHash = .ok devices := by
  unfold verifiedDeviceRevocations at read ⊢
  obtain ⟨restored, taken, removed⟩ := bind_ok.mp read
  rw [workspace, catalog]
  refine bind_ok.mpr ⟨restored, restored_of_subjects subjects taken, foldlM_ok_of_imp ?_ removed⟩
  intro evidence held before next step
  obtain ⟨owner, verified⟩ := verified_of_removeDevice step
  have signed : signedBySubject P raw.workspaceId chain' nowMs evidence = true :=
    isOk_iff.mpr ⟨(), verified_of_subject (subjects evidence held) verified⟩
  obtain ⟨_, rest⟩ := refuse_after_ok.mp step
  exact refuse_after_ok.mpr ⟨by simp [signed], rest⟩

/-- Sessions read the same removals under another owner, where the evidence
verifies for its own signer. -/
theorem sessionRevokedDevices_of_subjects {owner owner' : WorkspaceAuthority}
    {devices : Finset (String × String)}
    (verified : ∀ evidence ∈ raw.deviceRevocations, ∃ owner,
      verifyWorkspaceDeviceRevocation P evidence.record raw.workspaceId owner evidence.signer
        nowMs = .ok ())
    (read : sessionRevokedDevices P raw owner nowMs = .ok devices) :
    sessionRevokedDevices P after owner' nowMs = .ok devices := by
  unfold sessionRevokedDevices at read ⊢
  obtain ⟨restored, taken, removed⟩ := bind_ok.mp read
  rw [workspace, catalog]
  refine bind_ok.mpr ⟨restored, restored_of_subjects subjects taken, foldlM_ok_of_imp ?_ removed⟩
  intro evidence held before next step
  obtain ⟨signer, verified⟩ := verified evidence held
  have signed : (verifyWorkspaceDeviceRevocation P evidence.record raw.workspaceId
      owner'.personId evidence.signer nowMs).isOk = true :=
    isOk_iff.mpr ⟨(), verified_of_subject (subjects evidence held) verified⟩
  obtain ⟨_, rest⟩ := refuse_after_ok.mp step
  exact refuse_after_ok.mpr ⟨by simp [signed], rest⟩

end

/-- A snapshot is accepted when it is without its removals, and they are. -/
theorem fromSnapshot_of_withoutRemovals
    (accepted : fromSnapshot P A raw.withoutRemovals nowMs = .ok context)
    (room : raw.deviceRevocations.length ≤ maxWorkspaceDeviceRevocations)
    (graph : documentHashes A raw.document = .ok byHash)
    (read : ∀ chain, verifiedDeviceRevocations P raw chain nowMs byHash = .ok devices) :
    fromSnapshot P A raw nowMs = .ok { context with revokedDevices := devices } := by
  obtain ⟨byHash', chain, first, valid⟩ := fromSnapshot_ok.mp accepted
  obtain rfl : byHash' = byHash :=
    ok_unique (documentHashes_of_snapshotGraph valid.graph) graph
  obtain ⟨boundaries, drawn, rest⟩ := valid.bounded
  refine fromSnapshot_ok.mpr ⟨byHash', chain, first, ?_, valid.walked, valid.expected,
    boundaries, drawn, ?_⟩
  · have graphed := valid.graph
    obtain ⟨limits, graphed⟩ := refuse_bind_ok.mp graphed
    refine refuse_bind_ok.mpr ⟨?_, graphed⟩
    simp only [not_or, not_lt] at limits ⊢
    obtain ⟨workspace, document, transfers, claims, revocations, departures, _⟩ := limits
    exact ⟨workspace, document, transfers, claims, revocations, departures, room⟩
  · obtain ⟨_, _, rest⟩ := bind_ok.mp rest
    obtain ⟨departures, left, same⟩ := bind_ok.mp rest
    rw [← Except.ok.inj same]
    exact bind_ok.mpr ⟨devices, read chain, bind_ok.mpr ⟨departures, left, rfl⟩⟩

theorem sessionAuthority_of_withoutRemovals {session : SessionAuthority}
    {devices : Finset (String × String)}
    (accepted : sessionAuthority P A raw.withoutRemovals nowMs = .ok session)
    (room : raw.deviceRevocations.length ≤ 512)
    (read : ∀ owner, sessionRevokedDevices P raw owner nowMs = .ok devices) :
    sessionAuthority P A raw nowMs = .ok { session with revokedDevices := devices } := by
  obtain ⟨_, checked, accepted⟩ := bind_ok.mp accepted
  obtain ⟨chain, walked, accepted⟩ := bind_ok.mp accepted
  obtain ⟨_, _, accepted⟩ := bind_ok.mp accepted
  obtain ⟨_, departures, same⟩ := bind_ok.mp accepted
  rw [← Except.ok.inj same]
  refine bind_ok.mpr ⟨(), ?_, bind_ok.mpr ⟨chain, walked, bind_ok.mpr ⟨devices,
    read chain.current, bind_ok.mpr ⟨(), departures, rfl⟩⟩⟩⟩
  obtain ⟨limits, checked⟩ := refuse_bind_ok.mp checked
  refine refuse_bind_ok.mpr ⟨?_, checked⟩
  simp only [not_or, not_lt] at limits ⊢
  obtain ⟨workspace, transfers, claims, revocations, left, _⟩ := limits
  exact ⟨workspace, transfers, claims, revocations, left, room⟩

end Readers

section Planner

variable {P : Primitives} {workspaceId owner other localPersonId localDeviceId : String}
  {nowMs : Nat} {catalog records merged : List SignedDeviceRevocation}
  {value : SignedDeviceRevocation} {peers : List WorkspacePeerRecord}
  {plan : DeviceRevocationPlan}

theorem mergeDeviceRevocations_ok :
    mergeDeviceRevocations P workspaceId owner nowMs catalog records = .ok merged ↔
      (∀ record ∈ records, verifyWorkspaceDeviceRevocation P record.record workspaceId owner
        record.authority nowMs = .ok ()) ∧
      ∃ all, all = records.foldl (fun merged record =>
          if containsKey merged record then merged else merged ++ [record]) catalog ∧
        all.length ≤ 512 ∧
        merged = sortBy (fun value => strKey value.record.payload.deviceId) all := by
  unfold mergeDeviceRevocations
  rw [bind_ok]
  simp only [foldlM_checked_ok]
  constructor
  · rintro ⟨all, ⟨verified, rfl⟩, rest⟩
    obtain ⟨room, same⟩ := refuse_bind_ok.mp rest
    exact ⟨verified, _, rfl, not_lt.mp room, (Except.ok.inj same).symm⟩
  · rintro ⟨verified, all, rfl, room, rfl⟩
    exact ⟨_, ⟨verified, rfl⟩, refuse_bind_ok.mpr ⟨not_lt.mpr room, rfl⟩⟩

theorem mem_of_merged
    (done : mergeDeviceRevocations P workspaceId owner nowMs catalog records = .ok merged)
    (held : value ∈ merged) : value ∈ catalog ∨ value ∈ records := by
  obtain ⟨_, all, rfl, _, rfl⟩ := mergeDeviceRevocations_ok.mp done
  refine List.foldlRecOn (motive := fun merged => value ∈ merged → _) records _ .inl ?_
    ((mem_sortBy _).mp held)
  intro merged known record inRecords held
  split at held
  · exact known held
  · rcases List.mem_append.mp held with before | here
    · exact known before
    · exact .inr (List.mem_singleton.mp here ▸ inRecords)

variable (planned : planDeviceRevocations P workspaceId owner localPersonId localDeviceId nowMs
  catalog records peers = .ok plan)

include planned

/-- The planner plans the same under another owner. -/
theorem planDeviceRevocations_of_subjects (subjects : ∀ value, value ∈ catalog ∨ value ∈ records →
      value.authority.personId = value.record.payload.personId) :
    planDeviceRevocations P workspaceId other localPersonId localDeviceId nowMs catalog records
      peers = .ok plan := by
  obtain ⟨merged, done, planned⟩ := bind_ok.mp planned
  obtain ⟨restored, taken, planned⟩ := bind_ok.mp planned
  refine bind_ok.mpr ⟨merged, ?_, bind_ok.mpr ⟨restored, restored_of_subjects
    (fun value held => subjects value (mem_of_merged done held)) taken, planned⟩⟩
  obtain ⟨verified, rest⟩ := mergeDeviceRevocations_ok.mp done
  refine mergeDeviceRevocations_ok.mpr ⟨fun record held => ?_, rest⟩
  exact verified_of_subject (subjects record (.inr held)) (verified record held)

/-- The planner takes in records of the owner and of the subjects only. -/
theorem signers_of_planned (held : value ∈ records) :
    value.authority.personId = owner ∨
      value.authority.personId = value.record.payload.personId := by
  obtain ⟨merged, done, _⟩ := bind_ok.mp planned
  obtain ⟨verified, _⟩ := mergeDeviceRevocations_ok.mp done
  exact signer_of_verified (verified value held)

end Planner

variable {raw : WorkspaceWriteAuthorizationSnapshot}

theorem mem_signedRemovals {value : SignedDeviceRevocation} :
    value ∈ raw.signedRemovals ↔ ⟨value.record, value.authority⟩ ∈ raw.deviceRevocations := by
  simp only [WorkspaceWriteAuthorizationSnapshot.signedRemovals, List.mem_map]
  constructor
  · rintro ⟨evidence, held, rfl⟩
    exact held
  · intro held
    exact ⟨_, held, rfl⟩

/-- What `fromSnapshot` and `sessionAuthority` accepted of the removals. -/
theorem devices_of_accepted {E : Type} {P : Primitives} {A : Automerge E} {nowMs : Int}
    {context : ValidatedWorkspaceWriteAuthorizationContext}
    (accepted : fromSnapshot P A raw nowMs = .ok context) :
    ∃ byHash chain, documentHashes A raw.document = .ok byHash ∧
      raw.deviceRevocations.length ≤ maxWorkspaceDeviceRevocations ∧
      verifiedDeviceRevocations P raw chain nowMs byHash = .ok context.revokedDevices := by
  obtain ⟨byHash, chain, _, valid⟩ := fromSnapshot_ok.mp accepted
  refine ⟨byHash, chain, documentHashes_of_snapshotGraph valid.graph, ?_, ?_⟩
  · have graphed := valid.graph
    obtain ⟨limits, _⟩ := refuse_bind_ok.mp graphed
    simp only [not_or, not_lt] at limits
    exact limits.2.2.2.2.2.2
  · obtain ⟨_, _, read⟩ := valid.bounded
    obtain ⟨devices, removed, read⟩ := bind_ok.mp read
    obtain ⟨_, _, same⟩ := bind_ok.mp read
    rw [← Except.ok.inj same]
    exact removed

theorem devices_of_session {E : Type} {P : Primitives} {A : Automerge E} {nowMs : Int}
    {session : SessionAuthority} (admitted : sessionAuthority P A raw nowMs = .ok session) :
    ∃ owner, sessionRevokedDevices P raw owner nowMs = .ok session.revokedDevices := by
  obtain ⟨_, _, admitted⟩ := bind_ok.mp admitted
  obtain ⟨chain, _, admitted⟩ := bind_ok.mp admitted
  obtain ⟨devices, read, admitted⟩ := bind_ok.mp admitted
  obtain ⟨_, _, same⟩ := bind_ok.mp admitted
  rw [← Except.ok.inj same]
  exact ⟨_, read⟩

/-- Removals that all three readers accept under one owner are accepted by all
three, with the same devices removed, after a valid transfer exactly when each
record is signed by the person whose device it is about. -/
theorem removals_survive_iff {E : Type} {P : Primitives} {A : Automerge E}
    {raw : WorkspaceWriteAuthorizationSnapshot} {transfer : WorkspaceOwnershipTransfer}
    {nowMs epoch : Nat} {context bare : ValidatedWorkspaceWriteAuthorizationContext}
    {session bareSession : SessionAuthority} {localPersonId localDeviceId : String}
    {held : List SignedDeviceRevocation} {peers : List WorkspacePeerRecord}
    {plan : DeviceRevocationPlan}
    (accepted : fromSnapshot P A raw nowMs = .ok context)
    (admitted : sessionAuthority P A raw nowMs = .ok session)
    (known : held ⊆ raw.signedRemovals)
    (planned : planDeviceRevocations P raw.workspaceId context.currentOwner.personId localPersonId
      localDeviceId nowMs held raw.signedRemovals peers = .ok plan)
    (transferred : verifyWorkspaceOwnershipTransfer P transfer raw.workspaceId context.currentOwner
      epoch nowMs = .ok ())
    (handedOver : fromSnapshot P A (raw.withTransfer transfer).withoutRemovals nowMs = .ok bare)
    (rejoined : sessionAuthority P A (raw.withTransfer transfer).withoutRemovals nowMs =
      .ok bareSession) :
    (∃ after session', fromSnapshot P A (raw.withTransfer transfer) nowMs = .ok after ∧
        after.revokedDevices = context.revokedDevices ∧
        sessionAuthority P A (raw.withTransfer transfer) nowMs = .ok session' ∧
        session'.revokedDevices = session.revokedDevices ∧
        planDeviceRevocations P raw.workspaceId transfer.payload.toOwnerPersonId localPersonId
          localDeviceId nowMs held raw.signedRemovals peers = .ok plan) ↔
      raw.SubjectsSigned := by
  constructor
  · rintro ⟨_, _, _, _, _, _, planned'⟩ evidence inCatalog
    have inRecords : ⟨evidence.record, evidence.signer⟩ ∈ raw.signedRemovals :=
      mem_signedRemovals.mpr inCatalog
    obtain ⟨signer, _, apart, _⟩ := verifyWorkspaceOwnershipTransfer_fields transferred
    rcases signers_of_planned planned inRecords with before | subject
    · rcases signers_of_planned planned' inRecords with after | subject
      · -- the former owner and the new one are not the same person
        exact absurd (after.symm.trans before) (signer ▸ apart)
      · exact subject
    · exact subject
  · intro subjects
    obtain ⟨byHash, chain, graph, room, read⟩ := devices_of_accepted accepted
    obtain ⟨owner, readSession⟩ := devices_of_session admitted
    have verified : ∀ evidence ∈ raw.deviceRevocations, ∃ owner,
        verifyWorkspaceDeviceRevocation P evidence.record raw.workspaceId owner evidence.signer
          nowMs = .ok () := by
      intro evidence inCatalog
      have done := planned
      unfold planDeviceRevocations at done
      obtain ⟨merged, done, _⟩ := bind_ok.mp done
      exact ⟨_, (mergeDeviceRevocations_ok.mp done).1 ⟨evidence.record, evidence.signer⟩
        (mem_signedRemovals.mpr inCatalog)⟩
    have afterwards := fromSnapshot_of_withoutRemovals handedOver room graph fun chain' =>
      verifiedDeviceRevocations_of_subjects rfl rfl subjects read
    have session' := sessionAuthority_of_withoutRemovals rejoined room fun owner' =>
      sessionRevokedDevices_of_subjects rfl rfl subjects verified readSession
    refine ⟨_, _, afterwards, rfl, session', rfl, planDeviceRevocations_of_subjects planned ?_⟩
    intro value inEither
    have inRecords : value ∈ raw.signedRemovals := by
      rcases inEither with before | new
      · exact known before
      · exact new
    exact subjects _ (mem_signedRemovals.mp inRecords)

namespace Sample

/-- A workspace in which one device was removed. -/
def removal (signer subject : Nat) : WorkspaceWriteAuthorizationSnapshot where
  workspaceId := "workspace"
  genesisOwner := authority 0
  genesisEpoch := 1
  expectedCurrentOwner := authority 0
  document := [0]
  ownershipTransfers := []
  successionClaims := []
  revocations := []
  deviceRevocations := [⟨deviceRevocation signer subject "device" ["head"], authority signer⟩]
  departures := []

def handover : WorkspaceOwnershipTransfer := transfer 0 1 2 1 ["head"]

variable (raw)

/-- What the merge planner makes of the removals. -/
def planRemovals (owner : Nat) : Except String DeviceRevocationPlan :=
  planDeviceRevocations primitives "workspace" (keyId owner) "person" "phone" 0 []
    raw.signedRemovals [⟨keyId 3, "device", none⟩]

/-- The devices `fromSnapshot` has for removed. -/
def contextDevices : Except String (List (String × String)) := do
  let context ← fromSnapshot primitives automerge raw 0
  .ok context.revokedDevices.keys

/-- The devices a session has for removed. -/
def sessionDevices : Except String (Finset (String × String)) := do
  let session ← sessionAuthority primitives automerge raw 0
  .ok session.revokedDevices

end Sample

open Sample

set_option maxRecDepth 100000

/-- The owner removed somebody's device.  After the handover `fromSnapshot` still
takes the removal in; a session and the merge planner refuse it. -/
theorem owner_removal_refused :
    contextDevices (removal 0 3) = .ok [(keyId 3, "device")] ∧
      sessionDevices (removal 0 3) = .ok {(keyId 3, "device")} ∧
      (planRemovals (removal 0 3) 0).isOk = true ∧
      verifyWorkspaceOwnershipTransfer primitives handover "workspace" (authority 0) 1 0 = .ok () ∧
      contextDevices ((removal 0 3).withTransfer handover) = .ok [(keyId 3, "device")] ∧
      sessionDevices ((removal 0 3).withTransfer handover) =
        .error "Invalid workspace device revocation" ∧
      planRemovals (removal 0 3) 1 = .error "Invalid workspace device revocation" := by
  decide

/-- A removal that the subject signed survives the handover. -/
theorem subject_removal_survives :
    ∃ context session plan,
      fromSnapshot primitives automerge (removal 3 3) 0 = .ok context ∧
      sessionAuthority primitives automerge (removal 3 3) 0 = .ok session ∧
      ((∃ after session',
          fromSnapshot primitives automerge ((removal 3 3).withTransfer handover) 0 = .ok after ∧
          after.revokedDevices = context.revokedDevices ∧
          sessionAuthority primitives automerge
            ((removal 3 3).withTransfer handover) 0 = .ok session' ∧
          session'.revokedDevices = session.revokedDevices ∧
          planDeviceRevocations primitives "workspace" (keyId 1) "person" "phone" 0 []
            (removal 3 3).signedRemovals [⟨keyId 3, "device", none⟩] = .ok plan) ↔
        (removal 3 3).SubjectsSigned) := by
  obtain ⟨context, accepted, owner⟩ := @fromSnapshot_of_acceptedOwner
    (removal 3 3) (authority 0) (by decide)
  have evaluated : (sessionAuthority primitives automerge (removal 3 3) 0).isOk = true ∧
      (planRemovals (removal 3 3) 0).isOk = true ∧
      verifyWorkspaceOwnershipTransfer primitives handover "workspace" (authority 0) 1 0 = .ok () ∧
      (fromSnapshot primitives automerge
        ((removal 3 3).withTransfer handover).withoutRemovals 0).isOk = true ∧
      (sessionAuthority primitives automerge
        ((removal 3 3).withTransfer handover).withoutRemovals 0).isOk = true := by
    decide
  obtain ⟨admitted, planned, transferred, handedOver, rejoined⟩ := evaluated
  obtain ⟨session, admitted⟩ := isOk_iff.mp admitted
  obtain ⟨plan, planned⟩ := isOk_iff.mp planned
  obtain ⟨bare, handedOver⟩ := isOk_iff.mp handedOver
  obtain ⟨bareSession, rejoined⟩ := isOk_iff.mp rejoined
  have ownerId : context.currentOwner.personId = keyId 0 := by rw [owner]; rfl
  unfold planRemovals at planned
  rw [← ownerId] at planned
  rw [← owner] at transferred
  refine ⟨context, session, plan, accepted, admitted, ?_⟩
  exact removals_survive_iff accepted admitted (List.nil_subset _) planned transferred handedOver
    rejoined

end MetaMesh
