import Mathlib.Data.Set.List
import MetaMesh.Lib.Handover
import MetaMesh.Ownership.MergeSpec

/-!
# Replicas that merge ownership transfers

A replica receives batches of transfers, plans each with `planOwnershipMerge`
and adopts the plan before the next batch.  The transfers are handovers in the
sense of `Lib/Handover.lean`; `receive_refines` shows that a batch does to a
replica what `Handover.Receives` says, for a set of valid transfers, and that
it never fails.  `ownership_converges` is the result for two replicas.
-/

namespace MetaMesh

open Fallible Handover

/-- The part of a replica that ownership depends on. -/
structure Replica where
  localPersonId : String
  credential : OwnershipCredential
  ownerEpoch : Nat
  conflicted : Bool
deriving DecidableEq, Repr

/-- One batch, with the time on the replica's clock. -/
structure OwnershipBatch where
  nowMs : Nat
  records : List WorkspaceOwnershipTransfer

/-- What does not change while a replica merges. -/
structure MergeContext where
  workspaceId : String
  revokedPeople : Finset String

def Replica.mergeInput (replica : Replica) (context : MergeContext) (batch : OwnershipBatch) :
    OwnershipMergeInput where
  workspaceId := context.workspaceId
  currentOwner := replica.credential.owner
  ownerHistory := replica.credential.ownerHistory
  ownerEpoch := replica.ownerEpoch
  current := replica.credential.ownershipTransfers
  incoming := batch.records.map toValue
  revokedPeople := context.revokedPeople
  nowMs := batch.nowMs

section Merging

variable (P : Primitives) (context : MergeContext) (genesis : WorkspaceAuthority) (startMs : Nat)
  (S : List WorkspaceOwnershipTransfer) (replica : Replica) (batch : OwnershipBatch)
  (plan : OwnershipMergePlan)

/-- Adopt one step of a plan. -/
def Replica.adopt (step : OwnershipMergeStep) : Except String Replica := do
  let credential ← planOwnershipAdoption replica.credential replica.localPersonId
    step.previousOwnerEpoch (.transfer step.record step.accepted)
  .ok { replica with credential := credential, ownerEpoch := step.record.payload.epoch }

/-- The catalog is written on its own when no step wrote it. -/
def Replica.persist : Replica :=
  { replica with
    credential := if plan.persistCatalog then
        { replica.credential with ownershipTransfers := plan.accepted }
      else replica.credential
    conflicted := plan.conflicted }

@[simp] theorem Replica.persist_owner :
    (replica.persist plan).credential.owner = replica.credential.owner := by
  unfold Replica.persist
  split <;> rfl

@[simp] theorem Replica.persist_ownerHistory :
    (replica.persist plan).credential.ownerHistory = replica.credential.ownerHistory := by
  unfold Replica.persist
  split <;> rfl

def Replica.receive : Except String Replica := do
  let plan ← planOwnershipMerge P (replica.mergeInput context batch)
  let adopted ← plan.steps.foldlM Replica.adopt replica
  .ok (adopted.persist plan)

def Replica.receiveAll (batches : List OwnershipBatch) : Except String Replica :=
  batches.foldlM (Replica.receive P context) replica

/-- Transfers as handovers. -/
def transferShape : Shape WorkspaceOwnershipTransfer String where
  signer r := r.payload.fromOwnerPersonId
  epoch r := r.payload.epoch
  heir r := r.payload.toOwnerPersonId

/-- The authorities a set of transfers gives: the genesis owner and every new
owner. -/
def Authorities (a : WorkspaceAuthority) : Prop :=
  a = genesis ∨ ∃ s ∈ S, a = s.payload.nextAuthority

/-- A set of valid transfers: each verifies against every authority the set
gives for its signer, and no signature stands for two records. -/
structure ValidTransfers : Prop where
  workspace : context.workspaceId ≠ ""
  few : S.length ≤ 512
  verified : ∀ r ∈ S, ∀ a, Authorities genesis S a → a.personId = r.payload.fromOwnerPersonId →
    verifyWorkspaceOwnershipTransfer P r context.workspaceId a (r.payload.epoch - 1) startMs =
      .ok ()
  named : ∀ r ∈ S, r.payload.fromOwnerPersonId ≠ "" ∧ r.payload.toOwnerPersonId ≠ ""
  active : ∀ r ∈ S, r.payload.toOwnerPersonId ∉ context.revokedPeople
  safe : ∀ r ∈ S, r.payload.epoch ≤ maxSafeInteger
  signed : ∀ r ∈ S, r.signature ≠ ""
  unique : ∀ r ∈ S, ∀ s ∈ S, r.signature = s.signature → r = s

/-- A replica as a party that follows handovers. -/
def Replica.view : View WorkspaceOwnershipTransfer String where
  tenure := ⟨replica.credential.owner.personId, replica.ownerEpoch⟩
  holders := {p | ∃ a ∈ replica.credential.owner :: replica.credential.ownerHistory,
    a.personId = p}
  catalog := {r | r ∈ replica.credential.ownershipTransfers}
  conflicted := replica.conflicted = true

theorem Replica.persist_view_tenure : (replica.persist plan).view.tenure = replica.view.tenure := by
  simp only [Replica.view, Replica.persist_owner]
  rfl

theorem Replica.persist_view_holders :
    (replica.persist plan).view.holders = replica.view.holders := by
  simp only [Replica.view, Replica.persist_owner, Replica.persist_ownerHistory]

/-- What every replica keeps. -/
structure Replica.Sound : Prop where
  authorities : ∀ a ∈ replica.credential.owner :: replica.credential.ownerHistory,
    Authorities genesis S a
  within : ∀ r ∈ replica.credential.ownershipTransfers, r ∈ S
  distinct : (replica.credential.ownershipTransfers.map fun r => r.signature).Nodup

/-! ## One batch -/

section Batch

/-- The transfers a replica knows while it plans. -/
def known : Set WorkspaceOwnershipTransfer :=
  replica.view.catalog ∪ {r | r ∈ batch.records}

/-- The catalog with the late transfers of a batch. -/
abbrev Replica.late : Set WorkspaceOwnershipTransfer :=
  replica.view.withLate transferShape {r | r ∈ batch.records}

variable {P context genesis startMs S replica batch}
  (valid : ValidTransfers P context genesis startMs S) (sound : replica.Sound genesis S)
  (within : ∀ r ∈ batch.records, r ∈ S) (timely : startMs ≤ batch.nowMs)

variable {r : WorkspaceOwnershipTransfer}

include sound within in
theorem known_valid (held : r ∈ known replica batch) : r ∈ S := by
  rcases held with held | held
  · exact sound.within r held
  · exact within r held

include sound within in
/-- So are the late ones, with any that are known. -/
theorem withLate_valid {K : Set WorkspaceOwnershipTransfer}
    (part : ∀ r ∈ K, r ∈ known replica batch)
    (held : r ∈ replica.late batch ∪ K) : r ∈ S := by
  rcases held with (held | ⟨held, _⟩) | held
  · exact sound.within r held
  · exact within r held
  · exact known_valid sound within (part r held)

include valid sound within in
theorem mem_knownValues {v : Value} :
    v ∈ knownValues (replica.mergeInput context batch) ↔
      ∃ r ∈ known replica batch, v = toValue r := by
  have incoming : (batch.records.map toValue).filter isSigned = batch.records.map toValue := by
    rw [List.filter_eq_self, List.forall_mem_map]
    exact fun r inBatch => decide_eq_true (valid.signed r (within r inBatch))
  have filed : ∀ v, v ∈ (replica.mergeInput context batch).filed ↔
      ∃ r ∈ known replica batch, v = toValue r := by
    intro v
    simp only [OwnershipMergeInput.filed, Replica.mergeInput, incoming]
    rw [← List.map_append, List.mem_map]
    simp only [List.mem_append, eq_comm]
    rfl
  rw [mem_knownValues_of_apart, filed]
  intro v inV w inW same
  obtain ⟨r, knownR, rfl⟩ := (filed v).mp inV
  obtain ⟨s, knownS, rfl⟩ := (filed w).mp inW
  rw [valid.unique r (known_valid sound within knownR) s (known_valid sound within knownS) same]

include valid sound within in
theorem knownValues_length : (knownValues (replica.mergeInput context batch)).length ≤ 512 := by
  have subset : (knownValues (replica.mergeInput context batch)).map signatureKey ⊆
      S.map fun r => r.signature := by
    intro key held
    obtain ⟨v, inKnown, rfl⟩ := List.mem_map.mp held
    obtain ⟨r, inSet, rfl⟩ := (mem_knownValues valid sound within).mp inKnown
    exact List.mem_map.mpr ⟨r, known_valid sound within inSet, rfl⟩
  have := ((knownValues_nodup _).subperm subset).length_le
  have := valid.few
  simp only [List.length_map] at *
  omega

/-! ### The next transfer -/

variable {n : Nat}

include valid sound within in
theorem nextTransferEpoch_eq_some_iff_due {x : Tenure String} :
    nextTransferEpoch (knownValues (replica.mergeInput context batch)) x.holder x.since = some n ↔
      Due transferShape (known replica batch) x n := by
  rw [nextTransferEpoch_eq_some]
  simp only [mem_knownValues valid sound within]
  constructor
  · rintro ⟨⟨above, v, ⟨r, held, rfl⟩, signer, epoch⟩, least⟩
    refine ⟨above, ⟨r, held, Option.some.inj signer, Option.some.inj epoch⟩, ?_⟩
    intro s held' signer' later
    exact least _ ⟨s, held', rfl⟩ _ (congrArg some signer') rfl later
  · rintro ⟨above, ⟨r, held, signer, epoch⟩, least⟩
    refine ⟨⟨above, _, ⟨r, held, rfl⟩, congrArg some signer, congrArg some epoch⟩, ?_⟩
    rintro v ⟨s, held', rfl⟩ m signer' epoch' later
    obtain rfl := Option.some.inj epoch'
    exact least s held' (Option.some.inj signer') later

include valid sound within in
/-- Known records are transfers that were written. -/
theorem exists_filter_known (q : Value → Bool) :
    ∃ records : List WorkspaceOwnershipTransfer,
      (knownValues (replica.mergeInput context batch)).filter q = records.map toValue ∧
        ∀ r, r ∈ records ↔ r ∈ known replica batch ∧ q (toValue r) = true := by
  have mem : ∀ v, v ∈ (knownValues (replica.mergeInput context batch)).filter q ↔
      ∃ r, (r ∈ known replica batch ∧ q (toValue r) = true) ∧ v = toValue r := by
    intro v
    rw [List.mem_filter, mem_knownValues valid sound within]
    constructor
    · rintro ⟨⟨r, held, rfl⟩, fields⟩
      exact ⟨r, ⟨held, fields⟩, rfl⟩
    · rintro ⟨r, ⟨held, fields⟩, rfl⟩
      exact ⟨⟨r, held, rfl⟩, fields⟩
  have typed : (knownValues (replica.mergeInput context batch)).filter q ∈
      Set.range (List.map (toValue : WorkspaceOwnershipTransfer → Value)) := by
    rw [Set.range_list_map]
    intro v held
    obtain ⟨r, _, rfl⟩ := (mem v).mp held
    exact ⟨r, rfl⟩
  obtain ⟨records, same⟩ := typed
  refine ⟨records, same.symm, fun r => ?_⟩
  rw [← List.mem_map_of_injective toValue_injective, same, mem]
  constructor
  · rintro ⟨s, facts, eq⟩
    rwa [toValue_injective eq]
  · exact fun facts => ⟨r, facts, rfl⟩

include valid in
/-- The proposals of an owner pass their check. -/
theorem checkProposal_ok {owner : WorkspaceAuthority} {epoch : Nat}
    (authority : Authorities genesis S owner) (timely : startMs ≤ batch.nowMs) (inSet : r ∈ S)
    (signer : r.payload.fromOwnerPersonId = owner.personId) (above : epoch < r.payload.epoch) :
    checkProposal P context.workspaceId owner epoch context.revokedPeople batch.nowMs r =
      .ok () := by
  have verified := verifyWorkspaceOwnershipTransfer_of_le
    (valid.verified r inSet owner authority signer.symm) (Int.ofNat_le.mpr timely)
  unfold checkProposal
  rw [verifyWorkspaceOwnershipTransfer_of_lt verified above, ok_bind, refuse_ok]
  exact valid.active r inSet

/-! ### The late history -/

variable (context batch) in
theorem lateAuthority?_isSome {raw : Value} {signer : String}
    (field : transferSigner? raw = some signer) :
    (lateAuthority? (replica.mergeInput context batch) raw).isSome = true ↔
      signer ∈ replica.view.holders := by
  simp [lateAuthority?, field, Replica.mergeInput, Replica.view]

include sound valid in
theorem mem_catalogTable :
    r ∈ (catalogTable replica.credential.ownershipTransfers).values ↔
      r ∈ replica.credential.ownershipTransfers := by
  rw [catalogTable, Table.mem_values_insertAll]
  exact fun a held b other => valid.unique a (sound.within a held) b (sound.within b other)

include valid sound within timely in
/-- The late history is filed: the catalog with the late transfers. -/
theorem exists_withLate :
    ∃ accepted : TransferTable, (knownValues (replica.mergeInput context batch)).foldlM
          (fileLateTransfer P (replica.mergeInput context batch))
          (catalogTable replica.credential.ownershipTransfers) = .ok accepted ∧
        Table.KeyedBy (fun r => r.signature) accepted ∧
        ∀ r, r ∈ accepted.values ↔ r ∈ replica.late batch := by
  have keyed : Table.KeyedBy (fun r => r.signature)
      (catalogTable replica.credential.ownershipTransfers) := (Table.KeyedBy.empty _).insertAll _
  obtain ⟨late, same, mem⟩ := exists_filter_known valid sound within
    (isLate (replica.mergeInput context batch) (catalogTable replica.credential.ownershipTransfers))
  have facts : ∀ r, r ∈ late ↔ r ∈ known replica batch ∧
      r ∉ replica.credential.ownershipTransfers ∧ r.payload.epoch ≤ replica.ownerEpoch ∧
      r.payload.fromOwnerPersonId ∈ replica.view.holders := by
    intro r
    rw [mem]
    refine and_congr_right fun held => ?_
    have unknown : (catalogTable replica.credential.ownershipTransfers).lookup r.signature =
        none ↔ r ∉ replica.credential.ownershipTransfers := by
      rw [← mem_catalogTable valid sound, keyed.mem_values]
      constructor
      · intro none found
        rw [none] at found
        cases found
      · intro absent
        by_contra present
        obtain ⟨s, found⟩ := Option.ne_none_iff_exists'.mp present
        have inCatalog := (mem_catalogTable valid sound).mp (Table.mem_values.mpr ⟨_, found⟩)
        have eq := valid.unique s (sound.within s inCatalog) r (known_valid sound within held)
          (keyed _ s found)
        exact absent (eq ▸ found)
    unfold isLate
    rw [decide_eq_true_eq, signatureKey_toValue, Option.isNone_iff_eq_none, unknown,
      lateAuthority?_isSome context batch (transferSigner?_toValue r)]
    rfl
  refine ⟨_, (fileLateTransfers_ok (knownValues_nodup _)
    fun raw held => recordSignature?_of_known held).mpr ⟨late, ?_, rfl⟩, keyed.insertAll late, ?_⟩
  · rw [same, List.forall₂_map_left_iff, List.forall₂_same]
    intro r inLate
    obtain ⟨held, _, _, holder⟩ := (facts r).mp inLate
    obtain ⟨a, found⟩ := Option.isSome_iff_exists.mp
      ((lateAuthority?_isSome context batch (transferSigner?_toValue r)).mpr holder)
    have owner := List.mem_of_find?_eq_some found
    have signer := List.find?_some found
    simp only [transferSigner?_toValue, Option.some.injEq, decide_eq_true_eq] at signer
    refine ⟨a, found, ?_⟩
    unfold verifyLateTransfer
    rw [parseTransfer_toValue, ok_bind, transferEpoch?_toValue, Option.getD_some,
      show (replica.mergeInput context batch).workspaceId = context.workspaceId from rfl,
      show (replica.mergeInput context batch).nowMs = batch.nowMs from rfl,
      verifyWorkspaceOwnershipTransfer_of_le (valid.verified r (known_valid sound within held) a
        (sound.authorities a owner) signer) (Int.ofNat_le.mpr timely), ok_bind]
  · intro r
    rw [keyed.mem_values_insertAll, facts]
    · rw [mem_catalogTable valid sound]
      constructor
      · rintro (held | ⟨held, fresh, upTo, holder⟩)
        · exact .inl held
        · exact .inr ⟨held.resolve_left fresh, upTo, holder⟩
      · rintro (held | ⟨held, upTo, holder⟩)
        · exact .inl held
        · by_cases inCatalog : r ∈ replica.credential.ownershipTransfers
          · exact .inl inCatalog
          · exact .inr ⟨.inr held, inCatalog, upTo, holder⟩
    · intro a inLate b other eq
      have inA := known_valid sound within ((facts a).mp inLate).1
      have inB : b ∈ S := by
        rcases other with held | held
        · exact sound.within b ((mem_catalogTable valid sound).mp held)
        · exact known_valid sound within ((facts b).mp held).1
      exact valid.unique a inA b inB eq

variable {accepted : TransferTable} {state : MergeState} {parsed : List WorkspaceOwnershipTransfer}

include valid in
/-- The conflict check finds the contradictions. -/
theorem hasConflicting_iff_contradictory {A : Set WorkspaceOwnershipTransfer}
    (same : ∀ r, r ∈ accepted.values ↔ r ∈ A) (inside : ∀ r ∈ A, r ∈ S) :
    hasConflictingOwnershipTransfers ((accepted.orderedValues strKey).map toValue) = true ↔
      Contradictory transferShape A := by
  have edge : ∀ r ∈ A, transferEdge? (toValue r) =
      some ((r.payload.epoch, r.payload.fromOwnerPersonId), r.payload.toOwnerPersonId) :=
    fun r inA => transferEdge?_toValue (valid.named r (inside r inA)).1
      (valid.named r (inside r inA)).2 (valid.safe r (inside r inA))
  have mem : ∀ e, e ∈ ((accepted.orderedValues strKey).map toValue).filterMap transferEdge? ↔
      ∃ r ∈ A, e = ((r.payload.epoch, r.payload.fromOwnerPersonId), r.payload.toOwnerPersonId) := by
    intro e
    rw [List.mem_filterMap]
    constructor
    · rintro ⟨v, held, found⟩
      obtain ⟨r, inTable, rfl⟩ := List.mem_map.mp held
      have inA := (same r).mp ((Table.orderedValues_perm strKey accepted).mem_iff.mp inTable)
      rw [edge r inA] at found
      exact ⟨r, inA, (Option.some.inj found).symm⟩
    · rintro ⟨r, inA, rfl⟩
      exact ⟨toValue r, List.mem_map_of_mem
        ((Table.orderedValues_perm strKey accepted).mem_iff.mpr ((same r).mpr inA)), edge r inA⟩
  rw [hasConflictingOwnershipTransfers_iff]
  constructor
  · rintro ⟨a, inLeft, b, inRight, key, apart⟩
    obtain ⟨r, inA, rfl⟩ := (mem a).mp inLeft
    obtain ⟨s, inA', rfl⟩ := (mem b).mp inRight
    simp only [Prod.mk.injEq] at key
    exact ⟨r, inA, s, inA', key.2, key.1, apart⟩
  · rintro ⟨r, inA, s, inA', signer, epoch, heirs⟩
    exact ⟨_, (mem _).mpr ⟨r, inA, rfl⟩, _, (mem _).mpr ⟨s, inA', rfl⟩,
      Prod.ext epoch signer, heirs⟩

/-! ### The walk -/

/-- Where the loop stands. -/
def MergeState.tenure (state : MergeState) : Tenure String :=
  ⟨state.owner.personId, state.ownerEpoch⟩

variable (replica batch genesis S state)

/-- The transfers met before the tenure `y`. -/
def metBefore (y : Tenure String) : Set WorkspaceOwnershipTransfer :=
  {r | r ∈ known replica batch ∧ ∃ z, Reach transferShape (known replica batch)
    replica.view.tenure z ∧ z.since < y.since ∧ transferShape.signer r = z.holder ∧
    Due transferShape (known replica batch) z (transferShape.epoch r)}

/-- The replica after the steps planned so far. -/
structure Adopted (next : Replica) : Prop where
  owner : next.credential.owner = state.owner
  epoch : next.ownerEpoch = state.ownerEpoch
  history : ∀ a ∈ next.credential.ownerHistory, Authorities genesis S a
  holders : ∀ p, p ∈ next.view.holders ↔ p ∈ replica.view.holders ∨
    ∃ z, Reach transferShape (known replica batch) replica.view.tenure z ∧
      z.since ≤ state.ownerEpoch ∧ z.holder = p
  written : state.steps ≠ [] →
    next.credential.ownershipTransfers = orderedTransfers (orderedCatalog state.accepted)
  untouched : state.steps = [] → next = replica

/-- What holds between the rounds of the loop. -/
structure Walking : Prop where
  path : Reach transferShape (known replica batch) replica.view.tenure state.tenure
  keyed : Table.KeyedBy (fun r => r.signature) state.accepted
  values : ∀ r, r ∈ state.accepted.values ↔
    r ∈ replica.view.withLate transferShape {r | r ∈ batch.records} ∪
      metBefore replica batch state.tenure
  authority : Authorities genesis S state.owner
  adopted : ∃ next, state.steps.foldlM Replica.adopt replica = .ok next ∧
    Adopted genesis S replica batch state next

/-- What holds when the loop has left its last state with `accepted`. -/
structure WalkEnded (accepted : TransferTable) (conflicted : Bool) : Prop where
  walking : Walking genesis S replica batch state
  last : ∀ z, ¬ Follows transferShape (known replica batch) state.tenure z
  fork : conflicted = true ↔ Fork transferShape (known replica batch) state.tenure
  keyed : Table.KeyedBy (fun r => r.signature) accepted
  values : ∀ r, r ∈ accepted.values ↔
    r ∈ replica.view.withLate transferShape {r | r ∈ batch.records} ∪
      walked transferShape (known replica batch) replica.view.tenure
  unchanged : conflicted = false → accepted = state.accepted

def LoopOutcome : Except String (MergeState × Bool) → Prop
  | .error _ => False
  | .ok (final, conflicted) => ∃ state : MergeState,
      final = { state with accepted := final.accepted } ∧
        WalkEnded genesis S replica batch state final.accepted conflicted

variable {replica batch genesis S state}

section Walk

variable {x y z : Tenure String} {K : Set WorkspaceOwnershipTransfer}

/-- Up to where nothing follows, the transfers met are those before and those
due there. -/
theorem mem_walked_iff (path : Reach transferShape (known replica batch) replica.view.tenure y)
    (last : ∀ z, ¬ Follows transferShape (known replica batch) y z) :
    r ∈ walked transferShape (known replica batch) replica.view.tenure ↔
      r ∈ metBefore replica batch y ∨ (r ∈ known replica batch ∧ transferShape.signer r = y.holder ∧
        Due transferShape (known replica batch) y (transferShape.epoch r)) := by
  constructor
  · rintro ⟨held, z, toZ, signer, due⟩
    rcases toZ.linear path with onward | back
    · rcases Relation.ReflTransGen.cases_head onward with rfl | ⟨w, step, rest⟩
      · exact .inr ⟨held, signer, due⟩
      · have := step.1.1
        have := Reach.since_le rest
        exact .inl ⟨held, z, toZ, by omega, signer, due⟩
    · rcases Relation.ReflTransGen.cases_head back with rfl | ⟨w, step, _⟩
      · exact .inr ⟨held, signer, due⟩
      · exact absurd step (last w)
  · rintro (⟨held, z, toZ, _, signer, due⟩ | ⟨held, signer, due⟩)
    · exact ⟨held, z, toZ, signer, due⟩
    · exact ⟨held, y, path, signer, due⟩

/-- A step on the way meets the transfers due where it starts. -/
theorem mem_metBefore_of_follows
    (path : Reach transferShape (known replica batch) replica.view.tenure y)
    (step : Follows transferShape (known replica batch) y z) :
    r ∈ metBefore replica batch z ↔ r ∈ metBefore replica batch y ∨ (r ∈ known replica batch ∧
        transferShape.signer r = y.holder ∧ transferShape.epoch r = z.since) := by
  have above := step.1.1
  constructor
  · rintro ⟨held, w, toW, before, signer, due⟩
    rcases lt_trichotomy w.since y.since with earlier | same | later
    · exact .inl ⟨held, w, toW, earlier, signer, due⟩
    · rw [toW.eq_of_since_eq path same] at signer due
      exact .inr ⟨held, signer, due.unique step.1⟩
    · have := due_le_of_since_lt path toW later step.1
      omega
  · rintro (⟨held, w, toW, before, signer, due⟩ | ⟨held, signer, epoch⟩)
    · exact ⟨held, w, toW, by omega, signer, due⟩
    · exact ⟨held, y, path, above, signer, epoch ▸ step.1⟩

end Walk

/-- Everyone who held the office is in the history, or holds it. -/
theorem mem_historyWithOwner (credential : OwnershipCredential) (p : String) :
    (∃ a ∈ credential.historyWithOwner, a.personId = p) ↔
      ∃ a ∈ credential.owner :: credential.ownerHistory, a.personId = p := by
  unfold OwnershipCredential.historyWithOwner
  split
  · next present =>
    obtain ⟨former, held, same⟩ := List.any_eq_true.mp present
    constructor
    · rintro ⟨a, inHistory, rfl⟩
      exact ⟨a, List.mem_cons_of_mem _ inHistory, rfl⟩
    · rintro ⟨a, inAll, rfl⟩
      rcases List.mem_cons.mp inAll with rfl | inHistory
      · exact ⟨former, held, by simpa using same⟩
      · exact ⟨a, inHistory, rfl⟩
  · refine exists_congr fun a => and_congr_left fun _ => ?_
    rw [List.mem_append, List.mem_singleton, List.mem_cons, or_comm]

/-- One more step is adopted. -/
theorem Adopted.step {next : Replica} (accepted : TransferTable)
    (adopted : Adopted genesis S replica batch state next)
    (authority : Authorities genesis S state.owner)
    (path : Reach transferShape (known replica batch) replica.view.tenure state.tenure)
    (follows : Follows transferShape (known replica batch) state.tenure
      ⟨r.payload.toOwnerPersonId, r.payload.epoch⟩)
    (signer : r.payload.fromOwnerPersonId = state.owner.personId) :
    ∃ after, next.adopt ⟨r, orderedCatalog accepted, state.ownerEpoch⟩ = .ok after ∧
      Adopted genesis S replica batch ⟨accepted,
        state.steps ++ [⟨r, orderedCatalog accepted, state.ownerEpoch⟩],
        r.payload.nextAuthority, r.payload.epoch⟩ after := by
  have passes : ¬ (r.payload.fromOwnerPersonId ≠ next.credential.owner.personId ∨
      r.payload.epoch ≤ state.ownerEpoch) := by
    have above : state.ownerEpoch < r.payload.epoch := follows.1.1
    rw [adopted.owner]
    simp [signer, above]
  unfold Replica.adopt planOwnershipAdoption
  simp only [refuse, passes, if_false, ok_bind]
  refine ⟨_, rfl, ⟨rfl, rfl, ?_, ?_, fun _ => rfl, by simp⟩⟩
  · intro a held
    simp only [OwnershipCredential.historyWithOwner] at held
    split at held
    · exact adopted.history a held
    · rw [List.mem_append, List.mem_singleton] at held
      rcases held with held | rfl
      · exact adopted.history a held
      · rw [adopted.owner]
        exact authority
  · intro p
    have before := adopted.holders p
    rw [← show _ ↔ p ∈ next.view.holders from mem_historyWithOwner next.credential p] at before
    show (∃ a ∈ r.payload.nextAuthority :: next.credential.historyWithOwner, a.personId = p) ↔ _
    rw [List.exists_mem_cons_iff, before]
    constructor
    · rintro (rfl | held | ⟨z, toZ, upTo, holder⟩)
      · exact .inr ⟨_, path.tail follows, le_refl _, rfl⟩
      · exact .inl held
      · exact .inr ⟨z, toZ, upTo.trans follows.1.1.le, holder⟩
    · rintro (held | ⟨z, toZ, upTo, rfl⟩)
      · exact .inr (.inl held)
      · rcases le_or_gt z.since state.ownerEpoch with early | later
        · exact .inr (.inr ⟨z, toZ, early, rfl⟩)
        · have since := le_antisymm upTo (due_le_of_since_lt path toZ later follows.1)
          rw [toZ.eq_of_since_eq (path.tail follows) since]
          exact .inl rfl

/-- The known records above the owner's epoch. -/
def recordsAhead (input : OwnershipMergeInput) (state : MergeState) : Nat :=
  ((knownValues input).filter fun v => state.ownerEpoch < (transferEpoch? v).getD 0).length

/-- Moving on to the epoch of a known record leaves fewer records ahead. -/
theorem recordsAhead_lt {input : OwnershipMergeInput} {next : MergeState} {raw : Value}
    {epoch : Nat} (held : raw ∈ knownValues input) (field : transferEpoch? raw = some epoch)
    (above : state.ownerEpoch < epoch) (reached : epoch ≤ next.ownerEpoch) :
    recordsAhead input next < recordsAhead input state := by
  have refined : (knownValues input).filter (fun v => next.ownerEpoch < (transferEpoch? v).getD 0) =
      ((knownValues input).filter fun v => state.ownerEpoch < (transferEpoch? v).getD 0).filter
        fun v => next.ownerEpoch < (transferEpoch? v).getD 0 := by
    rw [List.filter_filter]
    refine List.filter_congr fun v _ => ?_
    by_cases later : next.ownerEpoch < (transferEpoch? v).getD 0
    · simp [later, (above.trans_le reached).trans later]
    · simp [later]
  unfold recordsAhead
  rw [refined, List.length_filter_lt_length_iff_exists]
  exact ⟨raw, List.mem_filter.mpr ⟨held, by simpa [field] using above⟩,
    by simpa [field] using reached⟩

/-- The transfers at the next epoch conflict exactly when they disagree. -/
theorem decidedBy_conflicted {K : Set WorkspaceOwnershipTransfer} {owner : String}
    (mem : ∀ r, r ∈ parsed ↔ r ∈ K ∧ transferShape.signer r = owner ∧ transferShape.epoch r = n) :
    (decidedBy parsed).conflicted = true ↔ ¬ Agree transferShape K owner n := by
  simp only [decidedBy, decide_eq_true_eq, Finset.one_lt_card, List.mem_toFinset, List.mem_map,
    mem_sortBy, Agree, not_forall]
  constructor
  · rintro ⟨_, ⟨r, left, rfl⟩, _, ⟨s, right, rfl⟩, apart⟩
    obtain ⟨inK, signer, epoch⟩ := (mem r).mp left
    obtain ⟨inK', signer', epoch'⟩ := (mem s).mp right
    exact ⟨r, inK, s, inK', signer, epoch, signer', epoch', apart⟩
  · rintro ⟨r, inK, s, inK', signer, epoch, signer', epoch', apart⟩
    exact ⟨_, ⟨r, (mem r).mpr ⟨inK, signer, epoch⟩, rfl⟩, _,
      ⟨s, (mem s).mpr ⟨inK', signer', epoch'⟩, rfl⟩, apart⟩

include valid sound within timely in
/-- The next transition while the loop walks. -/
theorem nextTransition_ok (walking : Walking genesis S replica batch state) :
    ∃ transition, nextVerifiedOwnershipTransition P (knownValues (replica.mergeInput context batch))
        (replica.mergeInput context batch).workspaceId state.owner state.ownerEpoch
        (replica.mergeInput context batch).revokedPeople (replica.mergeInput context batch).nowMs =
          .ok transition ∧
      ((transition = ⟨[], none, false⟩ ∧
          ∀ n, ¬ Due transferShape (known replica batch) state.tenure n) ∨
        ∃ n parsed, Due transferShape (known replica batch) state.tenure n ∧
          transition = decidedBy parsed ∧
          ∀ r, r ∈ parsed ↔ r ∈ known replica batch ∧
            transferShape.signer r = state.owner.personId ∧ transferShape.epoch r = n) := by
  have due := fun n => nextTransferEpoch_eq_some_iff_due (x := state.tenure) (n := n) valid sound
    within
  have few := knownValues_length valid sound within
  cases next : nextTransferEpoch (knownValues (replica.mergeInput context batch))
      state.owner.personId state.ownerEpoch with
  | none =>
    refine ⟨_, nextVerifiedOwnershipTransition_ok.mpr ⟨few, valid.workspace, ?_⟩,
      .inl ⟨rfl, fun n isDue => ?_⟩⟩
    · rw [next]
    · have := (due n).mpr isDue
      rw [show nextTransferEpoch _ state.tenure.holder state.tenure.since = none from next] at this
      cases this
  | some n =>
    obtain ⟨parsed, same, mem⟩ := exists_filter_known valid sound within fun record =>
      transferSigner? record = some state.owner.personId ∧ transferEpoch? record = some n
    have mem : ∀ r, r ∈ parsed ↔ r ∈ known replica batch ∧
        transferShape.signer r = state.owner.personId ∧ transferShape.epoch r = n := by
      intro r
      rw [mem]
      simp [transferShape]
    have isDue := (due n).mp next
    refine ⟨decidedBy parsed, nextVerifiedOwnershipTransition_ok.mpr
      ⟨few, valid.workspace, ?_⟩, .inr ⟨n, parsed, isDue, rfl, mem⟩⟩
    rw [next]
    refine ⟨parsed, ?_, fun r inParsed => ?_, rfl⟩
    · rw [transfersAt, same]
      exact forall₂_parseTransfer.mpr rfl
    · obtain ⟨held, signer, epoch⟩ := (mem r).mp inParsed
      exact checkProposal_ok valid walking.authority timely (known_valid sound within held)
        signer (lt_of_lt_of_eq isDue.1 epoch.symm)

include valid sound within in
/-- The transfers due at a tenure join the accepted ones. -/
theorem mem_insertAll_due (walking : Walking genesis S replica batch state)
    (mem : ∀ r, r ∈ parsed ↔ r ∈ known replica batch ∧
      transferShape.signer r = state.owner.personId ∧ transferShape.epoch r = n) {r} :
    r ∈ (state.accepted.insertAll (fun r => r.signature) (decidedBy parsed).candidates).values ↔
      r ∈ replica.late batch ∨ r ∈ metBefore replica batch state.tenure ∨ r ∈ known replica batch ∧
        transferShape.signer r = state.owner.personId ∧ transferShape.epoch r = n := by
  have inS : ∀ r, r ∈ state.accepted.values ∨ r ∈ (decidedBy parsed).candidates → r ∈ S := by
    rintro r (held | held)
    · exact withLate_valid sound within (fun _ => And.left) ((walking.values r).mp held)
    · exact known_valid sound within ((mem r).mp ((mem_sortBy _).mp held)).1
  rw [walking.keyed.mem_values_insertAll, walking.values]
  · show (_ ∨ _) ∨ r ∈ sortBy _ parsed ↔ _
    rw [mem_sortBy, mem, or_assoc]
  · intro a held b other same
    exact valid.unique a (inS a (.inr held)) b (inS b other) same

include valid sound within timely in
/-- One round of the loop. -/
theorem mergeRound_spec (walking : Walking genesis S replica batch state) :
    RoundSpec (Walking genesis S replica batch) (recordsAhead (replica.mergeInput context batch))
      (LoopOutcome genesis S replica batch) state
      (mergeRound P (replica.mergeInput context batch) state) := by
  obtain ⟨transition, found, outcome⟩ := nextTransition_ok valid sound within timely walking
  unfold mergeRound
  rw [found, ok_bind]
  rcases outcome with ⟨rfl, none⟩ | ⟨n, parsed, due, rfl, mem⟩
  · -- nothing is due: the walk has ended
    have last : ∀ z, ¬ Follows transferShape (known replica batch) state.tenure z :=
      fun z step => none _ step.1
    refine ⟨state, rfl, walking, last, ?_, walking.keyed, fun r => ?_, fun _ => rfl⟩
    · simp only [Bool.false_eq_true, false_iff]
      rintro ⟨n, due, _⟩
      exact none n due
    · show r ∈ state.accepted.values ↔ _
      rw [walking.values, Set.mem_union, Set.mem_union, mem_walked_iff walking.path last]
      refine or_congr_right ⟨Or.inl, ?_⟩
      rintro (met | ⟨_, _, due⟩)
      · exact met
      · exact absurd due (none _)
  · have values := fun r => mem_insertAll_due (r := r) valid sound within walking mem
    have disagree := decidedBy_conflicted mem
    by_cases conflicted : (decidedBy parsed).conflicted = true
    · -- the transfers due contradict each other
      simp only [conflicted, if_true]
      have fork : Fork transferShape (known replica batch) state.tenure :=
        ⟨n, due, disagree.mp conflicted⟩
      refine ⟨state, rfl, walking, fun z => fork.not_follows, by simp [fork],
        walking.keyed.insertAll _, fun r => ?_, by simp⟩
      rw [values, Set.mem_union, mem_walked_iff walking.path fun z => fork.not_follows]
      refine or_congr_right (or_congr_right (and_congr_right fun _ => and_congr_right fun _ => ?_))
      exact ⟨fun epoch => epoch ▸ due, fun due' => due'.unique due⟩
    · -- they agree: the first of them is the next step
      have agree := not_not.mp (mt disagree.mpr conflicted)
      obtain ⟨s, held, signer, epoch⟩ := due.2.1
      have nonempty : (decidedBy parsed).candidates ≠ [] := by
        have inParsed := (mem s).mpr ⟨held, signer, epoch⟩
        exact List.ne_nil_of_mem ((mem_sortBy _).mpr inParsed)
      obtain ⟨r, rest, candidates⟩ := List.exists_cons_of_ne_nil nonempty
      have selected : (decidedBy parsed).selected = some r := by
        show (if (decidedBy parsed).conflicted = true then none
          else (decidedBy parsed).candidates.head?) = some r
        rw [if_neg conflicted, candidates]
        rfl
      obtain ⟨inKnown, signerR, epochR⟩ := (mem r).mp
        ((mem_sortBy _).mp (show r ∈ (decidedBy parsed).candidates by rw [candidates]; simp))
      subst epochR
      have follows : Follows transferShape (known replica batch) state.tenure
          ⟨r.payload.toOwnerPersonId, r.payload.epoch⟩ :=
        ⟨due, agree, r, inKnown, signerR, rfl, rfl⟩
      simp only [conflicted, Bool.false_eq_true, if_false, selected]
      obtain ⟨next, adoptedSo, adopted⟩ := walking.adopted
      obtain ⟨after, adoptedNow, adopted'⟩ := Adopted.step
        (state.accepted.insertAll (fun r => r.signature) (decidedBy parsed).candidates)
        adopted walking.authority walking.path follows signerR
      refine ⟨⟨walking.path.tail follows, walking.keyed.insertAll _, fun r' => ?_,
        .inr ⟨r, known_valid sound within inKnown, rfl⟩, after, ?_, adopted'⟩, ?_⟩
      · rw [values, Set.mem_union]
        exact or_congr_right (mem_metBefore_of_follows walking.path follows).symm
      · rw [List.foldlM_append, adoptedSo, ok_bind, List.foldlM_cons, adoptedNow]
        rfl
      · exact recordsAhead_lt ((mem_knownValues valid sound within).mpr ⟨r, inKnown, rfl⟩)
          (transferEpoch?_toValue r) due.1 (le_refl _)

theorem walking_start (sound : replica.Sound genesis S)
    (keyed : Table.KeyedBy (fun r => r.signature) accepted)
    (values : ∀ r, r ∈ accepted.values ↔ r ∈ replica.late batch) :
    Walking genesis S replica batch
      ⟨accepted, [], replica.credential.owner, replica.ownerEpoch⟩ := by
  have here : ∀ z, Reach transferShape (known replica batch) replica.view.tenure z →
      z.since ≤ replica.ownerEpoch → z = replica.view.tenure := fun z toZ upTo =>
    toZ.eq_of_since_eq Relation.ReflTransGen.refl (le_antisymm upTo (Reach.since_le toZ))
  refine ⟨Relation.ReflTransGen.refl, keyed, fun r => ?_, sound.authorities _ (by simp), replica,
    rfl, rfl, rfl, fun a held => sound.authorities a (by simp [held]), fun p => ?_, by simp,
    fun _ => rfl⟩
  · rw [values, Set.mem_union]
    constructor
    · exact Or.inl
    · rintro (held | ⟨_, z, toZ, before, _⟩)
      · exact held
      · have := Reach.since_le toZ
        change z.since < replica.ownerEpoch at before
        change replica.ownerEpoch ≤ z.since at this
        omega
  · constructor
    · exact Or.inl
    · rintro (held | ⟨z, toZ, upTo, rfl⟩)
      · exact held
      · rw [here z toZ upTo]
        exact ⟨replica.credential.owner, by simp, rfl⟩

include valid sound in
/-- A catalog that did not grow did not change. -/
theorem mem_catalog_of_length_le (keyed : Table.KeyedBy (fun r => r.signature) accepted)
    (holds : ∀ r ∈ replica.credential.ownershipTransfers, r ∈ accepted.values)
    (inside : ∀ r ∈ accepted.values, r ∈ S)
    (same : accepted.keys.length ≤ replica.credential.ownershipTransfers.length) :
    ∀ r ∈ accepted.values, r ∈ replica.credential.ownershipTransfers := by
  have subset : (replica.credential.ownershipTransfers.map fun r => r.signature) ⊆
      accepted.keys := by
    intro key held
    obtain ⟨r, inCatalog, rfl⟩ := List.mem_map.mp held
    rw [← AList.mem_keys, ← AList.lookup_isSome, keyed.mem_values.mp (holds r inCatalog)]
    rfl
  have perm := (sound.distinct.subperm subset).perm_of_length_le (by simpa using same)
  intro r held
  have key : r.signature ∈ accepted.keys := by
    rw [← AList.mem_keys, ← AList.lookup_isSome, keyed.mem_values.mp held]
    rfl
  obtain ⟨s, inCatalog, eq⟩ := List.mem_map.mp (perm.mem_iff.mpr key)
  rwa [← valid.unique s (sound.within s inCatalog) r (inside r held) eq]

variable (context) in
include valid sound within in
/-- The catalog a plan leaves is the one it accepted. -/
theorem WalkEnded.catalog {conflicted : Bool}
    (ended : WalkEnded genesis S replica batch state accepted conflicted) {next : Replica}
    (adopted : Adopted genesis S replica batch state next) :
    let final := next.persist (mergePlan (replica.mergeInput context batch)
      { state with accepted := accepted } conflicted)
    (∀ r, r ∈ final.credential.ownershipTransfers ↔ r ∈ accepted.values) ∧
      (final.credential.ownershipTransfers.map fun r => r.signature).Nodup := by
  have inside : ∀ r ∈ accepted.values, r ∈ S := by
    intro r held
    exact withLate_valid sound within (fun _ => And.left) ((ended.values r).mp held)
  have holds : ∀ r ∈ replica.credential.ownershipTransfers, r ∈ accepted.values := by
    intro r held
    exact (ended.values r).mpr (.inl (.inl held))
  dsimp only [Replica.persist]
  split
  · exact ⟨fun r => mem_orderedCatalog, orderedCatalog_nodup ended.keyed⟩
  · next kept =>
    simp only [mergePlan, decide_eq_true_eq, not_or, not_and, not_lt, Bool.not_eq_true] at kept
    obtain ⟨unconflicted, shorter⟩ := kept
    by_cases steps : state.steps = []
    · rw [adopted.untouched steps]
      refine ⟨fun r => ⟨holds r, ?_⟩, sound.distinct⟩
      exact mem_catalog_of_length_le valid sound ended.keyed holds inside (shorter steps) r
    · rw [adopted.written steps, ended.unchanged unconflicted]
      have keyed := ended.walking.keyed
      refine ⟨fun r => mem_orderedTransfers.trans mem_orderedCatalog, ?_⟩
      exact ((sortBy_perm _ _).map _).nodup_iff.mpr (orderedCatalog_nodup keyed)

variable (context) in
include valid sound within in
/-- The replica after a walk, with the catalog of its plan. -/
theorem WalkEnded.refines {conflicted : Bool}
    (ended : WalkEnded genesis S replica batch state accepted conflicted)
    (clear : ¬ Contradictory transferShape (replica.late batch)) :
    ∃ next, state.steps.foldlM Replica.adopt replica = .ok next ∧
      let final := next.persist (mergePlan (replica.mergeInput context batch)
        { state with accepted := accepted } conflicted)
      final.Sound genesis S ∧
        Receives transferShape replica.view {r | r ∈ batch.records} final.view := by
  obtain ⟨next, adoptedSo, adopted⟩ := ended.walking.adopted
  obtain ⟨catalog, distinct⟩ := ended.catalog context valid sound within adopted
  refine ⟨next, adoptedSo, ⟨?_, ?_, distinct⟩, ?_⟩
  · intro a held
    rw [Replica.persist_owner, Replica.persist_ownerHistory, List.mem_cons] at held
    rcases held with rfl | held
    · rw [adopted.owner]
      exact ended.walking.authority
    · exact adopted.history a held
  · intro r held
    exact withLate_valid sound within (fun _ => And.left)
      ((ended.values r).mp ((catalog r).mp held))
  · refine (Receives.walks clear ended.walking.path ended.last).congr (View.ext ?_ ?_ ?_ ?_)
    · rw [Replica.persist_view_tenure]
      exact Tenure.ext (congrArg WorkspaceAuthority.personId adopted.owner.symm) adopted.epoch.symm
    · rw [Replica.persist_view_holders]
      refine Set.ext fun p => Iff.symm ((adopted.holders p).trans (or_congr_right ?_))
      refine exists_congr fun z => and_congr_right fun toZ => and_iff_right ?_
      -- the walk has reached every tenure there is
      rcases toZ.linear ended.walking.path with path | path
      · exact Reach.since_le path
      · rcases Relation.ReflTransGen.cases_head path with rfl | ⟨w, step, _⟩
        · exact le_refl _
        · exact absurd step (ended.last w)
    · exact Set.ext fun r => ((catalog r).trans (ended.values r)).symm
    · exact propext ended.fork.symm

include valid sound within timely in
/-- A plan for valid transfers exists, and does what `Handover.Receives` says. -/
theorem receive_refines :
    ∃ next, replica.receive P context batch = .ok next ∧ next.Sound genesis S ∧
      Receives transferShape replica.view {r | r ∈ batch.records} next.view := by
  obtain ⟨accepted, filed, keyed, values⟩ := exists_withLate valid sound within timely
  have inside : ∀ r ∈ replica.late batch, r ∈ S := by
    intro r held
    exact withLate_valid (K := ∅) sound within (by simp) (.inl held)
  have conflict := hasConflicting_iff_contradictory valid values inside
  by_cases contradictory : Contradictory transferShape (replica.late batch)
  · have planned := planOwnershipMerge_ok.mpr ⟨accepted, _, true, filed,
      if_pos (conflict.mpr contradictory), rfl⟩
    refine ⟨_, bind_ok.mpr ⟨_, planned, rfl⟩, ⟨sound.authorities, ?_,
      orderedCatalog_nodup keyed⟩, ?_⟩
    · intro r held
      exact inside r ((values r).mp (mem_orderedCatalog.mp held))
    · refine (Receives.stalled contradictory).congr (View.ext rfl rfl ?_ ?_)
      · exact Set.ext fun r => ((mem_orderedCatalog).trans (values r)).symm
      · exact propext ⟨fun _ => rfl, fun _ => trivial⟩
  · have outcome : LoopOutcome genesis S replica batch
        (mergeLoop P (replica.mergeInput context batch)
          ⟨accepted, [], replica.credential.owner, replica.ownerEpoch⟩) :=
      run_spec (Walking genesis S replica batch) (recordsAhead (replica.mergeInput context batch)) _
        (fun state walking => mergeRound_spec valid sound within timely walking)
        (walking_start sound keyed values) (Nat.lt_succ_of_le (List.length_filter_le _ _))
    cases loop : mergeLoop P (replica.mergeInput context batch)
        ⟨accepted, [], replica.credential.owner, replica.ownerEpoch⟩ with
    | error e =>
      rw [loop] at outcome
      exact outcome.elim
    | ok result =>
      obtain ⟨final, conflicted⟩ := result
      rw [loop] at outcome
      obtain ⟨state, same, ended⟩ := outcome
      have planned := planOwnershipMerge_ok.mpr ⟨accepted, final, conflicted, filed,
        (if_neg (mt conflict.mp contradictory)).trans loop, rfl⟩
      obtain ⟨next, adopted, done⟩ := ended.refines context valid sound within contradictory
      rw [same] at planned
      exact ⟨_, bind_ok.mpr ⟨_, planned, bind_ok.mpr ⟨next, adopted, rfl⟩⟩, done⟩

end Batch

variable {P context genesis startMs S}

/-! ## Whole runs -/

/-- A replica that has merged nothing yet. -/
structure Replica.Starts (genesis : WorkspaceAuthority) (epoch : Nat) (replica : Replica) :
    Prop where
  owner : replica.credential.owner = genesis
  history : replica.credential.ownerHistory = []
  catalog : replica.credential.ownershipTransfers = []
  epoch : replica.ownerEpoch = epoch
  unconflicted : replica.conflicted = false

/-- The transfers of the batch with index `k`. -/
def batchAt (batches : List OwnershipBatch) (k : Nat) : Set WorkspaceOwnershipTransfer :=
  {r | ∃ batch, batches[k]? = some batch ∧ r ∈ batch.records}

/-- A replica receives the transfers of `S`, each at least once in the order of
epochs, and none ahead of an earlier one of its signer. -/
def ReceivesInOrder (S : List WorkspaceOwnershipTransfer) (batches : List OwnershipBatch) : Prop :=
  ∃ turn, Delivery transferShape {r | r ∈ S} batches.length (batchAt batches) turn

variable {epoch : Nat} (valid : ValidTransfers P context genesis startMs S)

variable (genesis S) in
/-- A run so far as a run of `Handover.Receives`. -/
def Traced (batches seen : List OwnershipBatch) (state : Replica) : Prop :=
  state.Sound genesis S ∧ ∃ views : Nat → View WorkspaceOwnershipTransfer String,
    views 0 = replica.view ∧ views seen.length = state.view ∧
      ∀ k < seen.length, Receives transferShape (views k) (batchAt batches k) (views (k + 1))

variable {batches : List OwnershipBatch}

include valid in
/-- A run never fails, and is a run of `Handover.Receives`. -/
theorem receiveAll_refines {replica : Replica} (starts : replica.Starts genesis epoch)
    (within : ∀ batch ∈ batches, startMs ≤ batch.nowMs ∧ ∀ r ∈ batch.records, r ∈ S) :
    ∃ final, replica.receiveAll P context batches = .ok final ∧
      Traced genesis S replica batches batches final := by
  apply foldlM_total (Traced genesis S replica batches)
  · refine ⟨⟨?_, ?_, ?_⟩, fun _ => replica.view, rfl, rfl, by simp⟩
    · intro a held
      rw [starts.owner, starts.history, List.mem_singleton] at held
      exact .inl held
    · simp [starts.catalog]
    · simp [starts.catalog]
  · rintro seen batch rest state split ⟨sound, views, first, last, steps⟩
    obtain ⟨timely, inside⟩ := within batch (by simp [split])
    obtain ⟨after, received, kept, step⟩ := receive_refines valid sound inside timely
    refine ⟨after, received, kept, fun k => if k ≤ seen.length then views k else after.view,
      by simpa using first, by simp, fun k below => ?_⟩
    have here : batchAt batches seen.length = {r | r ∈ batch.records} := by
      simp [batchAt, split]
    rw [List.length_append, List.length_singleton] at below
    rcases Nat.lt_succ_iff_lt_or_eq.mp below with earlier | rfl
    · simpa [earlier.le, Nat.succ_le_of_lt earlier] using steps k earlier
    · simpa [last, here, Nat.not_succ_le_self] using step

include valid in
/-- Where a replica ends that has received all transfers: at the end of their
chain, or at a conflict, if the chain forks. -/
theorem receiveAll_ends {replica : Replica}
    (lawful : Lawful transferShape {r | r ∈ S} ⟨genesis.personId, epoch⟩)
    (starts : replica.Starts genesis epoch) (timely : ∀ batch ∈ batches, startMs ≤ batch.nowMs)
    (delivery : ReceivesInOrder S batches) :
    ∃ final, replica.receiveAll P context batches = .ok final ∧
      ((final.conflicted = true ∧ ∃ x, Reach transferShape {r | r ∈ S} ⟨genesis.personId, epoch⟩ x ∧
          Fork transferShape {r | r ∈ S} x) ∨
        (final.conflicted = false ∧
          (∀ x, Reach transferShape {r | r ∈ S} ⟨genesis.personId, epoch⟩ x →
            ¬ Fork transferShape {r | r ∈ S} x) ∧
          Reach transferShape {r | r ∈ S} ⟨genesis.personId, epoch⟩ final.view.tenure ∧
          ∀ n, ¬ Due transferShape {r | r ∈ S} final.view.tenure n)) := by
  obtain ⟨turn, delivery⟩ := delivery
  have within : ∀ batch ∈ batches, startMs ≤ batch.nowMs ∧ ∀ r ∈ batch.records, r ∈ S := by
    intro batch held
    obtain ⟨k, below, rfl⟩ := List.mem_iff_getElem.mp held
    exact ⟨timely _ held, fun r inBatch =>
      delivery.within k below ⟨_, List.getElem?_eq_getElem below, inBatch⟩⟩
  obtain ⟨final, ran, _, views, first, last, steps⟩ := receiveAll_refines valid starts within
  have start : views 0 = ⟨⟨genesis.personId, epoch⟩, {genesis.personId}, ∅, False⟩ := by
    rw [first]
    refine View.ext (Tenure.ext ?_ starts.epoch) ?_ ?_ ?_
    · exact congrArg WorkspaceAuthority.personId starts.owner
    · simp [Replica.view, starts.owner, starts.history]
    · simp [Replica.view, starts.catalog]
    · simp [Replica.view, starts.unconflicted]
  refine ⟨final, ran, ?_⟩
  have outcome := receives_all delivery lawful start steps
  rw [last] at outcome
  rcases outcome with ⟨conflicted, fork⟩ | ⟨clear, rest⟩
  · exact .inl ⟨conflicted, fork⟩
  · exact .inr ⟨Bool.eq_false_iff.mpr clear, rest⟩

end Merging

/-- Two replicas that start from one genesis owner and receive all transfers of
a valid set end with one owner and epoch, or both with a conflict.  Transfers
may come in any batches, early and repeatedly, as long as each replica receives
every one at least once in the order of epochs and none ahead of an earlier one
of its signer. -/
theorem ownership_converges {P : Primitives} {context : MergeContext} {genesis : WorkspaceAuthority}
    {startMs epoch : Nat} {S : List WorkspaceOwnershipTransfer}
    (valid : ValidTransfers P context genesis startMs S)
    (lawful : Lawful transferShape {r | r ∈ S} ⟨genesis.personId, epoch⟩) {left right : Replica}
    (startsLeft : left.Starts genesis epoch) (startsRight : right.Starts genesis epoch)
    {toLeft toRight : List OwnershipBatch} (timelyLeft : ∀ batch ∈ toLeft, startMs ≤ batch.nowMs)
    (timelyRight : ∀ batch ∈ toRight, startMs ≤ batch.nowMs)
    (inOrderLeft : ReceivesInOrder S toLeft) (inOrderRight : ReceivesInOrder S toRight) :
    ∃ a b, left.receiveAll P context toLeft = .ok a ∧
      right.receiveAll P context toRight = .ok b ∧
      ((a.conflicted = true ∧ b.conflicted = true) ∨ (a.conflicted = false ∧ b.conflicted = false ∧
          a.credential.owner.personId = b.credential.owner.personId ∧
          a.ownerEpoch = b.ownerEpoch)) := by
  obtain ⟨a, ranLeft, endLeft⟩ := receiveAll_ends valid lawful startsLeft timelyLeft inOrderLeft
  obtain ⟨b, ranRight, endRight⟩ :=
    receiveAll_ends valid lawful startsRight timelyRight inOrderRight
  refine ⟨a, b, ranLeft, ranRight, ?_⟩
  rcases endLeft with ⟨conflictA, x, toX, fork⟩ | ⟨clearA, noFork, toA, lastA⟩
  · rcases endRight with ⟨conflictB, _⟩ | ⟨_, noFork, _⟩
    · exact .inl ⟨conflictA, conflictB⟩
    · exact absurd fork (noFork x toX)
  · rcases endRight with ⟨_, x, toX, fork⟩ | ⟨clearB, _, toB, lastB⟩
    · exact absurd fork (noFork x toX)
    · have same := toA.end_unique toB lastA lastB
      exact .inr ⟨clearA, clearB, congrArg Tenure.holder same, congrArg Tenure.since same⟩

/-! ## Two replicas to evaluate -/

namespace Sample

def context : MergeContext := ⟨"workspace", ∅⟩

/-- A replica of the workspace that the first person created. -/
def replica : Replica :=
  ⟨keyId 0, ⟨authority 0, 1, [], none, [], none, [], [], time⟩, 1, false⟩

def firstTransfer : WorkspaceOwnershipTransfer := transfer 0 1 2 1 ["head"]
def secondTransfer : WorkspaceOwnershipTransfer := transfer 1 2 3 2 ["head"]

theorem replica_starts : replica.Starts (authority 0) 1 :=
  ⟨rfl, rfl, rfl, rfl, rfl⟩

set_option maxRecDepth 100000

theorem transfers_valid :
    ValidTransfers primitives context (authority 0) 0 [firstTransfer, secondTransfer] := by
  have first : verifyWorkspaceOwnershipTransfer primitives firstTransfer "workspace" (authority 0)
      1 0 = .ok () := by decide
  have second : verifyWorkspaceOwnershipTransfer primitives secondTransfer "workspace"
      firstTransfer.payload.nextAuthority 2 0 = .ok () := by decide
  have apart : keyId 0 ≠ keyId 1 ∧ keyId 0 ≠ keyId 2 ∧ keyId 1 ≠ keyId 2 := by decide
  refine ⟨by decide, by decide, ?_, by decide, by decide +kernel, by decide +kernel,
    by decide, by decide +kernel⟩
  intro r inSet a known signer
  simp only [List.mem_cons, List.not_mem_nil, or_false] at inSet
  simp only [Authorities, List.mem_cons, List.not_mem_nil, or_false, exists_eq_or_imp,
    exists_eq_left] at known
  rcases inSet with rfl | rfl <;> rcases known with rfl | rfl | rfl
  · exact first
  · exact absurd signer.symm apart.1
  · exact absurd signer.symm apart.2.1
  · exact absurd signer apart.1
  · exact second
  · exact absurd signer.symm apart.2.2

theorem transfers_lawful :
    Lawful transferShape {r | r ∈ [firstTransfer, secondTransfer]} ⟨(authority 0).personId, 1⟩ := by
  intro r left s right contradict
  have none : ∀ r ∈ [firstTransfer, secondTransfer], ∀ s ∈ [firstTransfer, secondTransfer],
      r.payload.epoch = s.payload.epoch → r = s := by decide
  rw [none r left s right contradict.2.1] at contradict
  exact absurd rfl contradict.2.2

theorem one_batch : ReceivesInOrder [firstTransfer, secondTransfer]
    [⟨0, [firstTransfer, secondTransfer]⟩] := by
  refine ⟨fun _ => 0, ?_, ?_, fun _ _ _ _ _ => le_refl 0, fun _ _ _ _ _ _ _ _ => Nat.zero_le _⟩
  · rintro (_ | k) below r ⟨batch, found, held⟩
    · obtain rfl := Option.some.inj found
      exact held
    · cases found
  · intro r held
    exact ⟨by simp, _, rfl, held⟩

theorem early_batches : ReceivesInOrder [firstTransfer, secondTransfer]
    [⟨0, [secondTransfer]⟩, ⟨0, [firstTransfer]⟩, ⟨0, [secondTransfer]⟩] := by
  have within : ∀ k < 3, batchAt [⟨0, [secondTransfer]⟩, ⟨0, [firstTransfer]⟩,
      ⟨0, [secondTransfer]⟩] k ⊆ {r | r ∈ [firstTransfer, secondTransfer]} := by
    rintro (_ | _ | _ | k) below r ⟨batch, found, held⟩
    · obtain rfl := Option.some.inj found
      exact List.mem_cons_of_mem _ held
    · obtain rfl := Option.some.inj found
      exact List.mem_cons.mpr (.inl (List.mem_singleton.mp held))
    · obtain rfl := Option.some.inj found
      exact List.mem_cons_of_mem _ held
    · cases found
  have signers : ∀ r ∈ [firstTransfer, secondTransfer], ∀ s ∈ [firstTransfer, secondTransfer],
      s.payload.fromOwnerPersonId = r.payload.fromOwnerPersonId → s = r := by decide
  refine ⟨fun r => r.payload.epoch - 1, within, ?_, ?_, ?_⟩
  · intro r held
    simp only [Set.mem_ofPred_eq, List.mem_cons, List.not_mem_nil, or_false] at held
    rcases held with rfl | rfl
    · exact ⟨by decide, ⟨0, [firstTransfer]⟩, rfl, by simp⟩
    · exact ⟨by decide, ⟨0, [secondTransfer]⟩, rfl, by simp⟩
  · intro r _ s _ before
    exact Nat.sub_le_sub_right before.le 1
  · intro k below r held s inSet signer before
    rw [signers r (within k below held) s inSet signer] at before
    exact absurd before (lt_irrefl _)

/-- Owner, epoch and conflict after a run. -/
def outcome (batches : List (List WorkspaceOwnershipTransfer)) :
    Except String (String × Nat × Bool) := do
  let final ← replica.receiveAll primitives context (batches.map fun records => ⟨0, records⟩)
  .ok (final.credential.owner.personId, final.ownerEpoch, final.conflicted)

end Sample

open Sample

/-- One replica receives two transfers at once, the other the second one early
and then both in order. -/
theorem sample_replicas_converge :
    ∃ a b, replica.receiveAll primitives context [⟨0, [firstTransfer, secondTransfer]⟩] = .ok a ∧
      replica.receiveAll primitives context
        [⟨0, [secondTransfer]⟩, ⟨0, [firstTransfer]⟩, ⟨0, [secondTransfer]⟩] = .ok b ∧
      ((a.conflicted = true ∧ b.conflicted = true) ∨ (a.conflicted = false ∧ b.conflicted = false ∧
          a.credential.owner.personId = b.credential.owner.personId ∧
          a.ownerEpoch = b.ownerEpoch)) :=
  ownership_converges transfers_valid transfers_lawful replica_starts
    replica_starts (by simp) (by simp) one_batch early_batches

set_option maxRecDepth 100000

/-- Without an order the outcome depends on the arrival.  A transfer that comes
before the one that made its signer the owner is not kept, and of two transfers
that one owner signs for different epochs the one that comes first is followed;
neither is a conflict.  All four transfers are valid. -/
theorem arrival_decides_owner :
    (verifyWorkspaceOwnershipTransfer primitives (transfer 0 1 2 1 ["head"])
        "workspace" (authority 0) 1 0 = .ok () ∧
      verifyWorkspaceOwnershipTransfer primitives (transfer 1 2 3 2 ["head"])
        "workspace" (authority 1) 2 0 = .ok () ∧
      outcome [[transfer 0 1 2 1 ["head"]], [transfer 1 2 3 2 ["head"]]] = .ok (keyId 2, 3, false) ∧
      outcome [[transfer 1 2 3 2 ["head"]], [transfer 0 1 2 1 ["head"]]] =
        .ok (keyId 1, 2, false)) ∧
    verifyWorkspaceOwnershipTransfer primitives (transfer 0 1 5 1 ["head"])
        "workspace" (authority 0) 1 0 = .ok () ∧
      verifyWorkspaceOwnershipTransfer primitives (transfer 0 2 3 2 ["head"])
        "workspace" (authority 0) 1 0 = .ok () ∧
      outcome [[transfer 0 1 5 1 ["head"]], [transfer 0 2 3 2 ["head"]]] = .ok (keyId 1, 5, false) ∧
      outcome [[transfer 0 2 3 2 ["head"]], [transfer 0 1 5 1 ["head"]]] =
        .ok (keyId 2, 3, false) := by
  decide

end MetaMesh
