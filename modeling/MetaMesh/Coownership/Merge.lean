import Mathlib.Order.ConditionallyCompleteLattice.Basic
import Mathlib.Data.Prod.Lex
import Mathlib.Data.Set.Lattice
import MetaMesh.Coownership.Chain

/-!
# The merge of ledgers

`merge_coownership_ledgers` and its helpers, and what they keep.  A ledger's
content is the set of its certificates and the set of its approvals; the merge
of two ledgers has the join of their contents, and each certificate once.
-/

namespace MetaMesh

open Fallible

/-! ## The functions -/

def approvalKey (approval : CoownedApproval) : List Nat ×ₗ List Nat :=
  toLex (strKey approval.signerKeyId, strKey approval.signature)

def sortApprovals (approvals : List CoownedApproval) : List CoownedApproval :=
  sortBy approvalKey approvals

def mergeApprovals (current incoming : List CoownedApproval) : List CoownedApproval :=
  sortApprovals (incoming.foldl
    (fun current approval => if approval ∈ current then current else current ++ [approval])
    current)

/-- The body of `merge_transition` and `merge_resolution`. -/
def mergeRecord {T : Type} [DecidableEq T] (incoming : CoownedRecord T) :
    List (CoownedRecord T) → List (CoownedRecord T)
  | [] => [incoming]
  | record :: records =>
    if record.payload = incoming.payload then
      { record with approvals := mergeApprovals record.approvals incoming.approvals } :: records
    else record :: mergeRecord incoming records

def mergeTransition (records : List CoownedTransition) (incoming : CoownedTransition) :
    List CoownedTransition :=
  mergeRecord incoming records

def mergeResolution (records : List CoownedResolution) (incoming : CoownedResolution) :
    List CoownedResolution :=
  mergeRecord incoming records

section Merge

variable (P : Primitives)

def sortRecords {T : Type} [Serialize T] (records : List (CoownedRecord T)) :
    List (CoownedRecord T) :=
  sortBy (fun record => strKey (hashOf P record.payload))
    (records.map fun record => { record with approvals := sortApprovals record.approvals })

def sortLedger (ledger : CoownershipLedger) : CoownershipLedger :=
  { ledger with
    transitions := sortRecords P ledger.transitions
    resolutions := sortRecords P ledger.resolutions }

/-- The ledger that `mergeCoownershipLedgers` checks at its end. -/
def pooledLedger (current incoming : CoownershipLedger) : CoownershipLedger :=
  sortLedger P { incoming with
    transitions := current.transitions.foldl mergeTransition incoming.transitions
    resolutions := current.resolutions.foldl mergeResolution incoming.resolutions }

/-- The pooled ledger, if both sides and it are valid. -/
def mergeCoownershipLedgers (current : Option CoownershipLedger)
    (incoming : CoownershipLedger) : Except String CoownershipLedger :=
  match current with
  | none => do
      let _ ← buildGraph P incoming
      .ok (sortLedger P incoming)
  | some current => do
      let left ← buildGraph P current
      let right ← buildGraph P incoming
      refuse (left.genesisHash ≠ right.genesisHash) "Co-ownership genesis cannot change"
      let _ ← buildGraph P (pooledLedger P current incoming)
      .ok (pooledLedger P current incoming)

end Merge

/-! ## Approvals -/

variable {current incoming : List CoownedApproval}

theorem mem_mergeApprovals {approval : CoownedApproval} :
    approval ∈ mergeApprovals current incoming ↔ approval ∈ current ∨ approval ∈ incoming := by
  unfold mergeApprovals sortApprovals
  induction incoming generalizing current with
  | nil => simp
  | cons first rest ih =>
    rw [List.foldl_cons, ih]
    split
    · next known =>
      have absorbed : approval = first → approval ∈ current := by
        rintro rfl
        exact known
      rw [List.mem_cons, ← or_assoc, or_iff_left_of_imp absorbed]
    · simp [or_assoc]

theorem nodup_mergeApprovals (distinct : current.Nodup) :
    (mergeApprovals current incoming).Nodup := by
  unfold mergeApprovals sortApprovals
  rw [(sortBy_perm _ _).nodup_iff]
  induction incoming generalizing current with
  | nil => exact distinct
  | cons first rest ih =>
    rw [List.foldl_cons]
    split
    · exact ih distinct
    · next unknown =>
      apply ih
      rw [List.nodup_append]
      refine ⟨distinct, List.nodup_singleton _, ?_⟩
      rintro a old b new rfl
      exact unknown (List.mem_singleton.mp new ▸ old)

/-! ## Lists of records -/

section Records

variable {T : Type}

/-- The payloads of a list of records, and which approvals stand on each. -/
def recordContent (records : List (CoownedRecord T)) : Set T × Set (T × CoownedApproval) :=
  ({ payload | ∃ record ∈ records, record.payload = payload },
    { pair | ∃ record ∈ records, record.payload = pair.1 ∧ pair.2 ∈ record.approvals })

/-- Each payload once, each of its approvals once. -/
structure Tidy (records : List (CoownedRecord T)) : Prop where
  payloads : (records.map CoownedRecord.payload).Nodup
  approvals : ∀ record ∈ records, record.approvals.Nodup

theorem Tidy.mem_approvals_iff {records : List (CoownedRecord T)} (tidy : Tidy records)
    {record : CoownedRecord T} (member : record ∈ records) {approval : CoownedApproval} :
    approval ∈ record.approvals ↔ (record.payload, approval) ∈ (recordContent records).2 := by
  constructor
  · intro listed
    exact ⟨record, member, rfl, listed⟩
  · intro ⟨holder, isHolder, payload, held⟩
    rwa [List.inj_on_of_nodup_map tidy.payloads isHolder member payload] at held

theorem recordContent_nil : recordContent ([] : List (CoownedRecord T)) = ⊥ := by
  apply Prod.ext
  · simp [recordContent]
  · simp [recordContent]

theorem recordContent_cons (record : CoownedRecord T) (records : List (CoownedRecord T)) :
    recordContent (record :: records) = recordContent [record] ⊔ recordContent records := by
  apply Prod.ext
  · ext payload
    simp [recordContent, eq_comm]
  · ext pair
    simp [recordContent]

variable [DecidableEq T]

theorem recordContent_mergeRecord (incoming : CoownedRecord T) (records : List (CoownedRecord T)) :
    recordContent (mergeRecord incoming records) =
      recordContent records ⊔ recordContent [incoming] := by
  induction records with
  | nil => rw [mergeRecord, recordContent_nil, bot_sup_eq]
  | cons record records ih =>
    unfold mergeRecord
    split
    · next same =>
      have pooled : recordContent [{ record with
            approvals := mergeApprovals record.approvals incoming.approvals }] =
          recordContent [record] ⊔ recordContent [incoming] := by
        apply Prod.ext
        · simp [recordContent, same]
        · ext pair
          simp only [recordContent, List.mem_singleton, exists_eq_left, mem_mergeApprovals,
            same, Prod.snd_sup, Set.sup_eq_union, Set.mem_union, Set.mem_ofPred_eq]
          exact and_or_left
      rw [recordContent_cons _ records, recordContent_cons record records, pooled, sup_right_comm]
    · rw [recordContent_cons _ (mergeRecord incoming records), ih,
        recordContent_cons record records, sup_assoc]

theorem recordContent_foldl (current incoming : List (CoownedRecord T)) :
    recordContent (current.foldl (fun records record => mergeRecord record records) incoming) =
      recordContent current ⊔ recordContent incoming := by
  induction current generalizing incoming with
  | nil => rw [List.foldl_nil, recordContent_nil, bot_sup_eq]
  | cons record current ih =>
    rw [List.foldl_cons, ih, recordContent_mergeRecord, recordContent_cons record current,
      sup_comm (recordContent incoming), ← sup_assoc, sup_comm (recordContent current)]

variable {incoming : CoownedRecord T} {records : List (CoownedRecord T)}

theorem payload_mem_mergeRecord {payload : T} :
    payload ∈ (mergeRecord incoming records).map CoownedRecord.payload ↔
      payload ∈ records.map CoownedRecord.payload ∨ payload = incoming.payload := by
  induction records with
  | nil => simp [mergeRecord]
  | cons record records ih =>
    unfold mergeRecord
    split
    · next same => simp [← same, or_comm]
    · simp only [List.map_cons, List.mem_cons, ih, or_assoc]

theorem Tidy.mergeRecord (tidy : Tidy records) (distinct : incoming.approvals.Nodup) :
    Tidy (mergeRecord incoming records) := by
  induction records with
  | nil => exact ⟨List.nodup_singleton _, by simpa [MetaMesh.mergeRecord] using distinct⟩
  | cons record records ih =>
    obtain ⟨payloads, approvals⟩ := tidy
    obtain ⟨ownApprovals, restApprovals⟩ := List.forall_mem_cons.mp approvals
    obtain ⟨unseen, restPayloads⟩ := List.nodup_cons.mp payloads
    unfold MetaMesh.mergeRecord
    split
    · refine ⟨payloads, List.forall_mem_cons.mpr ⟨nodup_mergeApprovals ownApprovals, restApprovals⟩⟩
    · next other =>
      have rest := ih ⟨restPayloads, restApprovals⟩
      refine ⟨List.nodup_cons.mpr ⟨fun member => ?_, rest.payloads⟩,
        List.forall_mem_cons.mpr ⟨ownApprovals, rest.approvals⟩⟩
      exact (payload_mem_mergeRecord.mp member).elim unseen other

theorem Tidy.foldl {current incoming : List (CoownedRecord T)} (left : Tidy current)
    (right : Tidy incoming) :
    Tidy (current.foldl (fun records record => MetaMesh.mergeRecord record records) incoming) := by
  have approvals := left.approvals
  clear left
  induction current generalizing incoming with
  | nil => exact right
  | cons record current ih =>
    obtain ⟨own, rest⟩ := List.forall_mem_cons.mp approvals
    exact ih (right.mergeRecord own) rest

end Records

/-! ## Another order -/

section Reordering

variable {T : Type} {records others : List (CoownedRecord T)}

/-- A record with its approvals in no order. -/
def CoownedRecord.unordered (record : CoownedRecord T) : T × Multiset CoownedApproval :=
  (record.payload, record.approvals)

/-- The same records in some order, each with its approvals in some order. -/
def Reordered (records others : List (CoownedRecord T)) : Prop :=
  (records.map CoownedRecord.unordered).Perm (others.map CoownedRecord.unordered)

theorem reordered_sortRecords [Serialize T] (P : Primitives) (records : List (CoownedRecord T)) :
    Reordered records (sortRecords P records) := by
  unfold Reordered sortRecords
  refine List.Perm.trans (List.Perm.of_eq ?_) ((sortBy_perm _ _).map _).symm
  rw [List.map_map]
  apply List.map_congr_left
  intro record _
  exact Prod.ext rfl (Quot.sound (sortBy_perm _ _).symm)

namespace Reordered

variable (reordered : Reordered records others)

include reordered

theorem exists_source {record : CoownedRecord T} (member : record ∈ others) :
    ∃ source ∈ records, source.payload = record.payload ∧
      source.approvals.Perm record.approvals := by
  obtain ⟨source, isRecord, same⟩ :=
    List.mem_map.mp (reordered.mem_iff.mpr (List.mem_map_of_mem member))
  obtain ⟨payload, approvals⟩ := Prod.mk.inj same
  exact ⟨source, isRecord, payload, Quotient.exact approvals⟩

theorem length_eq : records.length = others.length := by
  simpa using List.Perm.length_eq reordered

theorem recordContent_le : recordContent others ≤ recordContent records := by
  constructor
  · rintro _ ⟨record, member, rfl⟩
    obtain ⟨source, isRecord, payload, -⟩ := reordered.exists_source member
    exact ⟨source, isRecord, payload⟩
  · rintro _ ⟨record, member, payload, listed⟩
    obtain ⟨source, isRecord, same, approvals⟩ := reordered.exists_source member
    exact ⟨source, isRecord, same.trans payload, approvals.mem_iff.mpr listed⟩

theorem tidy (tidy : Tidy records) : Tidy others := by
  refine ⟨?_, fun record member => ?_⟩
  · have payloads := reordered.map Prod.fst
    rw [List.map_map, List.map_map] at payloads
    exact payloads.nodup_iff.mp tidy.payloads
  · obtain ⟨source, isRecord, -, approvals⟩ := reordered.exists_source member
    exact approvals.nodup_iff.mp (tidy.approvals source isRecord)

/-- The order does not enter the length of the text. -/
theorem length_toVec [Serialize T] :
    (toValue records).toVec.length = (toValue others).toVec.length := by
  have text : ∀ r : CoownedRecord T, (toValue r).toVec.length =
      ([("payload", toValue r.payload), ("approvals", toValue r.approvals)].map fun field =>
        (quote field.1).length + 1 + field.2.toVec.length).sum + 3 :=
    fun r => length_toVec_object _
  have factors : (fun r : CoownedRecord T => (toValue r).toVec.length).FactorsThrough
      CoownedRecord.unordered := by
    intro a b same
    obtain ⟨payload, approvals⟩ := Prod.mk.inj same
    have length : (toValue a.approvals).toVec.length = (toValue b.approvals).toVec.length :=
      length_toVec_array (((Quotient.exact approvals).map _).map _)
    simp only [text, List.map_cons, payload, length]
  have lengths := reordered.map (Function.extend CoownedRecord.unordered
    (fun r => (toValue r).toVec.length) fun _ => 0)
  apply length_toVec_array
  simpa only [List.map_map, Function.comp_def, factors.extend_apply] using lengths

end Reordered

end Reordering

end MetaMesh
