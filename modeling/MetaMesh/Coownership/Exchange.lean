import MetaMesh.Coownership.Convergence

/-!
# Two replicas exchange their ledgers

Each replica merges the other's ledger into its own.  The record lists and the
approval lists of the two results are the same: both are the sorted union.  The
genesis envelope is not part of that union.  `mergeCoownershipLedgers` keeps the
incoming one, so the two replicas swap their envelopes and store the same ledger
exactly when the envelopes were the same before; `merge_symmetric_iff` says so
and `exchange_differs` is a case in which they differ.
-/

namespace MetaMesh

open Fallible

section Exchange

variable {P : Primitives}

theorem approvalKey_injective : Function.Injective approvalKey := by
  intro a b same
  have keys := toLex.injective same
  rcases a with ⟨signer, signature⟩
  simp only [Prod.mk.injEq] at keys
  rw [strKey_injective keys.1, strKey_injective keys.2]

/-- Approval lists with the same members sort to the same list. -/
theorem sortApprovals_eq {left right : List CoownedApproval} (leftNodup : left.Nodup)
    (rightNodup : right.Nodup) (same : ∀ approval, approval ∈ left ↔ approval ∈ right) :
    sortApprovals left = sortApprovals right :=
  sortBy_eq_of_perm approvalKey ((List.perm_ext_iff_of_nodup leftNodup rightNodup).mpr same)
    fun _ _ _ _ => @approvalKey_injective _ _

section

variable {T : Type} {left right : List (CoownedRecord T)} (tidyLeft : Tidy left)
  (tidyRight : Tidy right) (content : recordContent left = recordContent right)
include tidyLeft tidyRight content

/-- A tidy list of records is determined by its content, up to the order of its
records and of their approvals. -/
theorem sorted_record_mem {sorted : CoownedRecord T}
    (listed : sorted ∈ left.map fun record =>
      { record with approvals := sortApprovals record.approvals }) :
    sorted ∈ right.map fun record =>
      { record with approvals := sortApprovals record.approvals } := by
  obtain ⟨record, member, rfl⟩ := List.mem_map.mp listed
  have inContent : record.payload ∈ (recordContent left).1 := ⟨record, member, rfl⟩
  rw [content] at inContent
  obtain ⟨other, isOther, same⟩ := inContent
  have approvals := sortApprovals_eq (tidyRight.approvals other isOther)
    (tidyLeft.approvals record member) fun approval => by
      rw [tidyRight.mem_approvals_iff isOther, tidyLeft.mem_approvals_iff member, same, content]
  exact List.mem_map.mpr ⟨other, isOther, by rw [same, approvals]⟩

/-- Records of the same content sort to the same list, if their hashes differ. -/
theorem sortRecords_eq [Serialize T]
    (hashes : (left.map fun record => hashOf P record.payload).Nodup) :
    sortRecords P left = sortRecords P right := by
  have nodup : ∀ records : List (CoownedRecord T), Tidy records →
      (records.map fun record => { record with
        approvals := sortApprovals record.approvals }).Nodup := by
    intro records tidy
    apply List.Nodup.of_map CoownedRecord.payload
    rw [List.map_map]
    exact tidy.payloads
  apply sortBy_eq_of_perm
  · rw [List.perm_ext_iff_of_nodup (nodup left tidyLeft) (nodup right tidyRight)]
    exact fun sorted => ⟨sorted_record_mem tidyLeft tidyRight content,
      sorted_record_mem tidyRight tidyLeft content.symm⟩
  · intro a inLeft b inRight same
    obtain ⟨record, member, rfl⟩ := List.mem_map.mp inLeft
    obtain ⟨record', member', rfl⟩ := List.mem_map.mp inRight
    rw [List.inj_on_of_nodup_map hashes member member' (strKey_injective same)]

end

theorem tidy_of_buildGraph {ledger : CoownershipLedger} {graph : Graph}
    (built : buildGraph P ledger = .ok graph) :
    Tidy ledger.transitions ∧ Tidy ledger.resolutions := by
  obtain ⟨-, -, -, -, distinct, -⟩ := buildGraph_ok.mp built
  exact tidy_approved.mp (tidy_of_checked distinct (buildGraph_checked built))

theorem map_hashOf_sortRecords {T : Type} [Serialize T] (records : List (CoownedRecord T)) :
    ((sortRecords P records).map fun record => hashOf P record.payload).Perm
      (records.map fun record => hashOf P record.payload) := by
  refine ((sortBy_perm _ _).map _).trans (List.Perm.of_eq ?_)
  rw [List.map_map]
  rfl

theorem sortRecords_foldl {T : Type} [Serialize T] [DecidableEq T]
    {left right : List (CoownedRecord T)} (tidyLeft : Tidy left) (tidyRight : Tidy right)
    (hashes : ((sortRecords P (left.foldl (fun records record => mergeRecord record records)
      right)).map fun record => hashOf P record.payload).Nodup) :
    sortRecords P (left.foldl (fun records record => mergeRecord record records) right) =
      sortRecords P (right.foldl (fun records record => mergeRecord record records) left) := by
  apply sortRecords_eq (tidyLeft.foldl tidyRight) (tidyRight.foldl tidyLeft)
  · rw [recordContent_foldl, recordContent_foldl, sup_comm]
  · exact (map_hashOf_sortRecords _).nodup_iff.mp hashes

/-- Pooling is symmetric in everything but the genesis envelope. -/
theorem pooledLedger_symm {left right : CoownershipLedger}
    (leftTransitions : Tidy left.transitions) (leftResolutions : Tidy left.resolutions)
    (rightTransitions : Tidy right.transitions) (rightResolutions : Tidy right.resolutions)
    (distinct : (((pooledLedger P left right).entries P).map Pending.id).Nodup)
    (genesis : left.genesis = right.genesis) :
    pooledLedger P left right = pooledLedger P right left := by
  rw [CoownershipLedger.entries, List.map_append, List.map_map, List.map_map,
    List.nodup_append] at distinct
  obtain ⟨transitionHashes, resolutionHashes, -⟩ := distinct
  exact (CoownershipLedger.mk.injEq ..).mpr ⟨genesis.symm,
    sortRecords_foldl leftTransitions rightTransitions transitionHashes,
    sortRecords_foldl leftResolutions rightResolutions resolutionHashes⟩

/-- Where one merge of two ledgers returns, the merge the other way round returns
the same ledger if and only if the ledgers had the same genesis envelope. -/
theorem merge_symmetric_iff {left right merged : CoownershipLedger}
    (merges : mergeCoownershipLedgers P (some left) right = .ok merged) :
    mergeCoownershipLedgers P (some right) left = .ok merged ↔ left.genesis = right.genesis := by
  obtain ⟨leftGraph, rightGraph, graph, builtLeft, builtRight, sameHash, built, rfl⟩ :=
    merge_ok merges
  constructor
  · intro reversed
    obtain ⟨-, -, -, -, -, -, -, same⟩ := merge_ok reversed
    exact (congrArg CoownershipLedger.genesis same).symm
  · intro genesis
    obtain ⟨leftTransitions, leftResolutions⟩ := tidy_of_buildGraph builtLeft
    obtain ⟨rightTransitions, rightResolutions⟩ := tidy_of_buildGraph builtRight
    obtain ⟨-, -, -, -, distinct, -⟩ := buildGraph_ok.mp built
    have symm := pooledLedger_symm leftTransitions leftResolutions rightTransitions
      rightResolutions distinct genesis
    rw [symm] at built ⊢
    unfold mergeCoownershipLedgers
    simp only [builtLeft, builtRight, built, ok_bind, refuse_bind_ok, ne_eq, sameHash,
      not_true_eq_false, not_false_eq_true, true_and]

end Exchange

namespace Sample

def plainLedger : CoownershipLedger := ⟨genesis, [], []⟩

end Sample

open Sample

set_option maxRecDepth 100000

theorem merge_symmetric_sample :
    mergeCoownershipLedgers primitives (some plainLedger) extendedLedger = .ok extendedLedger ∧
      (mergeCoownershipLedgers primitives (some extendedLedger) plainLedger =
        .ok extendedLedger ↔ plainLedger.genesis = extendedLedger.genesis) := by
  exact (and_iff_left_of_imp fun merges => merge_symmetric_iff merges).mpr (by decide)

/-- The same genesis payload, signed by the creator's root key in one ledger and
by a certified device in the other: both are valid, both merges return, and the
replicas end with different ledgers. -/
theorem exchange_differs :
    ∃ left right merged merged' validated,
      validateCoownershipLedger primitives left = .ok validated ∧
      validateCoownershipLedger primitives right = .ok validated ∧
      left.genesis.payload = right.genesis.payload ∧
      mergeCoownershipLedgers primitives (some left) right = .ok merged ∧
      mergeCoownershipLedgers primitives (some right) left = .ok merged' ∧
      merged ≠ merged' := by
  refine ⟨plainLedger, deviceSignedLedger, deviceSignedLedger,
    plainLedger, ⟨"scope", .authorized ⟨"scope",
      hashOf primitives genesis.payload, 1, [owner 0 1], .majority⟩⟩,
    ?_, ?_, rfl, ?_, ?_, ?_⟩
  · decide
  · decide
  · decide
  · decide
  · decide

end MetaMesh
