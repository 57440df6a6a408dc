import MetaMesh.Coownership.Approvals
import MetaMesh.Coownership.Graph
import MetaMesh.Lib.Lineage

/-!
# What the graph of a ledger is

`buildGraph` returns exactly on the ledgers that `Admissible` describes, and
the graph it returns is a function of the ledger's records as a set: `Reads`
says what each table holds.  The criterion has no order in it.  A record is
supported when the lineage of the ledger derives a certificate at its parent
and the record passes its checks against that certificate.

Both directions go through the visit of the parents.  `Recorded` says what the
tables hold once some records are done, `Queued` how the queue and the pending
groups account for the others.
-/

namespace MetaMesh

open Fallible Lineage

section Spec

variable (P : Primitives)

/-- `payload_hash(..).unwrap_or_default()`. -/
def hashOf {T : Type} [Serialize T] (payload : T) : String :=
  (payloadHash P payload).toOption.getD ""

/-- The records of a ledger in filing order. -/
def CoownershipLedger.entries (ledger : CoownershipLedger) : List Pending :=
  (ledger.transitions.map fun record => .transition (hashOf P record.payload) record) ++
    ledger.resolutions.map fun record => .resolution (hashOf P record.payload) record

def Pending.edge (entry : Pending) : Edge String Node :=
  ⟨entry.id, entry.parentHash, entry.node⟩

def edges (entries : List Pending) : Set (Edge String Node) :=
  { edge | ∃ entry ∈ entries, entry.edge = edge }

/-- The hashes of the records that name `parentHash` as their parent. -/
def childIds (entries : List Pending) (parentHash : String) : Finset String :=
  ((entries.filter (·.parentHash = parentHash)).map Pending.id).toFinset

theorem mem_childIds {entries : List Pending} {parentHash id : String} :
    id ∈ childIds entries parentHash ↔
      ∃ entry ∈ entries, entry.parentHash = parentHash ∧ entry.id = id := by
  simp [childIds, and_assoc]

/-- Every record passes its checks against the certificate at its parent. -/
def Supported (genesisHash : String) (genesis : Node) (entries : List Pending) : Prop :=
  ∀ entry ∈ entries, ∃ parent,
    Derived genesisHash genesis (edges entries) entry.parentHash parent ∧
      checkRecord P parent entry = .ok ()

/-- Every resolution names at least two siblings, all of them in the ledger. -/
def Evidenced (entries : List Pending) : Prop :=
  ∀ entry ∈ entries, ∀ payload, entry.resolution? = some payload →
    2 ≤ payload.conflictingCertificateHashes.toFinset.card ∧
    entry.id ∉ payload.conflictingCertificateHashes ∧
    payload.conflictingCertificateHashes.toFinset ⊆ childIds entries entry.parentHash

/-! ## Filing -/

variable {T : Type} [Serialize T] {filed : String → CoownedRecord T → Pending}
  {filing after : Filing}

theorem fileRecord_ok {record : CoownedRecord T} :
    fileRecord P filed filing record = .ok after ↔
      payloadHash P record.payload = .ok (hashOf P record.payload) ∧
      hashOf P record.payload ∉ filing.seenPayloads ∧
      after = ⟨insert (hashOf P record.payload) filing.seenPayloads,
        filing.pending.push (filed (hashOf P record.payload) record).parentHash
          (filed (hashOf P record.payload) record)⟩ := by
  unfold fileRecord hashOf
  cases payloadHash P record.payload with
  | error e => simp
  | ok id =>
    simp only [ok_bind, refuse_bind_ok, Except.toOption, Option.getD_some, true_and,
      Except.ok.injEq]
    exact and_congr_right fun _ => eq_comm

/-- What is filed once these records are. -/
abbrev Filing.of (entries : List Pending) : Filing :=
  ⟨(entries.map Pending.id).toFinset, Table.groupBy Pending.parentHash entries⟩

variable (filed) in
abbrev filedRecord (record : CoownedRecord T) : Pending :=
  filed (hashOf P record.payload) record

/-- Filing a list of records after `before`. -/
theorem fileRecords_loop (filed_id : ∀ id record, (filed id record).id = id)
    {records : List (CoownedRecord T)} {before : List Pending} {after : Filing} :
    records.foldlM (fileRecord P filed) (.of before) = .ok after ↔
      (∀ record ∈ records, payloadHash P record.payload = .ok (hashOf P record.payload)) ∧
      (∀ record ∈ records, hashOf P record.payload ∉ before.map Pending.id) ∧
      (records.map fun record => hashOf P record.payload).Nodup ∧
      after = .of (before ++ records.map (filedRecord P filed)) := by
  induction records generalizing before with
  | nil => simp [pure, Except.pure, eq_comm]
  | cons record records ih =>
    have grown : ⟨insert (hashOf P record.payload) (Filing.of before).seenPayloads,
        (Filing.of before).pending.push (filedRecord P filed record).parentHash
          (filedRecord P filed record)⟩ = Filing.of (before ++ [filedRecord P filed record]) := by
      rw [Filing.of, Filing.of, Table.groupBy_append_singleton]
      simp [filed_id]
    rw [List.foldlM_cons, bind_ok]
    simp only [fileRecord_ok, List.forall_mem_cons, List.map_cons, List.nodup_cons]
    constructor
    · rintro ⟨next, ⟨hashed, unseen, rfl⟩, rest⟩
      rw [grown] at rest
      obtain ⟨hashes, fresh, distinct, rfl⟩ := ih.mp rest
      simp only [List.map_append, List.map_cons, List.map_nil, List.mem_append,
        List.mem_singleton, filed_id, not_or] at fresh
      refine ⟨⟨hashed, hashes⟩, ⟨by simpa using unseen, fun r member => (fresh r member).1⟩,
        ⟨fun repeated => ?_, distinct⟩, by simp⟩
      obtain ⟨other, member, same⟩ := List.mem_map.mp repeated
      exact (fresh other member).2 same
    · rintro ⟨⟨hashed, hashes⟩, ⟨unseen, fresh⟩, ⟨other, distinct⟩, rfl⟩
      refine ⟨_, ⟨hashed, by simpa using unseen, rfl⟩, ?_⟩
      rw [grown]
      refine ih.mpr ⟨hashes, fun r member => ?_, distinct, by simp⟩
      simp only [List.map_append, List.map_cons, List.map_nil, List.mem_append,
        List.mem_singleton, filed_id, not_or]
      exact ⟨fresh r member, fun same => other (List.mem_map.mpr ⟨r, member, same⟩)⟩

/-- Every payload of the ledger is within the size its hash takes. -/
def Hashed (ledger : CoownershipLedger) : Prop :=
  (∀ record ∈ ledger.transitions, payloadHash P record.payload = .ok (hashOf P record.payload)) ∧
  ∀ record ∈ ledger.resolutions, payloadHash P record.payload = .ok (hashOf P record.payload)

theorem fileRecords_ok {ledger : CoownershipLedger} :
    fileRecords P ledger = .ok filing ↔
      Hashed P ledger ∧ ((ledger.entries P).map Pending.id).Nodup ∧
      filing = .of (ledger.entries P) := by
  have transitions := @fileRecords_loop P _ _ Pending.transition (fun _ _ => rfl)
    ledger.transitions []
  have resolutions := @fileRecords_loop P _ _ Pending.resolution (fun _ _ => rfl)
    ledger.resolutions (ledger.transitions.map fun record =>
      .transition (hashOf P record.payload) record)
  have start : (⟨∅, ∅⟩ : Filing) = .of [] := rfl
  unfold fileRecords
  rw [bind_ok, start]
  simp only [transitions, List.nil_append]
  have ids : ((ledger.entries P).map Pending.id).Nodup ↔
      (ledger.transitions.map fun record => hashOf P record.payload).Nodup ∧
      (ledger.resolutions.map fun record => hashOf P record.payload).Nodup ∧
      ∀ record ∈ ledger.resolutions, hashOf P record.payload ∉
        ledger.transitions.map fun record => hashOf P record.payload := by
    simp only [CoownershipLedger.entries, List.map_append, List.map_map, List.nodup_append]
    refine and_congr Iff.rfl (and_congr Iff.rfl ?_)
    constructor
    · intro apart record member repeated
      exact apart _ repeated _ (List.mem_map.mpr ⟨record, member, rfl⟩) rfl
    · rintro apart id left id' right rfl
      obtain ⟨record, member, rfl⟩ := List.mem_map.mp right
      exact apart record member left
  constructor
  · rintro ⟨middle, ⟨hashes, -, distinct, rfl⟩, rest⟩
    obtain ⟨hashes', fresh, distinct', rfl⟩ := resolutions.mp rest
    refine ⟨⟨hashes, hashes'⟩, ids.mpr ⟨distinct, distinct', fun r member => ?_⟩, rfl⟩
    simpa [Pending.id] using fresh r member
  · rintro ⟨⟨hashes, hashes'⟩, nodup, rfl⟩
    obtain ⟨distinct, distinct', fresh⟩ := ids.mp nodup
    exact ⟨_, ⟨hashes, by simp, distinct, rfl⟩, resolutions.mpr ⟨hashes', fun r member => by
      simpa [Pending.id] using fresh r member, distinct', rfl⟩⟩

end Spec

/-! ## The tables -/

/-- The tables once the records `done` are in them. -/
structure Visit.Recorded (genesisHash : String) (genesis : Node) (visit : Visit)
    (done : List Pending) : Prop where
  nodes : ∀ hash node, visit.nodes.lookup hash = some node ↔
    hash = genesisHash ∧ node = genesis ∨ ∃ entry ∈ done, entry.id = hash ∧ entry.node = node
  children : ∀ hash, (visit.children.lookup hash).getD ∅ = childIds done hash
  resolutions : ∀ hash payload, visit.resolutions.lookup hash = some payload ↔
    ∃ entry ∈ done, entry.id = hash ∧ entry.resolution? = some payload
  size : visit.nodes.keys.length = done.length + 1

section Recorded

variable {genesisHash parentHash : String} {genesis : Node} {visit : Visit}
  {done records : List Pending}

section

variable (recorded : visit.Recorded genesisHash genesis done)
include recorded

theorem Visit.Recorded.lookup_eq_none {hash : String} (other : hash ≠ genesisHash)
    (fresh : hash ∉ done.map Pending.id) : visit.nodes.lookup hash = none := by
  rw [Option.eq_none_iff_forall_ne_some]
  intro node found
  rcases (recorded.nodes hash node).mp found with ⟨same, -⟩ | ⟨entry, member, named, -⟩
  · exact other same
  · exact fresh (List.mem_map.mpr ⟨entry, member, named⟩)

theorem Visit.Recorded.add {entry : Pending} (fresh : entry.id ∉ done.map Pending.id)
    (other : entry.id ≠ genesisHash) :
    (visit.add entry.parentHash entry).Recorded genesisHash genesis (done ++ [entry]) where
  nodes hash node := by
    simp only [Visit.add, Table.lookup_insert_ite, List.mem_append, List.mem_singleton]
    by_cases here : hash = entry.id
    · subst here
      rw [if_pos rfl]
      constructor
      · intro same
        exact .inr ⟨entry, .inr rfl, rfl, by simpa using same⟩
      · rintro (⟨same, -⟩ | ⟨old, member | rfl, named, put⟩)
        · exact absurd same other
        · exact absurd (List.mem_map.mpr ⟨old, member, named⟩) fresh
        · exact congrArg some put
    · rw [if_neg here, recorded.nodes]
      refine or_congr_right ⟨?_, ?_⟩
      · rintro ⟨old, member, facts⟩
        exact ⟨old, .inl member, facts⟩
      · rintro ⟨old, member | rfl, named, put⟩
        · exact ⟨old, member, named, put⟩
        · exact absurd named.symm here
  children hash := by
    simp only [Visit.add, Table.lookup_insert_ite]
    ext id
    by_cases here : hash = entry.parentHash
    · subst here
      rw [if_pos rfl, Option.getD_some, recorded.children, Finset.mem_insert, mem_childIds,
        mem_childIds]
      grind
    · simp only [if_neg here, recorded.children, mem_childIds, List.mem_append, List.mem_singleton]
      grind
  resolutions hash payload := by
    cases kind : entry.resolution? with
    | none =>
      simp only [Visit.add, kind, Option.elim_none, recorded.resolutions, List.mem_append,
        List.mem_singleton]
      grind
    | some added =>
      simp only [Visit.add, kind, Option.elim_some, Table.lookup_insert_ite, List.mem_append,
        List.mem_singleton]
      by_cases here : hash = entry.id
      · subst here
        rw [if_pos rfl]
        constructor
        · intro same
          exact ⟨entry, .inr rfl, rfl, kind.trans same⟩
        · rintro ⟨old, member | rfl, named, put⟩
          · exact absurd (List.mem_map.mpr ⟨old, member, named⟩) fresh
          · exact kind.symm.trans put
      · rw [if_neg here, recorded.resolutions]
        grind
  size := by
    have absent := recorded.lookup_eq_none other fresh
    simp only [Visit.add, Table.length_keys_insert_of_fresh entry.node absent, recorded.size,
      List.length_append, List.length_singleton]

/-- A whole group of records. -/
theorem Visit.Recorded.addAll (grouped : ∀ entry ∈ records, entry.parentHash = parentHash)
    (distinct : ((done ++ records).map Pending.id).Nodup)
    (fresh : genesisHash ∉ records.map Pending.id) :
    (records.foldl (fun visit entry => visit.add parentHash entry) visit).Recorded
      genesisHash genesis (done ++ records) := by
  induction records generalizing visit done with
  | nil => simpa using recorded
  | cons entry records ih =>
    obtain ⟨rfl, grouped⟩ := List.forall_mem_cons.mp grouped
    have split : done ++ entry :: records = done ++ [entry] ++ records := by simp
    rw [split] at distinct ⊢
    refine ih (recorded.add ?_ fun same => fresh (by simp [same])) grouped distinct
      fun member => fresh (List.mem_cons_of_mem _ member)
    intro member
    rw [List.map_append, List.map_append, List.append_assoc] at distinct
    exact (List.disjoint_of_nodup_append distinct) member (by simp)

end

theorem visitRecords_ok {P : Primitives} {parent : Node} {next : Visit} :
    records.foldlM (visitRecord P parentHash parent) visit = .ok next ↔
      (∀ entry ∈ records, checkRecord P parent entry = .ok ()) ∧
      records.foldl (fun visit entry => visit.add parentHash entry) visit = next :=
  foldlM_checked_ok

theorem foldl_add_pending (records : List Pending) (visit : Visit) (parentHash : String) :
    (records.foldl (fun visit entry => visit.add parentHash entry) visit).pending =
      visit.pending := by
  induction records generalizing visit with
  | nil => rfl
  | cons entry records ih => exact ih _

theorem foldl_add_ready (records : List Pending) (visit : Visit) (parentHash : String) :
    (records.foldl (fun visit entry => visit.add parentHash entry) visit).ready =
      visit.ready ++ records.map Pending.id := by
  induction records generalizing visit with
  | nil => simp
  | cons entry records ih =>
    rw [List.foldl_cons, ih, List.map_cons, List.append_cons]
    rfl

end Recorded

/-! ## The visit of the parents -/

section Visiting

variable (P : Primitives) (genesisHash : String) (genesis : Node) (entries : List Pending)
  (visit : Visit)

/-- How the queue and the pending groups account for the records of a ledger
when `done` have been visited. -/
structure Visit.Queued (done : List Pending) : Prop where
  done_iff : ∀ entry, entry ∈ done ↔ entry ∈ entries ∧ visit.pending.lookup entry.parentHash = none
  groups : ∀ hash records, visit.pending.lookup hash = some records →
    records ≠ [] ∧ records = entries.filter (·.parentHash = hash)
  known : ∀ hash ∈ visit.ready, ∃ node, visit.nodes.lookup hash = some node
  derived : ∀ hash node, visit.nodes.lookup hash = some node →
    Derived genesisHash genesis (edges entries) hash node
  reached : ∀ hash node, visit.nodes.lookup hash = some node →
    hash ∈ visit.ready ∨ visit.pending.lookup hash = none
  checked : ∀ entry ∈ done, ∃ parent, visit.nodes.lookup entry.parentHash = some parent ∧
    checkRecord P parent entry = .ok ()
  distinct : (done.map Pending.id).Nodup

/-- Some records are done and the others are accounted for. -/
def Visit.Progress : Prop :=
  ∃ done, visit.Recorded genesisHash genesis done ∧
    visit.Queued P genesisHash genesis entries done

/-- A queue that ran empty, or a record without support. -/
def VisitOutcome : Except String Visit → Prop
  | .ok visit => visit.Progress P genesisHash genesis entries ∧ visit.ready = []
  | .error _ => ¬ Supported P genesisHash genesis entries

/-- What is still to be queued or taken from the queue. -/
def Visit.remaining : Nat :=
  visit.ready.length + (entries.length + 1 - visit.nodes.keys.length)

variable {P genesisHash genesis entries}

/-- A record extends the lineage at its parent. -/
theorem derived_entry {entry : Pending} {parent : Node} (member : entry ∈ entries)
    (derived : Derived genesisHash genesis (edges entries) entry.parentHash parent) :
    Derived genesisHash genesis (edges entries) entry.id entry.node :=
  @Derived.child _ _ _ _ _ entry.edge parent ⟨entry, member, rfl⟩ derived

theorem keyed_edges (distinct : (entries.map Pending.id).Nodup)
    (fresh : genesisHash ∉ entries.map Pending.id) : Keyed genesisHash (edges entries) where
  injective := by
    rintro _ ⟨e, he, rfl⟩ _ ⟨f, hf, rfl⟩ same
    exact congrArg Pending.node (List.inj_on_of_nodup_map distinct he hf same)
  fresh := by
    rintro _ ⟨e, he, rfl⟩ same
    exact fresh (List.mem_map.mpr ⟨e, he, same⟩)

theorem Visit.Progress.start
    (nodes : visit.nodes = (∅ : Table String Node).insert genesisHash genesis)
    (children : visit.children = ∅) (resolutions : visit.resolutions = ∅)
    (pending : visit.pending = Table.groupBy Pending.parentHash entries)
    (ready : visit.ready = [genesisHash]) : visit.Progress P genesisHash genesis entries := by
  have lookup : ∀ hash node, visit.nodes.lookup hash = some node ↔
      hash = genesisHash ∧ node = genesis := by
    intro hash node
    rw [nodes, Table.lookup_insert_ite]
    split <;> simp_all [eq_comm]
  refine ⟨[], ⟨fun hash node => by simp [lookup], fun hash => ?_, fun hash payload => ?_, ?_⟩,
    ⟨fun entry => ?_, fun hash records found => ?_, fun hash member => ?_,
      fun hash node found => ?_, fun hash node found => ?_, by simp, by simp⟩⟩
  · simp [children, childIds]
  · simp [resolutions]
  · rw [nodes, Table.length_keys_insert_of_fresh genesis (AList.lookup_empty _)]
    rfl
  · simp only [List.not_mem_nil, false_iff, not_and, pending, Table.lookup_groupBy]
    intro member
    have nonempty : entries.filter (·.parentHash = entry.parentHash) ≠ [] :=
      List.ne_nil_of_mem (List.mem_filter.mpr ⟨member, by simp⟩)
    simp [nonempty]
  · rw [pending, Table.lookup_groupBy] at found
    split at found
    · cases found
    · next nonempty => exact Option.some.inj found ▸ ⟨nonempty, rfl⟩
  · rw [ready, List.mem_singleton] at member
    exact ⟨genesis, (lookup hash genesis).mpr ⟨member, rfl⟩⟩
  · obtain ⟨rfl, rfl⟩ := (lookup hash node).mp found
    exact .root
  · exact .inl (by simp [ready, ((lookup hash node).mp found).1])

variable {done : List Pending}

section

variable {visit : Visit} {records : List Pending} {parentHash : String} {ready : List String}
  (queued : visit.Queued P genesisHash genesis entries done)
include queued

/-- A parent without pending records leaves the queue. -/
theorem Visit.Queued.skip (queue : visit.ready = parentHash :: ready)
    (none : visit.pending.lookup parentHash = none) :
    Visit.Queued P genesisHash genesis entries { visit with ready } done where
  done_iff := queued.done_iff
  groups := queued.groups
  known hash member := queued.known hash (by simp [queue, member])
  derived := queued.derived
  reached hash node found := by
    rcases queued.reached hash node found with waiting | visited
    · rcases List.mem_cons.mp (queue ▸ waiting) with rfl | waiting
      · exact .inr none
      · exact .inl waiting
    · exact .inr visited
  checked := queued.checked
  distinct := queued.distinct

/-- The group of a parent is disjoint from the records already done. -/
theorem Visit.Queued.group_distinct (distinct : (entries.map Pending.id).Nodup)
    (found : visit.pending.lookup parentHash = some records) :
    ((done ++ records).map Pending.id).Nodup := by
  obtain ⟨-, rfl⟩ := queued.groups parentHash records found
  rw [List.map_append, List.nodup_append]
  refine ⟨queued.distinct, distinct.sublist (List.filter_sublist.map _), ?_⟩
  rintro _ left _ right rfl
  obtain ⟨old, oldMember, named⟩ := List.mem_map.mp left
  obtain ⟨new, newMember, named'⟩ := List.mem_map.mp right
  obtain ⟨newMember, parent⟩ := List.mem_filter.mp newMember
  obtain ⟨oldMember, visited⟩ := (queued.done_iff old).mp oldMember
  have same := List.inj_on_of_nodup_map distinct oldMember newMember (named.trans named'.symm)
  subst same
  simp only [decide_eq_true_eq] at parent
  rw [parent, found] at visited
  cases visited

/-- The records of a parent enter the tables and the queue. -/
theorem Visit.Queued.expand {parent : Node} (recorded : visit.Recorded genesisHash genesis done)
    (distinct : (entries.map Pending.id).Nodup) (fresh : genesisHash ∉ entries.map Pending.id)
    (queue : visit.ready = parentHash :: ready)
    (found : visit.pending.lookup parentHash = some records)
    (parentFound : visit.nodes.lookup parentHash = some parent)
    (checked : ∀ entry ∈ records, checkRecord P parent entry = .ok ()) {next : Visit}
    (next_eq : records.foldl (fun visit entry => visit.add parentHash entry)
      { visit with ready, pending := visit.pending.erase parentHash } = next) :
    next.Recorded genesisHash genesis (done ++ records) ∧
      next.Queued P genesisHash genesis entries (done ++ records) := by
  have grown := queued.group_distinct distinct found
  obtain ⟨-, group⟩ := queued.groups parentHash records found
  have memberIff : ∀ entry, entry ∈ records ↔ entry ∈ entries ∧ entry.parentHash = parentHash := by
    intro entry
    rw [group]
    simp
  have pendingNext : next.pending = visit.pending.erase parentHash := by
    rw [← next_eq, foldl_add_pending]
  have readyNext : next.ready = ready ++ records.map Pending.id := by
    rw [← next_eq, foldl_add_ready]
  have recordedNext : next.Recorded genesisHash genesis (done ++ records) := by
    rw [← next_eq]
    refine Visit.Recorded.addAll ⟨recorded.nodes, recorded.children, recorded.resolutions,
      recorded.size⟩ (fun entry member => ((memberIff entry).mp member).2) grown fun member => ?_
    obtain ⟨entry, isRecord, same⟩ := List.mem_map.mp member
    exact fresh (List.mem_map.mpr ⟨entry, ((memberIff entry).mp isRecord).1, same⟩)
  -- A certificate in the new table is an old one or a record of the group.
  have nodesNext : ∀ {hash node}, next.nodes.lookup hash = some node ↔
      visit.nodes.lookup hash = some node ∨
        ∃ entry ∈ records, entry.id = hash ∧ entry.node = node := by
    intro hash node
    rw [recordedNext.nodes, recorded.nodes, or_assoc]
    simp only [List.mem_append, or_and_right, exists_or]
  refine ⟨recordedNext, ⟨fun entry => ?_, fun hash rs here => ?_, fun hash member => ?_,
    fun hash node here => ?_, fun hash node here => ?_, fun entry member => ?_, grown⟩⟩
  · rw [List.mem_append, queued.done_iff, memberIff, pendingNext, Table.lookup_erase_ite]
    by_cases here : entry.parentHash = parentHash
    · subst here
      simp [found]
    · simp [here]
  · rw [pendingNext, Table.lookup_erase_ite] at here
    split at here
    · cases here
    · exact queued.groups hash rs here
  · rw [readyNext, List.mem_append] at member
    rcases member with waiting | added
    · obtain ⟨node, here⟩ := queued.known hash (by simp [queue, waiting])
      exact ⟨node, nodesNext.mpr (.inl here)⟩
    · obtain ⟨entry, isRecord, rfl⟩ := List.mem_map.mp added
      exact ⟨entry.node, nodesNext.mpr (.inr ⟨entry, isRecord, rfl, rfl⟩)⟩
  · rcases nodesNext.mp here with old | ⟨entry, isRecord, rfl, rfl⟩
    · exact queued.derived hash node old
    · obtain ⟨member, rfl⟩ := (memberIff entry).mp isRecord
      exact derived_entry member (queued.derived _ parent parentFound)
  · rw [pendingNext, readyNext, Table.lookup_erase_ite]
    rcases nodesNext.mp here with old | ⟨entry, isRecord, rfl, rfl⟩
    · rcases queued.reached hash node old with waiting | visited
      · rcases List.mem_cons.mp (queue ▸ waiting) with rfl | waiting
        · simp
        · simp [waiting]
      · simp [visited]
    · exact .inl (by simp only [List.mem_append, List.mem_map]; exact .inr ⟨entry, isRecord, rfl⟩)
  · rcases List.mem_append.mp member with old | new
    · obtain ⟨node, here, passed⟩ := queued.checked entry old
      exact ⟨node, nodesNext.mpr (.inl here), passed⟩
    · obtain ⟨-, rfl⟩ := (memberIff entry).mp new
      exact ⟨parent, nodesNext.mpr (.inl parentFound), checked entry new⟩

theorem Visit.Queued.length_le : done.length ≤ entries.length :=
  (queued.distinct.of_map _ |>.subperm fun entry member =>
    ((queued.done_iff entry).mp member).1).length_le

end

theorem visitParent_spec (distinct : (entries.map Pending.id).Nodup)
    (fresh : genesisHash ∉ entries.map Pending.id) (visit : Visit)
    (progress : visit.Progress P genesisHash genesis entries) :
    RoundSpec (Visit.Progress P genesisHash genesis entries) (Visit.remaining entries)
      (VisitOutcome P genesisHash genesis entries) visit (visitParent P visit) := by
  obtain ⟨done, recorded, queued⟩ := progress
  cases queue : visit.ready with
  | nil =>
    rw [show visitParent P visit = .ok (.inr visit) by simp [visitParent, queue]]
    exact ⟨⟨done, recorded, queued⟩, queue⟩
  | cons parentHash ready =>
    cases found : visit.pending.lookup parentHash with
    | none =>
      rw [show visitParent P visit = .ok (.inl { visit with ready }) by
        simp [visitParent, queue, found]]
      refine ⟨⟨done, ⟨recorded.nodes, recorded.children, recorded.resolutions,
        recorded.size⟩, queued.skip queue found⟩, ?_⟩
      simp [Visit.remaining, queue]
    | some records =>
      obtain ⟨parent, parentFound⟩ := queued.known parentHash (by simp [queue])
      obtain ⟨-, group⟩ := queued.groups parentHash records found
      rw [show visitParent P visit = records.foldlM (visitRecord P parentHash parent)
          { visit with ready, pending := visit.pending.erase parentHash } >>=
            fun next => .ok (.inl next) by
        simp [visitParent, queue, found, parentFound, okOr]]
      cases loop : records.foldlM (visitRecord P parentHash parent)
          { visit with ready, pending := visit.pending.erase parentHash } with
      | error e =>
        -- A record of the group failed against the only certificate at its parent.
        intro supported
        have passed : ∀ entry ∈ records, checkRecord P parent entry = .ok () := by
          intro entry member
          rw [group, List.mem_filter, decide_eq_true_eq] at member
          obtain ⟨node, derived, passed⟩ := supported entry member.1
          rw [member.2] at derived
          rwa [derived.unique (keyed_edges distinct fresh)
            (queued.derived parentHash parent parentFound)] at passed
        cases loop.symm.trans (visitRecords_ok.mpr ⟨passed, rfl⟩)
      | ok next =>
        obtain ⟨passed, next_eq⟩ := visitRecords_ok.mp loop
        obtain ⟨recorded', queued'⟩ := queued.expand recorded distinct fresh
          queue found parentFound passed next_eq
        refine ⟨⟨_, recorded', queued'⟩, ?_⟩
        have readyNext : next.ready = ready ++ records.map Pending.id := by
          rw [← next_eq, foldl_add_ready]
        have bound := queued'.length_le
        simp only [Visit.remaining, recorded.size, recorded'.size, readyNext, queue,
          List.length_append, List.length_map, List.length_cons] at bound ⊢
        omega

end Visiting

/-! ## The graph of a ledger -/

/-- The graph holds the certificates of these records and nothing else. -/
structure Graph.Reads (graph : Graph) (genesisHash : String) (genesis : Node)
    (entries : List Pending) : Prop where
  root : graph.genesisHash = genesisHash
  nodes : ∀ hash node, graph.nodes.lookup hash = some node ↔
    hash = genesisHash ∧ node = genesis ∨ ∃ entry ∈ entries, entry.id = hash ∧ entry.node = node
  children : ∀ hash, (graph.children.lookup hash).getD ∅ = childIds entries hash
  resolutions : ∀ hash payload, graph.resolutions.lookup hash = some payload ↔
    ∃ entry ∈ entries, entry.id = hash ∧ entry.resolution? = some payload
  size : graph.nodes.keys.length = entries.length + 1

section Ledger

variable (P : Primitives)

/-- The genesis checks of `buildGraph`. -/
structure GenesisValid (genesis : SignedCoownedGenesis) : Prop where
  payload : validateGenesis P genesis.payload = .ok ()
  creator : genesis.payload.creator.validate P = .ok ()
  signature : verifySignedRecord P genesis genesis.payload.creator = .ok ()
  hashed : payloadHash P genesis.payload = .ok (hashOf P genesis.payload)

/-- No record has the hash of the genesis. -/
abbrev GenesisApart (ledger : CoownershipLedger) : Prop :=
  hashOf P ledger.genesis.payload ∉ (ledger.entries P).map Pending.id

/-- The graph holds the certificates of a ledger. -/
abbrev Graph.ReadsLedger (graph : Graph) (ledger : CoownershipLedger) : Prop :=
  graph.Reads (hashOf P ledger.genesis.payload) (genesisNode ledger.genesis.payload)
    (ledger.entries P)

/-- The ledgers `buildGraph` accepts. -/
structure Admissible (ledger : CoownershipLedger) : Prop where
  transitions : ledger.transitions.length ≤ maxCoownershipTransitions
  resolutions : ledger.resolutions.length ≤ maxCoownershipResolutions
  bytes : (toValue ledger).toVec.length ≤ maxCoownershipLedgerBytes
  genesis : GenesisValid P ledger.genesis
  hashed : Hashed P ledger
  distinct : ((ledger.entries P).map Pending.id).Nodup
  supported : Supported P (hashOf P ledger.genesis.payload) (genesisNode ledger.genesis.payload)
    (ledger.entries P)
  evidenced : Evidenced (ledger.entries P)

variable {P} {ledger : CoownershipLedger}

theorem length_entries : (ledger.entries P).length =
    ledger.transitions.length + ledger.resolutions.length := by
  simp [CoownershipLedger.entries]

variable {entry : Pending} {payload : CoownedResolutionPayload}

theorem parentHash_of_resolution (resolution : entry.resolution? = some payload) :
    payload.parentCertificateHash = entry.parentHash := by
  cases entry with
  | transition id record => cases resolution
  | resolution id record => cases resolution; rfl

variable {genesis : Node}

/-- The visit of a filed ledger ends with every record in the tables, or some
record lacks support. -/
theorem visitAll_outcome {genesisHash : String}
    (distinct : ((ledger.entries P).map Pending.id).Nodup)
    (fresh : genesisHash ∉ (ledger.entries P).map Pending.id) :
    VisitOutcome P genesisHash genesis (ledger.entries P)
      (visitAll P ledger ⟨(∅ : Table String Node).insert genesisHash genesis, ∅, ∅,
        Table.groupBy Pending.parentHash (ledger.entries P), [genesisHash]⟩) := by
  refine run_spec _ _ _ (visitParent_spec distinct fresh)
    (Visit.Progress.start _ rfl rfl rfl rfl rfl) ?_
  simp only [Visit.remaining, List.length_singleton,
    Table.length_keys_insert_of_fresh genesis (AList.lookup_empty _), length_entries]
  omega

/-- A parent leaves the queue, and what enters it leaves the pending records. -/
theorem visitParent_lowers {visit next : Visit} (ran : visitParent P visit = .ok (.inl next)) :
    next.ready.length + next.pending.filed.length <
      visit.ready.length + visit.pending.filed.length := by
  unfold visitParent at ran
  split at ran
  · cases ran
  · next parentHash ready queue =>
    rw [queue, List.length_cons]
    split at ran
    · obtain rfl := Sum.inl.inj (Except.ok.inj ran)
      dsimp only
      omega
    · next records found =>
      obtain ⟨parent, -, ran⟩ := bind_ok.mp ran
      obtain ⟨last, loop, ran⟩ := bind_ok.mp ran
      obtain rfl := Sum.inl.inj (Except.ok.inj ran)
      obtain ⟨-, rfl⟩ := visitRecords_ok.mp loop
      rw [foldl_add_ready, foldl_add_pending, (Table.filed_erase_perm found).length_eq]
      simp only [List.length_append, List.length_map]
      omega

variable (P ledger) in
/-- With more rounds than records the visit has ended, whatever the certificates. -/
def VisitEnds : Prop :=
  ∀ filing, fileRecords P ledger = .ok filing → ∀ nodes genesisHash late fuel,
    ledger.transitions.length + ledger.resolutions.length + 1 < fuel →
      run late (visitParent P) fuel ⟨nodes, ∅, ∅, filing.pending, [genesisHash]⟩ =
        visitAll P ledger ⟨nodes, ∅, ∅, filing.pending, [genesisHash]⟩

theorem visitEnds (P : Primitives) (ledger : CoownershipLedger) : VisitEnds P ledger := by
  intro filing filed nodes genesisHash late fuel enough
  obtain ⟨-, -, rfl⟩ := (fileRecords_ok P).mp filed
  have size := (Table.filed_groupBy_perm Pending.parentHash (ledger.entries P)).length_eq
  rw [List.length_map, length_entries] at size
  refine run_ends (fun visit => visit.ready.length + visit.pending.filed.length)
    (fun _ _ => visitParent_lowers) ?_ ?_
  · simp only [List.length_singleton, size]
    omega
  · simp only [List.length_singleton, size]
    omega

section Finished

variable {genesisHash : String} {genesis : Node} {entries done : List Pending} {visit : Visit}

section

variable (queued : visit.Queued P genesisHash genesis entries done)
  (finished : visit.pending.keys = [])
include queued finished

/-- When nothing is pending, the records done are all the records. -/
theorem Visit.Queued.done_eq : ∀ entry, entry ∈ done ↔ entry ∈ entries := by
  intro entry
  rw [queued.done_iff, and_iff_left (Table.keys_eq_nil_iff.mp finished _)]

theorem Visit.Recorded.reads (recorded : visit.Recorded genesisHash genesis done)
    (distinct : (entries.map Pending.id).Nodup) :
    Graph.Reads ⟨genesisHash, visit.nodes, visit.children, visit.resolutions⟩
      genesisHash genesis entries where
  root := rfl
  nodes hash node := by simp only [recorded.nodes, queued.done_eq finished]
  children hash := by
    ext id
    simp only [recorded.children, mem_childIds, queued.done_eq finished]
  resolutions hash payload := by simp only [recorded.resolutions, queued.done_eq finished]
  size := by
    have perm : done.Perm entries := (List.perm_ext_iff_of_nodup (queued.distinct.of_map _)
      (distinct.of_map _)).mpr (queued.done_eq finished)
    simpa only [perm.length_eq] using recorded.size

theorem Visit.Queued.supported : Supported P genesisHash genesis entries := by
  intro entry member
  obtain ⟨parent, found, passed⟩ := queued.checked entry
    ((queued.done_eq finished entry).mpr member)
  exact ⟨parent, queued.derived _ parent found, passed⟩

end

/-- A supported ledger leaves nothing pending. -/
theorem Visit.Queued.finished (recorded : visit.Recorded genesisHash genesis done)
    (queued : visit.Queued P genesisHash genesis entries done) (empty : visit.ready = [])
    (supported : Supported P genesisHash genesis entries) : visit.pending.keys = [] := by
  -- Whatever is derived has been put in the table, since its parent was visited before it.
  have tabled : ∀ hash node, Derived genesisHash genesis (edges entries) hash node →
      ∃ node, visit.nodes.lookup hash = some node := by
    intro hash node derived
    induction derived with
    | root => exact ⟨genesis, (recorded.nodes _ _).mpr (.inl ⟨rfl, rfl⟩)⟩
    | child member _ ih =>
      obtain ⟨entry, isEntry, rfl⟩ := member
      obtain ⟨parent, found⟩ := ih
      have visited := (queued.reached _ parent found).resolve_left (by simp [empty])
      exact ⟨entry.node, (recorded.nodes _ _).mpr
        (.inr ⟨entry, (queued.done_iff entry).mpr ⟨isEntry, visited⟩, rfl, rfl⟩)⟩
  rw [Table.keys_eq_nil_iff]
  intro hash
  by_contra pending
  obtain ⟨records, found⟩ := Option.ne_none_iff_exists'.mp pending
  obtain ⟨nonempty, rfl⟩ := queued.groups hash records found
  obtain ⟨entry, member⟩ := List.exists_mem_of_ne_nil _ nonempty
  obtain ⟨isEntry, parent⟩ := List.mem_filter.mp member
  obtain ⟨node, derived, -⟩ := supported entry isEntry
  rw [of_decide_eq_true parent] at derived
  obtain ⟨node', tabled⟩ := tabled hash node derived
  exact pending ((queued.reached hash node' tabled).resolve_left (by simp [empty]))

end Finished

variable {graph : Graph} {genesisHash : String} {entries : List Pending}

section Reads

variable (reads : graph.Reads genesisHash genesis entries)
include reads

theorem checkEvidence_ok (member : entry ∈ entries)
    (resolution : entry.resolution? = some payload) :
    checkEvidence graph.children (entry.id, payload) = .ok () ↔
      2 ≤ payload.conflictingCertificateHashes.toFinset.card ∧
      entry.id ∉ payload.conflictingCertificateHashes ∧
      payload.conflictingCertificateHashes.toFinset ⊆ childIds entries entry.parentHash := by
  have own : entry.id ∈ childIds entries entry.parentHash :=
    mem_childIds.mpr ⟨entry, member, rfl, rfl⟩
  have siblings : graph.children.lookup payload.parentCertificateHash =
      some (childIds entries entry.parentHash) := by
    rw [parentHash_of_resolution resolution]
    rw [← reads.children] at own ⊢
    cases found : graph.children.lookup entry.parentHash with
    | none => simp [found] at own
    | some ids => rfl
  simp only [checkEvidence, siblings, okOr, Option.elim_some, ok_bind, refuse_ok, not_or,
    Nat.not_lt, Decidable.not_not,
    List.mem_toFinset]

/-- All evidence of a graph, in the order of its table, is the evidence of the
records. -/
theorem checkEvidence_forM_ok :
    (graph.resolutions.entries.map fun entry => (entry.1, entry.2)).forM
        (checkEvidence graph.children) = .ok () ↔ Evidenced entries := by
  rw [forM_ok]
  constructor
  · intro passed entry member payload resolution
    have found := (reads.resolutions entry.id payload).mpr ⟨entry, member, rfl, resolution⟩
    refine (checkEvidence_ok reads member resolution).mp (passed _ ?_)
    exact List.mem_map.mpr ⟨⟨entry.id, payload⟩, AList.mem_lookup_iff.mp found, rfl⟩
  · intro evidenced pair listed
    obtain ⟨⟨id, payload⟩, inTable, rfl⟩ := List.mem_map.mp listed
    obtain ⟨entry, member, rfl, resolution⟩ :=
      (reads.resolutions id payload).mp (AList.mem_lookup_iff.mpr inTable)
    exact (checkEvidence_ok reads member resolution).mpr (evidenced entry member payload resolution)

variable (supported : Supported P genesisHash genesis entries)
include supported

/-- A certificate in the graph is derived from the ledger's records. -/
theorem Graph.Reads.derived {hash : String} {node : Node}
    (found : graph.nodes.lookup hash = some node) :
    Derived genesisHash genesis (edges entries) hash node := by
  rcases (reads.nodes hash node).mp found with ⟨rfl, rfl⟩ | ⟨entry, member, rfl, rfl⟩
  · exact .root
  · obtain ⟨parent, derived, -⟩ := supported entry member
    exact derived_entry member derived

/-- Each record was checked against the certificate the graph has at its parent. -/
theorem Graph.Reads.checked (distinct : (entries.map Pending.id).Nodup)
    (fresh : genesisHash ∉ entries.map Pending.id) {parent : Node} (member : entry ∈ entries)
    (found : graph.nodes.lookup entry.parentHash = some parent) :
    checkRecord P parent entry = .ok () := by
  obtain ⟨node, derived, passed⟩ := supported entry member
  rwa [derived.unique (keyed_edges distinct fresh) (reads.derived supported found)] at passed

end Reads

variable (P ledger) in
/-- The visit of a ledger from its genesis. -/
def visitLedger : Except String Visit :=
  visitAll P ledger ⟨(∅ : Table String Node).insert (hashOf P ledger.genesis.payload)
    (genesisNode ledger.genesis.payload), ∅, ∅,
    Table.groupBy Pending.parentHash (ledger.entries P), [hashOf P ledger.genesis.payload]⟩

/-- The checks of `buildGraph` in their order. -/
theorem buildGraph_ok :
    buildGraph P ledger = .ok graph ↔ (ledger.transitions.length ≤ maxCoownershipTransitions ∧
        ledger.resolutions.length ≤ maxCoownershipResolutions) ∧
      (toValue ledger).toVec.length ≤ maxCoownershipLedgerBytes ∧
      GenesisValid P ledger.genesis ∧ Hashed P ledger ∧
      ((ledger.entries P).map Pending.id).Nodup ∧
      ∃ visit, visitLedger P ledger = .ok visit ∧ visit.pending.keys = [] ∧
        (visit.resolutions.entries.map fun entry => (entry.1, entry.2)).forM
          (checkEvidence visit.children) = .ok () ∧
        graph = ⟨hashOf P ledger.genesis.payload, visit.nodes, visit.children,
          visit.resolutions⟩ := by
  unfold buildGraph validateSerializedLimit
  simp only [↓refuse_bind_ok, bind_ok, fileRecords_ok P, not_or, not_not, Nat.not_lt,
    Except.ok.injEq]
  constructor
  · rintro ⟨counts, bytes, _, payload, _, creator, _, signature, genesisHash, hashed, _,
      ⟨hashes, distinct, rfl⟩, visit, visited, finished, _, evidence, rfl⟩
    obtain rfl : hashOf P ledger.genesis.payload = genesisHash := by
      simp [hashOf, hashed, Except.toOption]
    exact ⟨counts, bytes, ⟨payload, creator, signature, hashed⟩, hashes, distinct, visit, visited,
      finished, evidence, rfl⟩
  · rintro ⟨counts, bytes, genesis, hashes, distinct, visit, visited, finished, evidence, rfl⟩
    exact ⟨counts, bytes, (), genesis.payload, (), genesis.creator, (), genesis.signature, _,
      genesis.hashed, _, ⟨hashes, distinct, rfl⟩, visit, visited, finished, (), evidence, rfl⟩

/-- Whatever the hashes do, every record of a ledger that builds passed its
checks against some parent. -/
theorem buildGraph_checked (built : buildGraph P ledger = .ok graph) :
    ∀ entry ∈ ledger.entries P, ∃ parent, checkRecord P parent entry = .ok () := by
  obtain ⟨-, -, -, -, -, visit, visited, finished, -⟩ := buildGraph_ok.mp built
  -- A group leaves the pending table only to be checked.
  let invariant := fun visit : Visit => ∀ entry ∈ ledger.entries P,
    match visit.pending.lookup entry.parentHash with
    | some records => entry ∈ records
    | none => ∃ parent, checkRecord P parent entry = .ok ()
  have start : ∀ nodes children resolutions ready, invariant ⟨nodes, children, resolutions,
      Table.groupBy Pending.parentHash (ledger.entries P), ready⟩ := by
    intro nodes children resolutions ready entry member
    have own : entry ∈ (ledger.entries P).filter (·.parentHash = entry.parentHash) :=
      List.mem_filter.mpr ⟨member, by simp⟩
    have found := Table.lookup_groupBy Pending.parentHash (ledger.entries P) entry.parentHash
    rw [if_neg (List.ne_nil_of_mem own)] at found
    simp only [found]
    exact own
  have last : invariant visit := by
    refine run_invariant visited invariant invariant (start _ _ _ _) ?_ ?_
    · intro before after holds stepped entry member
      have here := holds entry member
      unfold visitParent at stepped
      split at stepped
      · cases stepped
      · next parentHash ready queue =>
        split at stepped
        · cases stepped
          exact here
        · next records found =>
          obtain ⟨parent, parentFound, stepped⟩ := bind_ok.mp stepped
          obtain ⟨next, loop, stepped⟩ := bind_ok.mp stepped
          obtain ⟨passed, next_eq⟩ := visitRecords_ok.mp loop
          cases stepped
          rw [← next_eq, foldl_add_pending]
          simp only [Table.lookup_erase_ite]
          by_cases same : entry.parentHash = parentHash
          · rw [if_pos same]
            subst same
            simp only [found] at here
            exact ⟨parent, passed entry here⟩
          · rw [if_neg same]
            exact here
    · intro before result holds stepped
      unfold visitParent at stepped
      split at stepped
      · cases stepped
        exact holds
      · split at stepped
        · cases stepped
        · obtain ⟨_, -, stepped⟩ := bind_ok.mp stepped
          obtain ⟨_, -, stepped⟩ := bind_ok.mp stepped
          cases stepped
  intro entry member
  have checked := last entry member
  rw [Table.keys_eq_nil_iff.mp finished] at checked
  exact checked

/-- A ledger that builds is admissible, and its graph holds its records. -/
theorem buildGraph_spec (fresh : GenesisApart P ledger) (built : buildGraph P ledger = .ok graph) :
    Admissible P ledger ∧ graph.ReadsLedger P ledger := by
  obtain ⟨counts, bytes, genesis, hashes, distinct, visit, visited, finished, evidence, rfl⟩ :=
    buildGraph_ok.mp built
  have outcome := @visitAll_outcome P _ (genesisNode ledger.genesis.payload) _ distinct fresh
  rw [show visitAll P ledger _ = _ from visited] at outcome
  obtain ⟨⟨done, recorded, queued⟩, -⟩ := outcome
  have reads := recorded.reads queued finished distinct
  exact ⟨⟨counts.1, counts.2, bytes, genesis, hashes, distinct, queued.supported finished,
    (checkEvidence_forM_ok reads).mp evidence⟩, reads⟩

/-- An admissible ledger builds. -/
theorem Admissible.buildGraph (fresh : GenesisApart P ledger)
    (admissible : Admissible P ledger) : ∃ graph, buildGraph P ledger = .ok graph := by
  have outcome := @visitAll_outcome P _ (genesisNode ledger.genesis.payload) _
    admissible.distinct fresh
  cases visited : visitLedger P ledger with
  | error e =>
    rw [show visitAll P ledger _ = _ from visited] at outcome
    exact absurd admissible.supported outcome
  | ok visit =>
    rw [show visitAll P ledger _ = _ from visited] at outcome
    obtain ⟨⟨done, recorded, queued⟩, empty⟩ := outcome
    have finished := Visit.Queued.finished recorded queued empty admissible.supported
    have reads := recorded.reads queued finished admissible.distinct
    exact ⟨_, buildGraph_ok.mpr ⟨⟨admissible.transitions, admissible.resolutions⟩,
      admissible.bytes, admissible.genesis, admissible.hashed, admissible.distinct, visit,
      visited, finished, (checkEvidence_forM_ok reads).mpr admissible.evidenced, rfl⟩⟩

end Ledger

end MetaMesh
