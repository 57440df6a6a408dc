import MetaMesh.Coownership.Merge
import MetaMesh.Lib.MergeTree

/-!
# Convergence of ledger merges

`ledger_merges_converge`: valid ledgers of one genesis, merged in any order and
grouping, pool their certificates and approvals, and the status they validate
to is the same for every order.  The only failure is a pooled ledger over one
of the limits.

The work is `Good.pool`: what makes a ledger admissible is kept when contents
are joined.  A lineage only grows; a certificate that both ledgers hold was
checked against the same parent in both, so the pooled approvals are approvals
of that parent; evidence for a resolution stays.  Hashes are assumed to tell
the payloads of the family apart.
-/

namespace MetaMesh

open Fallible Lineage

/-! ## The content of a ledger -/

/-- Its certificates, and the approvals on each. -/
def CoownershipLedger.content (ledger : CoownershipLedger) :
    Set Certificate × Set (Certificate × CoownedApproval) :=
  recordContent ledger.approved

variable {ledger other : CoownershipLedger} {P : Primitives} {known : List Certificate}

section Content

variable {T : Type}

theorem recordContent_append (left right : List (CoownedRecord T)) :
    recordContent (left ++ right) = recordContent left ⊔ recordContent right := by
  induction left with
  | nil => rw [List.nil_append, recordContent_nil, bot_sup_eq]
  | cons record left ih =>
    rw [List.cons_append, recordContent_cons record, ih, recordContent_cons record left, sup_assoc]

/-- The content of records relabelled as certificates. -/
def relabel (label : T → Certificate) (content : Set T × Set (T × CoownedApproval)) :
    Set Certificate × Set (Certificate × CoownedApproval) :=
  (label '' content.1, Prod.map label id '' content.2)

theorem relabel_sup (label : T → Certificate) (left right : Set T × Set (T × CoownedApproval)) :
    relabel label (left ⊔ right) = relabel label left ⊔ relabel label right := by
  apply Prod.ext
  · exact Set.image_union label left.1 right.1
  · exact Set.image_union _ left.2 right.2

theorem recordContent_relabel (label : T → Certificate) (records : List (CoownedRecord T)) :
    recordContent (records.map fun record => ⟨label record.payload, record.approvals⟩) =
      relabel label (recordContent records) := by
  apply Prod.ext
  · ext certificate
    simp [recordContent, relabel]
  · ext ⟨certificate, approval⟩
    simp only [recordContent, relabel, List.mem_map, Set.mem_ofPred_eq, Set.mem_image,
      Prod.exists, Prod.map_apply, Prod.mk.injEq, id_eq]
    constructor
    · rintro ⟨_, ⟨record, member, rfl⟩, rfl, listed⟩
      exact ⟨record.payload, approval, ⟨record, member, rfl, listed⟩, rfl, rfl⟩
    · rintro ⟨_, _, ⟨record, member, rfl, listed⟩, rfl, rfl⟩
      exact ⟨_, ⟨record, member, rfl⟩, rfl, listed⟩

theorem content_eq (ledger : CoownershipLedger) :
    ledger.content = relabel .transition (recordContent ledger.transitions) ⊔
      relabel .resolution (recordContent ledger.resolutions) := by
  rw [CoownershipLedger.content, CoownershipLedger.approved, recordContent_append,
    recordContent_relabel, recordContent_relabel]

variable (ledger other) in
/-- The same records in some order. -/
structure CoownershipLedger.Reordered : Prop where
  genesis : other.genesis = ledger.genesis
  transitions : MetaMesh.Reordered ledger.transitions other.transitions
  resolutions : MetaMesh.Reordered ledger.resolutions other.resolutions

theorem reordered_sortLedger (P : Primitives) (ledger : CoownershipLedger) :
    ledger.Reordered (sortLedger P ledger) :=
  ⟨rfl, reordered_sortRecords P _, reordered_sortRecords P _⟩

namespace CoownershipLedger.Reordered

variable (reordered : ledger.Reordered other)

include reordered

theorem symm : other.Reordered ledger :=
  ⟨reordered.genesis.symm, List.Perm.symm reordered.transitions,
    List.Perm.symm reordered.resolutions⟩

theorem approved : MetaMesh.Reordered ledger.approved other.approved := by
  have labelled : ∀ {T : Type} (label : T → Certificate) {records others : List (CoownedRecord T)},
      MetaMesh.Reordered records others →
      MetaMesh.Reordered (records.map fun record => ⟨label record.payload, record.approvals⟩)
        (others.map fun record => ⟨label record.payload, record.approvals⟩) := by
    intro T label records others same
    have labels := same.map (Prod.map label id)
    unfold MetaMesh.Reordered
    rw [List.map_map, List.map_map] at labels ⊢
    exact labels
  have both := (labelled .transition reordered.transitions).append
    (labelled .resolution reordered.resolutions)
  rw [← List.map_append, ← List.map_append] at both
  exact both

theorem content_eq : ledger.content = other.content :=
  le_antisymm reordered.symm.approved.recordContent_le reordered.approved.recordContent_le

theorem length_toVec : (toValue ledger).toVec.length = (toValue other).toVec.length := by
  have text : ∀ l : CoownershipLedger, (toValue l).toVec.length =
      ([("genesis", toValue l.genesis), ("transitions", toValue l.transitions),
        ("resolutions", toValue l.resolutions)].map fun field =>
          (quote field.1).length + 1 + field.2.toVec.length).sum + 4 :=
    fun l => length_toVec_object _
  simp only [text, List.map_cons, reordered.genesis, reordered.transitions.length_toVec,
    reordered.resolutions.length_toVec]

end CoownershipLedger.Reordered

/-- The pooled ledger has the join of the two contents. -/
theorem content_pooledLedger (P : Primitives) (current incoming : CoownershipLedger) :
    (pooledLedger P current incoming).content = current.content ⊔ incoming.content := by
  have transitions := recordContent_foldl current.transitions incoming.transitions
  have resolutions := recordContent_foldl current.resolutions incoming.resolutions
  rw [pooledLedger, ← (reordered_sortLedger P _).content_eq]
  simp only [content_eq]
  rw [show current.transitions.foldl mergeTransition incoming.transitions =
      current.transitions.foldl (fun records record => mergeRecord record records)
        incoming.transitions from rfl, transitions,
    show current.resolutions.foldl mergeResolution incoming.resolutions =
      current.resolutions.foldl (fun records record => mergeRecord record records)
        incoming.resolutions from rfl, resolutions, relabel_sup, relabel_sup,
    sup_sup_sup_comm]

/-- Labels keep records tidy. -/
theorem tidy_relabel {label : T → Certificate} (injective : Function.Injective label)
    {records : List (CoownedRecord T)} :
    Tidy (records.map fun record => ⟨label record.payload, record.approvals⟩) ↔ Tidy records := by
  have payloads := List.nodup_map_iff injective (l := records.map CoownedRecord.payload)
  rw [List.map_map] at payloads
  constructor
  · rintro ⟨labels, approvals⟩
    rw [List.map_map] at labels
    exact ⟨payloads.mp labels, fun _ member => approvals _ (List.mem_map_of_mem member)⟩
  · rintro ⟨distinct, approvals⟩
    refine ⟨?_, List.forall_mem_map.mpr approvals⟩
    rw [List.map_map]
    exact payloads.mpr distinct

theorem tidy_approved :
    Tidy ledger.approved ↔ Tidy ledger.transitions ∧ Tidy ledger.resolutions := by
  rw [← tidy_relabel fun _ _ => Certificate.transition.inj,
    ← tidy_relabel fun _ _ => Certificate.resolution.inj]
  unfold CoownershipLedger.approved
  constructor
  · rintro ⟨payloads, approvals⟩
    rw [List.map_append, List.nodup_append] at payloads
    rw [List.forall_mem_append] at approvals
    exact ⟨⟨payloads.1, approvals.1⟩, payloads.2.1, approvals.2⟩
  · rintro ⟨left, right⟩
    refine ⟨?_, List.forall_mem_append.mpr ⟨left.approvals, right.approvals⟩⟩
    rw [List.map_append, List.nodup_append]
    exact ⟨left.payloads, right.payloads, by simp⟩

theorem tidy_pooledLedger (P : Primitives) {current incoming : CoownershipLedger}
    (left : Tidy current.approved) (right : Tidy incoming.approved) :
    Tidy (pooledLedger P current incoming).approved := by
  obtain ⟨leftTransitions, leftResolutions⟩ := tidy_approved.mp left
  obtain ⟨rightTransitions, rightResolutions⟩ := tidy_approved.mp right
  refine tidy_approved.mpr ⟨?_, ?_⟩
  · exact (reordered_sortRecords P _).tidy (leftTransitions.foldl rightTransitions)
  · exact (reordered_sortRecords P _).tidy (leftResolutions.foldl rightResolutions)

end Content

/-! ## Records by their certificates -/

section Certificates

def Certificate.hashOf (P : Primitives) (certificate : Certificate) : String :=
  (certificate.hash P).toOption.getD ""

/-- The checks of a record on its payload. -/
def Certificate.ValidAfter (P : Primitives) (parent : Node) : Certificate → Prop
  | genesis _ => False
  | transition payload => validateTransition P payload parent = .ok ()
  | resolution payload => validateResolution P payload parent = .ok ()

/-- The checks of a record on its approvals. -/
def Certificate.ApprovedAfter (P : Primitives) (parent : Node)
    (approvals : List CoownedApproval) : Certificate → Prop
  | genesis _ => False
  | transition payload => ApprovedBy P payload approvals parent.owners parent.policy
  | resolution payload => ApprovedBy P payload approvals parent.owners parent.policy

variable {parent : Node} {entry : Pending} {certificate : Certificate}
  {fewer more : List CoownedApproval}

theorem checkRecord_ok :
    checkRecord P parent entry = .ok () ↔ entry.certificate.ValidAfter P parent ∧
      entry.certificate.ApprovedAfter P parent entry.approvals := by
  cases entry with
  | transition id record
  | resolution id record =>
    rw [checkRecord, bind_ok]
    simp only [verifyApprovals_ok]
    exact ⟨fun ⟨_, facts⟩ => facts, fun facts => ⟨(), facts⟩⟩

theorem Certificate.ApprovedAfter.bounds {approvals : List CoownedApproval}
    (approved : certificate.ApprovedAfter P parent approvals) :
    approvals.Nodup ∧ approvals.length ≤ maxCoownershipApprovals := by
  cases certificate with
  | genesis payload => exact approved.elim
  | transition payload
  | resolution payload => exact ⟨approved.nodup, approved.bounded⟩

theorem ApprovedBy.pool {T : Type} [Serialize T] {payload : T} {owners : List CoownerIdentity}
    {policy : CoownerPolicy} (approved : ApprovedBy P payload fewer owners policy)
    (included : fewer ⊆ more) (nodup : more.Nodup) (bounded : more.length ≤ maxCoownershipApprovals)
    (countable : ∀ approval ∈ more, Countable P payload owners approval) :
    ApprovedBy P payload more owners policy where
  nonempty := by
    obtain ⟨approval, member⟩ := List.exists_mem_of_ne_nil _ approved.nonempty
    exact List.ne_nil_of_mem (included member)
  bounded := bounded
  nodup := nodup
  countable := countable
  quorum := approved.quorum.trans (Finset.card_le_card (approvedPeople_mono included))

/-- Approvals that were each part of an approved list after the same parent are
an approved list. -/
theorem Certificate.ApprovedAfter.pool (approved : certificate.ApprovedAfter P parent fewer)
    (included : fewer ⊆ more) (nodup : more.Nodup) (bounded : more.length ≤ maxCoownershipApprovals)
    (sources : ∀ approval ∈ more, ∃ approvals, approval ∈ approvals ∧
      certificate.ApprovedAfter P parent approvals) : certificate.ApprovedAfter P parent more := by
  cases certificate with
  | genesis payload => exact approved.elim
  | transition payload
  | resolution payload =>
    refine ApprovedBy.pool approved included nodup bounded fun approval member => ?_
    obtain ⟨approvals, listed, source⟩ := sources approval member
    exact source.countable approval listed

theorem id_eq_hashOf (member : entry ∈ ledger.entries P) :
    entry.id = entry.certificate.hashOf P := by
  simp only [CoownershipLedger.entries, List.mem_append, List.mem_map] at member
  rcases member with ⟨record, -, rfl⟩ | ⟨record, -, rfl⟩ <;> rfl

theorem mem_content_certificates :
    certificate ∈ ledger.content.1 ↔
      ∃ entry ∈ ledger.entries P, entry.certificate = certificate := by
  simp [CoownershipLedger.content, recordContent, @approved_eq_map_entries P ledger]

theorem mem_content_approvals {approval : CoownedApproval} :
    (certificate, approval) ∈ ledger.content.2 ↔ ∃ entry ∈ ledger.entries P,
      entry.certificate = certificate ∧ approval ∈ entry.approvals := by
  simp [CoownershipLedger.content, recordContent, @approved_eq_map_entries P ledger]

/-- A record's place in the graph is its certificate's. -/
theorem edge_eq {entry' : Pending} (member : entry ∈ ledger.entries P)
    (member' : entry' ∈ other.entries P) (same : entry.certificate = entry'.certificate) :
    entry.edge = entry'.edge := by
  have parent : some entry.parentHash = some entry'.parentHash := by
    rw [← Pending.parentHash?_certificate, same, Pending.parentHash?_certificate]
  have node : entry.node = entry'.node := by
    rw [← Pending.node_certificate, same, Pending.node_certificate]
  rw [Pending.edge, Pending.edge, id_eq_hashOf member, id_eq_hashOf member', same,
    Option.some.inj parent, node]

theorem mem_approved (member : entry ∈ ledger.entries P) :
    (⟨entry.certificate, entry.approvals⟩ : CoownedRecord Certificate) ∈ ledger.approved := by
  rw [@approved_eq_map_entries P]
  exact List.mem_map.mpr ⟨entry, member, rfl⟩

theorem Tidy.approvals_eq (tidy : Tidy ledger.approved) {entry' : Pending}
    (member : entry ∈ ledger.entries P) (member' : entry' ∈ ledger.entries P)
    (same : entry.certificate = entry'.certificate) : entry.approvals = entry'.approvals := by
  have records := List.inj_on_of_nodup_map tidy.payloads (mem_approved member)
    (mem_approved member') same
  exact congrArg CoownedRecord.approvals records

section

variable (le : ledger.content ≤ other.content) (tidy : Tidy other.approved)

include le tidy

/-- A record of a smaller content is a record of a larger one, with more approvals. -/
theorem exists_entry_of_le (member : entry ∈ ledger.entries P) :
    ∃ entry' ∈ other.entries P, entry'.certificate = entry.certificate ∧
      entry'.edge = entry.edge ∧ entry.approvals ⊆ entry'.approvals := by
  obtain ⟨entry', member', same⟩ := mem_content_certificates.mp
    (le.1 (mem_content_certificates.mpr ⟨entry, member, rfl⟩))
  refine ⟨entry', member', same, edge_eq member' member same, fun approval listed => ?_⟩
  obtain ⟨holder, isHolder, sameHolder, held⟩ := mem_content_approvals.mp
    (le.2 (mem_content_approvals.mpr ⟨entry, member, rfl, listed⟩))
  rwa [tidy.approvals_eq isHolder member' (sameHolder.trans same.symm)] at held

theorem edges_subset_of_le : edges (ledger.entries P) ⊆ edges (other.entries P) := by
  rintro _ ⟨entry, member, rfl⟩
  obtain ⟨entry', member', -, same, -⟩ := exists_entry_of_le le tidy member
  exact ⟨entry', member', same⟩

theorem childIds_subset_of_le (parentHash : String) :
    childIds (ledger.entries P) parentHash ⊆ childIds (other.entries P) parentHash := by
  intro id child
  obtain ⟨entry, member, parent, rfl⟩ := mem_childIds.mp child
  obtain ⟨entry', member', -, same, -⟩ := exists_entry_of_le le tidy member
  exact mem_childIds.mpr ⟨entry', member', (congrArg Edge.parent same).trans parent,
    congrArg Edge.id same⟩

end

/-- Checked records under distinct hashes hold each payload and each approval once. -/
theorem tidy_of_checked (distinct : ((ledger.entries P).map Pending.id).Nodup)
    (checked : ∀ entry ∈ ledger.entries P, ∃ parent, checkRecord P parent entry = .ok ()) :
    Tidy ledger.approved := by
  rw [@approved_eq_map_entries P]
  constructor
  · rw [List.map_map]
    apply List.Nodup.of_map (Certificate.hashOf P)
    rw [List.map_map]
    refine (List.map_congr_left fun entry member => ?_) ▸ distinct
    exact id_eq_hashOf member
  · intro record member
    obtain ⟨entry, isEntry, rfl⟩ := List.mem_map.mp member
    obtain ⟨parent, passed⟩ := checked entry isEntry
    exact (checkRecord_ok.mp passed).2.bounds.1

theorem Admissible.tidy (admissible : Admissible P ledger) : Tidy ledger.approved := by
  refine tidy_of_checked admissible.distinct fun entry member => ?_
  obtain ⟨parent, -, passed⟩ := admissible.supported entry member
  exact ⟨parent, passed⟩

end Certificates

/-! ## Joining admissible ledgers -/

variable (ledger) in
/-- The explicit limits on a ledger. -/
structure WithinLimits : Prop where
  transitions : ledger.transitions.length ≤ maxCoownershipTransitions
  resolutions : ledger.resolutions.length ≤ maxCoownershipResolutions
  approvals : ∀ record ∈ ledger.approved, record.approvals.length ≤ maxCoownershipApprovals
  bytes : (toValue ledger).toVec.length ≤ maxCoownershipLedgerBytes

variable (P known) in
/-- A ledger of a family: admissible, with the family's genesis, and with
certificates from `known` only. -/
structure Good (genesis : CoownedGenesisPayload) (ledger : CoownershipLedger) : Prop where
  admissible : Admissible P ledger
  genesis : ledger.genesis.payload = genesis
  known : ∀ certificate ∈ ledger.certificates, certificate ∈ known

section Pool

variable {genesis : CoownedGenesisPayload} {left right pooled : CoownershipLedger}

theorem CollisionFree.subset {certificates : List Certificate} (free : CollisionFree P known)
    (included : ∀ certificate ∈ certificates, certificate ∈ known) : CollisionFree P certificates :=
  fun a inLeft b inRight => free a (included a inLeft) b (included b inRight)

theorem Good.fresh (free : CollisionFree P known) (good : Good P known genesis ledger) :
    GenesisApart P ledger :=
  (free.subset good.known).fresh good.admissible.genesis good.admissible.hashed

theorem hashed_of_entries
    (hashes : ∀ entry ∈ ledger.entries P, entry.certificate.hash P = .ok entry.id) :
    Hashed P ledger := by
  constructor
  · intro record member
    exact hashes (.transition (hashOf P record.payload) record)
      (List.mem_append_left _ (List.mem_map.mpr ⟨record, member, rfl⟩))
  · intro record member
    exact hashes (.resolution (hashOf P record.payload) record)
      (List.mem_append_right _ (List.mem_map.mpr ⟨record, member, rfl⟩))

variable (P known genesis) in
/-- The contents of `pooled` come from parts that are good ledgers themselves. -/
structure PoolOf (parts : List CoownershipLedger) (pooled : CoownershipLedger) : Prop where
  good : ∀ part ∈ parts, Good P known genesis part
  below : ∀ part ∈ parts, part.content ≤ pooled.content
  certificates : ∀ certificate ∈ pooled.content.1, ∃ part ∈ parts, certificate ∈ part.content.1
  approvals : ∀ pair ∈ pooled.content.2, ∃ part ∈ parts, pair ∈ part.content.2
  tidy : Tidy pooled.approved

section PoolOf

variable {parts : List CoownershipLedger}

variable {entry : Pending}

section

variable (pool : PoolOf P known genesis parts pooled)

include pool

/-- A record of the pool has a source in one of the parts. -/
theorem PoolOf.exists_source (member : entry ∈ pooled.entries P) :
    ∃ part ∈ parts, ∃ source ∈ part.entries P, source.certificate = entry.certificate := by
  obtain ⟨part, isPart, inPart⟩ := pool.certificates _
    (mem_content_certificates.mpr ⟨entry, member, rfl⟩)
  exact ⟨part, isPart, mem_content_certificates.mp inPart⟩

theorem PoolOf.hash (member : entry ∈ pooled.entries P) :
    entry.certificate.hash P = .ok entry.id ∧ entry.certificate ∈ known := by
  obtain ⟨part, isPart, source, isSource, same⟩ := pool.exists_source member
  have hash := (pool.good part isPart).admissible.hashed.hash_certificate isSource
  rw [id_eq_hashOf isSource, same] at hash
  rw [id_eq_hashOf member]
  exact ⟨hash, same ▸ (pool.good part isPart).known _ (entry_certificate_mem isSource)⟩

theorem PoolOf.distinct (free : CollisionFree P known) :
    ((pooled.entries P).map Pending.id).Nodup := by
  have payloads := pool.tidy.payloads
  rw [@approved_eq_map_entries P, List.map_map] at payloads
  have ids : (pooled.entries P).map Pending.id =
      ((pooled.entries P).map Pending.certificate).map (Certificate.hashOf P) := by
    rw [List.map_map]
    exact List.map_congr_left fun entry member => id_eq_hashOf member
  rw [ids]
  refine List.Nodup.map_on ?_ payloads
  intro a inLeft b inRight same
  obtain ⟨entry, member, rfl⟩ := List.mem_map.mp inLeft
  obtain ⟨entry', member', rfl⟩ := List.mem_map.mp inRight
  obtain ⟨hash, isKnown⟩ := pool.hash member
  obtain ⟨hash', isKnown'⟩ := pool.hash member'
  rw [← id_eq_hashOf member, ← id_eq_hashOf member'] at same
  exact free _ isKnown _ isKnown' _ hash (same ▸ hash')

variable {part : CoownershipLedger}

/-- What a part checked of a record holds in the pool: the part's lineage is in
the pool's, and its approvals are. -/
theorem PoolOf.supported_source (isPart : part ∈ parts) {source : Pending}
    (member : entry ∈ pooled.entries P) (isSource : source ∈ part.entries P)
    (same : source.certificate = entry.certificate) :
    ∃ parent, Derived (hashOf P genesis) (genesisNode genesis) (edges (pooled.entries P))
        entry.parentHash parent ∧ entry.certificate.ValidAfter P parent ∧
      entry.certificate.ApprovedAfter P parent source.approvals ∧
      source.approvals ⊆ entry.approvals := by
  have good := pool.good part isPart
  have below := pool.below part isPart
  obtain ⟨parent, derived, passed⟩ := good.admissible.supported source isSource
  obtain ⟨valid, approved⟩ := checkRecord_ok.mp passed
  obtain ⟨entry', member', same', -, included⟩ := exists_entry_of_le below pool.tidy isSource
  have sameParent : source.parentHash = entry.parentHash :=
    congrArg Edge.parent (edge_eq isSource member same)
  rw [good.genesis, sameParent] at derived
  rw [same] at valid approved
  rw [pool.tidy.approvals_eq member' member (same'.trans same)] at included
  exact ⟨parent, derived.mono (edges_subset_of_le below pool.tidy), valid, approved, included⟩

/-- A pool of good ledgers within the limits, with the genesis of one of them,
is good. -/
theorem PoolOf.isGood (free : CollisionFree P known) (isPart : part ∈ parts)
    (isGenesis : pooled.genesis = part.genesis) (limits : WithinLimits pooled) :
    Good P known genesis pooled := by
  have good := pool.good part isPart
  have distinct := pool.distinct free
  have genesisValid : GenesisValid P pooled.genesis := isGenesis ▸ good.admissible.genesis
  have isPayload : pooled.genesis.payload = genesis := isGenesis ▸ good.genesis
  have hashed : Hashed P pooled := hashed_of_entries fun entry member => (pool.hash member).1
  have isKnown : ∀ certificate ∈ pooled.certificates, certificate ∈ known := by
    intro certificate member
    rcases mem_certificates.mp member with rfl | ⟨entry, isEntry, rfl⟩
    · rw [isPayload, ← good.genesis]
      exact good.known _ List.mem_cons_self
    · exact (pool.hash isEntry).2
  have fresh := (free.subset isKnown).fresh genesisValid hashed
  have supported : Supported P (hashOf P genesis) (genesisNode genesis) (pooled.entries P) := by
    intro entry member
    obtain ⟨first, isFirst, source, isSource, same⟩ := pool.exists_source member
    obtain ⟨parent, derived, valid, approved, included⟩ :=
      pool.supported_source isFirst member isSource same
    have listed := mem_approved member
    refine ⟨parent, derived, checkRecord_ok.mpr ⟨valid, approved.pool included
      (pool.tidy.approvals _ listed) (limits.approvals _ listed) fun approval isApproval => ?_⟩⟩
    obtain ⟨second, isSecond, inSecond⟩ := pool.approvals _
      (mem_content_approvals.mpr ⟨entry, member, rfl, isApproval⟩)
    obtain ⟨holder, isHolder, sameHolder, held⟩ := mem_content_approvals.mp inSecond
    obtain ⟨parent', derived', -, approved', -⟩ :=
      pool.supported_source isSecond member isHolder sameHolder
    -- Both parts checked the record against the one certificate at its parent.
    rw [GenesisApart, isPayload] at fresh
    rw [← derived.unique (keyed_edges distinct fresh) derived'] at approved'
    exact ⟨holder.approvals, held, approved'⟩
  have evidenced : Evidenced (pooled.entries P) := by
    intro entry member payload resolution
    obtain ⟨first, isFirst, source, isSource, same⟩ := pool.exists_source member
    have sourceResolution : source.resolution? = some payload := by
      rw [← Pending.certificate_eq_resolution, same]
      exact Pending.certificate_eq_resolution.mpr resolution
    have edge := edge_eq isSource member same
    obtain ⟨enough, notSelf, siblings⟩ :=
      (pool.good first isFirst).admissible.evidenced source isSource payload sourceResolution
    rw [show source.id = entry.id from congrArg Edge.id edge] at notSelf
    rw [show source.parentHash = entry.parentHash from congrArg Edge.parent edge] at siblings
    exact ⟨enough, notSelf, siblings.trans
      (childIds_subset_of_le (pool.below first isFirst) pool.tidy _)⟩
  exact ⟨⟨limits.transitions, limits.resolutions, limits.bytes, genesisValid, hashed, distinct,
    isPayload ▸ supported, evidenced⟩, isPayload, isKnown⟩

end

end PoolOf

theorem withinLimits_of_buildGraph {graph : Graph} (built : buildGraph P ledger = .ok graph) :
    WithinLimits ledger := by
  obtain ⟨counts, bytes, -⟩ := buildGraph_ok.mp built
  refine ⟨counts.1, counts.2, fun record member => ?_, bytes⟩
  rw [@approved_eq_map_entries P] at member
  obtain ⟨entry, isEntry, rfl⟩ := List.mem_map.mp member
  obtain ⟨parent, passed⟩ := buildGraph_checked built entry isEntry
  exact (checkRecord_ok.mp passed).2.bounds.2

theorem WithinLimits.reordered (limits : WithinLimits ledger) (reordered : ledger.Reordered other) :
    WithinLimits other where
  transitions := reordered.transitions.length_eq ▸ limits.transitions
  resolutions := reordered.resolutions.length_eq ▸ limits.resolutions
  bytes := reordered.length_toVec ▸ limits.bytes
  approvals record member := by
    obtain ⟨source, isRecord, -, approvals⟩ := reordered.approved.exists_source member
    exact approvals.length_eq ▸ limits.approvals source isRecord

theorem Good.reordered (free : CollisionFree P known) (good : Good P known genesis ledger)
    (reordered : ledger.Reordered other) : Good P known genesis other := by
  have content := reordered.content_eq
  have pool : PoolOf P known genesis [ledger] other :=
    ⟨by simpa using good, by simp [content], by simp [content], by simp [content],
      reordered.approved.tidy good.admissible.tidy⟩
  obtain ⟨graph, built⟩ := good.admissible.buildGraph (good.fresh free)
  exact pool.isGood free List.mem_cons_self reordered.genesis
    ((withinLimits_of_buildGraph built).reordered reordered)

theorem Good.pooledLedger (free : CollisionFree P known) (goodLeft : Good P known genesis left)
    (goodRight : Good P known genesis right) (limits : WithinLimits (pooledLedger P left right)) :
    Good P known genesis (pooledLedger P left right) := by
  have content := content_pooledLedger P left right
  have pool : PoolOf P known genesis [left, right] (MetaMesh.pooledLedger P left right) := by
    refine ⟨by simpa using ⟨goodLeft, goodRight⟩, ?_, ?_, ?_,
      tidy_pooledLedger P goodLeft.admissible.tidy goodRight.admissible.tidy⟩
    · simp [content]
    · simp [content]
    · simp [content]
  exact pool.isGood free (List.mem_cons_of_mem _ List.mem_cons_self) rfl limits

theorem genesisHash_of_buildGraph {graph : Graph} (built : buildGraph P ledger = .ok graph) :
    graph.genesisHash = hashOf P ledger.genesis.payload := by
  obtain ⟨-, -, -, -, -, visit, -, -, -, rfl⟩ := buildGraph_ok.mp built
  rfl

/-- On the good ledgers of a family the merge is the join of contents, wherever
the pooled ledger is within the limits. -/
theorem merge_joins (free : CollisionFree P known) :
    MergeTree.Joins CoownershipLedger.content (mergeCoownershipLedgers P)
      (Good P known genesis) (fun current incoming =>
        WithinLimits (pooledLedger P current incoming)) where
  adopts incoming good := by
    obtain ⟨graph, built⟩ := good.admissible.buildGraph (good.fresh free)
    have sorted := reordered_sortLedger P incoming
    refine ⟨sortLedger P incoming, ?_, good.reordered free sorted, sorted.content_eq.symm⟩
    rw [mergeCoownershipLedgers, built]
    rfl
  merges current incoming goodLeft goodRight limits := by
    have good := goodLeft.pooledLedger free goodRight limits
    obtain ⟨left, builtLeft⟩ := goodLeft.admissible.buildGraph (goodLeft.fresh free)
    obtain ⟨right, builtRight⟩ := goodRight.admissible.buildGraph (goodRight.fresh free)
    obtain ⟨graph, built⟩ := good.admissible.buildGraph (good.fresh free)
    have sameGenesis : left.genesisHash = right.genesisHash := by
      rw [genesisHash_of_buildGraph builtLeft, genesisHash_of_buildGraph builtRight,
        goodLeft.genesis, goodRight.genesis]
    refine ⟨pooledLedger P current incoming, ?_, good, content_pooledLedger P current incoming⟩
    unfold mergeCoownershipLedgers
    simp only [builtLeft, builtRight, built, ok_bind, refuse_bind_ok, ne_eq, sameGenesis,
      not_true_eq_false, not_false_eq_true, true_and]

end Pool

/-! ## The status of a pool -/

section Status

variable {genesis : CoownedGenesisPayload} {hash cursor genesisHash : String} {node root : Node}

/-- Each record raises the epoch by one over the certificate at its parent. -/
theorem Admissible.epoch_le (admissible : Admissible P ledger) (fresh : GenesisApart P ledger)
    (derived : Derived (hashOf P ledger.genesis.payload) (genesisNode ledger.genesis.payload)
      (edges (ledger.entries P)) hash node) :
    node.epoch ≤ ledger.genesis.payload.epoch + (ledger.entries P).length := by
  have bound := derived.rank_le Node.epoch (by
      rintro _ ⟨entry, member, rfl⟩ parent parentDerived
      obtain ⟨checked, checkedDerived, passed⟩ := admissible.supported entry member
      rw [parentDerived.unique (keyed_edges admissible.distinct fresh) checkedDerived]
      exact (checkRecord_spec passed).1) ((ledger.entries P).map Pending.edge) (by
      rintro _ ⟨entry, member, rfl⟩
      exact List.mem_map.mpr ⟨entry, member, rfl⟩)
  rwa [List.length_map] at bound

variable {graph : Graph}

theorem readCertificate_total (found : graph.nodes.lookup cursor = some node) :
    ∃ outcome, readCertificate graph cursor = .ok outcome := by
  unfold readCertificate
  simp only [found, okOr, Option.elim_some, ok_bind]
  split
  · exact ⟨_, rfl⟩
  · split <;> exact ⟨_, rfl⟩

theorem readCertificate_child {entries : List Pending}
    (reads : graph.Reads genesisHash root entries) {next : String}
    (read : readCertificate graph cursor = .ok (.inl next)) :
    ∃ entry ∈ entries, entry.id = next ∧ entry.parentHash = cursor := by
  obtain ⟨node, -, cases⟩ := readCertificate_spec reads read
  rcases cases with ⟨-, same⟩ | ⟨entry, member, parent, same, -⟩ | ⟨_, same⟩
  · cases same
  · exact ⟨entry, member, (Sum.inl.inj same).symm, parent⟩
  · cases same

/-- An admissible ledger validates: the walk raises the epoch at every step, and
no certificate has an epoch above the number of records. -/
theorem Admissible.validates (admissible : Admissible P ledger) (fresh : GenesisApart P ledger) :
    ∃ validated, validateCoownershipLedger P ledger = .ok validated := by
  obtain ⟨graph, built⟩ := admissible.buildGraph fresh
  obtain ⟨-, reads⟩ := buildGraph_spec fresh built
  have tabled : ∀ hash node, graph.nodes.lookup hash = some node →
      node.epoch ≤ ledger.genesis.payload.epoch + (ledger.entries P).length := by
    intro hash node found
    exact admissible.epoch_le fresh (reads.derived admissible.supported found)
  have genesisFound : graph.nodes.lookup graph.genesisHash =
      some (genesisNode ledger.genesis.payload) :=
    (reads.nodes _ _).mpr (.inl ⟨reads.root, rfl⟩)
  let height := fun cursor => ((graph.nodes.lookup cursor).map Node.epoch).getD 0
  have walk : ∃ validated, run "Co-ownership walk did not end" (readCertificate graph)
      (graph.nodes.keys.length + 1) graph.genesisHash = .ok validated := by
    refine run_spec (fun cursor => ∃ node, graph.nodes.lookup cursor = some node)
      (fun cursor => ledger.genesis.payload.epoch + (ledger.entries P).length - height cursor)
      (fun outcome => ∃ validated, outcome = .ok validated) ?_ ⟨_, genesisFound⟩ ?_
    · rintro cursor ⟨node, found⟩
      obtain ⟨outcome, read⟩ := readCertificate_total found
      rw [read]
      cases outcome with
      | inr validated => exact ⟨validated, rfl⟩
      | inl next =>
        obtain ⟨entry, member, rfl, parent⟩ := readCertificate_child reads read
        have child : graph.nodes.lookup entry.id = some entry.node :=
          (reads.nodes _ _).mpr (.inr ⟨entry, member, rfl, rfl⟩)
        have passed := reads.checked admissible.supported admissible.distinct fresh member
          (parent ▸ found)
        have raised := (checkRecord_spec passed).1
        have bounded := tabled entry.id entry.node child
        refine ⟨⟨entry.node, child⟩, ?_⟩
        simp only [height, found, child, Option.map_some, Option.getD_some]
        omega
    · simp only [height, genesisFound, Option.map_some, Option.getD_some, genesisNode, reads.size]
      omega
  obtain ⟨validated, walked⟩ := walk
  exact ⟨validated, bind_ok.mpr ⟨graph, built, walked⟩⟩

/-- The reading of a graph does not depend on the order of its tables. -/
theorem readCertificate_congr {graph' : Graph}
    (nodes : ∀ hash, graph.nodes.lookup hash = graph'.nodes.lookup hash)
    (children : ∀ hash, (graph.children.lookup hash).getD ∅ = (graph'.children.lookup hash).getD ∅)
    (resolutions : ∀ hash, graph.resolutions.lookup hash = graph'.resolutions.lookup hash)
    (cursor : String) : readCertificate graph cursor = readCertificate graph' cursor := by
  unfold readCertificate
  rw [nodes, children]
  dsimp only
  have resolvers : (resolverIds graph cursor ((graph'.children.lookup cursor).getD ∅)).Perm
      (resolverIds graph' cursor ((graph'.children.lookup cursor).getD ∅)) :=
    ((Table.entries_perm resolutions).filter _).map _
  generalize resolverIds graph cursor _ = left at resolvers
  generalize resolverIds graph' cursor _ = right at resolvers
  -- Permuted lists of resolvers are both empty, the same single one, or both longer.
  have same : left = right ∨ (∃ a b l, left = a :: b :: l) ∧ ∃ a b l, right = a :: b :: l := by
    have length := resolvers.length_eq
    match left, right with
    | [], [] => exact .inl rfl
    | [a], [b] => exact .inl (by simpa using resolvers)
    | a :: b :: l, c :: d :: r => exact .inr ⟨⟨a, b, l, rfl⟩, c, d, r, rfl⟩
  rcases same with rfl | ⟨⟨a, b, l, rfl⟩, c, d, r, rfl⟩
  · rfl
  · split
    · rfl
    · split <;> simp_all

theorem lookup_eq_of_le {graph' : Graph} (reads : graph.Reads genesisHash root (ledger.entries P))
    (reads' : graph'.Reads genesisHash root (other.entries P)) (le : ledger.content ≤ other.content)
    (tidy : Tidy other.approved) :
    (∀ node, graph.nodes.lookup hash = some node → graph'.nodes.lookup hash = some node) ∧
      ∀ payload, graph.resolutions.lookup hash = some payload →
        graph'.resolutions.lookup hash = some payload := by
  constructor
  · intro node found
    rw [reads'.nodes]
    rcases (reads.nodes hash node).mp found with root | ⟨entry, member, named, put⟩
    · exact .inl root
    · obtain ⟨entry', member', -, same, -⟩ := exists_entry_of_le le tidy member
      exact .inr ⟨entry', member', (congrArg Edge.id same).trans named,
        (congrArg Edge.node same).trans put⟩
  · intro payload found
    rw [reads'.resolutions]
    obtain ⟨entry, member, named, resolution⟩ := (reads.resolutions hash payload).mp found
    obtain ⟨entry', member', sameCertificate, same, -⟩ := exists_entry_of_le le tidy member
    refine ⟨entry', member', (congrArg Edge.id same).trans named, ?_⟩
    rw [← Pending.certificate_eq_resolution, sameCertificate]
    exact Pending.certificate_eq_resolution.mpr resolution

/-- Ledgers of the same content validate to the same status. -/
theorem Good.validate_eq (free : CollisionFree P known) (good : Good P known genesis ledger)
    (good' : Good P known genesis other) (same : ledger.content = other.content) :
    validateCoownershipLedger P ledger = validateCoownershipLedger P other := by
  have tidy := good.admissible.tidy
  have tidy' := good'.admissible.tidy
  obtain ⟨graph, built⟩ := good.admissible.buildGraph (good.fresh free)
  obtain ⟨graph', built'⟩ := good'.admissible.buildGraph (good'.fresh free)
  obtain ⟨-, reads⟩ := buildGraph_spec (good.fresh free) built
  obtain ⟨-, reads'⟩ := buildGraph_spec (good'.fresh free) built'
  rw [Graph.ReadsLedger, good.genesis] at reads
  rw [Graph.ReadsLedger, good'.genesis] at reads'
  have nodes : ∀ hash, graph.nodes.lookup hash = graph'.nodes.lookup hash := fun hash =>
    Option.ext fun node => ⟨(lookup_eq_of_le reads reads' same.le tidy').1 node,
      (lookup_eq_of_le reads' reads same.ge tidy).1 node⟩
  have resolutions : ∀ hash, graph.resolutions.lookup hash = graph'.resolutions.lookup hash :=
    fun hash => Option.ext fun payload => ⟨(lookup_eq_of_le reads reads' same.le tidy').2 payload,
      (lookup_eq_of_le reads' reads same.ge tidy).2 payload⟩
  have children : ∀ hash, (graph.children.lookup hash).getD ∅ =
      (graph'.children.lookup hash).getD ∅ := by
    intro hash
    rw [reads.children, reads'.children]
    exact (childIds_subset_of_le same.le tidy' hash).antisymm
      (childIds_subset_of_le same.ge tidy hash)
  have size : graph.nodes.keys.length = graph'.nodes.keys.length := by
    have perm := (Table.entries_perm nodes).map Sigma.fst
    simpa [AList.keys, List.keys] using perm.length_eq
  rw [validateCoownershipLedger, validateCoownershipLedger, built, built']
  simp only [ok_bind, size, reads.root, reads'.root]
  congr 1
  exact funext (readCertificate_congr nodes children resolutions)

theorem CollisionFree.accepts_iff (free : CollisionFree P ledger.certificates) :
    (∃ graph, buildGraph P ledger = .ok graph) ↔ Admissible P ledger := by
  constructor
  · rintro ⟨graph, built⟩
    exact (free.buildGraph_spec built).2.1
  · intro admissible
    exact admissible.buildGraph (free.fresh admissible.genesis admissible.hashed)

theorem Admissible.reordered (admissible : Admissible P ledger)
    (free : CollisionFree P ledger.certificates) (reordered : ledger.Reordered other) :
    Admissible P other ∧ validateCoownershipLedger P ledger =
      validateCoownershipLedger P other := by
  have good : Good P ledger.certificates ledger.genesis.payload ledger :=
    ⟨admissible, rfl, fun _ => id⟩
  have good' := good.reordered free reordered
  exact ⟨good'.admissible, good.validate_eq free good' reordered.content_eq⟩

/-- The visit of any ledger ends.  `buildGraph` accepts exactly the admissible
ledgers, and neither that nor the status depends on the order of the records or
of their approvals. -/
theorem ledger_in_any_order (P : Primitives) (ledger : CoownershipLedger) :
    VisitEnds P ledger ∧ (CollisionFree P ledger.certificates →
      ((∃ graph, buildGraph P ledger = .ok graph) ↔ Admissible P ledger) ∧
      ∀ other, ledger.Reordered other →
        ((∃ graph, buildGraph P other = .ok graph) ↔ Admissible P ledger) ∧
        ∀ validated, validateCoownershipLedger P ledger = .ok validated ↔
          validateCoownershipLedger P other = .ok validated) := by
  refine ⟨visitEnds P ledger, fun free => ⟨free.accepts_iff, fun other reordered => ?_⟩⟩
  have freeOther : CollisionFree P other.certificates := by
    refine free.subset fun certificate member => ?_
    rcases List.mem_cons.mp member with rfl | listed
    · exact reordered.genesis ▸ List.mem_cons_self
    · obtain ⟨record, isRecord, rfl⟩ := List.mem_map.mp listed
      obtain ⟨source, isSource, payload, -⟩ := reordered.approved.exists_source isRecord
      exact List.mem_cons_of_mem _ (List.mem_map.mpr ⟨source, isSource, payload⟩)
  refine ⟨freeOther.accepts_iff.trans ⟨fun admissible =>
    (admissible.reordered freeOther reordered.symm).1, fun admissible =>
    (admissible.reordered free reordered).1⟩, fun validated => ⟨fun valid => ?_, fun valid => ?_⟩⟩
  · obtain ⟨graph, built, -⟩ := bind_ok.mp valid
    rwa [← ((free.accepts_iff.mp ⟨graph, built⟩).reordered free reordered).2]
  · obtain ⟨graph, built, -⟩ := bind_ok.mp valid
    rwa [← ((freeOther.accepts_iff.mp ⟨graph, built⟩).reordered freeOther reordered.symm).2]

open Sample

set_option maxRecDepth 100000

theorem resolvedLedger_in_any_order :
    validateCoownershipLedger primitives { resolvedLedger with
      transitions := resolvedLedger.transitions.reverse } =
        .ok ⟨"scope", .authorized resolvedState⟩ :=
  ((((ledger_in_any_order primitives resolvedLedger).2
    (collisionFree_of_nodup (by decide))).2 { resolvedLedger with
      transitions := resolvedLedger.transitions.reverse }
      ⟨rfl, (List.reverse_perm _).symm.map _, .refl _⟩).2 _).mp (by decide)

end Status

/-! ## Any order and grouping -/

/-- `merged` has exactly the payloads of `inputs`, each once, and on each exactly
the approvals it has in `inputs`, each once. -/
structure PoolsRecords {T : Type} (inputs : List (List (CoownedRecord T)))
    (merged : List (CoownedRecord T)) : Prop where
  payloads : ∀ payload, (∃ record ∈ merged, record.payload = payload) ↔
    ∃ records ∈ inputs, ∃ record ∈ records, record.payload = payload
  approvals : ∀ record ∈ merged, ∀ approval, approval ∈ record.approvals ↔
    ∃ records ∈ inputs, ∃ input ∈ records, input.payload = record.payload ∧
      approval ∈ input.approvals
  once : (merged.map CoownedRecord.payload).Nodup ∧ ∀ record ∈ merged, record.approvals.Nodup

/-- The union of ledgers. -/
structure Pools (inputs : List CoownershipLedger) (merged : CoownershipLedger) : Prop where
  transitions : PoolsRecords (inputs.map CoownershipLedger.transitions) merged.transitions
  resolutions : PoolsRecords (inputs.map CoownershipLedger.resolutions) merged.resolutions

section Trees

theorem mem_joined (tree : MergeTree CoownershipLedger) :
    (∀ certificate, certificate ∈ (tree.joined CoownershipLedger.content).1 ↔
      ∃ ledger ∈ tree.leaves, certificate ∈ ledger.content.1) ∧
    ∀ pair, pair ∈ (tree.joined CoownershipLedger.content).2 ↔
      ∃ ledger ∈ tree.leaves, pair ∈ ledger.content.2 := by
  induction tree with
  | leaf ledger => simp [MergeTree.joined, MergeTree.leaves]
  | adopt tree ih => exact ih
  | merge current incoming ihLeft ihRight =>
    simp [MergeTree.joined, MergeTree.leaves, ihLeft, ihRight, or_and_right, exists_or]

variable {merged : CoownershipLedger}

/-- The certificates with a label are the records of one kind. -/
def Labels {T : Type} (label : T → Certificate)
    (records : CoownershipLedger → List (CoownedRecord T)) : Prop :=
  ∀ ledger payload approval,
    (label payload ∈ ledger.content.1 ↔ ∃ record ∈ records ledger, record.payload = payload) ∧
    ((label payload, approval) ∈ ledger.content.2 ↔
      ∃ record ∈ records ledger, record.payload = payload ∧ approval ∈ record.approvals)

theorem labels_transition : Labels .transition CoownershipLedger.transitions := by
  intro ledger payload approval
  constructor <;> simp [content_eq, relabel, recordContent]

theorem labels_resolution : Labels .resolution CoownershipLedger.resolutions := by
  intro ledger payload approval
  constructor <;> simp [content_eq, relabel, recordContent]

/-- The records of one kind in a pool of contents. -/
theorem poolsRecords_of_content {T : Type} {label : T → Certificate}
    {records : CoownershipLedger → List (CoownedRecord T)} (labelled : Labels label records)
    {tree : MergeTree CoownershipLedger}
    (content : merged.content = tree.joined CoownershipLedger.content)
    (tidy : Tidy (records merged)) : PoolsRecords (tree.leaves.map records) (records merged) where
  payloads payload := by
    rw [← (labelled merged payload ⟨"", ""⟩).1, content, (mem_joined tree).1]
    simp only [List.mem_map, exists_exists_and_eq_and]
    exact exists_congr fun ledger => and_congr_right fun _ => (labelled ledger payload ⟨"", ""⟩).1
  approvals record member approval := by
    have own : approval ∈ record.approvals ↔
        (label record.payload, approval) ∈ merged.content.2 :=
      (tidy.mem_approvals_iff member).trans (labelled merged record.payload approval).2.symm
    rw [own, content, (mem_joined tree).2]
    simp only [List.mem_map, exists_exists_and_eq_and]
    exact exists_congr fun ledger => and_congr_right fun _ =>
      (labelled ledger record.payload approval).2
  once := ⟨tidy.payloads, tidy.approvals⟩

/-- A merge that returns has pooled its ledgers within the limits. -/
theorem merge_ok {current incoming : CoownershipLedger}
    (merges : mergeCoownershipLedgers P (some current) incoming = .ok merged) :
    ∃ left right graph, buildGraph P current = .ok left ∧ buildGraph P incoming = .ok right ∧
      left.genesisHash = right.genesisHash ∧
      buildGraph P (pooledLedger P current incoming) = .ok graph ∧
      merged = pooledLedger P current incoming := by
  obtain ⟨left, builtLeft, rest⟩ := bind_ok.mp merges
  obtain ⟨right, builtRight, rest⟩ := bind_ok.mp rest
  obtain ⟨sameGenesis, rest⟩ := refuse_bind_ok.mp rest
  obtain ⟨graph, built, result⟩ := bind_ok.mp rest
  exact ⟨left, right, graph, builtLeft, builtRight, Decidable.not_not.mp sameGenesis, built,
    (Except.ok.inj result).symm⟩

/-- The ledgers of a valid family are good for its certificates. -/
theorem good_of_valid {family : List CoownershipLedger}
    (valid : ∀ ledger ∈ family, ∃ validated, validateCoownershipLedger P ledger = .ok validated)
    (sameGenesis : ∀ left ∈ family, ∀ right ∈ family,
      payloadHash P left.genesis.payload = payloadHash P right.genesis.payload)
    (free : CollisionFree P (family.flatMap CoownershipLedger.certificates)) :
    ∃ genesis, ∀ ledger ∈ family,
      Good P (family.flatMap CoownershipLedger.certificates) genesis ledger := by
  have isKnown : ∀ ledger ∈ family, ∀ certificate ∈ ledger.certificates,
      certificate ∈ family.flatMap CoownershipLedger.certificates :=
    fun ledger member certificate listed => List.mem_flatMap.mpr ⟨ledger, member, listed⟩
  cases family with
  | nil => exact ⟨⟨"", 0, "", ⟨"", "", []⟩, .majority, 0⟩, by simp⟩
  | cons first rest =>
    refine ⟨first.genesis.payload, fun ledger member => ?_⟩
    obtain ⟨validated, validates⟩ := valid ledger member
    obtain ⟨graph, built, -⟩ := bind_ok.mp validates
    obtain ⟨-, admissible, -⟩ := (free.subset (isKnown ledger member)).buildGraph_spec built
    refine ⟨admissible, ?_, isKnown ledger member⟩
    have hash := admissible.genesis.hashed
    have firstHash := (sameGenesis first List.mem_cons_self ledger member).trans hash
    exact Certificate.genesis.inj (free (.genesis ledger.genesis.payload)
      (isKnown ledger member _ List.mem_cons_self) (.genesis first.genesis.payload)
      (isKnown first List.mem_cons_self _ List.mem_cons_self) _ hash firstHash)

/-- In any order and grouping and with repetitions, merging ledgers of the family
gives the union of the leaves, which validates, or fails where a pooled ledger
is over a limit; and evaluations over the same leaves validate to the same
status. -/
def MergesConverge (P : Primitives) (family : List CoownershipLedger) : Prop :=
  (∀ tree : MergeTree CoownershipLedger, (∀ ledger ∈ tree.leaves, ledger ∈ family) →
    (∃ merged validated, tree.eval (mergeCoownershipLedgers P) = .ok merged ∧
      Pools tree.leaves merged ∧ validateCoownershipLedger P merged = .ok validated) ∨
    ∃ error current incoming, tree.eval (mergeCoownershipLedgers P) = .error error ∧
      tree.Meets (mergeCoownershipLedgers P) current incoming ∧
      ¬ WithinLimits (pooledLedger P current incoming)) ∧
  ∀ left right : MergeTree CoownershipLedger, (∀ ledger ∈ left.leaves, ledger ∈ family) →
    (∀ ledger, ledger ∈ left.leaves ↔ ledger ∈ right.leaves) →
    ∀ merged merged', left.eval (mergeCoownershipLedgers P) = .ok merged →
      right.eval (mergeCoownershipLedgers P) = .ok merged' →
      validateCoownershipLedger P merged = validateCoownershipLedger P merged'

/-- Valid ledgers of one genesis converge. -/
theorem ledger_merges_converge {family : List CoownershipLedger}
    (valid : ∀ ledger ∈ family, ∃ validated, validateCoownershipLedger P ledger = .ok validated)
    (sameGenesis : ∀ left ∈ family, ∀ right ∈ family,
      payloadHash P left.genesis.payload = payloadHash P right.genesis.payload)
    (free : CollisionFree P (family.flatMap CoownershipLedger.certificates)) :
    MergesConverge P family := by
  obtain ⟨genesis, good⟩ := good_of_valid valid sameGenesis free
  have spec := fun tree : MergeTree CoownershipLedger => fun leaves : ∀ ledger ∈ tree.leaves,
    ledger ∈ family => MergeTree.eval_spec (merge_joins free) tree
      fun ledger member => good ledger (leaves ledger member)
  -- Two states that do not fit leave the tree without a value.
  have stuck : ∀ (tree : MergeTree CoownershipLedger) current incoming,
      tree.Meets (mergeCoownershipLedgers P) current incoming →
      ¬ WithinLimits (pooledLedger P current incoming) →
      ∃ error, tree.eval (mergeCoownershipLedgers P) = .error error := by
    intro tree current incoming meets exceeds
    refine MergeTree.eval_error_of_meets meets fun merged merges => exceeds ?_
    obtain ⟨-, -, graph, -, -, -, built, -⟩ := merge_ok merges
    exact withinLimits_of_buildGraph built
  have value : ∀ tree : MergeTree CoownershipLedger, (∀ ledger ∈ tree.leaves, ledger ∈ family) →
      ∀ merged, tree.eval (mergeCoownershipLedgers P) = .ok merged →
      Good P (family.flatMap CoownershipLedger.certificates) genesis merged ∧
        merged.content = tree.joined CoownershipLedger.content := by
    intro tree leaves merged evaluates
    rcases spec tree leaves with ⟨result, isResult, facts⟩ | ⟨a, b, meets, -, -, exceeds⟩
    · obtain rfl := ok_unique isResult evaluates
      exact facts
    · obtain ⟨error, fails⟩ := stuck tree a b meets exceeds
      cases fails.symm.trans evaluates
  constructor
  · intro tree leaves
    rcases spec tree leaves with ⟨merged, evaluates, isGood, content⟩ | ⟨a, b, meets, -, -, exceeds⟩
    · obtain ⟨validated, validates⟩ := isGood.admissible.validates (isGood.fresh free)
      obtain ⟨transitions, resolutions⟩ := tidy_approved.mp isGood.admissible.tidy
      exact .inl ⟨merged, validated, evaluates,
        ⟨poolsRecords_of_content labels_transition content transitions,
          poolsRecords_of_content labels_resolution content resolutions⟩,
        validates⟩
    · obtain ⟨error, fails⟩ := stuck tree a b meets exceeds
      exact .inr ⟨error, a, b, fails, meets, exceeds⟩
  · intro left right leaves same merged merged' evalLeft evalRight
    obtain ⟨goodLeft, contentLeft⟩ := value left leaves merged evalLeft
    obtain ⟨goodRight, contentRight⟩ := value right
      (fun ledger member => leaves ledger ((same ledger).mpr member)) merged' evalRight
    refine goodLeft.validate_eq free goodRight ?_
    rw [contentLeft, contentRight]
    exact MergeTree.joined_eq_of_leaves _ same

end Trees

/-! One ledger with a transition, and one without whose genesis a device of the
creator signed. -/

namespace Sample

def extendedLedger : CoownershipLedger :=
  ⟨genesis, [transition [owner 0 1] .unanimous], []⟩

def deviceSignedLedger : CoownershipLedger :=
  ⟨⟨genesis.payload, keyId 1, letters 86 1⟩, [], []⟩

def doubledLedger : CoownershipLedger :=
  { extendedLedger with
    transitions := extendedLedger.transitions ++ extendedLedger.transitions }

end Sample

open Sample

set_option maxRecDepth 100000

/-- Records that are reachable and valid are refused where one is listed twice. -/
theorem doubled_record_refused :
    (∃ graph, buildGraph primitives extendedLedger = .ok graph) ∧
    Supported primitives (hashOf primitives genesis.payload)
      (genesisNode genesis.payload) (doubledLedger.entries primitives) ∧
    ¬ ∃ graph, buildGraph primitives doubledLedger = .ok graph := by
  have checked : ∀ entry ∈ doubledLedger.entries primitives,
      entry.parentHash = hashOf primitives genesis.payload ∧
      checkRecord primitives (genesisNode genesis.payload) entry = .ok () := by
    decide
  refine ⟨isOk_iff.mp (by decide), fun entry member => ⟨_, ?_, (checked entry member).2⟩, ?_⟩
  · rw [(checked entry member).1]
    exact .root
  · rintro ⟨graph, built⟩
    obtain ⟨-, -, -, -, distinct, -⟩ := buildGraph_ok.mp built
    exact absurd distinct (by decide)

theorem sample_merges_converge :
    MergesConverge primitives [extendedLedger, deviceSignedLedger] := by
  refine ledger_merges_converge ?_ ?_ ?_
  · intro ledger member
    apply isOk_iff.mp
    revert ledger
    decide
  · decide
  · have distinct : CollisionFree primitives extendedLedger.certificates :=
      collisionFree_of_nodup (by decide)
    exact distinct.subset (by decide)

end MetaMesh
