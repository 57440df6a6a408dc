import MetaMesh.Coownership.GraphSpec

/-!
# The chain behind an authorized state

`authorized_chain`: an authorized answer of `validateCoownershipLedger` rests on
a chain of certificates from the genesis to the certificate it names.  Each step
has a quorum of distinct owners of the certificate before it, and where a
certificate has several children the chosen one is the only resolution that
names all the others.  The walk keeps such a chain up to its cursor; the theorem
reads it off where the walk stops.

Hashes are assumed to tell the payloads of the ledger at hand apart.
-/

namespace MetaMesh

open Fallible

/-- The payloads that can stand in a chain. -/
inductive Certificate
  | genesis (payload : CoownedGenesisPayload)
  | transition (payload : CoownedTransitionPayload)
  | resolution (payload : CoownedResolutionPayload)
deriving DecidableEq

namespace Certificate

def hash (P : Primitives) : Certificate → Except String String
  | genesis payload => payloadHash P payload
  | transition payload => payloadHash P payload
  | resolution payload => payloadHash P payload

def parentHash? : Certificate → Option String
  | genesis _ => none
  | transition payload => some payload.parentCertificateHash
  | resolution payload => some payload.parentCertificateHash

def node : Certificate → Node
  | genesis payload => genesisNode payload
  | transition payload => nodeFromTransition payload
  | resolution payload => nodeFromResolution payload

/-- `approval` is `owner`'s signature on the certificate. -/
def SignedBy (P : Primitives) (owner : CoownerIdentity) (approval : CoownedApproval) :
    Certificate → Prop
  | genesis payload => Signs P payload owner approval
  | transition payload => Signs P payload owner approval
  | resolution payload => Signs P payload owner approval

end Certificate

namespace CoownershipLedger

/-- Every certificate of a ledger after the genesis, with its approvals. -/
def approved (ledger : CoownershipLedger) : List (CoownedRecord Certificate) :=
  (ledger.transitions.map fun record => ⟨.transition record.payload, record.approvals⟩) ++
    ledger.resolutions.map fun record => ⟨.resolution record.payload, record.approvals⟩

def certificates (ledger : CoownershipLedger) : List Certificate :=
  .genesis ledger.genesis.payload :: ledger.approved.map CoownedRecord.payload

end CoownershipLedger

/-- Equal hashes mean equal payloads, for the payloads in `certificates`. -/
def CollisionFree (P : Primitives) (certificates : List Certificate) : Prop :=
  ∀ a ∈ certificates, ∀ b ∈ certificates, ∀ hash,
    a.hash P = .ok hash → b.hash P = .ok hash → a = b

theorem collisionFree_of_nodup {P : Primitives} {certificates : List Certificate}
    (distinct : (certificates.map fun c => (c.hash P).toOption).Nodup) :
    CollisionFree P certificates := by
  intro a left b right hash leftHash rightHash
  exact List.inj_on_of_nodup_map distinct left right (by simp [leftHash, rightHash])

section Chain

variable (P : Primitives) (ledger : CoownershipLedger)

/-- The resolution names the other children of its parent, all of them and
nothing else. -/
def NamesRivals (resolution : CoownedResolutionPayload) : Prop :=
  ∀ hash, hash ∈ resolution.conflictingCertificateHashes ↔
    ∃ rival ∈ ledger.certificates, rival.parentHash? = some resolution.parentCertificateHash ∧
      rival ≠ .resolution resolution ∧ rival.hash P = .ok hash

/-- A quorum of distinct owners of `previous` signed `next`. -/
def QuorumSigned (previous next : Certificate) : Prop :=
  ∃ record ∈ ledger.approved, record.payload = next ∧ ∃ people : Finset String,
    previous.node.policy.quorum previous.node.owners.length ≤ people.card ∧
    ∀ person ∈ people, ∃ owner ∈ previous.node.owners, owner.personId = person ∧
      ∃ approval ∈ record.approvals, next.SignedBy P owner approval

/-- One step of a chain. -/
structure Succeeds (previous next : Certificate) : Prop where
  /-- The step names the certificate before it. -/
  parent : ∃ hash, previous.hash P = .ok hash ∧ next.parentHash? = some hash
  epoch : next.node.epoch = previous.node.epoch + 1
  quorum : QuorumSigned P ledger previous next
  /-- Against rivals, `next` is the only resolution that names exactly all of them. -/
  chosen : ∀ rival ∈ ledger.certificates, rival.parentHash? = next.parentHash? → rival ≠ next →
    ∃ resolution, next = .resolution resolution ∧ NamesRivals P ledger resolution ∧
      ∀ other, .resolution other ∈ ledger.certificates →
        some other.parentCertificateHash = next.parentHash? → NamesRivals P ledger other →
        other = resolution
  /-- No rival is passed over: the chosen child names its hash. -/
  accounted : ∀ rival ∈ ledger.certificates, rival.parentHash? = next.parentHash? →
    rival ≠ next → ∃ resolution hash, next = .resolution resolution ∧
      rival.hash P = .ok hash ∧ hash ∈ resolution.conflictingCertificateHashes

/-- A chain of the ledger's certificates from the genesis to `last`. -/
structure ChainTo (chain : List Certificate) (last : Certificate) : Prop where
  starts : chain.head? = some (.genesis ledger.genesis.payload)
  ends : chain.getLast? = some last
  steps : chain.IsChain (Succeeds P ledger)
  members : ∀ certificate ∈ chain, certificate ∈ ledger.certificates

end Chain

/-! ## Entries and certificates -/

def Pending.certificate : Pending → Certificate
  | transition _ record => .transition record.payload
  | resolution _ record => .resolution record.payload

def Pending.approvals : Pending → List CoownedApproval
  | transition _ record => record.approvals
  | resolution _ record => record.approvals

@[simp] theorem Pending.parentHash?_certificate (entry : Pending) :
    entry.certificate.parentHash? = some entry.parentHash := by
  cases entry <;> rfl

@[simp] theorem Pending.node_certificate (entry : Pending) :
    entry.certificate.node = entry.node := by
  cases entry <;> rfl

theorem Pending.certificate_eq_resolution {entry : Pending} {payload : CoownedResolutionPayload} :
    entry.certificate = .resolution payload ↔ entry.resolution? = some payload := by
  cases entry <;> simp [Pending.certificate, Pending.resolution?]

section Entries

variable {P : Primitives} {ledger : CoownershipLedger} {certificate : Certificate}

theorem approved_eq_map_entries :
    ledger.approved = (ledger.entries P).map fun entry => ⟨entry.certificate, entry.approvals⟩ := by
  rw [CoownershipLedger.entries, List.map_append, List.map_map, List.map_map]
  rfl

theorem mem_certificates :
    certificate ∈ ledger.certificates ↔ certificate = .genesis ledger.genesis.payload ∨
      ∃ entry ∈ ledger.entries P, entry.certificate = certificate := by
  simp [CoownershipLedger.certificates, @approved_eq_map_entries P ledger]

theorem entry_certificate_mem {entry : Pending} (member : entry ∈ ledger.entries P) :
    entry.certificate ∈ ledger.certificates :=
  mem_certificates.mpr (.inr ⟨entry, member, rfl⟩)

/-- A child in the ledger is one of its records. -/
theorem entry_of_parentHash? {certificate : Certificate} {hash : String}
    (member : certificate ∈ ledger.certificates) (parent : certificate.parentHash? = some hash) :
    ∃ entry ∈ ledger.entries P, entry.certificate = certificate ∧ entry.parentHash = hash := by
  rcases mem_certificates.mp member with rfl | ⟨entry, isEntry, rfl⟩
  · cases parent
  · exact ⟨entry, isEntry, rfl, by simpa using parent⟩

theorem Hashed.hash_certificate (hashed : Hashed P ledger) {entry : Pending}
    (member : entry ∈ ledger.entries P) : entry.certificate.hash P = .ok entry.id := by
  simp only [CoownershipLedger.entries, List.mem_append, List.mem_map] at member
  rcases member with ⟨record, isRecord, rfl⟩ | ⟨record, isRecord, rfl⟩
  · exact hashed.1 record isRecord
  · exact hashed.2 record isRecord

/-- The genesis keeps a hash of its own. -/
theorem CollisionFree.fresh (free : CollisionFree P ledger.certificates)
    (genesis : GenesisValid P ledger.genesis) (hashed : Hashed P ledger) :
    GenesisApart P ledger := by
  intro member
  obtain ⟨entry, isEntry, same⟩ := List.mem_map.mp member
  have collides := free (.genesis ledger.genesis.payload) List.mem_cons_self entry.certificate
    (entry_certificate_mem isEntry) _ genesis.hashed (same ▸ hashed.hash_certificate isEntry)
  cases entry <;> cases collides

/-- A ledger that builds, under collision freedom. -/
theorem CollisionFree.buildGraph_spec (free : CollisionFree P ledger.certificates)
    {graph : Graph} (built : buildGraph P ledger = .ok graph) :
    GenesisApart P ledger ∧ Admissible P ledger ∧ graph.ReadsLedger P ledger := by
  obtain ⟨-, -, genesis, hashed, -⟩ := buildGraph_ok.mp built
  have fresh := free.fresh genesis hashed
  exact ⟨fresh, MetaMesh.buildGraph_spec fresh built⟩

end Entries

/-! ## The walk -/

section Walk

variable {P : Primitives} {ledger : CoownershipLedger} {parentHash genesisHash : String}
  {parent genesis : Node}

theorem epoch_of_validateCommonPayload {kind scopeId expectedKind : String} {version : UInt8}
    {epoch : Nat}
    (passed : validateCommonPayload kind version scopeId parentHash epoch parent expectedKind =
      .ok ()) : epoch = parent.epoch + 1 := by
  obtain ⟨expected, next, checked⟩ := bind_ok.mp passed
  obtain ⟨-, next⟩ := refuse_bind_ok.mp next
  obtain rfl := Except.ok.inj next
  simp only [refuse_ok, not_or, Decidable.not_not] at checked
  exact checked.2.2.2.2

variable {entry : Pending}

/-- What the checks on a record say about it and its parent. -/
theorem checkRecord_spec (passed : checkRecord P parent entry = .ok ()) :
    entry.node.epoch = parent.epoch + 1 ∧ ∃ people : Finset String,
      parent.policy.quorum parent.owners.length ≤ people.card ∧
      ∀ person ∈ people, ∃ owner ∈ parent.owners, owner.personId = person ∧
        ∃ approval ∈ entry.approvals, entry.certificate.SignedBy P owner approval := by
  cases entry
  all_goals
    obtain ⟨⟨⟩, valid, approved⟩ := bind_ok.mp passed
    obtain ⟨⟨⟩, common, -⟩ := bind_ok.mp valid
    exact ⟨epoch_of_validateCommonPayload common, (verifyApprovals_ok.mp approved).people⟩

theorem certificate_ne_iff (hashed : Hashed P ledger)
    (distinct : ((ledger.entries P).map Pending.id).Nodup) {a b : Pending}
    (left : a ∈ ledger.entries P) (right : b ∈ ledger.entries P) :
    a.certificate ≠ b.certificate ↔ a.id ≠ b.id := by
  refine not_congr ⟨fun same => ?_, fun same => ?_⟩
  · have leftHash := hashed.hash_certificate left
    rw [same, hashed.hash_certificate right] at leftHash
    exact (Except.ok.inj leftHash).symm
  · rw [List.inj_on_of_nodup_map distinct left right same]

/-- `resolverIds` asks a resolution for exactly the hashes of its rivals. -/
theorem namesRivals_iff (hashed : Hashed P ledger)
    (distinct : ((ledger.entries P).map Pending.id).Nodup) {payload : CoownedResolutionPayload}
    (member : entry ∈ ledger.entries P) (resolution : entry.resolution? = some payload) :
    payload.conflictingCertificateHashes.toFinset =
        (childIds (ledger.entries P) payload.parentCertificateHash).erase entry.id ↔
      NamesRivals P ledger payload := by
  have own := Pending.certificate_eq_resolution.mpr resolution
  have rivals : ∀ hash, hash ∈ (childIds (ledger.entries P)
      payload.parentCertificateHash).erase entry.id ↔
      ∃ rival ∈ ledger.certificates, rival.parentHash? = some payload.parentCertificateHash ∧
        rival ≠ .resolution payload ∧ rival.hash P = .ok hash := by
    intro hash
    rw [Finset.mem_erase, mem_childIds, ← own]
    constructor
    · rintro ⟨other, rival, isEntry, parent, rfl⟩
      exact ⟨rival.certificate, entry_certificate_mem isEntry, by simp [parent],
        (certificate_ne_iff hashed distinct isEntry member).mpr other,
        hashed.hash_certificate isEntry⟩
    · rintro ⟨certificate, isMember, parent, other, named⟩
      obtain ⟨rival, isEntry, rfl, filed⟩ := entry_of_parentHash? isMember parent
      rw [hashed.hash_certificate isEntry] at named
      obtain rfl := Except.ok.inj named
      exact ⟨(certificate_ne_iff hashed distinct isEntry member).mp other, rival, isEntry,
        filed, rfl⟩
  simp only [NamesRivals, ← rivals, Finset.ext_iff, List.mem_toFinset]

variable {graph : Graph} {entries : List Pending}

theorem mem_resolverIds (reads : graph.Reads genesisHash genesis entries) {id : String}
    {siblings : Finset String} :
    id ∈ resolverIds graph parentHash siblings ↔
      ∃ entry ∈ entries, entry.id = id ∧ ∃ payload, entry.resolution? = some payload ∧
        payload.parentCertificateHash = parentHash ∧
        payload.conflictingCertificateHashes.toFinset = siblings.erase id := by
  simp only [resolverIds, List.mem_map, List.mem_filter, decide_eq_true_eq]
  constructor
  · rintro ⟨⟨id, payload⟩, ⟨inTable, parent, named⟩, rfl⟩
    obtain ⟨entry, member, rfl, resolution⟩ :=
      (reads.resolutions id payload).mp (AList.mem_lookup_iff.mpr inTable)
    exact ⟨entry, member, rfl, payload, resolution, parent, named⟩
  · rintro ⟨entry, member, rfl, payload, resolution, parent, named⟩
    have found := (reads.resolutions entry.id payload).mpr ⟨entry, member, rfl, resolution⟩
    exact ⟨⟨entry.id, payload⟩, ⟨AList.mem_lookup_iff.mp found, parent, named⟩, rfl⟩

variable {cursor : String}

/-- One reading of the graph: the walk goes to an only child or to the only
resolver, or it stops. -/
theorem readCertificate_spec (reads : graph.Reads genesisHash genesis entries)
    {outcome : String ⊕ ValidatedCoownership} (read : readCertificate graph cursor = .ok outcome) :
    ∃ node, graph.nodes.lookup cursor = some node ∧ ((childIds entries cursor = ∅ ∧
          outcome = .inr ⟨node.scopeId, .authorized (state node cursor)⟩) ∨
        (∃ entry ∈ entries, entry.parentHash = cursor ∧ outcome = .inl entry.id ∧
          (childIds entries cursor = {entry.id} ∨
            resolverIds graph cursor (childIds entries cursor) = [entry.id])) ∨
        ∃ conflicts, outcome = .inr ⟨node.scopeId, .ambiguous conflicts⟩) := by
  obtain ⟨node, found, read⟩ := bind_ok.mp read
  refine ⟨node, okOr_ok.mp found, ?_⟩
  simp only [reads.children] at read
  split at read
  · next none => exact .inl ⟨none, (Except.ok.inj read).symm⟩
  · split at read
    · next only single =>
      have single := (sortedSet_eq_singleton _).mp single
      obtain ⟨entry, member, parent, rfl⟩ := mem_childIds.mp (single ▸ Finset.mem_singleton_self _)
      exact .inr (.inl ⟨entry, member, parent, (Except.ok.inj read).symm, .inl single⟩)
    · next resolver single _ =>
      obtain ⟨entry, member, rfl, payload, resolution, parent, -⟩ :=
        (mem_resolverIds reads).mp (single ▸ List.mem_singleton_self _)
      exact .inr (.inl ⟨entry, member, (parentHash_of_resolution resolution).symm.trans parent,
        (Except.ok.inj read).symm, .inr single⟩)
    · exact .inr (.inr ⟨_, (Except.ok.inj read).symm⟩)

variable (P ledger entry) in
/-- The only child of its parent that names all its rivals. -/
def Resolves : Prop :=
  ∃ payload, entry.resolution? = some payload ∧ NamesRivals P ledger payload ∧
    ∀ other ∈ ledger.entries P, ∀ payload', other.resolution? = some payload' →
      other.parentHash = entry.parentHash → NamesRivals P ledger payload' → other = entry

/-- The child the walk goes to continues the chain. -/
theorem succeeds_of_entry {previous : Certificate} (hashed : Hashed P ledger)
    (distinct : ((ledger.entries P).map Pending.id).Nodup) (here : previous.hash P = .ok cursor)
    (member : entry ∈ ledger.entries P) (parent : entry.parentHash = cursor)
    (passed : checkRecord P previous.node entry = .ok ())
    (chosen : childIds (ledger.entries P) cursor = {entry.id} ∨ Resolves P ledger entry) :
    Succeeds P ledger previous entry.certificate := by
  obtain ⟨epoch, people, quorum, signed⟩ := checkRecord_spec passed
  -- Against an only child there is no rival; otherwise the child is the resolution.
  have rivalled : ∀ rival ∈ ledger.certificates,
      rival.parentHash? = entry.certificate.parentHash? → rival ≠ entry.certificate →
      Resolves P ledger entry := by
    intro rival isMember sibling other
    refine chosen.resolve_left fun single => ?_
    rw [Pending.parentHash?_certificate, parent] at sibling
    obtain ⟨rival, isEntry, rfl, filed⟩ := entry_of_parentHash? isMember sibling
    have child : rival.id ∈ childIds (ledger.entries P) cursor :=
      mem_childIds.mpr ⟨rival, isEntry, filed, rfl⟩
    rw [single, Finset.mem_singleton] at child
    exact (certificate_ne_iff hashed distinct isEntry member).mp other child
  refine ⟨⟨cursor, here, by simp [parent]⟩, by simpa using epoch,
    ⟨⟨entry.certificate, entry.approvals⟩, ?_, rfl, people, quorum, signed⟩, ?_, ?_⟩
  · rw [@approved_eq_map_entries P]
    exact List.mem_map.mpr ⟨entry, member, rfl⟩
  · intro rival isMember sibling other
    obtain ⟨payload, resolution, names, unique⟩ := rivalled rival isMember sibling other
    have own := Pending.certificate_eq_resolution.mpr resolution
    refine ⟨payload, own, names, fun candidate candidateMember candidateParent candidateNames => ?_⟩
    rw [Pending.parentHash?_certificate, parent] at candidateParent
    obtain ⟨found, isEntry, isCandidate, filed⟩ :=
      @entry_of_parentHash? P _ _ _ candidateMember candidateParent
    have same := unique found isEntry candidate
      (Pending.certificate_eq_resolution.mp isCandidate) (filed.trans parent.symm) candidateNames
    rw [same, own] at isCandidate
    exact (Certificate.resolution.inj isCandidate).symm
  · intro rival isMember sibling other
    obtain ⟨payload, resolution, names, -⟩ := rivalled rival isMember sibling other
    have own := Pending.certificate_eq_resolution.mpr resolution
    rw [Pending.parentHash?_certificate] at sibling
    obtain ⟨found, isEntry, rfl, filed⟩ := entry_of_parentHash? isMember sibling
    refine ⟨payload, found.id, own, hashed.hash_certificate isEntry, ?_⟩
    exact (names found.id).mpr ⟨found.certificate, isMember, by
      simp [filed, parentHash_of_resolution resolution], own ▸ other,
      hashed.hash_certificate isEntry⟩

variable (P ledger graph cursor) in
/-- What the walk keeps at its cursor: a chain to the certificate there, as
long as the certificate's epoch. -/
def WalkedTo : Prop :=
  ∃ chain last, ChainTo P ledger chain last ∧ last.hash P = .ok cursor ∧
    graph.nodes.lookup cursor = some last.node ∧ last.node.epoch = chain.length

theorem WalkedTo.start (genesis : GenesisValid P ledger.genesis)
    (reads : graph.ReadsLedger P ledger) : WalkedTo P ledger graph graph.genesisHash := by
  refine ⟨[.genesis ledger.genesis.payload], .genesis ledger.genesis.payload,
    ⟨rfl, rfl, .singleton _, by simp [CoownershipLedger.certificates]⟩, ?_, ?_, ?_⟩
  · rw [reads.root]
    exact genesis.hashed
  · exact (reads.nodes _ _).mpr (.inl ⟨reads.root, rfl⟩)
  · obtain ⟨⟨⟩, -, checked⟩ := bind_ok.mp genesis.payload
    obtain ⟨checked, -⟩ := refuse_bind_ok.mp checked
    simp only [not_or, Decidable.not_not] at checked
    exact checked.2.2

theorem ChainTo.append {chain : List Certificate} {last next : Certificate}
    (walked : ChainTo P ledger chain last) (step : Succeeds P ledger last next)
    (member : next ∈ ledger.certificates) : ChainTo P ledger (chain ++ [next]) next where
  starts := by simp [walked.starts]
  ends := by simp
  steps := by
    rw [List.isChain_append]
    exact ⟨walked.steps, .singleton _, by simpa [walked.ends] using step⟩
  members := by
    intro certificate listed
    rcases List.mem_append.mp listed with old | new
    · exact walked.members certificate old
    · exact List.mem_singleton.mp new ▸ member

theorem WalkedTo.next {next : String} (fresh : GenesisApart P ledger)
    (admissible : Admissible P ledger) (reads : graph.ReadsLedger P ledger)
    (walked : WalkedTo P ledger graph cursor)
    (read : readCertificate graph cursor = .ok (.inl next)) : WalkedTo P ledger graph next := by
  obtain ⟨chain, last, chainTo, here, found, length⟩ := walked
  obtain ⟨node, found', cases⟩ := readCertificate_spec reads read
  -- The child at `next`, and why it was chosen.
  have child : ∃ entry ∈ ledger.entries P, entry.id = next ∧ entry.parentHash = cursor ∧
      (childIds (ledger.entries P) cursor = {entry.id} ∨ Resolves P ledger entry) := by
    rcases cases with ⟨-, same⟩ | ⟨entry, member, parent, same, single | single⟩ | ⟨_, same⟩
    · cases same
    · cases same
      exact ⟨entry, member, rfl, parent, .inl single⟩
    · cases same
      obtain ⟨other, isEntry, sameId, payload, resolution, rfl, names⟩ :=
        (mem_resolverIds reads).mp (single ▸ List.mem_singleton_self _)
      obtain rfl := List.inj_on_of_nodup_map admissible.distinct isEntry member sameId
      refine ⟨other, member, rfl, parent, .inr ⟨payload, resolution, (namesRivals_iff
        admissible.hashed admissible.distinct member resolution).mp names,
        fun rival isEntry payload' resolution' parent' names' => ?_⟩⟩
      have listed : rival.id ∈ resolverIds graph payload.parentCertificateHash
          (childIds (ledger.entries P) payload.parentCertificateHash) := by
        have sameParent := ((parentHash_of_resolution resolution').trans parent').trans parent
        have named := (namesRivals_iff admissible.hashed admissible.distinct isEntry
          resolution').mpr names'
        rw [sameParent] at named
        exact (mem_resolverIds reads).mpr ⟨rival, isEntry, rfl, payload', resolution',
          sameParent, named⟩
      rw [single, List.mem_singleton] at listed
      exact List.inj_on_of_nodup_map admissible.distinct isEntry member listed
    · cases same
  obtain ⟨entry, member, rfl, parent, chosen⟩ := child
  have passed := reads.checked admissible.supported admissible.distinct fresh member
    (parent ▸ found)
  have step := succeeds_of_entry admissible.hashed admissible.distinct here member parent passed
    chosen
  refine ⟨chain ++ [entry.certificate], entry.certificate,
    chainTo.append step (entry_certificate_mem member),
    admissible.hashed.hash_certificate member, ?_, ?_⟩
  · exact (reads.nodes _ _).mpr (.inr ⟨entry, member, rfl, by simp⟩)
  · rw [step.epoch, length, List.length_append, List.length_singleton]

/-- The state an authorized ledger reports is that of the last certificate of a
chain, and no certificate of the ledger is a child of it. -/
theorem authorized_chain {validated : ValidatedCoownership} {authorized : CoownershipState}
    (free : CollisionFree P ledger.certificates)
    (valid : validateCoownershipLedger P ledger = .ok validated)
    (status : validated.status = .authorized authorized) :
    ∃ chain last, ChainTo P ledger chain last ∧
      last.hash P = .ok authorized.certificateHash ∧
      authorized.epoch = chain.length ∧
      authorized = state last.node authorized.certificateHash ∧
      ∀ certificate ∈ ledger.certificates,
        certificate.parentHash? ≠ some authorized.certificateHash := by
  obtain ⟨graph, built, walk⟩ := bind_ok.mp valid
  obtain ⟨fresh, admissible, reads⟩ := free.buildGraph_spec built
  revert authorized
  apply run_invariant walk (WalkedTo P ledger graph) _ (.start admissible.genesis reads)
    (fun cursor next walked read => walked.next fresh admissible reads read)
  rintro cursor result ⟨chain, last, chainTo, here, found, length⟩ read authorized status
  obtain ⟨node, found', cases⟩ := readCertificate_spec reads read
  obtain rfl : last.node = node := Option.mem_unique found found'
  rcases cases with ⟨none, same⟩ | ⟨_, -, -, same, -⟩ | ⟨_, same⟩
  · cases same
    obtain rfl := CoownershipStatus.authorized.inj status
    refine ⟨chain, last, chainTo, here, length, rfl, fun certificate member parent => ?_⟩
    obtain ⟨entry, isEntry, -, filed⟩ := @entry_of_parentHash? P _ _ _ member parent
    have child := mem_childIds.mpr ⟨entry, isEntry, filed, rfl⟩
    rw [show childIds (ledger.entries P) (state last.node cursor).certificateHash = ∅
      from none] at child
    cases child
  · cases same
  · cases same
    cases status

end Walk

/-! A genesis with two competing transitions and the resolution that names both:
the chain is the genesis and the resolution. -/

namespace Sample

def owner (person device : Nat) : CoownerIdentity :=
  ⟨keyId person, letters 43 person, [certificate person device]⟩

def genesis : SignedCoownedGenesis :=
  ⟨⟨"scope-coownership-genesis", 2, "scope", owner 0 1, .majority, 1⟩, keyId 0, letters 86 0⟩

def transition (owners : List CoownerIdentity) (policy : CoownerPolicy) : CoownedTransition :=
  ⟨⟨"scope-coownership-transition", 2, "scope", hashOf primitives genesis.payload, 2, owners,
    policy⟩, [⟨keyId 0, letters 86 0⟩]⟩

def resolution (conflicting : List String) : CoownedResolution :=
  ⟨⟨"scope-coownership-resolution", 2, "scope", hashOf primitives genesis.payload, 2,
    conflicting, [owner 0 1], .majority⟩, [⟨keyId 1, letters 86 1⟩]⟩

def resolvedLedger : CoownershipLedger :=
  let left := transition [owner 0 1] .unanimous
  let right := transition [owner 2 3] .majority
  ⟨genesis, [left, right], [resolution
    (sortedHashes {hashOf primitives left.payload, hashOf primitives right.payload})]⟩

def resolvedState : CoownershipState :=
  ⟨"scope", letters 43 5, 2, [owner 0 1], .majority⟩

end Sample

open Sample

set_option maxRecDepth 100000 in
theorem resolvedLedger_chain :
    ∃ chain last, ChainTo primitives resolvedLedger chain last ∧
      last.hash primitives = .ok resolvedState.certificateHash ∧
      resolvedState.epoch = chain.length ∧
      resolvedState = state last.node resolvedState.certificateHash ∧
      ∀ certificate ∈ resolvedLedger.certificates,
        certificate.parentHash? ≠ some resolvedState.certificateHash :=
  authorized_chain (collisionFree_of_nodup (by decide))
    (show validateCoownershipLedger primitives resolvedLedger =
      .ok ⟨"scope", .authorized resolvedState⟩ by decide) rfl

end MetaMesh
