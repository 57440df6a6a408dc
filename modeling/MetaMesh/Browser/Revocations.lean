import MetaMesh.Browser.Authority

/-!
# Histories of revocations

What `verifyIdentityDeviceAuthority` asks of the revocations of an authority, in terms of
where the certificates stand.  `Admits` is the check of one revocation after those before
it, `History` that every one of them passed; with `Catalogue` this is all that the check
establishes and all that it needs (`verifyIdentityDeviceAuthority_ok`,
`History.accepted`).  Two subtrees overlap exactly if the root of one is in the other, so
a history of a catalogue stays one when the catalogue grows.
-/

namespace MetaMesh.Browser

open Fallible Ancestry

section Authority

variable (P : Primitives) (identity : PublicIdentity) (domain : String)
  (certificates : List DeviceCertificate) (byHash : Table String DeviceCertificate)
  (before : List IdentityDeviceRevocation) (record : IdentityDeviceRevocation)

/-- A device of the catalogue is `rootId` or was enrolled below it. -/
def Under (deviceId rootId : String) : Prop :=
  ∃ c ∈ certificates, c.payload.deviceId = deviceId ∧ Below byHash c rootId

/-- How many profile operations a revocation records. -/
def hashCount : Nat :=
  (record.payload.profileOperationHashes.items.map fun entry => entry.2.length).sum

theorem length_le_hashCount {record : IdentityDeviceRevocation} {entry : String × List String}
    (member : entry ∈ record.payload.profileOperationHashes.items) :
    entry.2.length ≤ hashCount record := by
  unfold hashCount
  obtain ⟨first, rest, split⟩ := List.append_of_mem member
  rw [split, List.map_append, List.map_cons, List.sum_append, List.sum_cons]
  omega

/-- A revocation can follow those before it. -/
structure Admits : Prop where
  kind : record.payload.kind = "mesh-identity-device-revocation"
  version : record.payload.version = 1
  person : record.payload.personId = identity.personId
  revision : record.payload.revision = before.length + 1
  safe : isSafeInteger record.payload.revision = true
  few : record.payload.profileOperationHashes.keys.card ≤ maxAuthorityRecords
  other : record.signerKeyId ≠ record.payload.deviceId
  device : ∃ c ∈ certificates, c.payload.deviceId = record.payload.deviceId ∧
    ∀ r ∈ before, ¬ Below byHash c r.payload.deviceId
  signer : ∃ c ∈ certificates, c.payload.deviceId = record.signerKeyId ∧
    c.payload.canEnrollDevices = true ∧ (∀ r ∈ before, ¬ Below byHash c r.payload.deviceId) ∧
    verifyEnvelope P record c.payload.devicePublicKey domain = .ok true
  apart : ∀ r ∈ before, ¬ Under certificates byHash r.payload.deviceId record.payload.deviceId
  frontier : ∀ entry ∈ record.payload.profileOperationHashes.items,
    Under certificates byHash entry.1 record.payload.deviceId ∧ entry.2.all isHash = true
  limit : (before.map hashCount).sum + hashCount record ≤ maxOperations
  managed : ∃ c ∈ certificates, c.payload.canEnrollDevices = true ∧
    ∀ r ∈ before ++ [record], ¬ Below byHash c r.payload.deviceId

/-- Every revocation can follow those before it. -/
def History (ordered : List IdentityDeviceRevocation) : Prop :=
  ∀ before record after, ordered = before ++ record :: after →
    Admits P identity domain certificates byHash before record

/-- What the loop over the revocations knows after some of them. -/
structure Stands (state : Revoked) : Prop where
  revoked : state.revoked = before.map fun r => r.payload.deviceId
  covered : ∀ deviceId, deviceId ∈ state.coveredSubtrees ↔
    ∃ r ∈ before, Under certificates byHash deviceId r.payload.deviceId
  total : state.totalProfileOperations = (before.map hashCount).sum

variable {P identity domain certificates byHash before record}

theorem history_nil : History P identity domain certificates byHash [] := by
  intro before record after split
  simp at split

theorem history_concat :
    History P identity domain certificates byHash (before ++ [record]) ↔
      History P identity domain certificates byHash before ∧
        Admits P identity domain certificates byHash before record := by
  constructor
  · intro history
    refine ⟨?_, history before record [] rfl⟩
    rintro first r rest rfl
    exact history first r (rest ++ [record]) (by simp)
  · rintro ⟨history, last⟩ first r rest split
    rcases List.eq_nil_or_concat rest with rfl | ⟨rest, final, rfl⟩
    · obtain ⟨rfl, same⟩ := List.append_inj' split rfl
      cases same
      exact last
    · rw [List.concat_eq_append, ← List.cons_append, ← List.append_assoc] at split
      obtain ⟨rfl, _⟩ := List.append_inj' split rfl
      exact history first r rest rfl

/-! ## One revocation -/

theorem foldlM_countHashes {subtree : Finset String} {items : List (String × List String)}
    {start total : Nat} (small : start ≤ maxOperations) :
    items.foldlM (countHashes subtree) start = .ok total ↔
      (∀ entry ∈ items, entry.1 ∈ subtree ∧ entry.2.all isHash = true) ∧
        total = start + (items.map fun entry => entry.2.length).sum ∧ total ≤ maxOperations := by
  induction items generalizing start with
  | nil =>
    simp only [List.foldlM_nil, pure, Except.pure, Except.ok.injEq, List.map_nil, List.sum_nil,
      Nat.add_zero]
    constructor
    · rintro rfl
      exact ⟨by simp, rfl, small⟩
    · exact fun ⟨_, same, _⟩ => same.symm
  | cons entry items ih =>
    rw [List.foldlM_cons, List.forall_mem_cons, List.map_cons, List.sum_cons, ← Nat.add_assoc]
    constructor
    · intro ran
      obtain ⟨next, counted, rest⟩ := bind_ok.mp ran
      obtain ⟨shape, counted⟩ := refuse_bind_ok.mp counted
      obtain ⟨fits, same⟩ := refuse_bind_ok.mp counted
      obtain rfl := Except.ok.inj same
      simp only [not_or, not_not, Bool.not_eq_false] at shape
      obtain ⟨others, sum⟩ := (ih (not_lt.mp fits)).mp rest
      exact ⟨⟨⟨shape.1, shape.2.2⟩, others⟩, sum⟩
    · rintro ⟨⟨here, others⟩, sum, fits⟩
      have next : start + entry.2.length ≤ maxOperations := by omega
      refine bind_ok.mpr ⟨start + entry.2.length, refuse_bind_ok.mpr ⟨?_,
        refuse_bind_ok.mpr ⟨not_lt.mpr next, rfl⟩⟩, (ih next).mpr ⟨others, sum, fits⟩⟩
      simp only [not_or, not_not, Bool.not_eq_false, not_lt]
      exact ⟨here.1, by omega, here.2⟩

namespace Catalogue

variable (catalogue : Catalogue P identity domain certificates byHash)
include catalogue

variable {rootId deviceId : String} {revoked : Finset String}

theorem mem_descendants {subtree : Finset String}
    (computed : identityDeviceDescendants P rootId certificates = .ok subtree) (deviceId : String) :
    deviceId ∈ subtree ↔ Under certificates byHash deviceId rootId := by
  obtain ⟨other, also, members⟩ := catalogue.identityDeviceDescendants_eq rootId
  rw [ok_unique computed also]
  exact members deviceId

/-- A device of the catalogue is under another where its certificate is below it. -/
theorem under_iff {c : DeviceCertificate} (held : c ∈ certificates) :
    Under certificates byHash c.payload.deviceId rootId ↔ Below byHash c rootId := by
  constructor
  · rintro ⟨other, heldOther, same, below⟩
    rwa [eq_of_deviceId catalogue.distinct heldOther held same] at below
  · intro below
    exact ⟨c, held, rfl, below⟩

theorem isChainRevoked_false :
    isChainRevoked P deviceId revoked certificates = .ok false ↔
      ∃ c ∈ certificates, c.payload.deviceId = deviceId ∧ ∀ d ∈ revoked, ¬ Below byHash c d := by
  constructor
  · intro walked
    cases found : certificates.find? fun c => c.payload.deviceId = deviceId with
    | none => simp [isChainRevoked, found] at walked
    | some c =>
      have held := List.mem_of_find?_eq_some found
      have same : c.payload.deviceId = deviceId := by simpa using List.find?_some found
      subst same
      obtain ⟨blocked, also, meaning⟩ := catalogue.isChainRevoked_eq held revoked
      obtain rfl := ok_unique walked also
      exact ⟨c, held, rfl, fun d member below =>
        Bool.false_ne_true (meaning.mpr ⟨d, member, below⟩)⟩
  · rintro ⟨c, held, rfl, free⟩
    obtain ⟨blocked, walked, meaning⟩ := catalogue.isChainRevoked_eq held revoked
    cases blocked with
    | false => exact walked
    | true =>
      obtain ⟨d, member, below⟩ := meaning.mp rfl
      exact absurd below (free d member)

theorem isChainRevoked_refused {e : String} {β : Type} {f : Unit → Except String β} {b : β} :
    (isChainRevoked P deviceId revoked certificates >>= fun blocked =>
        refuse (blocked = true) e >>= f) = .ok b ↔
      (∃ c ∈ certificates, c.payload.deviceId = deviceId ∧ ∀ d ∈ revoked, ¬ Below byHash c d) ∧
        f () = .ok b := by
  rw [← catalogue.isChainRevoked_false, bind_ok]
  simp only [refuse_bind_ok, Bool.not_eq_true]
  constructor
  · rintro ⟨_, walked, rfl, rest⟩
    exact ⟨walked, rest⟩
  · rintro ⟨walked, rest⟩
    exact ⟨false, walked, rfl, rest⟩

theorem activeManagementDevices_eq {rest : List DeviceCertificate}
    (inside : ∀ c ∈ rest, c ∈ certificates) :
    ∃ managed, activeManagementDevices P identity certificates revoked domain rest = .ok managed ∧
      (managed = true ↔ ∃ c ∈ rest, c.payload.canEnrollDevices = true ∧
        ∀ d ∈ revoked, ¬ Below byHash c d) := by
  induction rest with
  | nil => exact ⟨false, rfl, by simp⟩
  | cons c rest ih =>
    rw [List.forall_mem_cons] at inside
    obtain ⟨managed, ran, meaning⟩ := ih inside.2
    obtain ⟨blocked, walked, free⟩ := catalogue.isChainRevoked_eq inside.1 revoked
    have valid := catalogue.verifies inside.1
    unfold activeManagementDevices
    rw [List.exists_mem_cons_iff]
    by_cases enrolls : c.payload.canEnrollDevices = true
    · rw [if_pos enrolls, walked, ok_bind, valid]
      cases blocked with
      | true =>
        obtain ⟨d, member, below⟩ := free.mp rfl
        exact ⟨managed, by simpa using ran, meaning.trans
          (or_iff_right fun ⟨_, free⟩ => free d member below).symm⟩
      | false =>
        refine ⟨true, by simp [Except.isOk, Except.toBool], iff_of_true rfl
          (.inl ⟨enrolls, fun d member below => ?_⟩)⟩
        exact Bool.false_ne_true (free.mpr ⟨d, member, below⟩)
    · rw [if_neg enrolls]
      exact ⟨managed, ran, meaning.trans (or_iff_right fun ⟨can, _⟩ => enrolls can).symm⟩

theorem activeManagementDevices_true :
    activeManagementDevices P identity certificates revoked domain certificates = .ok true ↔
      ∃ c ∈ certificates, c.payload.canEnrollDevices = true ∧
        ∀ d ∈ revoked, ¬ Below byHash c d := by
  obtain ⟨managed, ran, meaning⟩ :=
    @activeManagementDevices_eq _ _ _ _ _ catalogue revoked certificates fun _ held => held
  rw [ran, Except.ok.injEq, meaning]

/-- Two subtrees share a device exactly if the root of one is in the other. -/
theorem overlap_iff {first second : DeviceCertificate} (heldF : first ∈ certificates)
    (heldS : second ∈ certificates) :
    (∃ c ∈ certificates, Below byHash c first.payload.deviceId ∧
        Below byHash c second.payload.deviceId) ↔
      Below byHash first second.payload.deviceId ∨ Below byHash second first.payload.deviceId := by
  constructor
  · rintro ⟨c, held, ⟨line, led, a, passA, sameA⟩, belowS⟩
    obtain ⟨full, alsoLed, _, _, inside⟩ := catalogue.line held
    rw [led.unique issuerOf_functional alsoLed] at passA
    obtain ⟨b, passB, sameB⟩ := (below_iff_of_line alsoLed).mp belowS
    obtain rfl := eq_of_deviceId catalogue.distinct (inside a passA) heldF sameA
    obtain rfl := eq_of_deviceId catalogue.distinct (inside b passB) heldS sameB
    rcases alsoLed.comparable passA passB with ⟨rest, led, there⟩ | ⟨rest, led, there⟩
    · exact .inl ⟨rest, led, b, there, rfl⟩
    · exact .inr ⟨rest, led, a, there, rfl⟩
  · rintro (below | below)
    · exact ⟨first, heldF, catalogue.below_self heldF, below⟩
    · exact ⟨second, heldS, below, catalogue.below_self heldS⟩

end Catalogue

section Step

variable {state next : Revoked} (stands : Stands certificates byHash before state)
  (catalogue : Catalogue P identity domain certificates byHash)
include stands

variable {c : DeviceCertificate}

theorem Stands.forall_revoked :
    (∀ d ∈ state.revoked.toFinset, ¬ Below byHash c d) ↔
      ∀ r ∈ before, ¬ Below byHash c r.payload.deviceId := by
  simp [stands.revoked]

theorem Stands.forall_revoked_concat :
    (∀ d ∈ (state.revoked ++ [record.payload.deviceId]).toFinset, ¬ Below byHash c d) ↔
      ∀ r ∈ before ++ [record], ¬ Below byHash c r.payload.deviceId := by
  simp only [stands.revoked, List.mem_toFinset, List.forall_mem_append, List.forall_mem_map,
    List.forall_mem_singleton]

include catalogue

variable {subtree : Finset String}

/-- The subtree of a device that is not blocked meets no earlier one exactly if no device
revoked earlier is in it. -/
theorem Stands.disjoint_iff (held : c ∈ certificates)
    (listed : ∀ r ∈ before, ∃ d ∈ certificates, d.payload.deviceId = r.payload.deviceId)
    (free : ∀ r ∈ before, ¬ Below byHash c r.payload.deviceId)
    (computed : identityDeviceDescendants P c.payload.deviceId certificates = .ok subtree) :
    subtree ∩ state.coveredSubtrees = ∅ ↔
      ∀ r ∈ before, ¬ Under certificates byHash r.payload.deviceId c.payload.deviceId := by
  simp only [Finset.eq_empty_iff_forall_notMem, Finset.mem_inter,
    catalogue.mem_descendants computed,
    stands.covered, not_and, not_exists]
  constructor
  · intro disjoint r earlier under
    obtain ⟨d, heldD, same⟩ := listed r earlier
    exact disjoint _ under r earlier (same ▸ (catalogue.under_iff heldD).mpr
      (catalogue.below_self heldD))
  · rintro apart _ ⟨e, heldE, rfl, below⟩ r earlier under
    obtain ⟨d, heldD, same⟩ := listed r earlier
    have both := (catalogue.overlap_iff held heldD).mp
      ⟨e, heldE, below, same ▸ (catalogue.under_iff heldE).mp under⟩
    rcases both with above | inside
    · exact free r earlier (same ▸ above)
    · exact apart r earlier (same ▸ (catalogue.under_iff heldD).mpr inside)

theorem Stands.concat
    (computed : identityDeviceDescendants P record.payload.deviceId certificates = .ok subtree) :
    Stands certificates byHash (before ++ [record]) ⟨state.revoked ++ [record.payload.deviceId],
      state.coveredSubtrees ∪ subtree, state.totalProfileOperations + hashCount record⟩ := by
  refine ⟨by simp [stands.revoked], ?_, by simp [stands.total]⟩
  intro deviceId
  simp only [Finset.mem_union, stands.covered, catalogue.mem_descendants computed, List.mem_append,
    List.mem_singleton, or_and_right, exists_or, exists_eq_left]

theorem admitRevocation_ok
    (listed : ∀ r ∈ before, ∃ d ∈ certificates, d.payload.deviceId = r.payload.deviceId) :
    admitRevocation P identity certificates domain state (record, before.length) = .ok next ↔
      Admits P identity domain certificates byHash before record ∧ ∃ subtree,
        identityDeviceDescendants P record.payload.deviceId certificates = .ok subtree ∧
        next = ⟨state.revoked ++ [record.payload.deviceId], state.coveredSubtrees ∪ subtree,
          state.totalProfileOperations + hashCount record⟩ := by
  unfold admitRevocation
  simp only [↓refuse_bind_ok, ↓catalogue.isChainRevoked_refused, bind_ok, okOr_ok,
    stands.forall_revoked, not_or, not_not, Bool.not_eq_false, not_lt]
  constructor
  · rintro ⟨⟨kind, version, person, _, safe, revision, few, other, _⟩, ⟨s, heldS, sameS, freeS⟩,
      ⟨c, held, same, free⟩, subtree, computed, disjoint, count, counted, fits, signer, found,
      enrolls, key, chain, verified, signed, genuine, managed, left, manager, returned⟩
    rw [← same] at computed
    obtain ⟨entries, sum, _⟩ := (foldlM_countHashes (Nat.zero_le _)).mp counted
    have apart := (stands.disjoint_iff catalogue held listed free computed).mp disjoint
    rw [same] at computed apart
    obtain rfl : s = signer := by
      rw [← sameS, find_deviceId catalogue.distinct heldS] at found
      exact Option.some.inj found
    obtain rfl : s.payload.devicePublicKey = key := by
      rw [← sameS, catalogue.verifies heldS] at chain
      exact Except.ok.inj chain
    rw [manager, catalogue.activeManagementDevices_true] at left
    simp only [stands.forall_revoked_concat] at left
    have count_eq : count = hashCount record := by rw [sum, Nat.zero_add, hashCount]
    rw [count_eq, stands.total] at fits
    refine ⟨⟨kind, version, person, revision, safe, few, other, ⟨c, held, same, free⟩,
      ⟨s, heldS, sameS, enrolls, freeS, genuine ▸ signed⟩, apart, ?_, fits, left⟩,
      subtree, computed, count_eq ▸ (Except.ok.inj returned).symm⟩
    intro entry member
    obtain ⟨inside, shape⟩ := entries entry member
    exact ⟨(catalogue.mem_descendants computed _).mp inside, shape⟩
  · rintro ⟨admits, subtree, computed, rfl⟩
    obtain ⟨c, held, same, free⟩ := admits.device
    obtain ⟨s, heldS, sameS, enrolls, freeS, signed⟩ := admits.signer
    have member : record.payload.deviceId ∈ deviceIds certificates :=
      same ▸ List.mem_map_of_mem held
    have fresh : record.payload.deviceId ∉ state.revoked := by
      rw [stands.revoked, List.mem_map]
      rintro ⟨r, earlier, again⟩
      exact free r earlier (again ▸ same ▸ catalogue.below_self held)
    have disjoint := (stands.disjoint_iff catalogue held listed free (same ▸ computed)).mpr
      (same ▸ admits.apart)
    have total := admits.limit
    rw [← stands.total] at total
    have entries : ∀ entry ∈ record.payload.profileOperationHashes.items,
        entry.1 ∈ subtree ∧ entry.2.all isHash = true := by
      intro entry member
      obtain ⟨inside, shape⟩ := admits.frontier entry member
      exact ⟨(catalogue.mem_descendants computed _).mpr inside, shape⟩
    have counted := (foldlM_countHashes (Nat.zero_le _)).mpr
      ⟨entries, (Nat.zero_add (hashCount record)).symm, by omega⟩
    have managed := admits.managed
    simp only [← stands.forall_revoked_concat] at managed
    have left := catalogue.activeManagementDevices_true.mpr managed
    have found := find_deviceId catalogue.distinct heldS
    rw [sameS] at found
    refine ⟨?_, ⟨s, heldS, sameS, freeS⟩, ⟨c, held, same, free⟩, subtree, computed, disjoint,
      hashCount record, counted, total, s, found, enrolls, _, sameS ▸ catalogue.verifies heldS,
      true, signed, rfl, true, left, rfl, rfl⟩
    exact ⟨admits.kind, admits.version, admits.person, member, admits.safe, admits.revision,
      admits.few, admits.other, fresh⟩

end Step

/-! ## A whole history -/

section Run

variable {ordered : List IdentityDeviceRevocation}

theorem History.listed (history : History P identity domain certificates byHash ordered) :
    ∀ r ∈ ordered, ∃ c ∈ certificates, c.payload.deviceId = r.payload.deviceId := by
  intro r held
  obtain ⟨before, after, split⟩ := List.append_of_mem held
  obtain ⟨c, member, same, _⟩ := (history before r after split).device
  exact ⟨c, member, same⟩

variable (catalogue : Catalogue P identity domain certificates byHash)
include catalogue

/-- The loop over the revocations runs through exactly on a history. -/
theorem Catalogue.foldlM_admitRevocation {state : Revoked} :
    ordered.zipIdx.foldlM (admitRevocation P identity certificates domain) ⟨[], ∅, 0⟩ = .ok state →
      History P identity domain certificates byHash ordered ∧
        Stands certificates byHash ordered state := by
  induction ordered using List.reverseRecOn generalizing state with
  | nil =>
    intro ran
    obtain rfl := Except.ok.inj ran
    exact ⟨history_nil, rfl, by simp, rfl⟩
  | append_singleton before record ih =>
    intro ran
    rw [List.zipIdx_append, List.foldlM_append] at ran
    obtain ⟨middle, first, last⟩ := bind_ok.mp ran
    obtain ⟨history, stands⟩ := ih first
    rw [List.zipIdx_singleton, List.foldlM_cons, Nat.zero_add] at last
    obtain ⟨next, admitted, same⟩ := bind_ok.mp last
    obtain rfl := Except.ok.inj same
    obtain ⟨admits, subtree, computed, rfl⟩ :=
      (admitRevocation_ok stands catalogue history.listed).mp admitted
    exact ⟨history_concat.mpr ⟨history, admits⟩, stands.concat catalogue computed⟩

section

variable (history : History P identity domain certificates byHash ordered)
include history

theorem History.runs :
    ∃ state, ordered.zipIdx.foldlM (admitRevocation P identity certificates domain) ⟨[], ∅, 0⟩ =
      .ok state := by
  induction ordered using List.reverseRecOn with
  | nil => exact ⟨_, rfl⟩
  | append_singleton before record ih =>
    obtain ⟨earlier, admits⟩ := history_concat.mp history
    obtain ⟨middle, first⟩ := ih earlier
    obtain ⟨_, stands⟩ := catalogue.foldlM_admitRevocation first
    obtain ⟨subtree, computed, _⟩ :=
      catalogue.identityDeviceDescendants_eq record.payload.deviceId
    have last := (admitRevocation_ok stands catalogue earlier.listed).mpr
      ⟨admits, subtree, computed, rfl⟩
    rw [List.zipIdx_append, List.foldlM_append, first, ok_bind, List.zipIdx_singleton,
      List.foldlM_cons, Nat.zero_add, last]
    exact ⟨_, rfl⟩

/-- No device is revoked twice. -/
theorem History.nodup : (ordered.map fun r => r.payload.deviceId).Nodup := by
  induction ordered using List.reverseRecOn with
  | nil => simp
  | append_singleton before record ih =>
    obtain ⟨earlier, admits⟩ := history_concat.mp history
    obtain ⟨c, held, same, free⟩ := admits.device
    rw [List.map_append, List.map_singleton, List.nodup_append]
    refine ⟨ih earlier, by simp, ?_⟩
    simp only [List.mem_map, List.mem_singleton]
    rintro _ ⟨r, member, rfl⟩ _ rfl again
    exact free r member (again ▸ same ▸ catalogue.below_self held)

theorem History.length_le : ordered.length ≤ certificates.length := by
  have inside : ∀ d ∈ ordered.map (fun r => r.payload.deviceId), d ∈ deviceIds certificates := by
    intro d member
    obtain ⟨r, held, rfl⟩ := List.mem_map.mp member
    obtain ⟨c, heldC, same⟩ := history.listed r held
    exact same ▸ List.mem_map_of_mem heldC
  simpa [deviceIds] using (History.nodup catalogue history).length_le_of_subset inside

omit catalogue in
/-- A record of the next revision comes after those of a history. -/
theorem History.pairwise_concat (revision : record.payload.revision = ordered.length + 1)
    (rising : ordered.Pairwise fun a b => a.payload.revision ≤ b.payload.revision) :
    (ordered ++ [record]).Pairwise fun a b => a.payload.revision ≤ b.payload.revision := by
  refine List.pairwise_append.mpr ⟨rising, List.pairwise_singleton _ _, ?_⟩
  intro r held last same
  obtain ⟨first, after, rfl⟩ := List.append_of_mem held
  obtain rfl := List.mem_singleton.mp same
  have earlier := (history first r after rfl).revision
  rw [List.length_append] at revision
  omega

omit catalogue in
/-- A history is in the order of its revisions. -/
theorem History.sorted : sortBy (fun record => record.payload.revision) ordered = ordered := by
  refine List.Pairwise.insertionSort_eq ?_
  induction ordered using List.reverseRecOn with
  | nil => exact List.Pairwise.nil
  | append_singleton before record ih =>
    obtain ⟨earlier, admits⟩ := history_concat.mp history
    exact earlier.pairwise_concat admits.revision (ih earlier)

end

variable (P identity domain) in
/-- What an accepted authority consists of. -/
structure VerifiedFrom
    (evidence : IdentityDeviceAuthorityEvidence) (byHash : Table String DeviceCertificate)
    (authority : VerifiedIdentityDeviceAuthority) : Prop where
  identity_eq : authority.identity = identity
  certificates_eq : authority.certificates = evidence.certificates
  revocations_eq : authority.revocations =
    sortBy (fun record => record.payload.revision) evidence.revocations
  revoked_eq : authority.revokedDeviceIds = authority.revocations.map fun r => r.payload.deviceId
  blocked : ∀ c ∈ evidence.certificates, c.payload.deviceId ∈ authority.blockedDeviceIds ↔
    ∃ r ∈ authority.revocations, Below byHash c r.payload.deviceId
  held : evidence.certificates ≠ []
  catalogue : Catalogue P identity domain evidence.certificates byHash
  history : History P identity domain evidence.certificates byHash authority.revocations

omit catalogue in
theorem verifyIdentityDeviceAuthority_ok {evidence : IdentityDeviceAuthorityEvidence}
    {authority : VerifiedIdentityDeviceAuthority}
    (accepted : verifyIdentityDeviceAuthority P identity evidence domain = .ok authority) :
    ∃ byHash, VerifiedFrom P identity domain evidence byHash authority := by
  obtain ⟨shape, accepted⟩ := refuse_bind_ok.mp accepted
  obtain ⟨distinct, accepted⟩ := refuse_bind_ok.mp accepted
  obtain ⟨chains, accepted⟩ := check_bind_ok.mp accepted
  obtain ⟨state, ran, accepted⟩ := bind_ok.mp accepted
  obtain ⟨blocked, computed, returned⟩ := bind_ok.mp accepted
  obtain rfl := Except.ok.inj returned
  have held : evidence.certificates ≠ [] := fun none => shape (.inl none)
  obtain ⟨byHash, filed, _⟩ := certificatesByHash_total P evidence.certificates
  have catalogue := (verifyChains_ok filed (not_not.mp distinct) held).mp chains
  obtain ⟨history, stands⟩ := catalogue.foldlM_admitRevocation ran
  obtain ⟨others, also, members⟩ := catalogue.blockedDevices_eq state.revoked.toFinset
  refine ⟨byHash, rfl, rfl, rfl, stands.revoked, ?_, held, catalogue, history⟩
  intro c member
  rw [ok_unique computed also, members c member]
  simp [stands.revoked]

/-- A catalogue with a history is accepted, in whatever order the revocations come. -/
theorem History.accepted {revocations : List IdentityDeviceRevocation}
    (history : History P identity domain certificates byHash
      (sortBy (fun record => record.payload.revision) revocations))
    (held : certificates ≠ []) :
    ∃ authority, verifyIdentityDeviceAuthority P identity ⟨certificates, revocations⟩ domain =
      .ok authority := by
  obtain ⟨state, ran⟩ := History.runs catalogue history
  have few := History.length_le catalogue history
  rw [(sortBy_perm _ revocations).length_eq] at few
  exact catalogue.accepted held (few.trans (catalogue.limit.trans (by decide))) ran

end Run

/-! ## A catalogue that grows -/

section Later

variable {listed : List DeviceCertificate} {byHash' : Table String DeviceCertificate}
  {ordered : List IdentityDeviceRevocation}
  (catalogue : Catalogue P identity domain certificates byHash)
  (later : Catalogue P identity domain listed byHash') (apart : HashesApart P listed)
  (more : ∀ c ∈ certificates, c ∈ listed)
include catalogue later apart more

variable {c : DeviceCertificate}

/-- A certificate stands where it stood. -/
theorem Catalogue.below_later (held : c ∈ certificates) {rootId : String} :
    Below byHash' c rootId ↔ Below byHash c rootId := by
  obtain ⟨line, led, _⟩ := catalogue.chained c held
  have now : Line (fun c issuer => issuerOf byHash c = some issuer) c line :=
    led.mono fun a _ issuer found => issuerOf_of_found found
  have then_ : Line (fun c issuer => issuerOf byHash' c = some issuer) c line := by
    refine led.mono fun a _ issuer found => ?_
    have issued := found.issued catalogue.filed
    exact issuerOf_of_found (Issued.found later.filed apart
      ⟨issued.device, issued.signed, fun other named => more other (issued.listed other named)⟩)
  rw [below_iff_of_line now, below_iff_of_line then_]

theorem Catalogue.under_later (held : c ∈ certificates) {rootId : String} :
    Under listed byHash' c.payload.deviceId rootId ↔
      Under certificates byHash c.payload.deviceId rootId := by
  rw [later.under_iff (more c held), catalogue.under_iff held,
    catalogue.below_later later apart more held]

theorem History.grows (history : History P identity domain certificates byHash ordered) :
    History P identity domain listed byHash' ordered := by
  have stands : ∀ c ∈ certificates, ∀ d, Below byHash' c d ↔ Below byHash c d :=
    fun c held d => catalogue.below_later later apart more held
  have under : ∀ deviceId d, (∃ c ∈ certificates, c.payload.deviceId = deviceId) →
      (Under listed byHash' deviceId d ↔ Under certificates byHash deviceId d) := by
    rintro _ d ⟨c, held, rfl⟩
    exact catalogue.under_later later apart more held
  intro before record after split
  have admits := history before record after split
  obtain ⟨c, held, same, free⟩ := admits.device
  obtain ⟨s, heldS, sameS, enrolls, freeS, signed⟩ := admits.signer
  obtain ⟨m, heldM, manages, freeM⟩ := admits.managed
  refine ⟨admits.kind, admits.version, admits.person, admits.revision, admits.safe, admits.few,
    admits.other, ⟨c, more c held, same, ?_⟩, ⟨s, more s heldS, sameS, enrolls, ?_, signed⟩, ?_, ?_,
    admits.limit, ⟨m, more m heldM, manages, ?_⟩⟩
  · intro r earlier
    rw [stands c held]
    exact free r earlier
  · intro r earlier
    rw [stands s heldS]
    exact freeS r earlier
  · intro r earlier
    rw [under _ _ (history.listed r (split ▸ List.mem_append_left _ earlier))]
    exact admits.apart r earlier
  · intro entry member
    obtain ⟨inside, shape⟩ := admits.frontier entry member
    have ⟨e, heldE, sameE, _⟩ := inside
    exact ⟨(under _ _ ⟨e, heldE, sameE⟩).mpr inside, shape⟩
  · intro r member
    rw [stands m heldM]
    exact freeM r member

end Later

end Authority

end MetaMesh.Browser
