import MetaMesh.Browser.DeviceRevocation

/-!
# When a device can be revoked

An active managing device can revoke another one that it does not stand below exactly if
nothing in that subtree was revoked before, all revocations together record no more
operations than the limit, and the operations of the subtree carry the certificates of the
catalogue (`active_device_revocable_iff`).  The loop that records the operations always
runs through: an accepted profile has the operations of a device without a gap.
-/

namespace MetaMesh.Browser

open Fallible Causality

variable {B : Platform} {P : Primitives} {identity : PublicIdentity} {subtree : Finset String}

/-! ## Signing -/

/-- The integers of a value have signature bytes. -/
inductive SafeNumbers : Value → Prop
  | null : SafeNumbers .null
  | bool (b : Bool) : SafeNumbers (.bool b)
  | string (s : String) : SafeNumbers (.string s)
  | posInt {n : Nat} (small : n ≤ maxSafeInteger) : SafeNumbers (.number (.posInt n))
  | array {items : List Value} (each : ∀ v ∈ items, SafeNumbers v) : SafeNumbers (.array items)
  | object {fields : List (String × Value)} (each : ∀ field ∈ fields, SafeNumbers field.2) :
      SafeNumbers (.object fields)

theorem SafeNumbers.numbers {v : Value} (safe : SafeNumbers v) :
    v.Numbers fun n => ∃ m ≤ maxSafeInteger, n = .posInt m := by
  induction safe with
  | null => exact .null
  | bool b => exact .bool b
  | string s => exact .string s
  | posInt small => exact .number ⟨_, small, rfl⟩
  | array _ ih => exact .array ih
  | object _ ih => exact .object ih

theorem SafeNumbers.canonicalizes (P : Primitives) {v : Value} (safe : SafeNumbers v) :
    ∃ text, canonicalizeSignatureJson P v = .ok text := by
  refine ⟨_, canonicalizeWithNumbers_eq_sorted ?_ safe.numbers⟩
  rintro _ ⟨m, small, rfl⟩
  exact bind_ok.mpr ⟨(), refuse_ok.mpr (not_lt.mpr small), rfl⟩

theorem safeNumbers_revocation (personId deviceId : String) (recorded : Record (List String))
    {count : Nat} (few : count ≤ 32) : SafeNumbers (toValue (⟨"mesh-identity-device-revocation",
      1, personId, deviceId, count + 1, recorded⟩ : IdentityDeviceRevocationPayload)) := by
  have revision : toValue ((count : Int) + 1) = .number (.posInt (count + 1)) := by
    show Value.number (integer _) = _
    unfold integer
    rw [if_pos (by omega)]
    rfl
  refine .object ?_
  simp only [List.forall_mem_cons, List.not_mem_nil, false_imp_iff, implies_true,
    and_true, revision]
  refine ⟨.string _, .posInt (by decide), .string _, .string _, .posInt ?_, .object ?_⟩
  · unfold maxSafeInteger
    omega
  · intro field member
    obtain ⟨entry, _, rfl⟩ := List.mem_map.mp member
    refine .array fun v held => ?_
    obtain ⟨hash, _, rfl⟩ := List.mem_map.mp held
    exact .string hash

/-- Whatever `sign` signs verifies with a public key. -/
def SignsFor (P : Primitives) (sign : List UInt8 → Except String String) (publicKey : String) :
    Prop :=
  ∃ key, decodePublicKey P publicKey = .ok key ∧ ∀ message, ∃ signature bytes,
    sign message = .ok signature ∧ P.base64Decode signature = some bytes ∧
      P.ed25519Verify key message bytes = true

theorem SignsFor.envelope {P : Primitives} {sign : List UInt8 → Except String String}
    {publicKey : String} (signs : SignsFor P sign publicKey) {T : Type} [Serialize T] {payload : T}
    (safe : SafeNumbers (toValue payload)) (signerKeyId domain : String) :
    ∃ signature, signEnvelope P sign payload signerKeyId domain =
        .ok ⟨payload, signerKeyId, signature⟩ ∧
      verifyEnvelope P ⟨payload, signerKeyId, signature⟩ publicKey domain = .ok true := by
  obtain ⟨text, written⟩ := safe.canonicalizes P
  obtain ⟨key, decoded, each⟩ := signs
  obtain ⟨signature, bytes, signed, read, verifies⟩ :=
    each (signatureInput (payloadKind payload) text domain)
  refine ⟨signature, bind_ok.mpr ⟨text, written, bind_ok.mpr ⟨signature, signed, rfl⟩⟩, ?_⟩
  unfold verifyEnvelope
  rw [decoded, ok_bind, written, ok_bind, read]
  simp [okOr, canonicalizeJson_eq_sorted, verifies]

/-! ## Recording a complete prefix -/

section Recording

variable {certificates : List DeviceCertificate} {state : IdentityProfileState}

variable {operations : List IdentityProfileOperation} {recorded : Record (List String)}
  {o : IdentityProfileOperation}

theorem RecordedFrom.length_eq (from_ : RecordedFrom P operations recorded) (d : String) :
    ((recorded.lookup d).getD []).length = (ofDevice operations d).length := by
  rw [from_.hashes, List.length_map]

theorem mem_ofDevice {d : String} :
    o ∈ ofDevice operations d ↔ o ∈ operations ∧ o.signed.payload.deviceId = d := by
  simp [ofDevice, List.mem_filter]

/-- The next operation of a device in the order of counters is the one after those seen. -/
theorem Accepted.counter_next (valid : Accepted P B identity certificates state)
    {seen rest : List IdentityProfileOperation}
    (split : subtreeOperations (inOrder state) subtree = seen ++ o :: rest)
    (from_ : RecordedFrom P seen recorded) :
    o.signed.payload.counter =
      ((recorded.lookup o.signed.payload.deviceId).getD []).length + 1 := by
  have inState : ∀ a, a ∈ seen ++ o :: rest → a ∈ state.operations ∧
      a.signed.payload.deviceId ∈ subtree := by
    intro a held
    rw [← split, mem_subtreeOperations, mem_inOrder_operations valid.unique] at held
    exact held
  obtain ⟨heldO, inside⟩ := inState o (by simp)
  have positive := (valid.counters o heldO).2
  have once : o ∉ seen := by
    have nodup : (seen ++ o :: rest).Nodup :=
      split ▸ (sortBy_perm _ _).nodup_iff.mpr (nodup_inOrder.1.filter _)
    exact fun again => (List.nodup_append.mp nodup).2.2 o again o (by simp) rfl
  have ordered : (seen ++ o :: rest).Pairwise fun a b =>
      a.signed.payload.counter ≤ b.signed.payload.counter :=
    split ▸ sortBy_pairwise _ _
  rw [from_.length_eq]
  -- neither a number that was seen, nor one with a number missing before it
  have fresh : (ofDevice seen o.signed.payload.deviceId).length < o.signed.payload.counter := by
    by_contra small
    have bound : (o.signed.payload.counter - 1).toNat <
        (ofDevice seen o.signed.payload.deviceId).length := by omega
    have found := List.getElem?_eq_getElem bound
    have counter := from_.numbered _ _ _ found
    obtain ⟨heldA, device⟩ := mem_ofDevice.mp (List.mem_of_getElem? found)
    refine once ?_
    rw [← valid.unique _ (inState _ (List.mem_append_left _ heldA)).1 o heldO
      (operationId_inj.mpr ⟨device, ?_⟩)]
    · exact heldA
    · rw [show profileClock.counter _ = _ from counter]
      show _ = o.signed.payload.counter
      omega
  obtain ⟨b, heldB, device, counter⟩ := valid.causal.numbered heldO
    (show 1 ≤ ((ofDevice seen o.signed.payload.deviceId).length + 1 : Int) by omega)
    (show _ ≤ o.signed.payload.counter by omega)
  have deviceB : b.signed.payload.deviceId = o.signed.payload.deviceId := device
  have counterB : b.signed.payload.counter =
    (ofDevice seen o.signed.payload.deviceId).length + 1 := counter
  have member : b ∈ seen ++ o :: rest := by
    rw [← split, mem_subtreeOperations, mem_inOrder_operations valid.unique, deviceB]
    exact ⟨heldB, inside⟩
  rcases List.mem_append.mp member with earlier | later
  · obtain ⟨k, found⟩ := List.mem_iff_getElem?.mp (mem_ofDevice.mpr ⟨earlier, deviceB⟩)
    have number := from_.numbered _ k b found
    have bound := (List.getElem?_eq_some_iff.mp found).1
    omega
  · have after := (List.pairwise_append.mp ordered).2.1
    rcases List.mem_cons.mp later with rfl | last
    · omega
    · have := (List.pairwise_cons.mp after).1 b last
      omega

theorem Accepted.records (valid : Accepted P B identity certificates state)
    {current : List DeviceCertificate}
    (carry : ∀ o ∈ subtreeOperations (inOrder state) subtree, CurrentCertificate current o) :
    ∃ recorded, (subtreeOperations (inOrder state) subtree).foldlM
      (recordOperation P current subtree) ∅ = .ok recorded := by
  obtain ⟨recorded, ran, _⟩ := @foldlM_total String _ _ (subtreeOperations (inOrder state) subtree)
    (recordOperation P current subtree) ∅ (fun seen state => RecordedFrom P seen state)
    recordedFrom_nil (by
      intro seen o rest before split from_
      have member : o ∈ subtreeOperations (inOrder state) subtree := by
        rw [split]
        simp
      have counter := valid.counter_next split from_
      exact ⟨_, (recordOperation_ok (mem_subtreeOperations.mp member).2).mpr
        ⟨carry o member, counter, rfl⟩, from_.concat counter⟩)
  exact ⟨recorded, ran⟩

/-- The operations of some devices, device by device. -/
theorem sum_length_ofDevice {devices : List String} (distinct : devices.Nodup)
    (inside : ∀ o ∈ operations, o.signed.payload.deviceId ∈ devices) :
    (devices.map fun d => (ofDevice operations d).length).sum = operations.length := by
  induction devices generalizing operations with
  | nil =>
    rw [List.eq_nil_iff_forall_not_mem.mpr fun o held => List.not_mem_nil (inside o held)]
    rfl
  | cons d devices ih =>
    rw [List.nodup_cons] at distinct
    have others : ∀ e ∈ devices, ofDevice operations e =
        ofDevice (operations.filter fun o => o.signed.payload.deviceId ≠ d) e := by
      intro e member
      unfold ofDevice
      rw [List.filter_filter]
      refine List.filter_congr fun o _ => ?_
      by_cases same : o.signed.payload.deviceId = e
      · have apart : e ≠ d := fun equal => distinct.1 (equal ▸ member)
        simp [same, apart]
      · simp [same]
    rw [List.map_cons, List.sum_cons, List.map_congr_left fun e member =>
      congrArg List.length (others e member), ih distinct.2]
    · have parts := List.length_eq_length_filter_add
        (fun o : IdentityProfileOperation => decide (o.signed.payload.deviceId = d))
        (l := operations)
      rw [parts]
      simp [ofDevice]
    · intro o held
      obtain ⟨member, other⟩ := List.mem_filter.mp held
      exact (List.mem_cons.mp (inside o member)).resolve_left (by simpa using other)

/-- As many hashes are recorded as there are operations. -/
theorem RecordedFrom.count (from_ : RecordedFrom P operations recorded) :
    (recorded.items.map fun entry => entry.2.length).sum = operations.length := by
  have lengths : recorded.items.map (fun entry => entry.2.length) =
      (recorded.items.map Prod.fst).map fun d => (ofDevice operations d).length := by
    rw [List.map_map]
    refine List.map_congr_left ?_
    rintro ⟨d, hashes⟩ member
    have found := Record.mem_items.mp member
    rw [Function.comp, ← from_.length_eq, found]
    rfl
  rw [lengths]
  refine sum_length_ofDevice ?_ ?_
  · rw [Record.map_fst_items]
    exact nodup_sortedSet _ _ _
  · intro o held
    have some_hash : (recorded.lookup o.signed.payload.deviceId).getD [] ≠ [] := by
      rw [from_.hashes, Ne, List.map_eq_nil_iff]
      exact List.ne_nil_of_mem (mem_ofDevice.mpr ⟨held, rfl⟩)
    cases found : recorded.lookup o.signed.payload.deviceId with
    | none => simp [found] at some_hash
    | some hashes => exact List.mem_map.mpr ⟨_, Record.mem_items.mpr found, rfl⟩

end Recording

/-! ## The whole check -/

/-- An active device of the authority that may manage others, with its private key. -/
structure ManagingDevice (P : Primitives) (authority : VerifiedIdentityDeviceAuthority)
    (profile : LocalProfile) : Prop where
  listed : profile.certificate ∈ authority.certificates
  own : profile.certificate.payload.deviceId = profile.device.deviceId
  manages : profile.certificate.payload.canEnrollDevices = true
  active : profile.device.deviceId ∉ authority.blockedDeviceIds
  signs : SignsFor P profile.sign profile.certificate.payload.devicePublicKey

/-- What a revocation of a subtree runs into: an earlier revocation in it, too many
operations to record, or an operation with another certificate. -/
structure Revocable (authority : VerifiedIdentityDeviceAuthority) (state : IdentityProfileState)
    (subtree : Finset String) : Prop where
  apart : ∀ r ∈ authority.revocations, r.payload.deviceId ∉ subtree
  limit : (authority.revocations.map hashCount).sum + (state.operations.filter fun o =>
    o.signed.payload.deviceId ∈ subtree).length ≤ maxOperations
  carry : ∀ o ∈ state.operations, o.signed.payload.deviceId ∈ subtree →
    CurrentCertificate authority.certificates o

section Whole

variable {evidence : IdentityDeviceAuthorityEvidence} {authority : VerifiedIdentityDeviceAuthority}
  {byHash : Table String DeviceCertificate} {profile : LocalProfile} {deviceId : String}
  {s : IdentityProfileState} {domain : String}

theorem length_subtreeOperations : (subtreeOperations s subtree).length =
    (s.operations.filter fun o => o.signed.payload.deviceId ∈ subtree).length :=
  (sortBy_perm _ _).length_eq

variable {record : IdentityDeviceRevocation}

/-- A record of the next revision comes last in a history. -/
theorem History.sorted_concat {certificates : List DeviceCertificate}
    {ordered : List IdentityDeviceRevocation}
    (history : History P identity domain certificates byHash ordered)
    (revision : record.payload.revision = ordered.length + 1) :
    sortBy (fun record => record.payload.revision) (ordered ++ [record]) = ordered ++ [record] := by
  refine List.Pairwise.insertionSort_eq (history.pairwise_concat revision ?_)
  rw [← history.sorted]
  exact sortBy_pairwise _ _

/-- An authority is verified from its own certificates and revocations. -/
theorem VerifiedFrom.self (verified : VerifiedFrom P identity domain evidence byHash authority) :
    VerifiedFrom P identity domain ⟨authority.certificates, authority.revocations⟩ byHash
      authority := by
  have certificates := verified.certificates_eq
  have history := verified.history
  exact ⟨verified.identity_eq, rfl, history.sorted.symm, verified.revoked_eq,
    certificates ▸ verified.blocked, certificates ▸ verified.held,
    certificates ▸ verified.catalogue, certificates ▸ history⟩

variable
  (verified : VerifiedFrom P profile.identity domain
  ⟨authority.certificates, authority.revocations⟩ byHash authority)

include verified

/-- The last record of an accepted extension passed the check. -/
theorem VerifiedFrom.admits (revision : record.payload.revision = authority.revocations.length + 1)
    {extended : VerifiedIdentityDeviceAuthority}
    (accepted : verifyIdentityDeviceAuthority P profile.identity
      ⟨authority.certificates, authority.revocations ++ [record]⟩ domain = .ok extended) :
    Admits P profile.identity domain authority.certificates byHash
      authority.revocations record := by
  obtain ⟨table, more⟩ := verifyIdentityDeviceAuthority_ok accepted
  obtain rfl : byHash = table :=
    ok_unique verified.catalogue.filed more.catalogue.filed
  have history := more.history
  rw [more.revocations_eq, verified.history.sorted_concat revision] at history
  exact (history_concat.mp history).2

theorem VerifiedFrom.few : authority.revocations.length ≤ 32 :=
  le_trans (History.length_le verified.catalogue verified.history) verified.catalogue.limit

/-- A device that is not blocked stands below no revoked one. -/
theorem VerifiedFrom.free {c : DeviceCertificate} (held : c ∈ authority.certificates)
    (active : c.payload.deviceId ∉ authority.blockedDeviceIds) :
    ∀ r ∈ authority.revocations, ¬ Below byHash c r.payload.deviceId := by
  intro r earlier below
  exact active ((verified.blocked c held).mpr ⟨r, earlier, below⟩)

variable (manager : ManagingDevice P authority profile)
  (listed : deviceId ∈ deviceIds authority.certificates)
  (active : deviceId ∉ authority.blockedDeviceIds)
  (computed : identityDeviceDescendants P deviceId authority.certificates = .ok subtree)
  (above : profile.device.deviceId ∉ subtree)
  (hashed : ∀ bytes, isHash (P.base64Encode (P.sha256 bytes)) = true)
  (revocable : Revocable authority (inOrder s) subtree)

include manager listed active computed above hashed revocable

/-- The record that a managing device signs can follow. -/
theorem VerifiedFrom.admits_record {recorded : Record (List String)}
    (from_ : RecordedFrom P (subtreeOperations (inOrder s) subtree) recorded) {signature : String}
    (signed : verifyEnvelope P (⟨⟨"mesh-identity-device-revocation", 1, profile.identity.personId,
      deviceId, authority.revocations.length + 1, recorded⟩, profile.device.deviceId, signature⟩ :
        IdentityDeviceRevocation) profile.certificate.payload.devicePublicKey domain = .ok true) :
    Admits P profile.identity domain authority.certificates byHash authority.revocations
      ⟨⟨"mesh-identity-device-revocation", 1, profile.identity.personId, deviceId,
        authority.revocations.length + 1, recorded⟩, profile.device.deviceId, signature⟩ := by
  have members := verified.catalogue.mem_descendants computed
  obtain ⟨c, held, same⟩ := List.mem_map.mp listed
  have own : deviceId ∈ subtree := by
    rw [members, ← same, verified.catalogue.under_iff held]
    exact verified.catalogue.below_self held
  have free := verified.free held (same ▸ active)
  have freeS := verified.free manager.listed (manager.own ▸ manager.active)
  have small : authority.certificates.length ≤ 32 := verified.catalogue.limit
  have few := verified.few
  have inside : ∀ d ∈ recorded, d ∈ subtree := by
    intro d held
    obtain ⟨o, member, rfl⟩ := from_.named d held
    exact (mem_subtreeOperations.mp member).2
  refine ⟨rfl, rfl, rfl, rfl, ?_, ?_, ?_, ⟨c, held, same, free⟩,
    ⟨profile.certificate, manager.listed, manager.own, manager.manages, freeS, signed⟩, ?_, ?_, ?_,
    ⟨profile.certificate, manager.listed, manager.manages, ?_⟩⟩
  · show isSafeInteger (authority.revocations.length + 1) = true
    unfold isSafeInteger maxSafeInteger
    exact Bool.and_eq_true_iff.mpr ⟨decide_eq_true (by omega), decide_eq_true (by omega)⟩
  · have keys : recorded.keys ⊆ (deviceIds authority.certificates).toFinset := by
      intro d member
      have ⟨e, heldE, sameE, _⟩ := (members d).mp (inside d (Finmap.mem_keys.mp member))
      exact List.mem_toFinset.mpr (sameE ▸ List.mem_map_of_mem heldE)
    calc recorded.keys.card ≤ (deviceIds authority.certificates).toFinset.card :=
          Finset.card_le_card keys
      _ ≤ (deviceIds authority.certificates).length := List.toFinset_card_le _
      _ ≤ maxAuthorityRecords := by
          simp only [deviceIds, List.length_map, maxAuthorityRecords]
          omega
  · intro self
    rw [show profile.device.deviceId = deviceId from self] at above
    exact above own
  · intro r earlier
    rw [← members]
    exact revocable.apart r earlier
  · rintro ⟨d, hashes⟩ member
    have found := Record.mem_items.mp member
    refine ⟨(members d).mp (inside d (Finmap.mem_of_lookup_eq_some found)), ?_⟩
    have all := from_.hashes d
    rw [found, Option.getD_some] at all
    rw [all, List.all_eq_true]
    intro hash there
    obtain ⟨o, _, rfl⟩ := List.mem_map.mp there
    exact hashed _
  · show _ + (recorded.items.map fun entry => entry.2.length).sum ≤ _
    rw [from_.count, length_subtreeOperations]
    exact revocable.limit
  · intro r member
    rcases List.mem_append.mp member with earlier | last
    · exact freeS r earlier
    · rw [List.mem_singleton.mp last]
      intro below
      refine above ?_
      rw [members, ← manager.own, verified.catalogue.under_iff manager.listed]
      exact below

/-- A managing device gets its record where the subtree is revocable. -/
theorem VerifiedFrom.creates (valid : Accepted P B profile.identity authority.certificates s)
    (current : readIdentityProfileStateWithRevocations P B (inOrder s) profile.identity
      authority.certificates authority.revocations = .ok (inOrder s)) :
    ∃ record, createDeviceRevocation P B profile authority deviceId s domain = .ok record := by
  obtain ⟨recorded, ran⟩ := valid.records (fun o member =>
    revocable.carry o (mem_subtreeOperations.mp member).1 (mem_subtreeOperations.mp member).2)
  obtain ⟨_, from_⟩ := foldlM_recordOperation
    (fun o member => (mem_subtreeOperations.mp member).2) ran
  obtain ⟨signature, signed, genuine⟩ := manager.signs.envelope
    (safeNumbers_revocation profile.identity.personId deviceId recorded verified.few)
    profile.device.deviceId domain
  have admits := verified.admits_record manager listed active computed above hashed revocable from_
    genuine
  obtain ⟨extended, accepted⟩ := History.accepted verified.catalogue
    (verified.history.sorted_concat admits.revision ▸ history_concat.mpr ⟨verified.history, admits⟩)
    verified.held
  have found : authority.certificates.find? (fun c =>
      c.payload.deviceId = profile.device.deviceId) = some profile.certificate :=
    manager.own ▸ find_deviceId verified.catalogue.distinct manager.listed
  have texts : authority.certificates.mapM (fun c => canonicalizeJson P (toValue c)) =
      .ok (authority.certificates.map fun c => (toValue c).sorted.toVec) := by
    rw [mapM_ok, List.forall₂_map_right_iff, List.forall₂_same]
    exact fun c _ => canonicalizeJson_eq_sorted P _
  have unrevoked : ∀ d ∈ authority.revokedDeviceIds.toFinset,
      ¬ Below byHash profile.certificate d := by
    intro d member
    rw [List.mem_toFinset, verified.revoked_eq] at member
    obtain ⟨r, earlier, rfl⟩ := List.mem_map.mp member
    exact verified.free manager.listed (manager.own ▸ manager.active) r earlier
  have read := readIdentityProfileState_ok.mpr ⟨valid, rfl⟩
  have unblocked := verified.catalogue.isChainRevoked_false.mpr
    ⟨profile.certificate, manager.listed, manager.own, unrevoked⟩
  have names : authority.identity = profile.identity := verified.identity_eq
  refine ⟨⟨⟨"mesh-identity-device-revocation", 1, profile.identity.personId, deviceId,
    authority.revocations.length + 1, recorded⟩, profile.device.deviceId, signature⟩, ?_⟩
  unfold createDeviceRevocation
  rw [canonicalizeJson_eq_sorted, ok_bind, texts, ok_bind, refuse_bind_ok, unblocked, ok_bind,
    refuse_bind_ok, found]
  simp only [not_or, not_not, names]
  refine ⟨⟨trivial, trivial, Ne.symm admits.other, List.mem_map_of_mem manager.listed, listed⟩,
    by simp, ?_⟩
  rw [okOr_ok.mpr rfl, ok_bind, refuse_bind_ok, read, ok_bind, current, ok_bind,
    canonicalizeJson_eq_sorted, ok_bind, ok_bind, refuse_bind_ok, computed, ok_bind]
  refine ⟨by simp [manager.manages], not_not.mpr rfl, ?_⟩
  unfold subtreeOperations at ran
  rw [ran, ok_bind, signed, ok_bind, accepted, ok_bind]

end Whole

/-- An active device that the signer does not stand below can be revoked exactly if nothing
in its subtree was revoked before, the recorded operations stay within the limit, and the
operations of the subtree carry the certificates of the authority.  With the record the
whole subtree is blocked. -/
theorem active_device_revocable_iff (P : Primitives) (B : Platform)
    (evidence : IdentityDeviceAuthorityEvidence) (authority : VerifiedIdentityDeviceAuthority)
    (profile : LocalProfile) (deviceId : String) (subtree : Finset String)
    (s current : IdentityProfileState)
    (hashed : ∀ bytes, isHash (P.base64Encode (P.sha256 bytes)) = true)
    (accepted : verifyIdentityDeviceAuthority P profile.identity evidence
      defaultSignatureDomain = .ok authority)
    (manager : ManagingDevice P authority profile)
    (listed : deviceId ∈ deviceIds authority.certificates)
    (active : deviceId ∉ authority.blockedDeviceIds)
    (computed : identityDeviceDescendants P deviceId authority.certificates = .ok subtree)
    (above : profile.device.deviceId ∉ subtree)
    (valid : readIdentityProfileState P B s profile.identity authority.certificates = .ok current)
    (within : readIdentityProfileStateWithRevocations P B current profile.identity
      authority.certificates authority.revocations = .ok current) :
    ((∃ record, createDeviceRevocation P B profile authority deviceId s
        defaultSignatureDomain = .ok record) ↔ Revocable authority current subtree) ∧
    ∀ record, createDeviceRevocation P B profile authority deviceId s
        defaultSignatureDomain = .ok record →
      ∃ extended, verifyIdentityDeviceAuthority P profile.identity
          ⟨authority.certificates, authority.revocations ++ [record]⟩ defaultSignatureDomain =
            .ok extended ∧
        ∀ d ∈ subtree, d ∈ extended.blockedDeviceIds := by
  obtain ⟨byHash, verified⟩ := verifyIdentityDeviceAuthority_ok accepted
  have verified := verified.self
  obtain ⟨acceptedS, rfl⟩ := readIdentityProfileState_ok.mp valid
  have members := verified.catalogue.mem_descendants computed
  refine ⟨⟨?_, fun revocable => verified.creates manager listed active computed above hashed
    revocable acceptedS within⟩, ?_⟩
  · rintro ⟨record, created⟩
    obtain ⟨other, issued⟩ := createDeviceRevocation_ok created
    obtain rfl : other = subtree := ok_unique issued.computed computed
    obtain ⟨extended, accepted⟩ := issued.accepted
    have admits := verified.admits issued.revision accepted
    refine ⟨?_, ?_, ?_⟩
    · intro r earlier inside
      refine admits.apart r earlier ?_
      rw [issued.device, ← members]
      exact inside
    · have limit := admits.limit
      rw [hashCount, issued.recorded.count, length_subtreeOperations] at limit
      exact limit
    · intro o held inside
      exact issued.certificates o (mem_subtreeOperations.mpr ⟨held, inside⟩)
  · intro record created
    obtain ⟨other, issued⟩ := createDeviceRevocation_ok created
    obtain ⟨extended, accepted⟩ := issued.accepted
    obtain ⟨table, more⟩ := verifyIdentityDeviceAuthority_ok accepted
    refine ⟨extended, accepted, ?_⟩
    intro d inside
    obtain ⟨c, held, rfl, below⟩ := (more.catalogue.mem_descendants computed _).mp inside
    refine (more.blocked c held).mpr ⟨record, ?_, issued.device ▸ below⟩
    rw [more.revocations_eq, mem_sortBy]
    simp

open MetaMesh.Sample Sample

theorem letters_isHash (code : Nat) : isHash (letters 43 code) = true := by
  have letter : ∀ k : Fin 26, isBase64Url (Char.ofNat (65 + k)) = true := by decide
  unfold isHash hasShape letters
  simp [letter ⟨code % 26, Nat.mod_lt code (by decide)⟩]

theorem localProfile_signs : SignsFor primitives (localProfile 1).sign (letters 43 1) :=
  ⟨List.replicate 32 66, by decide, fun _ => ⟨letters 86 1, List.replicate 64 66, rfl, by decide,
    rfl⟩⟩

set_option maxRecDepth 100000

theorem active_device_revocable_iff_sample :
    ∃ record extended, createDeviceRevocation primitives browser (localProfile 1)
        (authority [certificate 0 1, certificate 0 2, delegated 0 2 3 true] [] []) (keyId 2)
        (profile [named 2 1 [] "Ada" [], byChild 1 [(keyId 2, 1)]] []) defaultSignatureDomain =
          .ok record ∧
      verifyIdentityDeviceAuthority primitives (person 0)
        ⟨[certificate 0 1, certificate 0 2, delegated 0 2 3 true], [record]⟩
        defaultSignatureDomain = .ok extended ∧
      keyId 2 ∈ extended.blockedDeviceIds ∧ keyId 3 ∈ extended.blockedDeviceIds := by
  have read : readIdentityProfileState primitives browser written (person 0) family =
      .ok written := by decide
  have within : readIdentityProfileStateWithRevocations primitives browser written (person 0)
      family [] = .ok written := by decide
  have verified : verifyIdentityDeviceAuthority primitives (person 0) ⟨family, []⟩
      defaultSignatureDomain = .ok (authority family [] []) := by decide
  have tree : (identityDeviceDescendants primitives (keyId 2) family).map (fun subtree =>
      decide (keyId 1 ∉ subtree ∧ keyId 2 ∈ subtree ∧ keyId 3 ∈ subtree)) = .ok true := by decide
  obtain ⟨subtree, computed⟩ : ∃ subtree, identityDeviceDescendants primitives (keyId 2) family =
      .ok subtree := isOk_iff.mp (by decide)
  rw [computed] at tree
  obtain ⟨above, two, three⟩ := of_decide_eq_true (Except.ok.inj tree)
  have revocable : Revocable (authority family [] []) written subtree := by
    refine ⟨by simp [Sample.authority], ?_, ?_⟩
    · exact le_trans (Nat.add_le_add_left (List.length_filter_le _ _) _) (by decide)
    · intro o held _
      rcases List.mem_cons.mp held with rfl | held
      · exact ⟨certificate 0 2, by decide, by decide⟩
      · rw [List.mem_singleton.mp held]
        exact ⟨delegated 0 2 3 true, by decide, by decide⟩
  obtain ⟨creates, blocks⟩ := active_device_revocable_iff primitives browser ⟨family, []⟩
    (authority family [] []) (localProfile 1) (keyId 2) subtree _ _ (fun _ => letters_isHash _)
    verified
    ⟨List.mem_cons_self, rfl, rfl, by decide, localProfile_signs⟩ (by decide) (by decide) computed
    above read within
  obtain ⟨record, created⟩ := creates.mpr revocable
  obtain ⟨extended, accepted, blocked⟩ := blocks record created
  exact ⟨record, extended, created, accepted, blocked _ two, blocked _ three⟩

/-- Device 2 is active and device 1 manages, but device 2 cannot be revoked: device 3 below
it was revoked before; or what it wrote carries a certificate that is not the current one;
or an earlier revocation recorded as many operations as there may be. -/
theorem active_device_not_revocable :
    (verifyIdentityDeviceAuthority primitives (person 0)
        ⟨[certificate 0 1, certificate 0 2, delegated 0 2 3 true], [revoked 1 3 []]⟩
        defaultSignatureDomain = .ok (authority
          [certificate 0 1, certificate 0 2, delegated 0 2 3 true] [revoked 1 3 []] [3]) ∧
      createDeviceRevocation primitives browser (localProfile 1) (authority
          [certificate 0 1, certificate 0 2, delegated 0 2 3 true] [revoked 1 3 []] [3]) (keyId 2)
        (profile [] []) defaultSignatureDomain =
          .error "Overlapping Identity device revocation subtrees") ∧
    (verifyIdentityDeviceAuthority primitives (person 0) ⟨[certificate 0 1, certificate 0 2], []⟩
        defaultSignatureDomain = .ok (authority [certificate 0 1, certificate 0 2] [] []) ∧
      createDeviceRevocation primitives browser (localProfile 1)
        (authority [certificate 0 1, certificate 0 2] [] []) (keyId 2)
        (profile [{ named 2 1 [] "Ada" [] with
          certificates := [certificate 0 1, delegated 0 1 2 true] }] []) defaultSignatureDomain =
          .error "Identity profile history does not match current device authority") ∧
    verifyIdentityDeviceAuthority primitives (person 0)
        ⟨[certificate 0 1, certificate 0 2, certificate 0 3],
          [revoked 1 3 [(keyId 3, List.replicate 512 (letters 43 0))]]⟩ defaultSignatureDomain =
      .ok (authority [certificate 0 1, certificate 0 2, certificate 0 3]
        [revoked 1 3 [(keyId 3, List.replicate 512 (letters 43 0))]] [3]) ∧
    createDeviceRevocation primitives browser (localProfile 1)
      (authority [certificate 0 1, certificate 0 2, certificate 0 3]
        [revoked 1 3 [(keyId 3, List.replicate 512 (letters 43 0))]] [3]) (keyId 2)
      (profile [named 2 1 [] "Ada" []] []) defaultSignatureDomain =
        .error "Identity profile revocation history exceeds the limit" := by
  refine ⟨⟨?_, ?_⟩, ⟨?_, ?_⟩, ?_, ?_⟩ <;> decide

end MetaMesh.Browser
