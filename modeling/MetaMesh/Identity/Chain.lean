import MetaMesh.CanonicalJson
import MetaMesh.Lib.Ancestry

/-!
# Certificate chains

What `verifyDeviceCertificateChain` establishes, over any list of certificates: the list
may repeat certificates, hold those of other people and link them in circles.  The crate
and the TypeScript package have the same check over different ways to verify a signature,
so the walk takes one as a parameter.

`Issued` is one link of a chain, from a certificate to the one that signed it or to the
identity's root key.  The walk goes along `Ancestry.Line` of such links:
`chainWalk_ok` says that it succeeds exactly on a certificate that a chain of
distinct devices leads from to the root.  A chain is a chain in any longer list, so the
verdict can only be lost to the limit on the list or to another certificate for the
same device that comes first.
-/

namespace MetaMesh

open Fallible Ancestry

section Chain

variable (P : Primitives) (identity : PublicIdentity)
  (verify : DeviceCertificate → String → Except String Bool) (certificate : DeviceCertificate)

/-- A certificate of this person for the device whose key it carries. -/
structure CertifiesDevice : Prop where
  kind : certificate.payload.kind = "device-certificate"
  version : certificate.payload.version = 1
  person : certificate.payload.personId = identity.personId
  device : publicKeyId P certificate.payload.devicePublicKey = .ok certificate.payload.deviceId

/-- Who signed a certificate: the root key, or a device that may enroll others. -/
def IssuedBy : Option DeviceCertificate → Prop
  | none => certificate.payload.issuerCertificateHash = none ∧
      certificate.signerKeyId = identity.personId ∧
      verify certificate identity.publicKey = .ok true
  | some issuer => (∃ hash, certificate.payload.issuerCertificateHash = some hash ∧
        certificateHash P issuer = .ok hash) ∧
      issuer.payload.canEnrollDevices = true ∧
      certificate.signerKeyId = issuer.payload.deviceId ∧
      verify certificate issuer.payload.devicePublicKey = .ok true

/-- One link of a chain within a list. -/
structure Issued (certificates : List DeviceCertificate) (certificate : DeviceCertificate)
    (issuer : Option DeviceCertificate) : Prop where
  device : CertifiesDevice P identity certificate
  signed : IssuedBy P identity verify certificate issuer
  listed : ∀ c, issuer = some c → c ∈ certificates

/-- No two certificates of the list share a hash. -/
def HashesApart (certificates : List DeviceCertificate) : Prop :=
  ∀ a ∈ certificates, ∀ b ∈ certificates, certificateHash P a = certificateHash P b → a = b

/-! ## Certificates by hash -/

theorem certificateHash_total : ∃ hash, certificateHash P certificate = .ok hash := by
  obtain ⟨⟨kind, version, personId, deviceId, key, _ | issuer, enroll⟩, signer, signature⟩ :=
    certificate <;> exact ⟨_, rfl⟩

variable {certificates : List DeviceCertificate} {certificate c : DeviceCertificate}

/-- The table of certificates is always built, and where hashes are apart every
certificate is found in it. -/
theorem certificatesByHash_total (certificates : List DeviceCertificate) :
    ∃ byHash, certificatesByHash P certificates = .ok byHash ∧
      ∀ c ∈ certificates, ∀ hash, certificateHash P c = .ok hash →
        (byHash.lookup hash).isSome = true := by
  apply foldlM_total
  · simp
  intro seen item rest before _ holds
  obtain ⟨itemHash, hashed⟩ := certificateHash_total P item
  refine ⟨before.insert itemHash item, by rw [hashed]; rfl, ?_⟩
  intro c member hash same
  rw [Table.lookup_insert_ite]
  split
  · rfl
  · next other =>
    rcases List.mem_append.mp member with earlier | last
    · exact holds c earlier hash same
    · rw [List.mem_singleton.mp last, hashed] at same
      exact absurd (Except.ok.inj same).symm other

variable {P identity verify} {issuer : Option DeviceCertificate}
  {byHash : Table String DeviceCertificate}

variable (P identity verify byHash) in
/-- One link as a walk finds it, through the table of hashes. -/
def Found (certificate : DeviceCertificate) (issuer : Option DeviceCertificate) : Prop :=
  CertifiesDevice P identity certificate ∧ IssuedBy P identity verify certificate issuer ∧
    issuer = certificate.payload.issuerCertificateHash.bind (byHash.lookup ·)

section

variable (filed : certificatesByHash P certificates = .ok byHash)
include filed

theorem lookup_certificatesByHash {hash : String} (found : byHash.lookup hash = some certificate) :
    certificate ∈ certificates ∧ certificateHash P certificate = .ok hash := by
  revert hash certificate
  apply foldlM_invariant filed
  · intro certificate hash found
    simp at found
  · intro seen item rest before after _ holds step certificate hash found
    obtain ⟨itemHash, hashed, same⟩ := bind_ok.mp step
    cases same
    rw [Table.lookup_insert_ite] at found
    split at found
    · next here =>
      cases found
      exact ⟨by simp, here ▸ hashed⟩
    · obtain ⟨member, hashed⟩ := holds found
      exact ⟨List.mem_append_left _ member, hashed⟩

theorem lookup_of_hashesApart (apart : HashesApart P certificates)
    (member : certificate ∈ certificates) {hash : String}
    (hashed : certificateHash P certificate = .ok hash) :
    byHash.lookup hash = some certificate := by
  obtain ⟨table, built, holds⟩ := certificatesByHash_total P certificates
  obtain rfl : byHash = table := ok_unique filed built
  obtain ⟨other, found⟩ := Option.isSome_iff_exists.mp (holds certificate member hash hashed)
  obtain ⟨otherMember, otherHash⟩ := lookup_certificatesByHash filed found
  rw [found, apart certificate member other otherMember (hashed.trans otherHash.symm)]

/-! ## Links through the table -/

/-- A chain in the table is a chain in the list. -/
theorem Found.issued (found : Found P identity verify byHash c issuer) :
    Issued P identity verify certificates c issuer := by
  obtain ⟨certifies, signed, looked⟩ := found
  refine ⟨certifies, signed, ?_⟩
  rintro other rfl
  obtain ⟨hash, _, there⟩ := Option.bind_eq_some_iff.mp looked.symm
  exact (lookup_certificatesByHash filed there).1

/-- Where hashes are apart, a chain in the list is found in the table. -/
theorem Issued.found (apart : HashesApart P certificates)
    (issued : Issued P identity verify certificates c issuer) :
    Found P identity verify byHash c issuer := by
  refine ⟨issued.device, issued.signed, ?_⟩
  cases issuer with
  | none => rw [issued.signed.1]; rfl
  | some other =>
    obtain ⟨⟨hash, named, hashed⟩, _⟩ := issued.signed
    rw [named]
    exact (lookup_of_hashesApart filed apart (issued.listed other rfl) hashed).symm

end

/-! ## The walk -/

section

variable (keyed : ∀ hash c, byHash.lookup hash = some c → certificateHash P c = .ok hash)
include keyed

variable {key : String}

theorem chainWalk_round {leafKey : String} (fuel : Nat) (current : DeviceCertificate)
    (seen : Finset String) :
    chainWalk P identity verify byHash leafKey (fuel + 1) current seen = .ok key ↔
      current.payload.deviceId ∉ seen ∧
        (Found P identity verify byHash current none ∧ leafKey = key ∨
          ∃ issuer, Found P identity verify byHash current (some issuer) ∧
            chainWalk P identity verify byHash leafKey fuel issuer
              (insert current.payload.deviceId seen) = .ok key) := by
  rw [chainWalk]
  cases issued : current.payload.issuerCertificateHash with
  | none =>
    simp only [↓refuse_bind_ok, bind_ok, not_or, not_not, Bool.not_eq_false, Except.ok.injEq]
    constructor
    · rintro ⟨⟨kind, version, person⟩, _, device, ⟨rfl, fresh⟩, signer, _, checked, rfl, returned⟩
      exact ⟨fresh, .inl ⟨⟨⟨kind, version, person, device⟩, ⟨issued, signer, checked⟩,
        by rw [issued]; rfl⟩, returned⟩⟩
    · rintro ⟨fresh, ⟨⟨certifies, ⟨_, signer, checked⟩, _⟩, returned⟩ | ⟨_, found, _⟩⟩
      · exact ⟨⟨certifies.kind, certifies.version, certifies.person⟩, _, certifies.device,
          ⟨rfl, fresh⟩, signer, true, checked, rfl, returned⟩
      · obtain ⟨_, ⟨⟨_, other, _⟩, _⟩, _⟩ := found
        rw [issued] at other
        cases other
  | some hash =>
    simp only [↓refuse_bind_ok, bind_ok, okOr_ok, not_or, not_not, Bool.not_eq_false]
    constructor
    · rintro ⟨⟨kind, version, person⟩, _, device, ⟨rfl, fresh⟩, issuer, found, ⟨enrolls, signer⟩,
        _, checked, rfl, walked⟩
      exact ⟨fresh, .inr ⟨issuer, ⟨⟨kind, version, person, device⟩, ⟨⟨hash, issued,
        keyed hash issuer found⟩, enrolls, signer, checked⟩, by rw [issued]; exact found.symm⟩,
        walked⟩⟩
    · rintro ⟨fresh, ⟨⟨_, ⟨other, _⟩, _⟩, _⟩ | ⟨issuer, ⟨certifies, link, found⟩, walked⟩⟩
      · rw [issued] at other
        cases other
      · obtain ⟨_, enrolls, signer, checked⟩ := link
        rw [issued] at found
        exact ⟨⟨certifies.kind, certifies.version, certifies.person⟩, _, certifies.device,
          ⟨rfl, fresh⟩, issuer, found.symm, ⟨enrolls, signer⟩, true, checked, rfl, walked⟩

variable {leafKey : String} {fuel : Nat}

theorem chainWalk_returns {current : DeviceCertificate} {seen : Finset String}
    (returned : chainWalk P identity verify byHash leafKey fuel current seen = .ok key) :
    leafKey = key := by
  induction fuel generalizing current seen with
  | zero => cases returned
  | succ fuel ih =>
    rcases ((chainWalk_round keyed fuel current seen).mp returned).2 with
      ⟨_, same⟩ | ⟨issuer, _, walked⟩
    · exact same
    · exact ih walked

/-- The walk succeeds exactly on a chain of distinct devices that its fuel allows for. -/
theorem chainWalk_ok {leaf : DeviceCertificate} :
    chainWalk P identity verify byHash leafKey fuel leaf ∅ = .ok key ↔ leafKey = key ∧
      ∃ line, Line (Found P identity verify byHash) leaf line ∧
        line.length ≤ fuel ∧ (line.map fun c => c.payload.deviceId).Nodup := by
  have round := fun fuel c seen =>
    @chainWalk_round P identity verify byHash keyed leafKey leafKey fuel c seen
  simp only [and_true] at round
  have walks := @walk_iff_line _ _ (Found P identity verify byHash) leaf _
    (fun c => c.payload.deviceId)
    (fun fuel c seen => chainWalk P identity verify byHash leafKey fuel c seen = .ok leafKey)
    (by intro c seen returned; cases returned) round fuel ∅
  simp only [Finset.notMem_empty, not_false_eq_true, implies_true, and_true] at walks
  rw [← walks]
  constructor
  · intro returned
    obtain rfl := chainWalk_returns keyed returned
    exact ⟨rfl, returned⟩
  · rintro ⟨rfl, returned⟩
    exact returned

end

/-- More fuel than there are devices left to see changes nothing. -/
theorem chainWalk_enough (inside : ∀ hash c, byHash.lookup hash = some c → c ∈ certificates)
    (more : Nat) {current : DeviceCertificate} {seen : Finset String}
    (member : current ∈ certificates)
    (room : ((certificates.map fun c => c.payload.deviceId).toFinset \ seen).card < fuel) :
    chainWalk P identity verify byHash leafKey (fuel + more) current seen =
      chainWalk P identity verify byHash leafKey fuel current seen := by
  induction fuel generalizing current seen with
  | zero => exact absurd room (Nat.not_lt_zero _)
  | succ fuel ih =>
    rw [Nat.add_right_comm, chainWalk, chainWalk]
    refine bind_congr fun _ => bind_congr fun deviceId => ?_
    by_cases again : current.payload.deviceId ∈ seen
    · simp [refuse, again]
    · refine bind_congr fun _ => ?_
      cases current.payload.issuerCertificateHash with
      | none => rfl
      | some hash =>
        cases found : byHash.lookup hash with
        | none => simp only [found, okOr, Option.elim, error_bind]
        | some issuer =>
          simp only [found, okOr, Option.elim, ok_bind]
          refine bind_congr fun _ => bind_congr fun _ => bind_congr fun _ => ?_
          refine ih (inside hash issuer found) (lt_of_lt_of_le ?_ (Nat.le_of_lt_succ room))
          rw [Finset.sdiff_insert]
          exact Finset.card_erase_lt_of_mem (Finset.mem_sdiff.mpr
            ⟨List.mem_toFinset.mpr (List.mem_map_of_mem member), again⟩)

/-! ## The verdict -/

variable {deviceId key : String} {certificates : List DeviceCertificate}

theorem verifyChainWithin_enough {rounds : Nat} (enough : certificates.length < rounds) :
    verifyChainWithin P identity verify rounds deviceId certificates =
      verifyChainWithin P identity verify (certificates.length + 1) deviceId certificates := by
  refine bind_congr fun _ => bind_congr fun _ => bind_congr fun _ => ?_
  obtain ⟨byHash, filed, _⟩ := certificatesByHash_total P certificates
  cases found : certificates.find? fun c => c.payload.deviceId = deviceId with
  | none => simp only [filed, ok_bind, okOr, Option.elim, error_bind]
  | some leaf =>
    simp only [filed, ok_bind, okOr, Option.elim]
    obtain ⟨more, rfl⟩ := Nat.exists_eq_add_of_lt enough
    rw [show certificates.length + more + 1 = certificates.length + 1 + more by omega]
    refine chainWalk_enough (fun hash c there => (lookup_certificatesByHash filed there).1)
      more (List.mem_of_find?_eq_some found) (Nat.lt_succ_of_le ?_)
    exact (List.toFinset_card_le _).trans_eq (List.length_map _)

/-- The check succeeds exactly on a chain of distinct devices from the first certificate
for the device. -/
theorem verifyChain_ok (filed : certificatesByHash P certificates = .ok byHash) :
    verifyChainWithin P identity verify (certificates.length + 1) deviceId certificates = .ok key ↔
      publicKeyId P identity.publicKey = .ok identity.personId ∧
      certificates.length ≤ maxCertificateChainLength ∧
      ∃ leaf, certificates.find? (fun c => c.payload.deviceId = deviceId) = some leaf ∧
        leaf.payload.devicePublicKey = key ∧
        ∃ line, Line (Found P identity verify byHash) leaf line ∧
          (line.map fun c => c.payload.deviceId).Nodup := by
  have keyed := fun hash c there => (@lookup_certificatesByHash P _ c _ filed hash there).2
  unfold verifyChainWithin
  simp only [↓refuse_bind_ok, bind_ok, okOr_ok, filed, Except.ok.injEq, exists_eq_left',
    chainWalk_ok keyed, not_or, not_not, not_lt]
  constructor
  · rintro ⟨_, root, rfl, ⟨_, limit⟩, leaf, first, returned, line, led, _, distinct⟩
    exact ⟨root, limit, leaf, first, returned, line, led, distinct⟩
  · rintro ⟨root, limit, leaf, first, returned, line, led, distinct⟩
    have held := List.mem_of_find?_eq_some first
    refine ⟨_, root, rfl, ⟨List.ne_nil_of_mem held, limit⟩, leaf, first, returned, line, led, ?_,
      distinct⟩
    refine Nat.le_succ_of_le (length_le_of_distinct distinct ?_)
    exact led.forall_mem held fun a b found => (found.issued filed).listed b rfl

/-! ## The crate's check -/

/-- The check ends within as many rounds as there are certificates.  A key it returns is
that of a certificate for the device, from which distinct certificates of the list lead to
the root, each signed by the next.  No list that holds at least the same certificates loses
the key, as long as it keeps to the limit and to the first certificate for the device. -/
theorem device_certificate_chain (P : Primitives) (identity : PublicIdentity)
    (deviceId domain : String) (certificates : List DeviceCertificate) :
    (∀ rounds, certificates.length < rounds →
      verifyChainWithin P identity (fun c key => verifySignedEnvelope P c key domain) rounds
          deviceId certificates =
        verifyDeviceCertificateChain P identity deviceId certificates domain) ∧
    ∀ key, verifyDeviceCertificateChain P identity deviceId certificates domain = .ok key →
      (publicKeyId P identity.publicKey = .ok identity.personId ∧
        ∃ leaf line, leaf.payload.deviceId = deviceId ∧ leaf.payload.devicePublicKey = key ∧
          Line (Issued P identity (fun c key => verifySignedEnvelope P c key domain) certificates)
            leaf line ∧ line.Nodup ∧ ∀ c ∈ line, c ∈ certificates) ∧
      ∀ others, (∀ c ∈ certificates, c ∈ others) → HashesApart P others →
        others.length ≤ maxCertificateChainLength →
        others.find? (fun c => c.payload.deviceId = deviceId) =
          certificates.find? (fun c => c.payload.deviceId = deviceId) →
        verifyDeviceCertificateChain P identity deviceId others domain = .ok key := by
  unfold verifyDeviceCertificateChain
  refine ⟨fun rounds => verifyChainWithin_enough, ?_⟩
  intro key verified
  obtain ⟨byHash, filed, _⟩ := certificatesByHash_total P certificates
  obtain ⟨root, _, leaf, first, returned, line, led, distinct⟩ :=
    (verifyChain_ok filed).mp verified
  have device : leaf.payload.deviceId = deviceId := by simpa using List.find?_some first
  have issued : Line (Issued P identity (fun c key => verifySignedEnvelope P c key domain)
      certificates) leaf line :=
    led.mono fun c _ issuer found => found.issued filed
  refine ⟨⟨root, leaf, line, device, returned, issued, List.Nodup.of_map _ distinct, ?_⟩, ?_⟩
  · exact issued.forall_mem (List.mem_of_find?_eq_some first) fun a b link => link.listed b rfl
  · intro others more apart limit sameFirst
    obtain ⟨table, built, _⟩ := certificatesByHash_total P others
    refine (verifyChain_ok built).mpr ⟨root, limit, leaf, sameFirst.trans first, returned,
      line, issued.mono ?_, distinct⟩
    intro c _ issuer link
    exact Issued.found built apart
      ⟨link.device, link.signed, fun other named => more other (link.listed other named)⟩

end Chain

/-! ## Certificates to evaluate with -/

namespace Sample

/-- A device certificate signed by a device of the person. -/
def delegated (person issuer device : Nat) (enrolls : Bool) : DeviceCertificate :=
  ⟨⟨"device-certificate", 1, keyId person, keyId device, letters 43 device,
    (certificateHash primitives (certificate person issuer)).toOption, enrolls⟩,
    keyId issuer, letters 86 issuer⟩

/-- A certificate nobody signed. -/
def forged (person device : Nat) : DeviceCertificate :=
  { certificate person device with signature := letters 86 device }

def person (code : Nat) : PublicIdentity := ⟨keyId code, letters 43 code, "Ada"⟩

end Sample

set_option maxRecDepth 100000

open Sample in
theorem device_certificate_chain_sample :
    verifyDeviceCertificateChain primitives (person 0) (keyId 2)
        [certificate 0 3, certificate 0 1, delegated 0 1 2 false] "MATCH/1" =
      .ok (letters 43 2) := by
  have verified : verifyDeviceCertificateChain primitives (person 0) (keyId 2)
      [delegated 0 1 2 false, certificate 0 1] "MATCH/1" = .ok (letters 43 2) := by decide
  refine ((device_certificate_chain primitives (person 0) (keyId 2) "MATCH/1"
    [delegated 0 1 2 false, certificate 0 1]).2 (letters 43 2) verified).2 _ ?_ ?_ ?_ ?_
  · simp
  · unfold HashesApart
    decide
  · decide
  · decide

open Sample in
/-- The same certificates in another order: the walk starts at the first certificate for
the device.  And one certificate more than the limit. -/
theorem certificate_order_decides :
    [forged 0 1, certificate 0 1].Perm [certificate 0 1, forged 0 1] ∧
    verifyDeviceCertificateChain primitives (person 0) (keyId 1)
      [certificate 0 1, forged 0 1] "MATCH/1" = .ok (letters 43 1) ∧
    verifyDeviceCertificateChain primitives (person 0) (keyId 1)
      [forged 0 1, certificate 0 1] "MATCH/1" = .error "Invalid root certificate" ∧
    verifyDeviceCertificateChain primitives (person 0) (keyId 1)
      (certificate 0 1 :: List.replicate 32 (certificate 0 3)) "MATCH/1" =
        .error "Invalid certificate chain" :=
  ⟨List.Perm.swap _ _ _, by decide, by decide, by decide⟩

end MetaMesh
