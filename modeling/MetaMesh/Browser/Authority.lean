import MetaMesh.Browser.Certificates
import MetaMesh.Browser.Record

/-!
# Authority of a person's devices

`verifyIdentityDeviceAuthority` of `packages/mesh-identity/src/index.ts`: a catalogue of
device certificates with a history of revocations.  Every certificate must have a chain to
the root in the catalogue.  Revocations apply in the order of their revisions; one blocks
a device and everything enrolled below it, and records which profile operations of those
devices stay.

Behind the check stand walks along issuers.  `Catalogue` is what the check of the chains
establishes, and `Below` says where a certificate stands under it; the walks ask for
nothing else.
-/

namespace MetaMesh.Browser

open Fallible Ancestry

def maxAuthorityRecords : Nat := 256
def maxOperations : Nat := 512

/-- A device is revoked, with the operations that still count. -/
structure IdentityDeviceRevocationPayload where
  kind : String
  version : UInt8
  personId : String
  deviceId : String
  revision : Int
  profileOperationHashes : Record (List String)
deriving DecidableEq

abbrev IdentityDeviceRevocation := SignedEnvelope IdentityDeviceRevocationPayload

instance : Serialize IdentityDeviceRevocationPayload where
  toValue p := .object [("kind", toValue p.kind), ("version", toValue p.version),
    ("personId", toValue p.personId), ("deviceId", toValue p.deviceId),
    ("revision", toValue p.revision),
    ("profileOperationHashes", toValue p.profileOperationHashes)]

/-- Certificates and revocations as they come. -/
structure IdentityDeviceAuthorityEvidence where
  certificates : List DeviceCertificate
  revocations : List IdentityDeviceRevocation

/-- What `verifiedDeviceAuthorityState` keeps of a verified authority. -/
structure VerifiedIdentityDeviceAuthority where
  identity : PublicIdentity
  certificates : List DeviceCertificate
  revocations : List IdentityDeviceRevocation
  revokedDeviceIds : List String
  blockedDeviceIds : List String
deriving DecidableEq

/-- `/^[A-Za-z0-9_-]{43}$/`, the shape of ids and hashes. -/
def isHash (text : String) : Bool :=
  hasShape isBase64Url 43 text.toList

def deviceIds (certificates : List DeviceCertificate) : List String :=
  certificates.map fun certificate => certificate.payload.deviceId

/-- What has been revoked so far, the devices it covers, and how many profile operations
it records. -/
structure Revoked where
  revoked : List String
  coveredSubtrees : Finset String
  totalProfileOperations : Nat

section Authority

variable (P : Primitives) (identity : PublicIdentity)

/-- Whether some device that may enroll others has a valid, unrevoked chain. -/
def activeManagementDevices (identity : PublicIdentity) (certificates : List DeviceCertificate)
    (revoked : Finset String) (domain : String) : List DeviceCertificate → Except String Bool
  | [] => .ok false
  | certificate :: rest => do
      if certificate.payload.canEnrollDevices then
        let blocked ← isChainRevoked P certificate.payload.deviceId revoked certificates
        -- a certificate that is not valid does not count
        if blocked = false ∧ (verifyDeviceCertificateChain P identity certificate.payload.deviceId
            certificates domain).isOk = true then .ok true
        else activeManagementDevices identity certificates revoked domain rest
      else activeManagementDevices identity certificates revoked domain rest

/-- Checks the hashes kept for one device and counts them. -/
def countHashes (subtree : Finset String) (observedOperationCount : Nat)
    (entry : String × List String) : Except String Nat := do
  refuse (entry.1 ∉ subtree ∨ maxOperations < entry.2.length ∨ entry.2.all isHash = false)
    "Invalid Identity profile revocation frontier"
  refuse (maxOperations < observedOperationCount + entry.2.length)
    "Identity profile revocation frontier exceeds the limit"
  .ok (observedOperationCount + entry.2.length)

/-- One revocation, after those of lower revisions. -/
def admitRevocation (certificates : List DeviceCertificate) (domain : String) (state : Revoked)
    (item : IdentityDeviceRevocation × Nat) : Except String Revoked := do
  let record := item.1
  let payload := record.payload
  let signerId := record.signerKeyId
  let stale := "Invalid or stale Identity device revocation"
  refuse (payload.kind ≠ "mesh-identity-device-revocation" ∨ payload.version ≠ 1 ∨
    payload.personId ≠ identity.personId ∨ payload.deviceId ∉ deviceIds certificates ∨
    isSafeInteger payload.revision = false ∨ payload.revision ≠ item.2 + 1 ∨
    maxAuthorityRecords < payload.profileOperationHashes.keys.card ∨
    signerId = payload.deviceId ∨ payload.deviceId ∈ state.revoked) stale
  let signerRevoked ← isChainRevoked P signerId state.revoked.toFinset certificates
  refuse (signerRevoked = true) stale
  let deviceRevoked ← isChainRevoked P payload.deviceId state.revoked.toFinset certificates
  refuse (deviceRevoked = true) stale
  let subtree ← identityDeviceDescendants P payload.deviceId certificates
  refuse (subtree ∩ state.coveredSubtrees ≠ ∅) "Overlapping Identity device revocation subtrees"
  let observedOperationCount ← payload.profileOperationHashes.items.foldlM (countHashes subtree) 0
  refuse (maxOperations < state.totalProfileOperations + observedOperationCount)
    "Identity profile revocation history exceeds the limit"
  let signer ← okOr (certificates.find? fun c => c.payload.deviceId = signerId)
    "Identity device lacks revocation authority"
  refuse (signer.payload.canEnrollDevices = false) "Identity device lacks revocation authority"
  let signerKey ← verifyDeviceCertificateChain P identity signerId certificates domain
  let verified ← verifyEnvelope P record signerKey domain
  refuse (verified = false) "Invalid Identity device revocation signature"
  let revoked := state.revoked ++ [payload.deviceId]
  let managed ← activeManagementDevices P identity certificates revoked.toFinset domain certificates
  refuse (managed = false) "Identity device revocation would remove the last management authority"
  .ok ⟨revoked, state.coveredSubtrees ∪ subtree,
    state.totalProfileOperations + observedOperationCount⟩

/-- The devices at or below a revoked one. -/
def blockedDevices (revoked : Finset String) (certificates : List DeviceCertificate) :
    Except String (List String) :=
  (deviceIds certificates).foldlM
    (fun blocked deviceId => do
      let chainRevoked ← isChainRevoked P deviceId revoked certificates
      .ok (if chainRevoked then blocked ++ [deviceId] else blocked)) []

/-- Every device has a chain to the root. -/
def verifyChains (certificates : List DeviceCertificate) (domain : String) : Except String Unit :=
  (deviceIds certificates).forM fun deviceId => do
    let _ ← verifyDeviceCertificateChain P identity deviceId certificates domain
    .ok ()

/-- Verifies the certificates, then the revocations by revision. -/
def verifyIdentityDeviceAuthority (evidence : IdentityDeviceAuthorityEvidence) (domain : String) :
    Except String VerifiedIdentityDeviceAuthority := do
  let certificates := evidence.certificates
  refuse (certificates = [] ∨ maxAuthorityRecords < certificates.length ∨
    maxAuthorityRecords < evidence.revocations.length) "Invalid Identity device authority evidence"
  refuse (¬ (deviceIds certificates).Nodup) "Conflicting Identity device certificate"
  verifyChains P identity certificates domain
  let ordered := sortBy (fun record => record.payload.revision) evidence.revocations
  let state ← ordered.zipIdx.foldlM (admitRevocation P identity certificates domain) ⟨[], ∅, 0⟩
  let blocked ← blockedDevices P state.revoked.toFinset certificates
  .ok ⟨identity, certificates, ordered, state.revoked, blocked⟩

/-! ## Where a certificate stands -/

/-- The chain of a certificate through the table of hashes passes a device. -/
def Below (byHash : Table String DeviceCertificate) (certificate : DeviceCertificate)
    (deviceId : String) : Prop :=
  ∃ line, Line (fun c issuer => issuerOf byHash c = some issuer) certificate line ∧
    ∃ c ∈ line, c.payload.deviceId = deviceId

/-- A catalogue in which every certificate has its chain. -/
structure Catalogue (domain : String) (certificates : List DeviceCertificate)
    (byHash : Table String DeviceCertificate) : Prop where
  filed : certificatesByHash P certificates = .ok byHash
  root : publicKeyId P identity.publicKey = .ok identity.personId
  limit : certificates.length ≤ maxCertificateChainLength
  distinct : (deviceIds certificates).Nodup
  chained : ∀ c ∈ certificates, ∃ line,
    Line (Found P identity (fun c key => verifyEnvelope P c key domain) byHash) c line ∧
      (deviceIds line).Nodup

variable {P} {identity : PublicIdentity} {domain : String}
  {certificates : List DeviceCertificate} {byHash : Table String DeviceCertificate}

theorem eq_of_deviceId (distinct : (deviceIds certificates).Nodup) {a b : DeviceCertificate}
    (heldA : a ∈ certificates) (heldB : b ∈ certificates)
    (same : a.payload.deviceId = b.payload.deviceId) : a = b :=
  List.inj_on_of_nodup_map distinct heldA heldB same

variable {c : DeviceCertificate}

/-- A certificate is the one found for its device. -/
theorem find_deviceId (distinct : (deviceIds certificates).Nodup) (held : c ∈ certificates) :
    certificates.find? (fun other => other.payload.deviceId = c.payload.deviceId) = some c := by
  cases found : certificates.find? fun other => other.payload.deviceId = c.payload.deviceId with
  | none => exact absurd (by simp) (List.find?_eq_none.mp found c held)
  | some other =>
    have same : other.payload.deviceId = c.payload.deviceId := by
      simpa using List.find?_some found
    rw [eq_of_deviceId distinct (List.mem_of_find?_eq_some found) held same]

/-- The chain of every certificate of a catalogue verifies. -/
theorem Catalogue.verifies (catalogue : Catalogue P identity domain certificates byHash)
    (held : c ∈ certificates) :
    verifyDeviceCertificateChain P identity c.payload.deviceId certificates domain =
      .ok c.payload.devicePublicKey := by
  obtain ⟨line, led, once⟩ := catalogue.chained c held
  exact (verifyChain_ok catalogue.filed).mpr ⟨catalogue.root, catalogue.limit, c,
    find_deviceId catalogue.distinct held, rfl, line, led, once⟩

/-- The check of every chain, in a catalogue with one certificate for each device. -/
theorem verifyChains_ok (filed : certificatesByHash P certificates = .ok byHash)
    (distinct : (deviceIds certificates).Nodup) (some_held : certificates ≠ []) :
    verifyChains P identity certificates domain = .ok () ↔
      Catalogue P identity domain certificates byHash := by
  unfold verifyChains
  rw [forM_ok]
  constructor
  · intro each
    have chain : ∀ c ∈ certificates, ∃ key, verifyDeviceCertificateChain P identity
        c.payload.deviceId certificates domain = .ok key := by
      intro c held
      obtain ⟨key, verified, _⟩ := bind_ok.mp (each _ (List.mem_map_of_mem held))
      exact ⟨key, verified⟩
    obtain ⟨first, held⟩ := List.exists_mem_of_ne_nil _ some_held
    obtain ⟨_, verified⟩ := chain first held
    obtain ⟨root, limit, _⟩ := (verifyChain_ok filed).mp verified
    refine ⟨filed, root, limit, distinct, ?_⟩
    intro c held
    obtain ⟨_, verified⟩ := chain c held
    obtain ⟨_, _, leaf, found, _, line, led, once⟩ := (verifyChain_ok filed).mp verified
    rw [find_deviceId distinct held] at found
    exact ⟨line, Option.some.inj found ▸ led, once⟩
  · intro catalogue deviceId member
    obtain ⟨c, held, rfl⟩ := List.mem_map.mp member
    exact bind_ok.mpr ⟨c.payload.devicePublicKey, catalogue.verifies held, rfl⟩

theorem issuerOf_of_found {issuer : Option DeviceCertificate}
    {verify : DeviceCertificate → String → Except String Bool}
    (found : Found P identity verify byHash c issuer) : issuerOf byHash c = some issuer := by
  obtain ⟨_, signed, looked⟩ := found
  unfold issuerOf
  cases issuer with
  | none => rw [signed.1]
  | some other =>
    obtain ⟨⟨hash, named, _⟩, _⟩ := signed
    rw [named] at looked ⊢
    exact congrArg (Option.map some) looked.symm

namespace Catalogue

variable (catalogue : Catalogue P identity domain certificates byHash)
include catalogue

/-- The line of a certificate, as the walks follow it. -/
theorem line (held : c ∈ certificates) :
    ∃ line, Line (fun c issuer => issuerOf byHash c = some issuer) c line ∧
      line.length ≤ certificates.length + 1 ∧ (deviceIds line).Nodup ∧
      ∀ a ∈ line, a ∈ certificates := by
  obtain ⟨line, led, once⟩ := catalogue.chained c held
  have inside : ∀ a ∈ line, a ∈ certificates :=
    led.forall_mem held fun a b found => (found.issued catalogue.filed).listed b rfl
  exact ⟨line, led.mono fun a _ issuer found => issuerOf_of_found found,
    Nat.le_succ_of_le (length_le_of_distinct once inside), once, inside⟩

theorem climbIssuers_eq (held : c ∈ certificates) (hit : DeviceCertificate → Bool) (lost : Bool) :
    ∃ line, Line (fun c issuer => issuerOf byHash c = some issuer) c line ∧
      climbIssuers P hit lost certificates c = .ok (line.any hit) := by
  obtain ⟨line, led, enough, once, _⟩ := catalogue.line held
  refine ⟨line, led, bind_ok.mpr ⟨byHash, catalogue.filed, ?_⟩⟩
  exact congrArg Except.ok (climb_of_line led enough once (by simp))

end Catalogue

theorem issuerOf_functional (c : DeviceCertificate) (p q : Option DeviceCertificate)
    (one : issuerOf byHash c = some p) (two : issuerOf byHash c = some q) : p = q :=
  Option.mem_unique one two

theorem below_iff_of_line {line : List DeviceCertificate}
    (led : Line (fun c issuer => issuerOf byHash c = some issuer) c line) {deviceId : String} :
    Below byHash c deviceId ↔ ∃ a ∈ line, a.payload.deviceId = deviceId := by
  constructor
  · rintro ⟨other, also, passes⟩
    rw [led.unique issuerOf_functional also]
    exact passes
  · intro passes
    exact ⟨line, led, passes⟩

namespace Catalogue

variable (catalogue : Catalogue P identity domain certificates byHash)
include catalogue

variable {c : DeviceCertificate}

theorem below_self (held : c ∈ certificates) : Below byHash c c.payload.deviceId := by
  obtain ⟨line, led, _⟩ := catalogue.line held
  exact ⟨line, led, c, led.start_mem, rfl⟩

theorem isChainRevoked_eq (held : c ∈ certificates) (revoked : Finset String) :
    ∃ blocked, isChainRevoked P c.payload.deviceId revoked certificates = .ok blocked ∧
      (blocked = true ↔ ∃ deviceId ∈ revoked, Below byHash c deviceId) := by
  obtain ⟨line, led, climbed⟩ :=
    catalogue.climbIssuers_eq held (fun a => a.payload.deviceId ∈ revoked) true
  refine ⟨line.any fun a => a.payload.deviceId ∈ revoked, ?_, ?_⟩
  · unfold isChainRevoked
    rw [find_deviceId catalogue.distinct held]
    exact climbed
  · simp only [List.any_eq_true, decide_eq_true_eq, below_iff_of_line led]
    constructor
    · rintro ⟨a, passed, member⟩
      exact ⟨_, member, a, passed, rfl⟩
    · rintro ⟨_, member, a, passed, rfl⟩
      exact ⟨a, passed, member⟩

theorem isCertificateDescendant_eq (held : c ∈ certificates) (rootId : String) :
    ∃ below, isCertificateDescendant P c rootId certificates = .ok below ∧
      (below = true ↔ Below byHash c rootId) := by
  obtain ⟨line, led, climbed⟩ :=
    catalogue.climbIssuers_eq held (fun a => a.payload.deviceId = rootId) false
  refine ⟨_, climbed, ?_⟩
  simp only [List.any_eq_true, decide_eq_true_eq, below_iff_of_line led]

theorem identityDeviceDescendants_eq (rootId : String) :
    ∃ subtree, identityDeviceDescendants P rootId certificates = .ok subtree ∧
      ∀ deviceId, deviceId ∈ subtree ↔
        ∃ c ∈ certificates, c.payload.deviceId = deviceId ∧ Below byHash c rootId := by
  apply foldlM_total
  · simp
  intro seen c rest before split holds
  obtain ⟨below, walked, meaning⟩ := catalogue.isCertificateDescendant_eq
    (split ▸ by simp : c ∈ certificates) rootId
  refine ⟨_, bind_ok.mpr ⟨below, walked, rfl⟩, ?_⟩
  intro deviceId
  have last : (∃ a ∈ seen ++ [c], a.payload.deviceId = deviceId ∧ Below byHash a rootId) ↔
      (∃ a ∈ seen, a.payload.deviceId = deviceId ∧ Below byHash a rootId) ∨
        c.payload.deviceId = deviceId ∧ below = true := by
    simp only [List.mem_append, List.mem_singleton, or_and_right, exists_or, exists_eq_left,
      meaning]
  rw [last, ← holds]
  cases below with
  | false => simp
  | true => simp [eq_comm, or_comm]

end Catalogue

/-! ## How many devices an authority can have -/

/-- Certificates whose issuers lead to the root are a catalogue, if hashes are apart. -/
theorem catalogue_of_issued (apart : HashesApart P certificates)
    (filed : certificatesByHash P certificates = .ok byHash)
    (root : publicKeyId P identity.publicKey = .ok identity.personId)
    (distinct : (deviceIds certificates).Nodup)
    (issued : ∀ c ∈ certificates, ∃ line, Line (Issued P identity
      (fun c key => verifyEnvelope P c key domain) certificates) c line)
    (limit : certificates.length ≤ maxCertificateChainLength) :
    Catalogue P identity domain certificates byHash := by
  refine ⟨filed, root, limit, distinct, ?_⟩
  intro c held
  obtain ⟨line, led⟩ := issued c held
  have found := led.mono fun a _ issuer link => Issued.found filed apart link
  have once : line.Nodup := found.nodup fun a p q one two => one.2.2.trans two.2.2.symm
  have inside : ∀ a ∈ line, a ∈ certificates :=
    led.forall_mem held fun a b link => link.listed b rfl
  refine ⟨line, found, List.Nodup.map_on ?_ once⟩
  intro a heldA b heldB same
  exact eq_of_deviceId distinct (inside a heldA) (inside b heldB) same

theorem Catalogue.blockedDevices_eq (catalogue : Catalogue P identity domain certificates byHash)
    (revoked : Finset String) :
    ∃ blocked, blockedDevices P revoked certificates = .ok blocked ∧
      ∀ c ∈ certificates, c.payload.deviceId ∈ blocked ↔
        ∃ deviceId ∈ revoked, Below byHash c deviceId := by
  have loop : ∃ blocked, blockedDevices P revoked certificates = .ok blocked ∧
      ∀ c ∈ certificates, c.payload.deviceId ∈ blocked ↔
        c.payload.deviceId ∈ deviceIds certificates ∧
          ∃ deviceId ∈ revoked, Below byHash c deviceId := by
    refine foldlM_total (fun seen (blocked : List String) => ∀ c ∈ certificates,
      c.payload.deviceId ∈ blocked ↔ c.payload.deviceId ∈ seen ∧
        ∃ deviceId ∈ revoked, Below byHash c deviceId) (by simp) ?_
    intro seen deviceId rest before split holds
    have member : deviceId ∈ deviceIds certificates := by
      rw [split]
      simp
    obtain ⟨a, heldA, rfl⟩ := List.mem_map.mp member
    obtain ⟨chainRevoked, walked, meaning⟩ := catalogue.isChainRevoked_eq heldA revoked
    refine ⟨_, bind_ok.mpr ⟨chainRevoked, walked, rfl⟩, ?_⟩
    intro c held
    have here : c.payload.deviceId = a.payload.deviceId →
        (chainRevoked = true ↔ ∃ deviceId ∈ revoked, Below byHash c deviceId) := by
      intro same
      rw [eq_of_deviceId catalogue.distinct held heldA same]
      exact meaning
    have before := holds c held
    cases chainRevoked with
    | false => grind
    | true => grind
  obtain ⟨blocked, ran, meaning⟩ := loop
  refine ⟨blocked, ran, ?_⟩
  intro c held
  rw [meaning c held]
  exact and_iff_right (List.mem_map_of_mem held)

/-- A catalogue is accepted with revocations that can follow each other. -/
theorem Catalogue.accepted (catalogue : Catalogue P identity domain certificates byHash)
    (held : certificates ≠ []) {revocations : List IdentityDeviceRevocation} {state : Revoked}
    (few : revocations.length ≤ maxAuthorityRecords)
    (ran : (sortBy (fun record => record.payload.revision) revocations).zipIdx.foldlM
      (admitRevocation P identity certificates domain) ⟨[], ∅, 0⟩ = .ok state) : ∃ authority,
      verifyIdentityDeviceAuthority P identity ⟨certificates, revocations⟩ domain =
        .ok authority := by
  obtain ⟨blocked, computed, _⟩ := catalogue.blockedDevices_eq state.revoked.toFinset
  have limit : certificates.length ≤ 32 := catalogue.limit
  have chains := (verifyChains_ok catalogue.filed catalogue.distinct held).mpr catalogue
  simp only [verifyIdentityDeviceAuthority, refuse_bind_ok, chains, ran, computed, ok_bind,
    not_or, not_lt, not_not]
  exact ⟨_, ⟨held, limit.trans (by decide), few⟩, catalogue.distinct, rfl⟩

/-- Certificates with distinct devices that lead to the root are accepted, in any order,
exactly if there are no more of them than one chain may have. -/
theorem identity_authority_accepts_iff (P : Primitives) (identity : PublicIdentity)
    (domain : String) (certificates : List DeviceCertificate)
    (root : publicKeyId P identity.publicKey = .ok identity.personId)
    (apart : HashesApart P certificates)
    (count : 0 < certificates.length ∧ certificates.length ≤ maxAuthorityRecords)
    (distinct : (deviceIds certificates).Nodup)
    (issued : ∀ c ∈ certificates, ∃ line, Line (Issued P identity
      (fun c key => verifyEnvelope P c key domain) certificates) c line ∧
        line.length ≤ maxCertificateChainLength)
    (listed : List DeviceCertificate) (order : listed.Perm certificates) :
    (∃ authority, verifyIdentityDeviceAuthority P identity ⟨listed, []⟩ domain = .ok authority) ↔
      certificates.length ≤ maxCertificateChainLength := by
  have apart' : HashesApart P listed := by
    intro a heldA b heldB
    exact apart a (order.mem_iff.mp heldA) b (order.mem_iff.mp heldB)
  have distinct' : (deviceIds listed).Nodup := (order.map _).nodup_iff.mpr distinct
  have issued' : ∀ c ∈ listed, ∃ line, Line (Issued P identity
      (fun c key => verifyEnvelope P c key domain) listed) c line := by
    intro c held
    obtain ⟨line, led, _⟩ := issued c (order.mem_iff.mp held)
    refine ⟨line, led.mono ?_⟩
    intro a _ issuer link
    exact ⟨link.device, link.signed, fun other named => order.mem_iff.mpr (link.listed other named)⟩
  have held : listed ≠ [] := by
    rintro rfl
    rw [← order.length_eq] at count
    exact absurd count.1 (Nat.lt_irrefl 0)
  obtain ⟨byHash, filed, _⟩ := certificatesByHash_total P listed
  rw [← order.length_eq]
  constructor
  · rintro ⟨authority, accepted⟩
    obtain ⟨_, accepted⟩ := refuse_bind_ok.mp accepted
    obtain ⟨_, accepted⟩ := refuse_bind_ok.mp accepted
    obtain ⟨chains, _⟩ := check_bind_ok.mp accepted
    exact ((verifyChains_ok filed distinct' held).mp chains).limit
  · intro limit
    exact (catalogue_of_issued apart' filed root distinct' issued' limit).accepted held
      (Nat.zero_le _) rfl

end Authority

/-! ## Catalogues to evaluate with -/

namespace Sample

open MetaMesh.Sample

/-- Primitives with hashes as long as what is hashed: no two of them are the same. -/
def plain : Primitives :=
  { primitives with
    sha256 := id
    base64Encode := fun bytes => String.ofList (bytes.map fun byte => Char.ofNat byte.toNat) }

def plainText (count code : Nat) : String :=
  String.ofList (List.replicate count (Char.ofNat (65 + code)))

/-- The person with root key 0. -/
def root : PublicIdentity := ⟨plainText 32 0, plainText 43 0, "Ada"⟩

/-- A device certificate signed by the root key. -/
def enrolled (device : Nat) : DeviceCertificate :=
  ⟨⟨"device-certificate", 1, plainText 32 0, plainText 32 device, plainText 43 device, none, true⟩,
    plainText 32 0, plainText 86 0⟩

/-- A device certificate signed by a device with a certificate of the root key. -/
def enrolledBy (issuer device : Nat) : DeviceCertificate :=
  ⟨⟨"device-certificate", 1, plainText 32 0, plainText 32 device, plainText 43 device,
    (certificateHash plain (enrolled issuer)).toOption, false⟩, plainText 32 issuer,
    plainText 86 issuer⟩

theorem plain_hashesApart (certificates : List DeviceCertificate) :
    HashesApart plain certificates := by
  intro a _ b _ same
  have read : ∀ x : UInt8, (Char.ofNat x.toNat).toNat = x.toNat := by
    intro x
    have small := x.toNat_lt
    unfold Char.ofNat
    rw [dif_pos (.inl (by omega))]
    rfl
  have bytes : ∀ x y : UInt8, Char.ofNat x.toNat = Char.ofNat y.toNat → x = y := by
    intro x y code
    rw [← UInt8.toNat_inj, ← read x, ← read y, code]
  unfold certificateHash at same
  rw [canonicalizeJson_eq_sorted, canonicalizeJson_eq_sorted, ok_bind, ok_bind] at same
  have text : (toValue a).sorted.toVec = (toValue b).sorted.toVec :=
    List.map_injective_iff.mpr bytes (String.ofList_injective (Except.ok.inj same))
  exact (canonicalizeJson_inj plain).mp (by
    rw [canonicalizeJson_eq_sorted, canonicalizeJson_eq_sorted, text])

/-- Devices that the root key enrolled. -/
def devices (count : Nat) : List DeviceCertificate :=
  (List.range count).map fun i => enrolled (i + 1)

end Sample

open MetaMesh.Sample Sample

theorem enrolled_issued {device : Nat} (certificates : List DeviceCertificate)
    (known : publicKeyId plain (plainText 43 device) = .ok (plainText 32 device)) :
    Issued plain root (fun c key => verifyEnvelope plain c key defaultSignatureDomain)
      certificates (enrolled device) none :=
  ⟨⟨rfl, rfl, rfl, known⟩, ⟨rfl, rfl, rfl⟩, by simp⟩

theorem devices_issued {count : Nat} (limit : count ≤ 33) :
    ∀ c ∈ devices count, ∃ line, Line (Issued plain root
      (fun c key => verifyEnvelope plain c key defaultSignatureDomain) (devices count)) c line ∧
        line.length ≤ maxCertificateChainLength := by
  have known : ∀ i : Fin 33, publicKeyId plain (plainText 43 (i + 1)) =
      .ok (plainText 32 (i + 1)) := by decide
  intro c held
  obtain ⟨i, small, rfl⟩ := List.mem_map.mp held
  rw [List.mem_range] at small
  exact ⟨_, .root (enrolled_issued _ (known ⟨i, by omega⟩)), by simp [maxCertificateChainLength]⟩

theorem identity_authority_accepts_iff_sample :
    ∃ authority, verifyIdentityDeviceAuthority plain root
      ⟨[enrolledBy 1 2, enrolled 1], []⟩ defaultSignatureDomain = .ok authority := by
  have first : Issued plain root (fun c key => verifyEnvelope plain c key defaultSignatureDomain)
      [enrolled 1, enrolledBy 1 2] (enrolled 1) none := enrolled_issued _ (by decide)
  have second : Issued plain root (fun c key => verifyEnvelope plain c key defaultSignatureDomain)
      [enrolled 1, enrolledBy 1 2] (enrolledBy 1 2) (some (enrolled 1)) :=
    ⟨⟨rfl, rfl, rfl, by decide⟩, ⟨⟨_, rfl, rfl⟩, rfl, rfl, rfl⟩, by simp⟩
  refine (identity_authority_accepts_iff plain root defaultSignatureDomain
    [enrolled 1, enrolledBy 1 2] (by decide) (plain_hashesApart _) (by decide) (by decide) ?_ _
    (List.Perm.swap _ _ _)).mpr (by decide)
  intro c held
  rcases List.mem_cons.mp held with rfl | last
  · exact ⟨_, .root first, by decide⟩
  · rw [List.mem_singleton.mp last]
    exact ⟨_, .child second (.root first), by decide⟩

/-- 32 devices of the root key are accepted, and 33 are not. -/
theorem one_device_too_many :
    (∃ authority, verifyIdentityDeviceAuthority plain root ⟨devices 32, []⟩
      defaultSignatureDomain = .ok authority) ∧
    (∀ c ∈ devices 33, ∃ line, Line (Issued plain root
      (fun c key => verifyEnvelope plain c key defaultSignatureDomain) (devices 33)) c line ∧
        line.length ≤ maxCertificateChainLength) ∧
    (deviceIds (devices 33)).Nodup ∧ HashesApart plain (devices 33) ∧
    (devices 33).length ≤ maxAuthorityRecords ∧
    verifyIdentityDeviceAuthority plain root ⟨devices 33, []⟩ defaultSignatureDomain =
      .error "Invalid certificate chain" := by
  obtain ⟨byHash, filed, _⟩ := certificatesByHash_total plain (devices 32)
  have catalogue : Catalogue plain root defaultSignatureDomain (devices 32) byHash := by
    refine catalogue_of_issued (plain_hashesApart _) filed (by decide) (by decide) ?_ (by decide)
    intro c held
    obtain ⟨line, led, _⟩ := devices_issued (by decide) c held
    exact ⟨line, led⟩
  exact ⟨catalogue.accepted (by decide) (Nat.zero_le _) rfl, devices_issued (by decide), by decide,
    plain_hashesApart _, by decide, by decide⟩

end MetaMesh.Browser
