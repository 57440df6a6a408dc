import MetaMesh.Browser.ProfileCutoff

/-!
# Revoking a device

`createDeviceRevocation` of `packages/mesh-identity/src/index.ts`: an active managing
device revokes another one.  The record names, for every device of the subtree, the hashes
of its operations in the profile as the signer knows it, in the order of their counters.
It is returned if the authority with the record at its end verifies.
-/

namespace MetaMesh.Browser

open Fallible Causality

section Create

variable (P : Primitives) (B : Platform)

/-- Adds an operation of the subtree to the hashes its device keeps. -/
def recordOperation (certificates : List DeviceCertificate) (subtree : Finset String)
    (profileOperationHashes : Record (List String)) (operation : IdentityProfileOperation) :
    Except String (Record (List String)) := do
  let payload := operation.signed.payload
  let actor := payload.deviceId
  if actor ∉ subtree then .ok profileOperationHashes
  else do
    let mismatch := "Identity profile history does not match current device authority"
    let currentCertificate ← okOr (certificates.find? fun c => c.payload.deviceId = actor) mismatch
    let historicalLeaf ← okOr
      (operation.certificates.find? fun c => c.payload.deviceId = actor) mismatch
    let current ← canonicalizeJson P (toValue currentCertificate)
    let historical ← canonicalizeJson P (toValue historicalLeaf)
    refuse (current ≠ historical) mismatch
    let hashes := (profileOperationHashes.lookup actor).getD []
    refuse (payload.counter ≠ hashes.length + 1)
      "Identity profile history is not a complete device prefix"
    let hash ← signedHash P operation.signed
    .ok (profileOperationHashes.insert actor (hashes ++ [hash]))

/-- `authority` is a verified one: the source finds its state in `verifiedDeviceAuthorityState`. -/
def createDeviceRevocation (profile : LocalProfile) (authority : VerifiedIdentityDeviceAuthority)
    (deviceId : String) (profileState : IdentityProfileState) (domain : String) :
    Except String IdentityDeviceRevocation := do
  let signerId := profile.device.deviceId
  let cannot := "Current Identity device cannot revoke this device"
  let own ← canonicalizeJson P (toValue profile.certificate)
  let texts ← authority.certificates.mapM fun c => canonicalizeJson P (toValue c)
  refuse (authority.identity.personId ≠ profile.identity.personId ∨
    authority.identity.publicKey ≠ profile.identity.publicKey ∨ deviceId = signerId ∨
    own ∉ texts ∨ deviceId ∉ deviceIds authority.certificates) cannot
  let signerRevoked ← isChainRevoked P signerId authority.revokedDeviceIds.toFinset
    authority.certificates
  refuse (signerRevoked = true) cannot
  let signer ← okOr (authority.certificates.find? fun c => c.payload.deviceId = signerId)
    "Current Identity device lacks revocation authority"
  refuse (signer.payload.canEnrollDevices = false)
    "Current Identity device lacks revocation authority"
  let validatedProfile ← readIdentityProfileState P B profileState profile.identity
    authority.certificates
  let currentProfile ← readIdentityProfileStateWithRevocations P B validatedProfile
    profile.identity authority.certificates authority.revocations
  let current ← canonicalizeJson P (toValue currentProfile)
  let validated ← canonicalizeJson P (toValue validatedProfile)
  refuse (current ≠ validated) "Identity profile history contains revoked device operations"
  let subtree ← identityDeviceDescendants P deviceId authority.certificates
  let operations := sortBy (fun operation => operation.signed.payload.counter)
    (currentProfile.operations.filter fun operation =>
      operation.signed.payload.deviceId ∈ subtree)
  let profileOperationHashes ← operations.foldlM
    (recordOperation P authority.certificates subtree) ∅
  let record ← signEnvelope P profile.sign (⟨"mesh-identity-device-revocation", 1,
    profile.identity.personId, deviceId, authority.revocations.length + 1,
    profileOperationHashes⟩ : IdentityDeviceRevocationPayload) signerId domain
  let _ ← verifyIdentityDeviceAuthority P profile.identity
    ⟨authority.certificates, authority.revocations ++ [record]⟩ domain
  .ok record

end Create

instance : Canonical IdentityProfileState := by
  refine .ofFields (fun _ => rfl) (fun _ _ => rfl) (by simp [IdentityProfileState.fields])
    (by simp [IdentityProfileState.fields]) ?_
  rintro ⟨⟩ ⟨⟩ same
  simpa [IdentityProfileState.fields] using same

/-! ## The recorded operations -/

/-- What `signedHash` returns. -/
def signedHashText (P : Primitives) (signed : SignedEnvelope ProfilePayload) : String :=
  P.base64Encode (P.sha256 (toValue signed).sorted.toVec)

section Frontier

variable {P : Primitives} {certificates : List DeviceCertificate} {subtree : Finset String}

theorem signedHash_eq (signed : SignedEnvelope ProfilePayload) :
    signedHash P signed = .ok (signedHashText P signed) := by
  unfold signedHash
  rw [canonicalizeJson_eq_sorted]
  rfl

/-- An operation carries the certificate that the catalogue has for its device. -/
def CurrentCertificate (certificates : List DeviceCertificate)
    (operation : IdentityProfileOperation) : Prop :=
  ∃ c, certificates.find? (fun c => c.payload.deviceId = operation.signed.payload.deviceId) =
      some c ∧
    operation.certificates.find?
      (fun c => c.payload.deviceId = operation.signed.payload.deviceId) = some c

variable {recorded : Record (List String)} {o : IdentityProfileOperation}

theorem recordOperation_ok {next : Record (List String)}
    (inside : o.signed.payload.deviceId ∈ subtree) :
    recordOperation P certificates subtree recorded o = .ok next ↔
      CurrentCertificate certificates o ∧
      o.signed.payload.counter = ((recorded.lookup o.signed.payload.deviceId).getD []).length + 1 ∧
      recorded.insert o.signed.payload.deviceId
        ((recorded.lookup o.signed.payload.deviceId).getD [] ++ [signedHashText P o.signed]) =
          next := by
  simp only [recordOperation, if_neg (not_not.mpr inside)]
  simp only [↓refuse_bind_ok, bind_ok, okOr_ok, not_not, signedHash_eq, Except.ok.injEq,
    exists_eq_left']
  constructor
  · rintro ⟨c, found, leaf, foundLeaf, _, text, _, textLeaf, same, counter, returned⟩
    obtain rfl : c = leaf := (canonicalizeJson_inj P).mp (text.trans (same ▸ textLeaf.symm))
    exact ⟨⟨c, found, foundLeaf⟩, counter, returned⟩
  · rintro ⟨⟨c, found, foundLeaf⟩, counter, returned⟩
    have text := canonicalizeJson_eq_sorted P (toValue c)
    exact ⟨c, found, c, foundLeaf, _, text, _, text, rfl, counter, returned⟩

/-- The operations of one device. -/
def ofDevice (operations : List IdentityProfileOperation) (deviceId : String) :
    List IdentityProfileOperation :=
  operations.filter fun o => o.signed.payload.deviceId = deviceId

/-- What has been recorded after some operations. -/
structure RecordedFrom (P : Primitives) (operations : List IdentityProfileOperation)
    (recorded : Record (List String)) : Prop where
  hashes : ∀ d, (recorded.lookup d).getD [] =
    (ofDevice operations d).map fun o => signedHashText P o.signed
  numbered : ∀ d (k : Nat) o, (ofDevice operations d)[k]? = some o →
    o.signed.payload.counter = k + 1
  named : ∀ d ∈ recorded, ∃ o ∈ operations, o.signed.payload.deviceId = d

variable {operations : List IdentityProfileOperation}

theorem ofDevice_concat {d : String} :
    ofDevice (operations ++ [o]) d =
      if o.signed.payload.deviceId = d then ofDevice operations d ++ [o]
      else ofDevice operations d := by
  unfold ofDevice
  split <;> simp_all

theorem RecordedFrom.concat (from_ : RecordedFrom P operations recorded)
    (counter : o.signed.payload.counter =
      ((recorded.lookup o.signed.payload.deviceId).getD []).length + 1) :
    RecordedFrom P (operations ++ [o]) (recorded.insert o.signed.payload.deviceId
      ((recorded.lookup o.signed.payload.deviceId).getD [] ++ [signedHashText P o.signed])) := by
  rw [from_.hashes, List.length_map] at counter
  refine ⟨?_, ?_, ?_⟩
  · intro d
    rw [Record.lookup_insert_ite, ofDevice_concat]
    by_cases same : d = o.signed.payload.deviceId
    · subst same
      simp [from_.hashes]
    · rw [if_neg same, if_neg (Ne.symm same)]
      exact from_.hashes d
  · intro d k other
    rw [ofDevice_concat]
    split
    · next same =>
      subst same
      rw [List.getElem?_append]
      split
      · exact from_.numbered _ k other
      · next past =>
        intro last
        have only := List.getElem?_eq_some_iff.mp last
        obtain ⟨bound, value⟩ := only
        simp only [List.length_singleton] at bound
        have here : k = (ofDevice operations o.signed.payload.deviceId).length := by omega
        simp only [List.getElem_singleton] at value
        rw [← value, counter, here]
    · exact from_.numbered d k other
  · intro d held
    rw [Finmap.mem_insert] at held
    rcases held with rfl | held
    · exact ⟨o, by simp, rfl⟩
    · obtain ⟨other, member, same⟩ := from_.named d held
      exact ⟨other, List.mem_append_left _ member, same⟩

theorem recordedFrom_nil : RecordedFrom P [] ∅ :=
  ⟨fun _ => rfl, fun _ _ _ found => by simp [ofDevice] at found,
    fun d held => absurd held Finmap.notMem_empty⟩

theorem foldlM_recordOperation (inside : ∀ o ∈ operations, o.signed.payload.deviceId ∈ subtree)
    (ran : operations.foldlM (recordOperation P certificates subtree) ∅ = .ok recorded) :
    (∀ o ∈ operations, CurrentCertificate certificates o) ∧ RecordedFrom P operations recorded := by
  apply foldlM_invariant ran _ ⟨by simp, recordedFrom_nil⟩
  rintro seen o rest before after split ⟨current, from_⟩ recorded
  obtain ⟨certificate, counter, rfl⟩ := (recordOperation_ok
    (inside o (by rw [split]; simp))).mp recorded
  refine ⟨?_, from_.concat counter⟩
  intro other member
  rcases List.mem_append.mp member with earlier | here
  · exact current other earlier
  · rw [List.mem_singleton.mp here]
    exact certificate

end Frontier

/-! ## The record -/

/-- The operations of the devices of a subtree, in the order of their counters. -/
def subtreeOperations (state : IdentityProfileState) (subtree : Finset String) :
    List IdentityProfileOperation :=
  sortBy (fun operation => operation.signed.payload.counter)
    (state.operations.filter fun operation => operation.signed.payload.deviceId ∈ subtree)

theorem mem_subtreeOperations {state : IdentityProfileState} {subtree : Finset String}
    {o : IdentityProfileOperation} : o ∈ subtreeOperations state subtree ↔
      o ∈ state.operations ∧ o.signed.payload.deviceId ∈ subtree := by
  simp [subtreeOperations, List.mem_filter]

section Issued

variable (P : Primitives) (B : Platform) (profile : LocalProfile)
  (authority : VerifiedIdentityDeviceAuthority) (deviceId : String) (state : IdentityProfileState)
  (domain : String) (subtree : Finset String) (record : IdentityDeviceRevocation)

/-- How a revocation came about. -/
structure IssuedAgainst : Prop where
  valid : Accepted P B profile.identity authority.certificates state
  current : readIdentityProfileStateWithRevocations P B (inOrder state) profile.identity
    authority.certificates authority.revocations = .ok (inOrder state)
  computed : identityDeviceDescendants P deviceId authority.certificates = .ok subtree
  device : record.payload.deviceId = deviceId
  revision : record.payload.revision = authority.revocations.length + 1
  certificates : ∀ o ∈ subtreeOperations (inOrder state) subtree,
    CurrentCertificate authority.certificates o
  recorded : RecordedFrom P (subtreeOperations (inOrder state) subtree)
    record.payload.profileOperationHashes
  accepted : ∃ extended, verifyIdentityDeviceAuthority P profile.identity
    ⟨authority.certificates, authority.revocations ++ [record]⟩ domain = .ok extended

variable {P B profile authority deviceId state domain subtree record}

theorem createDeviceRevocation_ok (issued : createDeviceRevocation P B profile authority
      deviceId state domain = .ok record) :
    ∃ subtree, IssuedAgainst P B profile authority deviceId state domain subtree record := by
  unfold createDeviceRevocation signEnvelope at issued
  simp only [↓refuse_bind_ok, bind_ok, readIdentityProfileState_ok, not_not, Except.ok.injEq]
    at issued
  obtain ⟨_, _, _, _, _, _, _, _, _, _, _, _, ⟨valid, rfl⟩, current, filtered, text, written,
    text', written', rfl, subtree, computed, recorded, ran, _, ⟨_, _, _, _, rfl⟩, extended,
    accepted, rfl⟩ := issued
  obtain rfl : current = inOrder state :=
    (canonicalizeJson_inj P).mp (written.trans written'.symm)
  obtain ⟨certificates, from_⟩ := foldlM_recordOperation
    (fun o member => (mem_subtreeOperations.mp member).2) ran
  exact ⟨subtree, valid, filtered, computed, rfl, rfl, certificates, from_, extended, accepted⟩

namespace IssuedAgainst

variable (issued : IssuedAgainst P B profile authority deviceId state domain subtree record)
include issued

/-- A revocation records the operations of its subtree in the state, and nothing else:
whoever has the device and counter of a recorded one is it. -/
theorem recorded_iff {other : IdentityProfileState}
    (unique : ∀ a ∈ other.operations, ∀ b ∈ other.operations, operationId a = operationId b → a = b)
    (contains : ∀ o ∈ state.operations, o ∈ other.operations) {o : IdentityProfileOperation}
    (held : o ∈ other.operations) (positive : 1 ≤ o.signed.payload.counter) :
    Recorded P record o ↔ o ∈ state.operations ∧ o.signed.payload.deviceId ∈ subtree := by
  have members : ∀ a, a ∈ ofDevice (subtreeOperations (inOrder state) subtree)
      o.signed.payload.deviceId ↔ (a ∈ state.operations ∧ a.signed.payload.deviceId ∈ subtree) ∧
        a.signed.payload.deviceId = o.signed.payload.deviceId := by
    intro a
    simp only [ofDevice, List.mem_filter, mem_subtreeOperations, decide_eq_true_eq,
      mem_inOrder_operations issued.valid.unique]
  unfold Recorded
  rw [issued.recorded.hashes, signedHash_eq]
  simp only [Except.ok.injEq, exists_eq_left', List.getElem?_map, Option.map_eq_some_iff]
  constructor
  · rintro ⟨a, found, _⟩
    obtain ⟨⟨heldA, inside⟩, device⟩ := (members a).mp (List.mem_of_getElem? found)
    have counter := issued.recorded.numbered _ _ a found
    have same : a = o := unique a (contains a heldA) o held (operationId_inj.mpr ⟨device, by
      show a.signed.payload.counter = o.signed.payload.counter
      omega⟩)
    exact same ▸ ⟨heldA, inside⟩
  · rintro ⟨heldO, inside⟩
    obtain ⟨k, found⟩ := List.mem_iff_getElem?.mp ((members o).mpr ⟨⟨heldO, inside⟩, rfl⟩)
    have counter := issued.recorded.numbered _ _ o found
    refine ⟨o, ?_, rfl⟩
    rw [show (o.signed.payload.counter - 1).toNat = k by omega]
    exact found

/-- The state is within the cut-offs of the earlier revocations. -/
theorem within {o : IdentityProfileOperation} (held : o ∈ state.operations) :
    o ∈ WithinCutoffs P authority.certificates authority.revocations := by
  obtain ⟨earlier, accepted⟩ := authority_of_read issued.current
  obtain ⟨kept, read, part, _, members⟩ :=
    readIdentityProfileStateWithRevocations_ok issued.valid.ordered accepted
  have same := ok_unique issued.current read
  have there : o ∈ (inOrder state).operations :=
    (mem_inOrder_operations issued.valid.unique).mpr held
  rw [same, mem_inOrder_operations part.unique] at there
  exact ((members o).mp there).2.1

end IssuedAgainst

/-! ## The cut-off is exact -/

/-- A catalogue that a state and revocations are read with after more devices were
enrolled.  The devices that wrote in the state are the ones known before. -/
structure LaterCatalogue (P : Primitives) (identity : PublicIdentity)
    (certificates : List DeviceCertificate) (state : IdentityProfileState)
    (listed : List DeviceCertificate) : Prop where
  more : ∀ c ∈ certificates, c ∈ listed
  accepted : ∃ authority, verifyIdentityDeviceAuthority P identity ⟨listed, []⟩
    defaultSignatureDomain = .ok authority
  apart : HashesApart P listed
  known : ∀ o ∈ state.operations, o.signed.payload.deviceId ∈ deviceIds listed →
    o.signed.payload.deviceId ∈ deviceIds certificates

/-- With a later catalogue the record is accepted too, and the devices of the state stand
where they stood. -/
theorem IssuedAgainst.later {subtree : Finset String} {listed : List DeviceCertificate}
    (issued : IssuedAgainst P B profile authority deviceId state defaultSignatureDomain subtree
      record)
    (later : listed = authority.certificates ∨
      LaterCatalogue P profile.identity authority.certificates state listed) :
    (∃ extended, verifyIdentityDeviceAuthority P profile.identity
      ⟨listed, authority.revocations ++ [record]⟩ defaultSignatureDomain = .ok extended) ∧
    ∀ o ∈ state.operations, ∀ rootId subtree' subtree'',
      identityDeviceDescendants P rootId listed = .ok subtree' →
      identityDeviceDescendants P rootId authority.certificates = .ok subtree'' →
      (o.signed.payload.deviceId ∈ subtree' ↔ o.signed.payload.deviceId ∈ subtree'') := by
  obtain ⟨extended, accepted⟩ := issued.accepted
  rcases later with rfl | later
  · refine ⟨⟨extended, accepted⟩, ?_⟩
    intro o _ rootId one other first second
    rw [ok_unique first second]
  · obtain ⟨byHash, verified⟩ := verifyIdentityDeviceAuthority_ok accepted
    obtain ⟨bare, acceptedBare⟩ := later.accepted
    obtain ⟨byHash', verifiedBare⟩ := verifyIdentityDeviceAuthority_ok acceptedBare
    have history := verified.history.grows verified.catalogue verifiedBare.catalogue later.apart
      later.more
    rw [verified.revocations_eq] at history
    refine ⟨History.accepted verifiedBare.catalogue history verifiedBare.held, ?_⟩
    intro o held rootId one other first second
    rw [verifiedBare.catalogue.mem_descendants first, verified.catalogue.mem_descendants second]
    have stands : o.signed.payload.deviceId ∈ deviceIds authority.certificates →
        (Under listed byHash' o.signed.payload.deviceId rootId ↔
          Under authority.certificates byHash o.signed.payload.deviceId rootId) := by
      intro member
      obtain ⟨c, heldC, same⟩ := List.mem_map.mp member
      rw [← same]
      exact verified.catalogue.under_later verifiedBare.catalogue later.apart later.more heldC
    constructor
    · intro under
      have ⟨c, heldC, same, _⟩ := under
      exact (stands (later.known o held (same ▸ List.mem_map_of_mem heldC))).mp under
    · intro under
      have ⟨c, heldC, same, _⟩ := under
      exact (stands (same ▸ List.mem_map_of_mem heldC)).mpr under

end Issued

/-- A revocation cuts exactly: with it, and the earlier ones, a state that holds the one it
was issued against reads as the greatest closed part with nothing of the subtree but what
was there then, and nothing of earlier subtrees but what their revocations record.  Where
the catalogue has grown since, devices enrolled below the revoked one contribute nothing. -/
theorem revocation_cuts_exactly (P : Primitives) (B : Platform) (profile : LocalProfile)
    (authority : VerifiedIdentityDeviceAuthority) (deviceId : String)
    (s t current : IdentityProfileState) (r : IdentityDeviceRevocation)
    (issued : createDeviceRevocation P B profile authority deviceId s defaultSignatureDomain =
      .ok r)
    (listed : List DeviceCertificate)
    (later : listed = authority.certificates ∨
      LaterCatalogue P profile.identity authority.certificates s listed)
    (valid : readIdentityProfileState P B t profile.identity listed = .ok current)
    (contains : ∀ o ∈ s.operations, o ∈ t.operations) :
    ∃ subtree result, identityDeviceDescendants P r.payload.deviceId listed = .ok subtree ∧
      readIdentityProfileStateWithRevocations P B t profile.identity listed
        (authority.revocations ++ [r]) = .ok result ∧
      IsGreatest { part : Set IdentityProfileOperation | part ⊆ { o | o ∈ t.operations } ∧
          profileClock.Closed { o | o ∈ t.operations } part ∧
          part ⊆ { o | (o.signed.payload.deviceId ∈ subtree → o ∈ s.operations) ∧
            o ∈ WithinCutoffs P listed authority.revocations } }
        { o | o ∈ result.operations } ∧
      result.legacy = current.legacy ∧ (t = s → result = current) ∧
      ∀ o ∈ result.operations, o.signed.payload.deviceId ∈ subtree →
        o.signed.payload.deviceId ∈ deviceIds authority.certificates := by
  obtain ⟨before, issued⟩ := createDeviceRevocation_ok issued
  obtain ⟨⟨extended, accepted⟩, stands⟩ := issued.later later
  obtain ⟨acceptedT, rfl⟩ := readIdentityProfileState_ok.mp valid
  obtain ⟨byHash, verified⟩ := verifyIdentityDeviceAuthority_ok accepted
  obtain ⟨subtree, computed, _⟩ :=
    verified.catalogue.identityDeviceDescendants_eq r.payload.deviceId
  obtain ⟨first, acceptedThen⟩ := issued.accepted
  obtain ⟨byHashThen, verifiedThen⟩ := verifyIdentityDeviceAuthority_ok acceptedThen
  obtain ⟨kept, read, part, sub, members⟩ :=
    readIdentityProfileStateWithRevocations_ok acceptedT accepted
  have inSubtree : ∀ o ∈ s.operations, o.signed.payload.deviceId ∈ subtree →
      o.signed.payload.deviceId ∈ before := by
    intro o held inside
    exact (stands o held deviceId subtree before (issued.device ▸ computed)
      issued.computed).mp inside
  -- on the operations of `t`, being recorded is being in `s`
  have allowed : ∀ o ∈ { o | o ∈ t.operations },
      o ∈ WithinCutoffs P listed (authority.revocations ++ [r]) ↔
        o ∈ { o : IdentityProfileOperation |
          (o.signed.payload.deviceId ∈ subtree → o ∈ s.operations) ∧
            o ∈ WithinCutoffs P listed authority.revocations } := by
    intro o held
    have recorded := issued.recorded_iff acceptedT.unique contains held
      (acceptedT.counters o held).2
    rw [mem_withinCutoffs_concat computed, and_comm]
    refine and_congr_left fun _ => imp_congr_right fun inside => ?_
    rw [recorded]
    exact and_iff_left_of_imp fun heldS => inSubtree o heldS inside
  have same : { o | o ∈ (inOrder { t with operations := kept }).operations } =
      profileClock.prefixes { o | o ∈ t.operations }
        { o | (o.signed.payload.deviceId ∈ subtree → o ∈ s.operations) ∧
          o ∈ WithinCutoffs P listed authority.revocations } := by
    rw [← Clock.prefixes_congr allowed]
    ext o
    exact (mem_inOrder_operations part.unique).trans (members o)
  refine ⟨subtree, _, computed, read, ?_, rfl, ?_, ?_⟩
  · rw [same]
    exact acceptedT.causal.isGreatest_prefixes _
  · rintro rfl
    have whole : ∀ o ∈ t.operations, o ∈ WithinCutoffs P listed (authority.revocations ++ [r]) := by
      intro o held
      refine (allowed o held).mpr ⟨fun _ => held, ?_⟩
      intro earlier member under computedUnder inside
      obtain ⟨under', computed', _⟩ :=
        verifiedThen.catalogue.identityDeviceDescendants_eq earlier.payload.deviceId
      exact issued.within held earlier member under' computed'
        ((stands o held _ under under' computedUnder computed').mp inside)
    refine inOrder_operations_congr acceptedT.unique fun o => ⟨fun held => sub.subset held, ?_⟩
    exact fun held => (members o).mpr ⟨held, whole o held, fun b heldB _ => whole b heldB⟩
  · intro o held inside
    have there := same.subset (show o ∈ { o | o ∈ _ } from held)
    have ⟨c, heldC, device, _⟩ := (verifiedThen.catalogue.mem_descendants issued.computed _).mp
      (inSubtree o (there.2.1.1 inside) inside)
    exact device ▸ List.mem_map_of_mem heldC

namespace Sample

open MetaMesh.Sample

/-- A revocation by device 1. -/
def revoked (revision : Int) (device : Nat) (hashes : List (String × List String)) :
    IdentityDeviceRevocation :=
  ⟨⟨"mesh-identity-device-revocation", 1, keyId 0, keyId device, revision, Record.ofList hashes⟩,
    keyId 1, letters 86 1⟩

def authority (certificates : List DeviceCertificate) (revocations : List IdentityDeviceRevocation)
    (blocked : List Nat) : VerifiedIdentityDeviceAuthority :=
  ⟨person 0, certificates, revocations, revocations.map fun r => r.payload.deviceId,
    blocked.map keyId⟩

/-- A name that device 3 wrote, which device 2 enrolled. -/
def byChild (counter : Int) (context : List (String × Int)) : IdentityProfileOperation :=
  { named 3 counter context "Eve" [] with
    certificates := [certificate 0 2, delegated 0 2 3 true] }

abbrev family : List DeviceCertificate := [certificate 0 1, certificate 0 2, delegated 0 2 3 true]

abbrev written : IdentityProfileState :=
  profile [named 2 1 [] "Ada" [], byChild 1 [(keyId 2, 1)]] []

end Sample

open MetaMesh.Sample Sample

set_option maxRecDepth 100000

theorem revocation_cuts_exactly_sample :
    ∃ r subtree result,
      createDeviceRevocation primitives browser (localProfile 1)
        (authority [certificate 0 1, certificate 0 2] [] []) (keyId 2)
        (profile [named 2 1 [] "Ada" []] []) defaultSignatureDomain = .ok r ∧
      identityDeviceDescendants primitives r.payload.deviceId
        [certificate 0 1, certificate 0 2, delegated 0 2 3 true] = .ok subtree ∧
      readIdentityProfileStateWithRevocations primitives browser
        (profile [named 2 1 [] "Ada" [], byChild 1 [(keyId 2, 1)]] []) (person 0)
        [certificate 0 1, certificate 0 2, delegated 0 2 3 true] [r] = .ok result ∧
      ∀ o ∈ result.operations, o.signed.payload.deviceId ∈ subtree →
        o.signed.payload.deviceId ∈ deviceIds [certificate 0 1, certificate 0 2] := by
  have made : (createDeviceRevocation primitives browser (localProfile 1)
      (authority [certificate 0 1, certificate 0 2] [] []) (keyId 2)
      (profile [named 2 1 [] "Ada" []] []) defaultSignatureDomain).isOk = true := by decide
  have read : (readIdentityProfileState primitives browser written (person 0) family).isOk = true :=
    by decide
  have enrolled : (verifyIdentityDeviceAuthority primitives (person 0) ⟨family, []⟩
      defaultSignatureDomain).isOk = true := by decide
  obtain ⟨r, made⟩ := isOk_iff.mp made
  obtain ⟨current, read⟩ := isOk_iff.mp read
  obtain ⟨subtree, result, computed, ran, _, _, _, known⟩ := revocation_cuts_exactly primitives
    browser (localProfile 1) _ _ _ _ current r made family
    (.inr ⟨by simp [Sample.authority], isOk_iff.mp enrolled, by unfold HashesApart; decide,
      by decide⟩)
    read (by decide)
  exact ⟨r, subtree, result, made, computed, ran, known⟩

/-- Device 2 was revoked before device 3, and what it wrote since goes, though it is not
below device 3.  And where the catalogue has no certificate of device 3, which device 2
enrolled, the revocation of device 2 neither takes away what device 3 writes nor records
what it has written. -/
theorem cutoff_reads_the_catalogue :
    (verifyIdentityDeviceAuthority primitives (person 0)
        ⟨[certificate 0 1, certificate 0 2, certificate 0 3], [revoked 1 2 []]⟩
        defaultSignatureDomain = .ok
          (authority [certificate 0 1, certificate 0 2, certificate 0 3] [revoked 1 2 []] [2]) ∧
      createDeviceRevocation primitives browser (localProfile 1)
        (authority [certificate 0 1, certificate 0 2, certificate 0 3] [revoked 1 2 []] [2])
        (keyId 3) (profile [] []) defaultSignatureDomain = .ok (revoked 2 3 []) ∧
      (readIdentityProfileState primitives browser (profile [named 2 1 [] "Eve" []] []) (person 0)
        [certificate 0 1, certificate 0 2, certificate 0 3]).isOk = true ∧
      (identityDeviceDescendants primitives (keyId 3)
        [certificate 0 1, certificate 0 2, certificate 0 3]).map (fun subtree =>
          decide (keyId 2 ∈ subtree)) = .ok false ∧
      readIdentityProfileStateWithRevocations primitives browser
        (profile [named 2 1 [] "Eve" []] []) (person 0)
        [certificate 0 1, certificate 0 2, certificate 0 3] [revoked 1 2 [], revoked 2 3 []] =
          .ok (profile [] [])) ∧
    (verifyIdentityDeviceAuthority primitives (person 0) ⟨[certificate 0 1, certificate 0 2], []⟩
        defaultSignatureDomain = .ok (authority [certificate 0 1, certificate 0 2] [] []) ∧
      createDeviceRevocation primitives browser (localProfile 1)
        (authority [certificate 0 1, certificate 0 2] [] []) (keyId 2) (profile [] [])
        defaultSignatureDomain = .ok (revoked 1 2 []) ∧
      readIdentityProfileStateWithRevocations primitives browser (profile [byChild 1 []] [])
        (person 0) [certificate 0 1, certificate 0 2] [revoked 1 2 []] =
          .ok (profile [byChild 1 []] [])) ∧
    createDeviceRevocation primitives browser (localProfile 1)
        (authority [certificate 0 1, certificate 0 2] [] []) (keyId 2) (profile [byChild 1 []] [])
        defaultSignatureDomain = .ok (revoked 1 2 []) ∧
      readIdentityProfileStateWithRevocations primitives browser (profile [byChild 1 []] [])
        (person 0) [certificate 0 1, certificate 0 2, delegated 0 2 3 true] [revoked 1 2 []] =
          .ok (profile [] []) := by
  refine ⟨⟨?_, ?_, ?_, ?_, ?_⟩, ⟨?_, ?_, ?_⟩, ?_, ?_⟩ <;> decide

end MetaMesh.Browser
