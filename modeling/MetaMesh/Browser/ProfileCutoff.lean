import MetaMesh.Browser.ProfileMerge
import MetaMesh.Browser.Revocations

/-!
# Revoked devices in a profile

`filterIdentityProfileRevocations` of `packages/mesh-identity/src/identityProfile.ts`.  A
revocation records, for every device of its subtree, the hashes of the operations that
stay.  The filter keeps these and what other devices wrote, and then drops, until nothing
changes, every operation that has seen a dropped one.

What is left is the greatest causally closed part of the state that is within the
cut-offs, and the reader accepts it (`readIdentityProfileStateWithRevocations_ok`).
-/

namespace MetaMesh.Browser

open Fallible Causality

section Filter

variable (P : Primitives) (B : Platform)

def signedHash (signed : SignedEnvelope ProfilePayload) : Except String String := do
  let canonical ← canonicalizeJson P (toValue signed)
  .ok (P.base64Encode (P.sha256 canonical))

/-! ## Which operations are recorded -/

def readFrontier (descendants : Finset String) (revokedDevices : Table String (List String))
    (entry : String × List String) : Except String (Table String (List String)) := do
  refuse (entry.1 ∉ descendants ∨ maxOperations < entry.2.length ∨ entry.2.all isHash = false)
    "Invalid Identity profile revocation frontier"
  match revokedDevices.lookup entry.1 with
  | none => .ok ()
  | some existing => do
      let before ← canonicalizeJson P (toValue existing)
      let now ← canonicalizeJson P (toValue entry.2)
      refuse (before ≠ now) "Conflicting Identity profile revocation history"
  .ok (revokedDevices.insert entry.1 entry.2)

variable (revokedDevices : Table String (List String))

/-- A device of the subtree that the revocation does not name has nothing recorded. -/
def recordNothing (deviceId : String) : Table String (List String) :=
  if (revokedDevices.lookup deviceId).isSome then revokedDevices
  else revokedDevices.insert deviceId []

def addRevocation (certificates : List DeviceCertificate)
    (revokedDevices : Table String (List String)) (revocation : IdentityDeviceRevocation) :
    Except String (Table String (List String)) := do
  let payload := revocation.payload
  let descendants ← identityDeviceDescendants P payload.deviceId certificates
  let named ← payload.profileOperationHashes.items.foldlM (readFrontier P descendants)
    revokedDevices
  .ok (((deviceIds certificates).filter (· ∈ descendants)).foldl recordNothing named)

/-! ## What is kept -/

/-- The device is not revoked, or its revocation names this operation. -/
def withinCutoff (operation : IdentityProfileOperation) : Except String Bool :=
  let payload := operation.signed.payload
  match revokedDevices.lookup payload.deviceId with
  | none => .ok true
  | some hashes =>
    if isSafeInteger payload.counter = false ∨ payload.counter < 1 ∨
        hashes.length < payload.counter then .ok false
    else do
      let hash ← signedHash P operation.signed
      .ok (hashes[(payload.counter - 1).toNat]? = some hash)

def keepWithin (kept : List IdentityProfileOperation) (operation : IdentityProfileOperation) :
    Except String (List IdentityProfileOperation) := do
  let within ← withinCutoff P revokedDevices operation
  .ok (if within then kept ++ [operation] else kept)

/-- The device and counter of an operation, if the counter is one. -/
def signedId (operation : IdentityProfileOperation) : Option (String × Int) :=
  let payload := operation.signed.payload
  if isSafeInteger payload.counter then some (payload.deviceId, payload.counter) else none

/-- The devices and counters of candidates of which none is kept. -/
def removedIds (candidates kept : List IdentityProfileOperation) : List (String × Int) :=
  ((candidates.filter (· ∉ kept)).filterMap signedId).filter (· ∉ kept.filterMap signedId)

/-- It has seen an operation that was dropped. -/
def dependsOnRemoved (candidates kept : List IdentityProfileOperation)
    (operation : IdentityProfileOperation) : Bool :=
  (removedIds candidates kept).any fun id => id.2 ≤ seenCount operation id.1

/-- A round of the loop drops an operation or is the last. -/
def filterIdentityProfileRevocations (state : IdentityProfileState) (identity : PublicIdentity)
    (certificates : List DeviceCertificate) (revocations : List IdentityDeviceRevocation) :
    Except String IdentityProfileState := do
  boundedSnapshot state
  refuse (maxOperations < state.operations.length) "Invalid identity profile state"
  let _ ← verifyIdentityDeviceAuthority P identity ⟨certificates, revocations⟩
    defaultSignatureDomain
  let revokedDevices ← revocations.foldlM (addRevocation P certificates)
    (∅ : Table String (List String))
  let kept ← state.operations.foldlM (keepWithin P revokedDevices) []
  .ok { state with
    operations := settle (sweep (dependsOnRemoved state.operations)) (kept.length + 1) kept }

def readIdentityProfileStateWithRevocations (state : IdentityProfileState)
    (identity : PublicIdentity) (certificates : List DeviceCertificate)
    (revocations : List IdentityDeviceRevocation) : Except String IdentityProfileState := do
  let candidate ← filterIdentityProfileRevocations P state identity certificates revocations
  readIdentityProfileState P B candidate identity certificates

end Filter

/-! ## The cut-offs -/

/-- A revocation records the operation under its device and counter. -/
def Recorded (P : Primitives) (revocation : IdentityDeviceRevocation)
    (operation : IdentityProfileOperation) : Prop :=
  ∃ hash, signedHash P operation.signed = .ok hash ∧
    ((revocation.payload.profileOperationHashes.lookup operation.signed.payload.deviceId).getD [])[
      (operation.signed.payload.counter - 1).toNat]? = some hash

/-- The operations that the revocations leave: of a device in the subtree of one, those
that it records. -/
def WithinCutoffs (P : Primitives) (certificates : List DeviceCertificate)
    (revocations : List IdentityDeviceRevocation) : Set IdentityProfileOperation :=
  { o | ∀ r ∈ revocations, ∀ subtree,
    identityDeviceDescendants P r.payload.deviceId certificates = .ok subtree →
    o.signed.payload.deviceId ∈ subtree → Recorded P r o }

section Cutoffs

variable {P : Primitives} {B : Platform} {identity : PublicIdentity} {domain : String}
  {certificates : List DeviceCertificate} {byHash : Table String DeviceCertificate}
  {revocations : List IdentityDeviceRevocation} {o : IdentityProfileOperation}
  {state : IdentityProfileState} {authority : VerifiedIdentityDeviceAuthority}
  {kept : List IdentityProfileOperation}

theorem Catalogue.mem_withinCutoffs (catalogue : Catalogue P identity domain certificates byHash) :
    o ∈ WithinCutoffs P certificates revocations ↔
      ∀ r ∈ revocations, Under certificates byHash o.signed.payload.deviceId r.payload.deviceId →
        Recorded P r o := by
  refine forall₂_congr fun r _ => ?_
  obtain ⟨subtree, computed, _⟩ := catalogue.identityDeviceDescendants_eq r.payload.deviceId
  constructor
  · intro within under
    exact within subtree computed ((catalogue.mem_descendants computed _).mpr under)
  · intro within other also inside
    exact within ((catalogue.mem_descendants also _).mp inside)

/-- The subtrees of a history have no device in common. -/
theorem History.eq_of_under (catalogue : Catalogue P identity domain certificates byHash)
    (history : History P identity domain certificates byHash revocations)
    {a b : IdentityDeviceRevocation} (heldA : a ∈ revocations) (heldB : b ∈ revocations)
    {deviceId : String} (underA : Under certificates byHash deviceId a.payload.deviceId)
    (underB : Under certificates byHash deviceId b.payload.deviceId) : a = b := by
  have apart : ∀ before record after, revocations = before ++ record :: after → ∀ r ∈ before,
      Under certificates byHash deviceId r.payload.deviceId →
      ¬ Under certificates byHash deviceId record.payload.deviceId := by
    rintro before record after split r earlier ⟨e, heldE, rfl, below⟩ under
    have admits := history before record after split
    obtain ⟨c, held, same, free⟩ := admits.device
    obtain ⟨d, heldD, sameD⟩ := history.listed r (split ▸ List.mem_append_left _ earlier)
    rw [← sameD] at below
    rw [← same, catalogue.under_iff heldE] at under
    rcases (catalogue.overlap_iff heldD held).mp ⟨e, heldE, below, under⟩ with inside | above
    · refine admits.apart r earlier ?_
      rw [← sameD, catalogue.under_iff heldD, ← same]
      exact inside
    · exact free r earlier (sameD ▸ above)
  obtain ⟨before, after, split⟩ := List.append_of_mem heldA
  rw [split, List.mem_append, List.mem_cons] at heldB
  rcases heldB with earlier | rfl | later
  · exact absurd underA (apart before a after split b earlier underB)
  · rfl
  · obtain ⟨first, rest, splitB⟩ := List.append_of_mem later
    refine absurd underB (apart (before ++ a :: first) b rest ?_ a (by simp) underA)
    rw [split, splitB]
    simp

theorem foldl_recordNothing {devices : List String} {revokedDevices : Table String (List String)}
    {deviceId : String} : (devices.foldl recordNothing revokedDevices).lookup deviceId =
      (revokedDevices.lookup deviceId).or (if deviceId ∈ devices then some [] else none) := by
  induction devices generalizing revokedDevices with
  | nil => simp
  | cons d devices ih =>
    rw [List.foldl_cons, ih]
    unfold recordNothing
    rcases eq_or_ne deviceId d with rfl | other
    · cases found : revokedDevices.lookup deviceId with
      | none => simp
      | some hashes => simp [found]
    · split
      · simp [other]
      · simp [other]

section Revocation

variable {revocation : IdentityDeviceRevocation} {revokedDevices : Table String (List String)}

/-- The devices that a revocation names get what it records. -/
theorem foldlM_readFrontier {descendants : Finset String} {recorded : Record (List String)}
    (frontier : ∀ entry ∈ recorded.items, entry.1 ∈ descendants ∧
      entry.2.length ≤ maxOperations ∧ entry.2.all isHash = true)
    (fresh : ∀ d ∈ descendants, revokedDevices.lookup d = none) :
    ∃ named, recorded.items.foldlM (readFrontier P descendants) revokedDevices = .ok named ∧
      ∀ d hashes, named.lookup d = some hashes ↔
        recorded.lookup d = some hashes ∨ revokedDevices.lookup d = some hashes := by
  have once : (recorded.items.map Prod.fst).Nodup := by
    rw [Record.map_fst_items]
    exact nodup_sortedSet _ _ _
  simp only [← Record.mem_items]
  refine foldlM_total (fun seen (table : Table String (List String)) => ∀ d hashes,
    table.lookup d = some hashes ↔ (d, hashes) ∈ seen ∨ revokedDevices.lookup d = some hashes)
    (by simp) ?_
  rintro seen ⟨d, hashes⟩ rest table split holds
  obtain ⟨inside, short, shape⟩ := frontier (d, hashes) (by rw [split]; simp)
  have unseen : d ∉ seen.map Prod.fst := by
    rw [split, List.map_append, List.map_cons] at once
    exact fun again => (List.nodup_append.mp once).2.2 d again d (by simp) rfl
  -- the device is new, so there is nothing to compare
  have missing : table.lookup d = none := by
    refine Option.eq_none_iff_forall_ne_some.mpr fun held found => ?_
    rcases (holds d held).mp found with there | old
    · exact unseen (List.mem_map_of_mem there)
    · rw [fresh d inside] at old
      cases old
  refine ⟨table.insert d hashes, refuse_bind_ok.mpr ⟨?_, ?_⟩, ?_⟩
  · simp only [not_or, not_not, not_lt, Bool.not_eq_false]
    exact ⟨inside, short, shape⟩
  · rw [missing]
    rfl
  · intro k value
    rw [Table.lookup_insert_ite, List.mem_append, List.mem_singleton, Prod.mk.injEq]
    split
    · next same =>
      subst same
      have none := holds k value
      rw [missing] at none
      simp only [reduceCtorEq, false_iff, not_or] at none
      simp [none, eq_comm]
    · next other => simp [other, holds]

/-- The devices of a subtree that no earlier one meets get what its revocation records. -/
theorem addRevocation_ok (catalogue : Catalogue P identity domain certificates byHash)
    (frontier : ∀ entry ∈ revocation.payload.profileOperationHashes.items,
      Under certificates byHash entry.1 revocation.payload.deviceId ∧ entry.2.all isHash = true)
    (limit : hashCount revocation ≤ maxOperations)
    (fresh : ∀ d, Under certificates byHash d revocation.payload.deviceId →
      revokedDevices.lookup d = none) :
    ∃ next, addRevocation P certificates revokedDevices revocation = .ok next ∧
      ∀ d hashes, next.lookup d = some hashes ↔ revokedDevices.lookup d = some hashes ∨
        Under certificates byHash d revocation.payload.deviceId ∧
          (revocation.payload.profileOperationHashes.lookup d).getD [] = hashes := by
  obtain ⟨descendants, computed, _⟩ :=
    catalogue.identityDeviceDescendants_eq revocation.payload.deviceId
  have members := catalogue.mem_descendants computed
  obtain ⟨named, ran, holds⟩ := @foldlM_readFrontier P revokedDevices descendants
    revocation.payload.profileOperationHashes (by
      intro entry member
      obtain ⟨under, shape⟩ := frontier entry member
      have short := length_le_hashCount member
      exact ⟨(members _).mpr under, by omega, shape⟩)
    (fun d inside => fresh d ((members d).mp inside))
  refine ⟨_, bind_ok.mpr ⟨descendants, computed, bind_ok.mpr ⟨named, ran, rfl⟩⟩, ?_⟩
  intro d hashes
  have inside : d ∈ (deviceIds certificates).filter (· ∈ descendants) ↔
      Under certificates byHash d revocation.payload.deviceId := by
    rw [List.mem_filter, decide_eq_true_eq, members]
    refine and_iff_right_of_imp ?_
    rintro ⟨c, held, rfl, _⟩
    exact List.mem_map_of_mem held
  rw [foldl_recordNothing]
  by_cases under : Under certificates byHash d revocation.payload.deviceId
  · rw [if_pos (inside.mpr under), fresh d under]
    have here := holds d
    simp only [fresh d under, reduceCtorEq, or_false] at here
    rw [Option.ext here]
    cases revocation.payload.profileOperationHashes.lookup d <;> simp [under, eq_comm]
  · have unnamed : revocation.payload.profileOperationHashes.lookup d = none :=
      Option.eq_none_iff_forall_ne_some.mpr fun value found =>
        under (frontier (d, value) (Record.mem_items.mpr found)).1
    rw [if_neg (fun member => under (inside.mp member)), Option.or_none, holds]
    simp [unnamed, under]

end Revocation

/-- What the revocations of a history record. -/
theorem History.foldlM_addRevocation (catalogue : Catalogue P identity domain certificates byHash)
    {ordered : List IdentityDeviceRevocation} (same : ordered.Perm revocations)
    (history : History P identity domain certificates byHash ordered) :
    ∃ revokedDevices, revocations.foldlM (addRevocation P certificates)
        (∅ : Table String (List String)) = .ok revokedDevices ∧
      ∀ d hashes, revokedDevices.lookup d = some hashes ↔ ∃ r ∈ revocations,
        Under certificates byHash d r.payload.deviceId ∧
          (r.payload.profileOperationHashes.lookup d).getD [] = hashes := by
  have once : revocations.Nodup := same.nodup_iff.mp
    (List.Nodup.of_map _ (History.nodup catalogue history))
  apply foldlM_total
  · simp
  rintro seen r rest table split holds
  have held : r ∈ ordered := same.mem_iff.mpr (by rw [split]; simp)
  obtain ⟨before, after, at_r⟩ := List.append_of_mem held
  have admits := history before r after at_r
  have limit := admits.limit
  obtain ⟨next, added, meaning⟩ := @addRevocation_ok P _ _ _ _ r table catalogue admits.frontier
    (by omega) (by
      intro d under
      refine Option.eq_none_iff_forall_ne_some.mpr fun hashes found => ?_
      obtain ⟨other, inSeen, underOther, _⟩ := (holds d hashes).mp found
      have heldOther : other ∈ ordered := same.mem_iff.mpr (by rw [split]; simp [inSeen])
      rw [history.eq_of_under catalogue heldOther held underOther under] at inSeen
      rw [split] at once
      exact (List.nodup_append.mp once).2.2 r inSeen r (by simp) rfl)
  refine ⟨next, added, ?_⟩
  intro d hashes
  rw [meaning, holds]
  simp only [List.mem_append, List.mem_singleton, or_and_right, exists_or, exists_eq_left]

/-! ## What the filter leaves -/

section Kept

variable {revokedDevices : Table String (List String)}
  (catalogue : Catalogue P identity domain certificates byHash)
  (records : ∀ d hashes, revokedDevices.lookup d = some hashes ↔ ∃ r ∈ revocations,
    Under certificates byHash d r.payload.deviceId ∧
      (r.payload.profileOperationHashes.lookup d).getD [] = hashes)
include catalogue records

theorem withinCutoff_eq (safe : isSafeInteger o.signed.payload.counter = true)
    (first : 1 ≤ o.signed.payload.counter) :
    ∃ within, withinCutoff P revokedDevices o = .ok within ∧
      (within = true ↔ o ∈ WithinCutoffs P certificates revocations) := by
  obtain ⟨hash, hashed⟩ : ∃ hash, signedHash P o.signed = .ok hash := by
    rw [signedHash, canonicalizeJson_eq_sorted]
    exact ⟨_, rfl⟩
  rw [catalogue.mem_withinCutoffs]
  simp only [withinCutoff]
  cases found : revokedDevices.lookup o.signed.payload.deviceId with
  | none =>
    refine ⟨true, rfl, iff_of_true rfl ?_⟩
    intro r held under
    rw [(records _ _).mpr ⟨r, held, under, rfl⟩] at found
    cases found
  | some hashes =>
    have meaning : (∀ r ∈ revocations, Under certificates byHash o.signed.payload.deviceId
        r.payload.deviceId → Recorded P r o) ↔
          hashes[(o.signed.payload.counter - 1).toNat]? = some hash := by
      constructor
      · intro recorded
        obtain ⟨r, held, under, same⟩ := (records _ _).mp found
        obtain ⟨other, also, there⟩ := recorded r held under
        rw [same] at there
        rw [there, ok_unique hashed also]
      · intro there r held under
        have same := found.symm.trans ((records _ _).mpr ⟨r, held, under, rfl⟩)
        exact ⟨hash, hashed, Option.some.inj same ▸ there⟩
    rw [meaning]
    simp only [hashed, ok_bind, safe, Bool.true_eq_false, false_or]
    split
    · next outside =>
      rw [List.getElem?_eq_none (by omega)]
      simp
    · exact ⟨_, rfl, decide_eq_true_iff⟩

theorem foldlM_keepWithin {operations : List IdentityProfileOperation}
    (counters : ∀ o ∈ operations, isSafeInteger o.signed.payload.counter = true ∧
      1 ≤ o.signed.payload.counter) :
    ∃ kept, operations.foldlM (keepWithin P revokedDevices) [] = .ok kept ∧
      kept.Sublist operations ∧
      ∀ o, o ∈ kept ↔ o ∈ operations ∧ o ∈ WithinCutoffs P certificates revocations := by
  apply foldlM_total
  · simp
  rintro seen o rest kept split ⟨sub, holds⟩
  obtain ⟨safe, first⟩ := counters o (by rw [split]; simp)
  obtain ⟨within, computed, meaning⟩ := withinCutoff_eq catalogue records safe first
  refine ⟨_, bind_ok.mpr ⟨within, computed, rfl⟩, ?_⟩
  cases within with
  | true =>
    refine ⟨sub.append (List.Sublist.refl [o]), fun a => ?_⟩
    rw [if_pos rfl, List.mem_append, List.mem_append, holds, or_and_right, List.mem_singleton]
    exact or_congr_right (and_iff_left_of_imp fun same => same ▸ meaning.mp rfl).symm
  | false =>
    refine ⟨sub.trans (List.sublist_append_left seen [o]), fun a => ?_⟩
    rw [if_neg Bool.false_ne_true, holds, List.mem_append, or_and_right, List.mem_singleton]
    refine (or_iff_left ?_).symm
    exact fun ⟨same, within⟩ => Bool.false_ne_true (meaning.mpr (same ▸ within))

end Kept

section Removed

variable {candidates kept : List IdentityProfileOperation} {a : IdentityProfileOperation}
  {o : IdentityProfileOperation}

theorem signedId_eq_some {id : String × Int} :
    signedId o = some id ↔ isSafeInteger o.signed.payload.counter = true ∧
      (o.signed.payload.deviceId, o.signed.payload.counter) = id := by
  simp only [signedId]
  split
  · next safe => simp [safe]
  · next large => simp [large]

theorem mem_removedIds {id : String × Int} : id ∈ removedIds candidates kept ↔
    (∃ o ∈ candidates, o ∉ kept ∧ signedId o = some id) ∧ ∀ k ∈ kept, signedId k ≠ some id := by
  simp [removedIds, List.mem_filter, List.mem_filterMap, and_assoc]

theorem removed_of_dependsOnRemoved (depends : dependsOnRemoved candidates kept a = true) :
    ∃ o ∈ candidates, o ∉ kept ∧ profileClock.Precedes o a := by
  obtain ⟨id, member, seen⟩ := List.any_eq_true.mp depends
  obtain ⟨⟨o, held, gone, named⟩, _⟩ := mem_removedIds.mp member
  obtain ⟨_, rfl⟩ := signedId_eq_some.mp named
  exact ⟨o, held, gone, by simpa [Clock.Precedes, profileClock] using seen⟩

theorem dependsOnRemoved_of_removed
    (safe : ∀ o ∈ candidates, isSafeInteger o.signed.payload.counter = true)
    (unique : ∀ a ∈ candidates, ∀ b ∈ candidates, operationId a = operationId b → a = b)
    (inside : ∀ k ∈ kept, k ∈ candidates) (held : o ∈ candidates) (gone : o ∉ kept)
    (before : profileClock.Precedes o a) : dependsOnRemoved candidates kept a = true := by
  refine List.any_eq_true.mpr ⟨(o.signed.payload.deviceId, o.signed.payload.counter),
    mem_removedIds.mpr ⟨⟨o, held, gone, signedId_eq_some.mpr ⟨safe o held, rfl⟩⟩, ?_⟩,
    decide_eq_true before⟩
  intro k member named
  obtain ⟨_, same⟩ := signedId_eq_some.mp named
  obtain ⟨device, counter⟩ := Prod.mk.inj same
  rw [unique k (inside k member) o held (operationId_inj.mpr ⟨device, counter⟩)] at member
  exact gone member

end Removed

theorem lookup_legacyById_inOrder (state : IdentityProfileState) (id : String) :
    (legacyById (inOrder state)).lookup id = (legacyById state).lookup id := by
  have keyed : Table.KeyedBy LegacyObservation.id (legacyById state) :=
    (Table.KeyedBy.empty _).insertAll _
  have members : ∀ o, o ∈ (inOrder state).legacy ↔ (legacyById state).lookup o.id = some o := by
    intro o
    rw [← keyed.mem_values]
    exact (Table.orderedValues_perm unitKey (legacyById state)).mem_iff
  refine Option.ext fun o => ?_
  rw [show legacyById (inOrder state) =
    Table.insertAll LegacyObservation.id (inOrder state).legacy ∅ from rfl,
    Table.lookup_insertAll_iff, members]
  · constructor
    · rintro ⟨found, rfl⟩
      exact found
    · intro found
      obtain rfl := keyed _ _ found
      exact ⟨found, rfl⟩
  · intro a heldA b heldB same
    have foundA := (members a).mp heldA
    have foundB := (members b).mp heldB
    rw [same, foundB] at foundA
    exact (Option.some.inj foundA).symm

section Accepted

variable (valid : Accepted P B identity certificates state)
include valid

theorem Accepted.counters : ∀ o ∈ state.operations,
      isSafeInteger o.signed.payload.counter = true ∧ 1 ≤ o.signed.payload.counter := by
  intro o held
  have parsed := valid.parsed o held
  unfold parseOperation at parsed
  rw [refuse_ok, not_or, not_or, Bool.not_eq_false] at parsed
  exact ⟨parsed.2.2, (verifyOperation_clock (valid.verified o held)).positive⟩

/-- A closed part of an accepted state is accepted. -/
theorem Accepted.closed_part (sub : kept.Sublist state.operations)
    (closed : profileClock.Closed { o | o ∈ state.operations } { o | o ∈ kept }) :
    Accepted P B identity certificates { state with operations := kept } where
  bounded := valid.bounded.part valid.bounded.version valid.bounded.person sub.subperm
    (List.Subperm.refl _)
  parsed o held := valid.parsed o (sub.subset held)
  verified o held := valid.verified o (sub.subset held)
  unique a heldA b heldB := valid.unique a (sub.subset heldA) b (sub.subset heldB)
  observed := valid.observed
  causal := valid.causal.of_closed (fun _ held => sub.subset held) closed
  pins a heldA b heldB := valid.pins a (sub.subset heldA) b (sub.subset heldB)
  superseded o held := valid.superseded o (sub.subset held)

/-- What the reader returns it accepts. -/
theorem Accepted.ordered : Accepted P B identity certificates (inOrder state) := by
  have members : ∀ o, o ∈ (inOrder state).operations → o ∈ state.operations :=
    fun o => (mem_inOrder_operations valid.unique).mp
  have legacy : ∀ o, o ∈ (inOrder state).legacy → o ∈ state.legacy := by
    intro o held
    obtain ⟨id, found⟩ := Table.mem_orderedValues.mp held
    exact (Table.lookup_insertAll_mem found).resolve_left (by simp)
  refine ⟨valid.bounded.part rfl valid.bounded.person (nodup_inOrder.1.subperm members)
    (nodup_inOrder.2.subperm legacy), fun o held => valid.parsed o (members o held),
    fun o held => valid.verified o (members o held), fun a heldA b heldB =>
      valid.unique a (members a heldA) b (members b heldB),
    fun o held => valid.observed o (legacy o held), ?_, fun a heldA b heldB =>
      valid.pins a (members a heldA) b (members b heldB), ?_⟩
  · simpa only [mem_inOrder_operations valid.unique] using valid.causal
  · intro o held id superseded
    rw [lookup_legacyById_inOrder]
    exact valid.superseded o (members o held) id superseded

variable (accepted : verifyIdentityDeviceAuthority P identity ⟨certificates, revocations⟩
    defaultSignatureDomain = .ok authority)
include accepted

/-- The filter leaves the greatest closed part within the cut-offs, in its order. -/
theorem filterIdentityProfileRevocations_ok :
    ∃ kept, filterIdentityProfileRevocations P state identity certificates revocations =
        .ok { state with operations := kept } ∧ kept.Sublist state.operations ∧
      ∀ o, o ∈ kept ↔ o ∈ profileClock.prefixes { o | o ∈ state.operations }
        (WithinCutoffs P certificates revocations) := by
  obtain ⟨byHash, verified⟩ := verifyIdentityDeviceAuthority_ok accepted
  have same : authority.revocations.Perm revocations := verified.revocations_eq ▸ sortBy_perm _ _
  obtain ⟨revokedDevices, recorded, records⟩ :=
    verified.history.foldlM_addRevocation verified.catalogue same
  obtain ⟨start, ran, sub, within⟩ :=
    foldlM_keepWithin verified.catalogue records valid.counters
  have closed := valid.causal.closed_prefixes (WithinCutoffs P certificates revocations)
  obtain ⟨subKept, settled, stays⟩ := @settle_sweep _ (dependsOnRemoved state.operations) start
    (profileClock.prefixes { o | o ∈ state.operations } (WithinCutoffs P certificates revocations))
    (fun a ⟨held, allowed, _⟩ => (within a).mpr ⟨held, allowed⟩) (by
      intro kept holds a member
      rw [← Bool.not_eq_true]
      intro depends
      obtain ⟨o, held, gone, before⟩ := removed_of_dependsOnRemoved depends
      exact gone (holds o (closed a member o held before)))
  refine ⟨_, ?_, subKept.trans sub, ?_⟩
  · refine check_bind_ok.mpr ⟨?_, refuse_bind_ok.mpr ⟨not_lt.mpr valid.bounded.operations,
      bind_ok.mpr ⟨authority, accepted, bind_ok.mpr ⟨revokedDevices, recorded,
        bind_ok.mpr ⟨start, ran, rfl⟩⟩⟩⟩⟩
    refine refuse_bind_ok.mpr ⟨not_lt.mpr valid.bounded.bytes, ?_⟩
    rw [refuse_ok, not_not]
    exact valid.bounded.version
  · intro o
    refine ⟨fun held => ?_, stays o⟩
    obtain ⟨there, allowed⟩ := (within o).mp (subKept.subset held)
    refine ⟨there, allowed, ?_⟩
    intro b heldB before
    -- what was dropped takes along what has seen it
    have keptB : b ∈ settle (sweep (dependsOnRemoved state.operations)) (start.length + 1)
        start := by
      by_contra gone
      have depends := dependsOnRemoved_of_removed (fun o held => (valid.counters o held).1)
        valid.unique (fun k member => (within k).mp (subKept.subset member) |>.1) heldB gone before
      rw [settled o held] at depends
      cases depends
    exact ((within b).mp (subKept.subset keptB)).2

/-- With accepted revocations an accepted state reads as its greatest closed part within
the cut-offs. -/
theorem readIdentityProfileStateWithRevocations_ok :
    ∃ kept, readIdentityProfileStateWithRevocations P B state identity certificates revocations =
        .ok (inOrder { state with operations := kept }) ∧
      Accepted P B identity certificates { state with operations := kept } ∧
      kept.Sublist state.operations ∧
      ∀ o, o ∈ kept ↔ o ∈ profileClock.prefixes { o | o ∈ state.operations }
        (WithinCutoffs P certificates revocations) := by
  obtain ⟨kept, filtered, sub, members⟩ := filterIdentityProfileRevocations_ok valid accepted
  have closed : profileClock.Closed { o | o ∈ state.operations } { o | o ∈ kept } := by
    intro a held b heldB before
    exact (members b).mpr (valid.causal.closed_prefixes _ a ((members a).mp held) b heldB before)
  have part := valid.closed_part sub closed
  exact ⟨kept, bind_ok.mpr ⟨_, filtered, readIdentityProfileState_ok.mpr ⟨part, rfl⟩⟩, part,
    sub, members⟩

end Accepted

/-- Whatever is read with revocations is read with an accepted authority. -/
theorem authority_of_read {result : IdentityProfileState}
    (read : readIdentityProfileStateWithRevocations P B state identity certificates revocations =
      .ok result) :
    ∃ authority, verifyIdentityDeviceAuthority P identity ⟨certificates, revocations⟩
      defaultSignatureDomain = .ok authority := by
  obtain ⟨_, filtered, _⟩ := bind_ok.mp read
  obtain ⟨_, filtered⟩ := check_bind_ok.mp filtered
  obtain ⟨_, filtered⟩ := refuse_bind_ok.mp filtered
  obtain ⟨authority, accepted, _⟩ := bind_ok.mp filtered
  exact ⟨authority, accepted⟩

theorem mem_withinCutoffs_concat {record : IdentityDeviceRevocation} {subtree : Finset String}
    (computed : identityDeviceDescendants P record.payload.deviceId certificates = .ok subtree) :
    o ∈ WithinCutoffs P certificates (revocations ++ [record]) ↔
      o ∈ WithinCutoffs P certificates revocations ∧
        (o.signed.payload.deviceId ∈ subtree → Recorded P record o) := by
  simp only [WithinCutoffs, Set.mem_ofPred_eq, List.forall_mem_append, List.forall_mem_singleton,
    computed, Except.ok.injEq, forall_eq']

/-- A state in order with other copies of its operations. -/
theorem inOrder_operations_congr
    (unique : ∀ a ∈ state.operations, ∀ b ∈ state.operations, operationId a = operationId b → a = b)
    (same : ∀ o, o ∈ kept ↔ o ∈ state.operations) :
    inOrder { state with operations := kept } = inOrder state := by
  have uniqueK : ∀ a ∈ kept, ∀ b ∈ kept, operationId a = operationId b → a = b := by
    simpa only [same] using unique
  refine congrArg (fun operations => (⟨1, state.personId, operations, _⟩ : IdentityProfileState)) ?_
  refine Table.orderedValues_congr unitKey_injective fun id => Option.ext fun o => ?_
  rw [Table.lookup_insertAll_iff uniqueK, Table.lookup_insertAll_iff unique, same]

end Cutoffs

end MetaMesh.Browser
