import MetaMesh.Browser.Profile
import MetaMesh.Lib.Causality

/-!
# What a profile state must satisfy

`Accepted` is what `readIdentityProfileState` establishes of a state and all that it asks
for, and `inOrder` is the state it returns: every operation and observation once, in the
order of their ids (`readIdentityProfileState_ok`).  The causal part is
`Causality.Clock.Causal` for the clocks of the operations.  Everything but the size of a
state depends on what is in it and not on how it is listed.
-/

namespace MetaMesh.Browser

open Fallible Causality

/-! ## Canonical text tells records apart -/

instance : Canonical ProfilePayload := by
  refine .ofFields (fun _ => rfl) (fun _ _ => rfl) (by simp [ProfilePayload.fields])
    (by simp [ProfilePayload.fields]) ?_
  rintro ⟨⟩ ⟨⟩ same
  simpa [ProfilePayload.fields] using same

instance : Canonical IdentityProfileOperation := by
  refine .ofFields (fun _ => rfl) (fun _ _ => rfl) (by simp [IdentityProfileOperation.fields])
    (by simp [IdentityProfileOperation.fields]) ?_
  rintro ⟨⟩ ⟨⟩ same
  simpa [IdentityProfileOperation.fields] using same

section Agreed

variable {P : Primitives} {T : Type} [Serialize T] [Canonical T] {key : T → String}
  {conflict : String} {final : Table String T}

theorem addAgreed_ok {filed : Table String T} {item : T} :
    addAgreed P key conflict filed item = .ok final ↔
      (∀ previous, filed.lookup (key item) = some previous → previous = item) ∧
        filed.insert (key item) item = final := by
  unfold addAgreed
  cases found : filed.lookup (key item) with
  | none => simp
  | some previous =>
    have texts := @canonicalizeJson_inj T _ _ P previous item
    rw [canonicalizeJson_eq_sorted, canonicalizeJson_eq_sorted, Except.ok.injEq] at texts
    simp only [canonicalizeJson_eq_sorted, ok_bind, refuse_bind_ok, not_not, texts,
      Except.ok.injEq, Option.some.injEq, forall_eq']

/-- Filing items one after the other succeeds exactly if no key gets two of them. -/
theorem foldlM_addAgreed {start : Table String T} {items : List T}
    (keyed : Table.KeyedBy key start) :
    items.foldlM (addAgreed P key conflict) start = .ok final ↔
      (∀ a ∈ items, ∀ b, b ∈ start.values ∨ b ∈ items → key a = key b → a = b) ∧
        start.insertAll key items = final := by
  induction items generalizing start with
  | nil => simp [Table.insertAll, pure, Except.pure]
  | cons a items ih =>
    have first : (∀ previous, start.lookup (key a) = some previous → previous = a) ↔
        ∀ b ∈ start.values, key a = key b → a = b := by
      constructor
      · intro one b held same
        exact (one b (same ▸ keyed.mem_values.mp held)).symm
      · intro one previous found
        have same := keyed _ _ found
        exact (one previous (keyed.mem_values.mpr (same ▸ found)) same.symm).symm
    -- `a` belongs to what is filed before the other items
    rw [List.forall_mem_cons]
    simp only [List.mem_cons, ← or_assoc]
    constructor
    · intro ran
      obtain ⟨next, added, rest⟩ := bind_ok.mp ran
      obtain ⟨one, rfl⟩ := addAgreed_ok.mp added
      rw [first] at one
      obtain ⟨others, final⟩ := (ih (keyed.insert a)).mp rest
      simp only [keyed.mem_values_insert one] at others
      refine ⟨⟨?_, others⟩, final⟩
      rintro b ((held | rfl) | later) same
      · exact one b held same
      · rfl
      · exact (others b later a (.inl (.inr rfl)) same.symm).symm
    · rintro ⟨⟨unique, others⟩, final⟩
      have one : ∀ b ∈ start.values, key a = key b → a = b :=
        fun b held => unique b (.inl (.inl held))
      refine bind_ok.mpr ⟨_, addAgreed_ok.mpr ⟨first.mpr one, rfl⟩,
        (ih (keyed.insert a)).mpr ⟨?_, final⟩⟩
      simpa only [keyed.mem_values_insert one] using others

/-- Items filed into an empty table. -/
theorem foldlM_addAgreed_empty {items : List T} :
    items.foldlM (addAgreed P key conflict) (∅ : Table String T) = .ok final ↔
      (∀ a ∈ items, ∀ b ∈ items, key a = key b → a = b) ∧ Table.insertAll key items ∅ = final := by
  rw [foldlM_addAgreed (Table.KeyedBy.empty key)]
  have none : ∀ b : T, b ∉ Table.values (∅ : Table String T) := by
    intro b held
    obtain ⟨k, found⟩ := Table.mem_values.mp held
    simp at found
  simp only [none, false_or]

end Agreed

/-! ## Clocks -/

def profileClock : Clock IdentityProfileOperation String where
  actor operation := operation.signed.payload.deviceId
  counter operation := operation.signed.payload.counter
  seen := seenCount

theorem precedes_iff {before after : IdentityProfileOperation} :
    precedes before after = true ↔ profileClock.Precedes before after := by
  simp [precedes, Clock.Precedes, profileClock]

theorem operationId_inj {a b : IdentityProfileOperation} :
    operationId a = operationId b ↔ profileClock.actor a = profileClock.actor b ∧
      profileClock.counter a = profileClock.counter b :=
  numbered_inj

/-- What is checked of the clock of a single operation. -/
structure ClockChecked (operation : IdentityProfileOperation) : Prop where
  positive : 1 ≤ operation.signed.payload.counter
  own : seenCount operation operation.signed.payload.deviceId = operation.signed.payload.counter - 1
  nonneg : ∀ deviceId, 0 ≤ seenCount operation deviceId

section Reading

variable {P : Primitives} {B : Platform} {identity : PublicIdentity}
  {certificates : List DeviceCertificate} {operation : IdentityProfileOperation}
  {operations : List IdentityProfileOperation} {state : IdentityProfileState}

theorem verifyOperation_clock
    (verified : verifyOperation P B operation identity certificates = .ok ()) :
    ClockChecked operation := by
  obtain ⟨_, verified⟩ := check_bind_ok.mp verified
  obtain ⟨shape, verified⟩ := refuse_bind_ok.mp verified
  obtain ⟨entries, _⟩ := check_bind_ok.mp verified
  simp only [not_or, not_not, not_lt] at shape
  refine ⟨shape.2.2.2.2.2.1, shape.2.2.2.2.2.2.2.1, ?_⟩
  intro deviceId
  unfold seenCount
  cases found : operation.signed.payload.context.lookup deviceId with
  | none => exact le_rfl
  | some count =>
    have entry := forM_ok.mp entries (deviceId, count) (Record.mem_items.mpr found)
    rw [refuse_ok, not_or, not_or, not_lt] at entry
    exact entry.2.2

/-- The check of the contexts is `Causal` for the clocks. -/
theorem validateCausality_ok
    (unique : ∀ a ∈ operations, ∀ b ∈ operations, operationId a = operationId b → a = b)
    (clocks : ∀ o ∈ operations, ClockChecked o) :
    validateCausality operations = .ok () ↔ profileClock.Causal { o | o ∈ operations } := by
  have found := @Table.lookup_insertAll_iff _ _ _ operationId operations unique
  unfold validateCausality
  simp only [forM_ok]
  constructor
  · intro checked
    refine ⟨?_, fun a held => (clocks a held).positive, fun a held => (clocks a held).own,
      fun a held => (clocks a held).nonneg, ?_⟩
    · intro a heldA b heldB actor counter
      exact unique a heldA b heldB (operationId_inj.mpr ⟨actor, counter⟩)
    · intro a held d seen
      have nonzero : seenCount a d ≠ 0 := seen
      have entry : a.signed.payload.context.lookup d = some (seenCount a d) := by
        unfold seenCount at nonzero ⊢
        cases looked : a.signed.payload.context.lookup d with
        | none => simp [looked] at nonzero
        | some count => rfl
      have passed := checked a held _ (Record.mem_items.mpr entry)
      unfold validateDependency at passed
      rw [if_neg nonzero] at passed
      obtain ⟨dependency, looked, passed⟩ := bind_ok.mp passed
      obtain ⟨contexts, _⟩ := check_bind_ok.mp passed
      obtain ⟨heldB, id⟩ := found.mp (okOr_ok.mp looked)
      obtain ⟨actor, counter⟩ := numbered_inj.mp id
      refine ⟨dependency, heldB, actor, counter, ?_⟩
      intro d'
      show seenCount dependency d' ≤ seenCount a d'
      cases there : dependency.signed.payload.context.lookup d' with
      | none =>
        rw [show seenCount dependency d' = 0 by simp [seenCount, there]]
        exact (clocks a held).nonneg d'
      | some count =>
        have below := forM_ok.mp contexts (d', count) (Record.mem_items.mpr there)
        rw [refuse_ok, not_lt] at below
        rw [show seenCount dependency d' = count by simp [seenCount, there]]
        exact below
  · rintro causal a held ⟨d, count⟩ member
    have entry := Record.mem_items.mp member
    have seen : seenCount a d = count := by simp [seenCount, entry]
    unfold validateDependency
    by_cases zero : count = 0
    · rw [if_pos zero]
    · rw [if_neg zero]
      obtain ⟨b, heldB, actor, counter, sees⟩ :=
        causal.present a held d (by rw [show profileClock.seen a d = count from seen]; exact zero)
      have looked : (Table.insertAll operationId operations
          (∅ : Table String IdentityProfileOperation)).lookup (numbered d count) = some b :=
        found.mpr ⟨heldB, numbered_inj.mpr ⟨actor, counter.trans seen⟩⟩
      refine bind_ok.mpr ⟨b, okOr_ok.mpr looked, check_bind_ok.mpr ⟨?_, ?_⟩⟩
      · refine forM_ok.mpr ?_
        rintro ⟨d', count'⟩ later
        rw [refuse_ok, not_lt]
        have known := sees d'
        rw [show profileClock.seen b d' = count' by
          simp [profileClock, seenCount, Record.mem_items.mp later]] at known
        exact known
      · rw [refuse_ok, precedes_iff]
        intro cycle
        exact causal.precedes_irrefl held (le_trans cycle (sees _))

/-! ## The reader -/

variable (operations) in
/-- Operations that pin a service at one origin pin the same one. -/
def PinsAgree : Prop :=
  ∀ a ∈ operations, ∀ b ∈ operations, ∀ p q, servicePin a = some p → servicePin b = some q →
    p.origin = q.origin → p = q

theorem identityProfileRustyServicePins_isOk :
    (∃ pins, identityProfileRustyServicePins P operations = .ok pins) ↔ PinsAgree operations := by
  have agree : PinsAgree operations ↔ ∀ p ∈ operations.filterMap servicePin,
      ∀ q ∈ operations.filterMap servicePin, p.origin = q.origin → p = q := by
    simp only [PinsAgree, List.mem_filterMap]
    constructor
    · rintro agree p ⟨a, heldA, pinA⟩ q ⟨b, heldB, pinB⟩
      exact agree a heldA b heldB p q pinA pinB
    · intro agree a heldA b heldB p q pinA pinB
      exact agree p ⟨a, heldA, pinA⟩ q ⟨b, heldB, pinB⟩
  rw [agree]
  constructor
  · rintro ⟨pins, ran⟩
    obtain ⟨byOrigin, filed, _⟩ := bind_ok.mp ran
    exact (foldlM_addAgreed_empty.mp filed).1
  · intro one
    exact ⟨_, bind_ok.mpr ⟨_, foldlM_addAgreed_empty.mpr ⟨one, rfl⟩, rfl⟩⟩

theorem verifySuperseded_ok {legacy : Table String LegacyObservation} :
    verifySuperseded legacy operation = .ok () ↔
      ∀ id ∈ operation.signed.payload.supersedesLegacy, ∃ observation,
        legacy.lookup id = some observation ∧
          observation.field = operation.signed.payload.field := by
  unfold verifySuperseded
  rw [forM_ok]
  refine forall₂_congr fun id _ => ?_
  rw [bind_ok]
  simp only [okOr_ok, refuse_ok, not_not]

variable (state identity P B certificates)

/-- The observations of a state by their ids. -/
def legacyById : Table String LegacyObservation :=
  Table.insertAll LegacyObservation.id state.legacy ∅

/-- The state with every operation and observation once, in the order of their ids. -/
def inOrder : IdentityProfileState :=
  ⟨1, state.personId,
    (Table.insertAll operationId state.operations ∅ : Table String _).orderedValues unitKey,
    (legacyById state).orderedValues unitKey⟩

/-- The limits on a state, and whose it is. -/
structure Bounded : Prop where
  version : state.version = 1
  person : state.personId = identity.personId
  shape : isHash state.personId = true
  bytes : (toValue state).toVec.length ≤ maxStateBytes
  operations : state.operations.length ≤ maxOperations
  legacy : state.legacy.length ≤ maxOperations

/-- What the reader asks for. -/
structure Accepted : Prop where
  bounded : Bounded identity state
  parsed : ∀ o ∈ state.operations, parseOperation o = .ok ()
  verified : ∀ o ∈ state.operations, verifyOperation P B o identity certificates = .ok ()
  unique : ∀ a ∈ state.operations, ∀ b ∈ state.operations, operationId a = operationId b → a = b
  observed : ∀ o ∈ state.legacy, verifyObservation P B o = .ok ()
  causal : profileClock.Causal { o | o ∈ state.operations }
  pins : PinsAgree state.operations
  superseded : ∀ o ∈ state.operations, ∀ id ∈ o.signed.payload.supersedesLegacy,
    ∃ observation, (legacyById state).lookup id = some observation ∧
      observation.field = o.signed.payload.field

variable {state identity P B certificates}

section

variable (unique : ∀ a ∈ state.operations, ∀ b ∈ state.operations,
  operationId a = operationId b → a = b)

include unique

theorem mem_inOrder_operations {o : IdentityProfileOperation} :
    o ∈ (inOrder state).operations ↔ o ∈ state.operations := by
  unfold inOrder
  simp only [Table.mem_orderedValues, Table.lookup_insertAll_iff unique]
  exact ⟨fun ⟨_, held, _⟩ => held, fun held => ⟨_, held, rfl⟩⟩

theorem forall_mem_inOrder {p : IdentityProfileOperation → Prop} :
    (∀ o ∈ (inOrder state).operations, p o) ↔ ∀ o ∈ state.operations, p o :=
  forall_congr' fun _ => imp_congr_left (mem_inOrder_operations unique)

end

/-- The reader succeeds exactly on accepted states, and puts them in order. -/
theorem readIdentityProfileState_ok {result : IdentityProfileState} :
    readIdentityProfileState P B state identity certificates = .ok result ↔
      Accepted P B identity certificates state ∧ inOrder state = result := by
  constructor
  · intro ran
    obtain ⟨snapshot, ran⟩ := check_bind_ok.mp ran
    obtain ⟨shape, ran⟩ := refuse_bind_ok.mp ran
    obtain ⟨operations, filed, ran⟩ := bind_ok.mp ran
    obtain ⟨legacy, kept, ran⟩ := bind_ok.mp ran
    obtain ⟨causality, ran⟩ := check_bind_ok.mp ran
    obtain ⟨pins, projected, ran⟩ := bind_ok.mp ran
    obtain ⟨superseded, returned⟩ := check_bind_ok.mp ran
    obtain ⟨size, version⟩ := refuse_bind_ok.mp snapshot
    rw [refuse_ok, not_not] at version
    simp only [not_or, not_not, not_lt, Bool.not_eq_false] at shape size
    obtain ⟨parsed, guarded⟩ := foldlM_guarded_ok.mp filed
    obtain ⟨verified, agreed⟩ := foldlM_guarded_ok.mp guarded
    obtain ⟨unique, rfl⟩ := foldlM_addAgreed_empty.mp agreed
    obtain ⟨observed, rfl⟩ := foldlM_checked_ok.mp kept
    have members : ∀ o, o ∈ (inOrder state).operations ↔ o ∈ state.operations :=
      fun o => mem_inOrder_operations unique
    have unique' : ∀ a ∈ (inOrder state).operations, ∀ b ∈ (inOrder state).operations,
        operationId a = operationId b → a = b := by
      simpa only [members] using unique
    have causal := (validateCausality_ok unique' (by
      intro o held
      exact verifyOperation_clock (verified o ((members o).mp held)))).mp causality
    have agree := identityProfileRustyServicePins_isOk.mp ⟨pins, projected⟩
    have behind := forM_ok.mp superseded
    simp only [verifySuperseded_ok] at behind
    refine ⟨⟨⟨version, shape.1, shape.2.1, size, shape.2.2.1, shape.2.2.2⟩, parsed, verified,
      unique, observed, ?_, ?_, ?_⟩, Except.ok.inj returned⟩
    · simpa only [members] using causal
    · have agree' : PinsAgree (inOrder state).operations := agree
      simpa only [PinsAgree, members] using agree'
    · exact (forall_mem_inOrder unique).mp behind
  · rintro ⟨accepted, rfl⟩
    have members : ∀ o, o ∈ (inOrder state).operations ↔ o ∈ state.operations :=
      fun o => mem_inOrder_operations accepted.unique
    have bounded := accepted.bounded
    refine check_bind_ok.mpr ⟨?_, refuse_bind_ok.mpr ⟨?_, bind_ok.mpr ⟨_,
      foldlM_guarded_ok.mpr ⟨accepted.parsed, foldlM_guarded_ok.mpr ⟨accepted.verified,
        foldlM_addAgreed_empty.mpr ⟨accepted.unique, rfl⟩⟩⟩, bind_ok.mpr ⟨_,
      foldlM_checked_ok.mpr ⟨accepted.observed, rfl⟩, check_bind_ok.mpr ⟨?_, ?_⟩⟩⟩⟩⟩
    · refine refuse_bind_ok.mpr ⟨not_lt.mpr bounded.bytes, ?_⟩
      rw [refuse_ok, not_not]
      exact bounded.version
    · simp only [not_or, not_not, not_lt, Bool.not_eq_false]
      exact ⟨bounded.person, bounded.shape, bounded.operations, bounded.legacy⟩
    · show validateCausality (inOrder state).operations = .ok ()
      refine (validateCausality_ok ?_ ?_).mpr ?_
      · simpa only [members] using accepted.unique
      · intro o held
        exact verifyOperation_clock (accepted.verified o ((members o).mp held))
      · simpa only [members] using accepted.causal
    · obtain ⟨pins, projected⟩ := identityProfileRustyServicePins_isOk.mpr (by
        show PinsAgree (inOrder state).operations
        simpa only [PinsAgree, members] using accepted.pins)
      refine bind_ok.mpr ⟨pins, projected, check_bind_ok.mpr ⟨forM_ok.mpr ?_, rfl⟩⟩
      simp only [verifySuperseded_ok]
      exact (forall_mem_inOrder accepted.unique).mpr accepted.superseded

end Reading

end MetaMesh.Browser
