import MetaMesh.Browser.ProfileMerge

/-!
# Conflicts in a profile

A field shows the values of the last operations on it in the causal order, and the legacy
observations that none of them supersedes.  In an accepted state the order is strict, so
some operation is last.  An operation that `createIdentityProfileOperation` makes has seen
all others and supersedes every observation of its field: it alone is shown.
-/

namespace MetaMesh.Browser

open Fallible Causality

/-! ## What is shown -/

variable {field : IdentityProfileField} {value : IdentityProfileValue}
  {state : IdentityProfileState}

theorem mem_openValues :
    value ∈ openValues state field ↔
      (∃ o ∈ fieldOperations state field, (∀ other ∈ fieldOperations state field,
        ¬ profileClock.Precedes o other) ∧ o.signed.payload.value = value) ∨
      ∃ observation ∈ state.legacy, observation.field = field ∧ (∀ o ∈ fieldOperations state field,
          observation.id ∉ o.signed.payload.supersedesLegacy) ∧ observation.value = value := by
  unfold openValues
  simp only [List.mem_append, List.mem_map, List.mem_filter, Bool.not_eq_true',
    List.any_eq_false, precedes_iff, decide_eq_true_eq, List.mem_flatMap, not_exists, not_and,
    and_assoc]

theorem mem_presentedValue (shown : value ∈ (presentedValue state field).2) :
    value ∈ openValues state field := by
  obtain ⟨k, found⟩ := Table.mem_orderedValues.mp shown
  exact (Table.lookup_insertAll_mem found).resolve_left (by simp)

theorem presentedValue_ne_empty (held : value ∈ openValues state field) :
    (presentedValue state field).1 ≠ .empty ∧ (presentedValue state field).2 ≠ [] := by
  obtain ⟨other, found⟩ := Option.isSome_iff_exists.mp
    (@Table.isSome_lookup_insertAll _ _ _ valueKey _ ∅ _ held)
  have shown : (presentedValue state field).2 ≠ [] :=
    List.ne_nil_of_mem (Table.mem_orderedValues.mpr ⟨_, found⟩)
  refine ⟨?_, shown⟩
  show (if 1 < (presentedValue state field).2.length then ProfileStatus.conflict
    else if (presentedValue state field).2 = [] then .empty else .value) ≠ .empty
  split <;> simp

theorem presentedValue_singleton (only : openValues state field = [value]) :
    presentedValue state field = (.value, [value]) := by
  unfold presentedValue
  rw [only]
  rfl

/-! ## A new operation -/

/-- The clock of a history counts every operation of it. -/
theorem counter_le_clockOf {operations : List IdentityProfileOperation}
    {o : IdentityProfileOperation} (held : o ∈ operations) :
    o.signed.payload.counter ≤ ((clockOf operations).lookup o.signed.payload.deviceId).getD 0 := by
  unfold clockOf
  induction operations using List.reverseRecOn with
  | nil => cases held
  | append_singleton operations last ih =>
    rw [List.foldl_append, List.foldl_cons, List.foldl_nil, Record.lookup_insert_ite]
    split
    · next same =>
      rcases List.mem_append.mp held with earlier | here
      · exact le_trans (ih earlier) (by rw [same]; exact le_max_left _ _)
      · rw [List.mem_singleton.mp here]
        exact le_max_right _ _
    · next other =>
      rcases List.mem_append.mp held with earlier | here
      · exact ih earlier
      · exact absurd (by rw [List.mem_singleton.mp here]) other

section Created

variable {P : Primitives} {B : Platform} {profile : LocalProfile} {state : IdentityProfileState}
  {field : IdentityProfileField} {value : IdentityProfileValue}
  {certificatesValue : Option (List DeviceCertificate)} {ensureCurrent : Nat → Except String Unit}
  {operation : IdentityProfileOperation}

variable (P B) in
/-- What a created operation says, and that it can be added. -/
structure Created (identity : PublicIdentity) (certificates : List DeviceCertificate)
    (current : IdentityProfileState) (field : IdentityProfileField) (value : IdentityProfileValue)
    (operation : IdentityProfileOperation) : Prop where
  onField : operation.signed.payload.field = field
  writes : operation.signed.payload.value = value
  context : operation.signed.payload.context = clockOf current.operations
  counter : operation.signed.payload.counter =
    ((clockOf current.operations).lookup operation.signed.payload.deviceId).getD 0 + 1
  supersedes : operation.signed.payload.supersedesLegacy = supersededBy current field
  added : Accepted P B identity certificates
    { current with operations := current.operations ++ [operation] }

theorem createIdentityProfileOperation_ok
    (created : createIdentityProfileOperation P B profile state field value certificatesValue
      ensureCurrent = .ok operation) :
    ∃ current, readIdentityProfileState P B state profile.identity
        (certificatesValue.getD [profile.certificate]) = .ok current ∧
      Created P B profile.identity (certificatesValue.getD [profile.certificate]) current field
        value operation := by
  unfold createIdentityProfileOperation signEnvelope at created
  simp only [↓check_bind_ok, bind_ok, Except.ok.injEq] at created
  obtain ⟨_, current, read, _, _, _, _, _, _, _, _, ⟨_, _, _, _, rfl⟩, _, _, added, rfl⟩ := created
  exact ⟨current, read, rfl, rfl, rfl, rfl, rfl, (readIdentityProfileState_ok.mp added).1⟩

namespace Created

variable {identity : PublicIdentity} {certificates : List DeviceCertificate}
  {current : IdentityProfileState}
  (created : Created P B identity certificates current field value operation)
include created

variable {o : IdentityProfileOperation}

theorem seen_others (held : o ∈ current.operations) : profileClock.Precedes o operation := by
  show o.signed.payload.counter ≤ seenCount operation o.signed.payload.deviceId
  unfold seenCount
  rw [created.context]
  exact counter_le_clockOf held

/-- Nobody has seen the new operation: its counter is above every one of its device. -/
theorem unseen (causal : profileClock.Causal { o | o ∈ current.operations })
    (held : o ∈ current.operations) : ¬ profileClock.Precedes operation o := by
  intro before
  have positive : 1 ≤ operation.signed.payload.counter :=
    (verifyOperation_clock (created.added.verified operation (by simp))).positive
  have known : operation.signed.payload.counter ≤
    seenCount o operation.signed.payload.deviceId := before
  obtain ⟨other, heldOther, actor, counter, _⟩ := causal.present o held
    operation.signed.payload.deviceId (by
      show seenCount o operation.signed.payload.deviceId ≠ 0
      omega)
  have last := counter_le_clockOf heldOther
  have next := created.counter
  have seen : other.signed.payload.counter = seenCount o operation.signed.payload.deviceId :=
    counter
  rw [show other.signed.payload.deviceId = operation.signed.payload.deviceId from actor] at last
  omega

/-- Every observation of the field is superseded. -/
theorem supersedes_legacy {observation : LegacyObservation} (held : observation ∈ current.legacy)
    (same : observation.field = field) :
    observation.id ∈ operation.signed.payload.supersedesLegacy := by
  rw [created.supersedes]
  unfold supersededBy
  rw [mem_sortedSet, List.mem_toFinset, List.mem_append]
  exact .inl (List.mem_map.mpr ⟨observation, List.mem_filter.mpr ⟨held, by simpa using same⟩, rfl⟩)

variable (state operation) in
abbrev extended :=
  inOrder { state with operations := state.operations ++ [operation] }

/-- The new operation is all that the field shows. -/
theorem openValues_eq (causal : profileClock.Causal { o | o ∈ current.operations }) :
    openValues (extended current operation) field = [value] := by
  have members : ∀ o, o ∈ (extended current operation).operations ↔
      o ∈ current.operations ∨ o = operation := by
    intro o
    rw [mem_inOrder_operations created.added.unique, List.mem_append, List.mem_singleton]
  have irreflexive := created.added.causal.precedes_irrefl
    (show operation ∈ _ from List.mem_append_right _ (List.mem_singleton_self _))
  have last : (fieldOperations (extended current operation) field).filter (fun item =>
      !(fieldOperations (extended current operation) field).any (precedes item)) =
      [operation] := by
    have once := ((@nodup_inOrder { current with
      operations := current.operations ++ [operation] }).1.filter
        (fun item => item.signed.payload.field = field)).filter fun item =>
          !(fieldOperations (extended current operation) field).any (precedes item)
    refine List.perm_singleton.mp
      ((List.perm_ext_iff_of_nodup once (List.nodup_singleton operation)).mpr fun o => ?_)
    simp only [fieldOperations, List.mem_filter, members, decide_eq_true_eq, Bool.not_eq_true',
      List.any_eq_false, precedes_iff, List.mem_singleton]
    constructor
    · rintro ⟨⟨held | rfl, _⟩, final⟩
      · exact absurd (created.seen_others held) (final operation ⟨.inr rfl, created.onField⟩)
      · rfl
    · rintro rfl
      refine ⟨⟨.inr rfl, created.onField⟩, ?_⟩
      rintro other ⟨held | rfl, _⟩
      · exact created.unseen causal held
      · exact irreflexive
  have none : (extended current operation).legacy.filter (fun item => item.field = field ∧
      item.id ∉ (fieldOperations (extended current operation) field).flatMap
        fun item => item.signed.payload.supersedesLegacy) = [] := by
    rw [List.filter_eq_nil_iff]
    intro observation shown
    obtain ⟨id, found⟩ := Table.mem_orderedValues.mp shown
    have held : observation ∈ current.legacy :=
      (Table.lookup_insertAll_mem found).resolve_left (by simp)
    simp only [decide_eq_true_eq, not_and, not_not, List.mem_flatMap]
    intro same
    exact ⟨operation, List.mem_filter.mpr ⟨(members operation).mpr (.inr rfl),
      by simpa using created.onField⟩, created.supersedes_legacy held same⟩
  unfold openValues
  simp only [last, none, List.map_cons, List.map_nil, List.append_nil, created.writes]

end Created

end Created

/-- Writing a name or a photo resolves every conflict about it.  In an accepted state the
causal order is strict, a field with an operation shows something, and whatever it shows
no operation on the field came after or superseded. -/
theorem profile_write_resolves (P : Primitives) (B : Platform) (identity : PublicIdentity)
    (certificates : List DeviceCertificate) (state current : IdentityProfileState)
    (valid : readIdentityProfileState P B state identity certificates = .ok current)
    (field : IdentityProfileField) (presentation : field ≠ .rustyServicePin) :
    (∀ profile value certificatesValue ensureCurrent operation, profile.identity = identity →
      certificatesValue.getD [profile.certificate] = certificates →
      createIdentityProfileOperation P B profile state field value certificatesValue
        ensureCurrent = .ok operation →
      ∃ next, readIdentityProfileState P B
          { current with operations := current.operations ++ [operation] } identity
          certificates = .ok next ∧
        (∀ o, o ∈ next.operations ↔ o ∈ current.operations ∨ o = operation) ∧
        identityProfileValue P next field = .ok (.value, [value])) ∧
    (∀ a ∈ current.operations, precedes a a = false) ∧
    (∀ a ∈ current.operations, ∀ b ∈ current.operations, ∀ c ∈ current.operations,
      precedes a b = true → precedes b c = true → precedes a c = true) ∧
    ∃ status values, identityProfileValue P current field = .ok (status, values) ∧
      ((∃ o ∈ current.operations, o.signed.payload.field = field) → status ≠ .empty ∧ values ≠ []) ∧
      ∀ shown ∈ values,
        (∃ o ∈ current.operations, o.signed.payload.field = field ∧
          o.signed.payload.value = shown ∧ ∀ other ∈ current.operations,
            other.signed.payload.field = field → precedes o other = false) ∨
        ∃ observation ∈ current.legacy, observation.field = field ∧ observation.value = shown ∧
          ∀ o ∈ current.operations, o.signed.payload.field = field →
            observation.id ∉ o.signed.payload.supersedesLegacy := by
  obtain ⟨accepted, rfl⟩ := readIdentityProfileState_ok.mp valid
  have causal : profileClock.Causal { o | o ∈ (inOrder state).operations } := by
    simpa only [mem_inOrder_operations accepted.unique] using accepted.causal
  have shows : ∀ s, identityProfileValue P s field = .ok (presentedValue s field) := by
    intro s
    cases field with
    | rustyServicePin => exact absurd rfl presentation
    | name => rfl
    | photo => rfl
  simp only [← Bool.not_eq_true, precedes_iff]
  refine ⟨?_, ?_, ?_, ?_⟩
  · rintro profile value certificatesValue ensureCurrent operation rfl rfl created
    obtain ⟨current, read, made⟩ := createIdentityProfileOperation_ok created
    obtain rfl := ok_unique valid read
    refine ⟨_, readIdentityProfileState_ok.mpr ⟨made.added, rfl⟩, ?_, ?_⟩
    · intro o
      rw [mem_inOrder_operations made.added.unique, List.mem_append, List.mem_singleton]
    · rw [shows, presentedValue_singleton (made.openValues_eq causal)]
  · exact fun a held => causal.precedes_irrefl held
  · exact fun a _ b heldB c heldC => causal.precedes_trans heldB heldC
  · refine ⟨_, _, shows _, ?_, ?_⟩
    · rintro ⟨o, held, same⟩
      have nonempty : fieldOperations (inOrder state) field ≠ [] :=
        List.ne_nil_of_mem (List.mem_filter.mpr ⟨held, by simpa using same⟩)
      obtain ⟨last, heldLast, final⟩ := causal.exists_last nonempty
        fun a heldA => (List.mem_filter.mp heldA).1
      exact presentedValue_ne_empty (mem_openValues.mpr (.inl ⟨last, heldLast, final, rfl⟩))
    · intro shown member
      have fieldOperation : ∀ o, o ∈ fieldOperations (inOrder state) field ↔
          o ∈ (inOrder state).operations ∧ o.signed.payload.field = field := by
        simp [fieldOperations]
      rcases mem_openValues.mp (mem_presentedValue member) with
        ⟨o, held, final, same⟩ | ⟨observation, held, same, final, value⟩
      · obtain ⟨held, onField⟩ := (fieldOperation o).mp held
        exact .inl ⟨o, held, onField, same, fun other heldOther onOther =>
          final other ((fieldOperation other).mpr ⟨heldOther, onOther⟩)⟩
      · exact .inr ⟨observation, held, same, value, fun o heldO onField =>
          final o ((fieldOperation o).mpr ⟨heldO, onField⟩)⟩

open MetaMesh.Sample Sample

-- Two names and a legacy one are in conflict; device 1 writes a third name.
set_option maxRecDepth 100000 in
theorem profile_write_resolves_sample :
    (identityProfileValue primitives whole .name).map (fun shown => (shown.1, shown.2.length)) =
      .ok (.conflict, 3) ∧
    ∃ operation next,
      createIdentityProfileOperation primitives browser (localProfile 1) whole .name
        (.text "Zoe") none (fun _ => .ok ()) = .ok operation ∧ operation ∈ next.operations ∧
      identityProfileValue primitives next .name = .ok (.value, [.text "Zoe"]) := by
  have read : (readIdentityProfileState primitives browser whole (person 0)
    [certificate 0 1]).isOk = true := by decide
  have made : (createIdentityProfileOperation primitives browser (localProfile 1) whole .name
    (.text "Zoe") none (fun _ => .ok ())).isOk = true := by decide
  obtain ⟨current, read⟩ := isOk_iff.mp read
  obtain ⟨operation, made⟩ := isOk_iff.mp made
  obtain ⟨next, _, members, shown⟩ := (profile_write_resolves primitives browser (person 0)
    [certificate 0 1] whole current read .name (by decide)).1 (localProfile 1) _ none _ operation
    rfl rfl made
  exact ⟨by decide, operation, next, made, (members _).mpr (.inr rfl), shown⟩

end MetaMesh.Browser
