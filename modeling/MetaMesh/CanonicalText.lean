import MetaMesh.CanonicalJson

/-!
# Canonical text of typed records

Canonical text orders the fields of every object, so it is the plain text of the value
with its fields in order.  `Canonical T` says that this ordered value is one the library
could have built and that it tells the records of type `T` apart.  Then so does the
canonical text: `canonicalizeJson_inj`.

A record is an object with fixed and distinct field names.  `sorted_object_inj` compares
two of them field by field, which is all the instances below need.
-/

namespace MetaMesh

open Fallible

mutual

/-- The value with the fields of its objects in the order of canonical text. -/
def Value.sorted : Value → Value
  | .array items => .array (sortedItems items)
  | .object fields => .object (sortBy (fun field => strKey field.1) (sortedFields fields))
  | .null => .null
  | .bool b => .bool b
  | .number n => .number n
  | .string s => .string s

def sortedItems : List Value → List Value
  | [] => []
  | v :: vs => v.sorted :: sortedItems vs

def sortedFields : List (String × Value) → List (String × Value)
  | [] => []
  | (key, v) :: fields => (key, v.sorted) :: sortedFields fields

end

theorem sortedItems_eq_map (items : List Value) : sortedItems items = items.map Value.sorted := by
  induction items with
  | nil => rfl
  | cons v items ih => rw [sortedItems, ih, List.map_cons]

theorem sortedFields_eq_map (fields : List (String × Value)) :
    sortedFields fields = fields.map fun field => (field.1, field.2.sorted) := by
  induction fields with
  | nil => rfl
  | cons field fields ih =>
    rw [sortedFields, ih, List.map_cons]

variable {v : Value}

/-- Canonical text is the plain text of the ordered value, where the numbers are written
as in plain text. -/
theorem canonicalizeWithNumbers_eq_sorted {formatFinite : String → String}
    {signatureNumbers : Bool} {p : Number → Prop} (written : ∀ n, p n →
      canonicalizeWithNumbers formatFinite signatureNumbers (.number n) = .ok n.text)
    (numbers : v.Numbers p) :
    canonicalizeWithNumbers formatFinite signatureNumbers v = .ok v.sorted.toVec := by
  induction numbers with
  | null => rfl
  | bool b => rfl
  | number holds => exact written _ holds
  | string s => rfl
  | @array items each ih =>
    have texts : canonicalizeItems formatFinite signatureNumbers items =
        .ok (toVecs (sortedItems items)) := by
      induction items with
      | nil => rfl
      | cons v items rest =>
        rw [List.forall_mem_cons] at each ih
        rw [canonicalizeItems, ih.1, rest each.2 ih.2]
        rfl
    rw [canonicalizeWithNumbers, texts]
    rfl
  | @object fields each ih =>
    have texts : canonicalizeFields formatFinite signatureNumbers fields =
        .ok (fieldVecs (sortedFields fields)) := by
      induction fields with
      | nil => rfl
      | cons field fields rest =>
        rw [List.forall_mem_cons] at each ih
        rw [canonicalizeFields, ih.1, rest each.2 ih.2]
        rfl
    rw [canonicalizeWithNumbers, texts, ok_bind, Value.sorted, Value.toVec, fieldVecs_eq_map,
      fieldVecs_eq_map, sortBy_map]

theorem canonicalizeJson_eq_sorted (P : Primitives) (v : Value) :
    canonicalizeJson P v = .ok v.sorted.toVec :=
  canonicalizeWithNumbers_eq_sorted (fun _ _ => rfl) (Value.Numbers.all v)

/-- A value the library built is in order. -/
theorem sorted_of_wellFormed (good : v.wellFormed = true) : v.sorted = v := by
  induction v using Value.inductionOn with
  | null => rfl
  | bool b => rfl
  | number n => rfl
  | string s => rfl
  | array items ih =>
    rw [Value.wellFormed, itemsWellFormed_iff] at good
    rw [Value.sorted, sortedItems_eq_map, List.map_congr_left fun v held => ih v held (good v held),
      List.map_id']
  | object fields ih =>
    obtain ⟨ascending, good⟩ := wellFormed_object_iff.mp good
    have values : sortedFields fields = fields := by
      rw [sortedFields_eq_map]
      refine (List.map_congr_left fun field held => ?_).trans (List.map_id _)
      rw [ih field held (good field held), id]
    rw [Value.sorted, values]
    exact congrArg _ (List.Pairwise.insertionSort_eq (ascending.imp fun below => le_of_lt below))

/-- What the crate writes for a value the library built, with plain numbers. -/
theorem canonicalizeJson_eq (P : Primitives) (good : v.wellFormed = true) :
    canonicalizeJson P v = .ok v.toVec := by
  rw [canonicalizeJson_eq_sorted, sorted_of_wellFormed good]

/-! ## Objects with distinct field names -/

theorem wellFormed_sorted_object {fields : List (String × Value)}
    (distinct : (fields.map Prod.fst).Nodup)
    (good : ∀ field ∈ fields, field.2.sorted.wellFormed = true) :
    (Value.object fields).sorted.wellFormed = true := by
  rw [Value.sorted, wellFormed_object_iff, sortedFields_eq_map]
  refine ⟨?_, ?_⟩
  · have keys : ((fields.map fun field => (field.1, field.2.sorted)).map Prod.fst).Nodup := by
      rw [List.map_map]
      exact distinct
    have ordered := sortBy_pairwise (fun field : String × Value => strKey field.1)
      (fields.map fun field => (field.1, field.2.sorted))
    have apart := List.pairwise_map.mp
      (((sortBy_perm (fun field : String × Value => strKey field.1) _).map Prod.fst).nodup_iff.mpr
        keys)
    refine (ordered.and apart).imp ?_
    rintro a b ⟨below, other⟩
    exact lt_of_le_of_ne below fun same => other (strKey_injective same)
  · intro field member
    rw [mem_sortBy, List.mem_map] at member
    obtain ⟨source, held, rfl⟩ := member
    exact good source held

variable {left right : List (String × Value)}

/-- Objects with one canonical text hold the same fields. -/
theorem sorted_object_perm (same : (Value.object left).sorted = (Value.object right).sorted) :
    (left.map fun field => (field.1, field.2.sorted)).Perm
      (right.map fun field => (field.1, field.2.sorted)) := by
  rw [Value.sorted, Value.sorted, Value.object.injEq] at same
  have ordered := sortBy_perm (fun field : String × Value => strKey field.1) (sortedFields left)
  rw [same] at ordered
  rw [← sortedFields_eq_map, ← sortedFields_eq_map]
  exact ordered.symm.trans (sortBy_perm _ _)

/-! ## Fields that may be absent -/

/-- The fields that are there, of those a record may have. -/
def present (slots : List (String × Option Value)) : List (String × Value) :=
  slots.filterMap fun slot => slot.2.map (Prod.mk slot.1)

variable {slots others : List (String × Option Value)}

@[simp] theorem present_field {name : String} {v : Value} :
    present ((name, some v) :: slots) = (name, v) :: present slots := rfl

@[simp] theorem present_optional {T : Type} [Serialize T] {name : String} {o : Option T} :
    present ((name, o.map toValue) :: slots) = optionalField name o ++ present slots := by
  cases o <;> rfl

theorem present_all (fields : List (String × Value)) :
    present (fields.map (Prod.map id some)) = fields := by
  simp [present, List.filterMap_map]

theorem mem_present {name : String} {v : Value} :
    (name, v) ∈ present slots ↔ (name, some v) ∈ slots := by
  simp [present]

theorem keys_present : ((present slots).map Prod.fst).Sublist (slots.map Prod.fst) := by
  induction slots with
  | nil => exact List.Sublist.refl _
  | cons slot slots ih =>
    obtain ⟨name, _ | v⟩ := slot
    · exact ih.cons name
    · exact ih.cons_cons name

/-- Slots with the same distinct names and the same values in them are the same. -/
theorem slots_ext (names : slots.map Prod.fst = others.map Prod.fst)
    (distinct : (slots.map Prod.fst).Nodup)
    (same : ∀ name v, (name, some v) ∈ slots ↔ (name, some v) ∈ others) : slots = others := by
  induction slots generalizing others with
  | nil => exact (List.map_eq_nil_iff.mp names.symm).symm
  | cons slot slots ih =>
    obtain ⟨name, o⟩ := slot
    obtain _ | ⟨⟨_, o'⟩, others⟩ := others
    · cases names
    simp only [List.map_cons, List.cons.injEq, List.nodup_cons] at names distinct
    obtain ⟨rfl, names⟩ := names
    obtain ⟨absent, distinct⟩ := distinct
    have gone : ∀ v, (name, some v) ∉ slots := fun v held =>
      absent (List.mem_map.mpr ⟨_, held, rfl⟩)
    have gone' : ∀ v, (name, some v) ∉ others := fun v held =>
      absent (names ▸ List.mem_map.mpr ⟨_, held, rfl⟩)
    obtain rfl : o = o' := Option.ext fun v => by
      simpa [gone, gone', eq_comm] using same name v
    rw [ih names distinct]
    intro other v
    by_cases here : other = name
    · simp [here, gone, gone']
    · simpa [here] using same other v

theorem wellFormed_present
    (ascending : (slots.map Prod.fst).Pairwise fun a b => strKey a < strKey b)
    (good : ∀ slot ∈ slots, slot.2.all Value.wellFormed = true) :
    (Value.object (present slots)).wellFormed = true := by
  refine wellFormed_object_iff.mpr ⟨ascendingKeys_of_sublist keys_present ascending, ?_⟩
  exact fun field held => good _ (mem_present.mp held)

theorem sorted_present_inj (names : slots.map Prod.fst = others.map Prod.fst)
    (distinct : (slots.map Prod.fst).Nodup)
    (same : (Value.object (present slots)).sorted = (Value.object (present others)).sorted) :
    slots.map (fun slot => slot.2.map Value.sorted) =
      others.map fun slot => slot.2.map Value.sorted := by
  have sorted : ∀ (slots : List (String × Option Value)) name v,
      (name, some v) ∈ slots.map (fun slot => (slot.1, slot.2.map Value.sorted)) ↔
        (name, v) ∈ (present slots).map fun field => (field.1, field.2.sorted) := by
    simp [mem_present]
  have equal : slots.map (fun slot => (slot.1, slot.2.map Value.sorted)) =
      others.map fun slot => (slot.1, slot.2.map Value.sorted) := by
    refine slots_ext (by simpa [Function.comp_def] using names)
      (by simpa [Function.comp_def] using distinct) fun name v => ?_
    rw [sorted, sorted]
    exact (sorted_object_perm same).mem_iff
  simpa [Function.comp_def] using congrArg (List.map Prod.snd) equal

theorem sorted_object_inj (keys : left.map Prod.fst = right.map Prod.fst)
    (distinct : (left.map Prod.fst).Nodup)
    (same : (Value.object left).sorted = (Value.object right).sorted) :
    left.map (fun field => field.2.sorted) = right.map fun field => field.2.sorted := by
  rw [← present_all left, ← present_all right] at same
  have values := sorted_present_inj (by simpa [Function.comp_def] using keys)
    (by simpa [Function.comp_def] using distinct) same
  simpa [Function.comp_def] using congrArg (List.filterMap id) values

/-! ## Records told apart by their canonical text -/

/-- Records that their canonical text tells apart. -/
class Canonical (T : Type) [Serialize T] : Prop where
  wellFormed : ∀ t : T, (toValue t).sorted.wellFormed = true
  injective : ∀ a b : T, (toValue a).sorted = (toValue b).sorted → a = b

theorem canonicalizeJson_inj {T : Type} [Serialize T] [Canonical T] (P : Primitives) {a b : T} :
    canonicalizeJson P (toValue a) = canonicalizeJson P (toValue b) ↔ a = b := by
  constructor
  · intro same
    rw [canonicalizeJson_eq_sorted, canonicalizeJson_eq_sorted, Except.ok.injEq] at same
    exact Canonical.injective a b
      (toVec_injective (Canonical.wellFormed a) (Canonical.wellFormed b) same)
  · rintro rfl
    rfl

instance : Canonical String where
  wellFormed _ := rfl
  injective _ _ same := Value.string.inj same

instance : Canonical UInt8 where
  wellFormed _ := rfl
  injective _ _ same := UInt8.toNat_inj.mp (Number.posInt.inj (Value.number.inj same))

instance : Canonical Bool where
  wellFormed b := by cases b <;> rfl
  injective _ _ same := Value.bool.inj same

instance : Canonical (Option String) where
  wellFormed o := by cases o <;> rfl
  injective a b same := by
    rcases a with _ | a <;> rcases b with _ | b
    · rfl
    · cases same
    · cases same
    · exact congrArg some (Value.string.inj same)

instance {T : Type} [Serialize T] [Canonical T] : Canonical (List T) where
  wellFormed items := by
    show (Value.array (sortedItems (items.map toValue))).wellFormed = true
    rw [Value.wellFormed, itemsWellFormed_iff, sortedItems_eq_map, List.map_map]
    intro v member
    obtain ⟨t, _, rfl⟩ := List.mem_map.mp member
    exact Canonical.wellFormed t
  injective left right same := by
    have items : (sortedItems (left.map toValue)) = sortedItems (right.map toValue) :=
      Value.array.inj same
    rw [sortedItems_eq_map, sortedItems_eq_map, List.map_map, List.map_map] at items
    exact List.map_injective_iff.mpr (fun a b => Canonical.injective a b) items

/-- A record with fixed field names is told apart where its fields are. -/
theorem Canonical.ofSlots {T : Type} [Serialize T] (slots : T → List (String × Option Value))
    (object : ∀ t : T, toValue t = .object (present (slots t)))
    (named : ∀ a b, (slots a).map Prod.fst = (slots b).map Prod.fst)
    (distinct : ∀ t, ((slots t).map Prod.fst).Nodup)
    (good : ∀ t, ∀ slot ∈ slots t, (slot.2.all fun v => v.sorted.wellFormed) = true)
    (apart : ∀ a b, (slots a).map (fun slot => slot.2.map Value.sorted) =
      (slots b).map (fun slot => slot.2.map Value.sorted) → a = b) : Canonical T where
  wellFormed t := by
    rw [object]
    refine wellFormed_sorted_object ((distinct t).sublist keys_present) fun field held => ?_
    exact good t _ (mem_present.mp held)
  injective a b same := by
    rw [object, object] at same
    exact apart a b (sorted_present_inj (named a b) (distinct a) same)

/-- The same for a record that always has all its fields. -/
theorem Canonical.ofFields {T : Type} [Serialize T] {fields : T → List (String × Value)}
    (object : ∀ t : T, toValue t = .object (fields t))
    (named : ∀ a b, (fields a).map Prod.fst = (fields b).map Prod.fst)
    (distinct : ∀ t, ((fields t).map Prod.fst).Nodup)
    (good : ∀ t, ∀ field ∈ fields t, field.2.sorted.wellFormed = true)
    (apart : ∀ a b, (fields a).map (fun field => field.2.sorted) =
      (fields b).map (fun field => field.2.sorted) → a = b) : Canonical T where
  wellFormed t := by
    rw [object]
    exact wellFormed_sorted_object (distinct t) (good t)
  injective a b same := by
    rw [object, object] at same
    exact apart a b (sorted_object_inj (named a b) (distinct a) same)

@[simp] theorem sorted_inj {T : Type} [Serialize T] [Canonical T] {a b : T} :
    (toValue a).sorted = (toValue b).sorted ↔ a = b :=
  ⟨Canonical.injective a b, congrArg fun t => (toValue t).sorted⟩

attribute [simp] Canonical.wellFormed

@[simp] theorem all_wellFormed {T : Type} [Serialize T] [Canonical T] (o : Option T) :
    ((o.map toValue).all fun v => v.sorted.wellFormed) = true := by
  cases o <;> simp

@[simp] theorem map_sorted_inj {T : Type} [Serialize T] [Canonical T] {a b : Option T} :
    (a.map toValue).map Value.sorted = (b.map toValue).map Value.sorted ↔ a = b := by
  cases a <;> cases b <;> simp

theorem Canonical.toValue_injective {T : Type} [Serialize T] [Canonical T] :
    Function.Injective (toValue : T → Value) :=
  fun a b same => Canonical.injective a b (congrArg Value.sorted same)


instance {T : Type} [Serialize T] [Canonical T] : Canonical (SignedEnvelope T) := by
  refine .ofFields (fun _ => rfl) (fun _ _ => rfl) (by simp) (by simp) ?_
  rintro ⟨⟩ ⟨⟩ same
  simpa using same

instance : Canonical DeviceCertificatePayload := by
  refine .ofFields (fun _ => rfl) (fun _ _ => rfl) (by simp [DeviceCertificatePayload.fields])
    (by simp [DeviceCertificatePayload.fields]) ?_
  rintro ⟨⟩ ⟨⟩ same
  simpa [DeviceCertificatePayload.fields] using same

end MetaMesh
