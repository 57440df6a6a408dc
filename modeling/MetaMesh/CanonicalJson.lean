import MetaMesh.Identity
import MetaMesh.Lib.Framing

/-!
# Canonical text

A `serde_json` object is a map ordered by its keys, and a double prints with a
point or an exponent.  `Value.wellFormed` says so, and `JsonValue` is a value that
is.  `toVec_injective` says that no two of them share their text: where the crate
breaks a tie on canonical text, equal text means equal values.
-/

namespace MetaMesh

open Fallible Framing

/-! ## Values as the library builds them -/

def isNumberByte (b : UInt8) : Bool :=
  (48 ≤ b && b ≤ 57) || b = 43 || b = 45 || b = 46 || b = 101

/-- Digits, signs, and a point or an exponent. -/
def isFloatText (text : String) : Bool :=
  (utf8 text).all isNumberByte && (utf8 text).any fun b => b = 46 || b = 101

/-- Keys in strictly ascending order. -/
def ascendingKeys (fields : List (String × Value)) : Prop :=
  fields.Pairwise fun a b => strKey a.1 < strKey b.1

instance (fields : List (String × Value)) : Decidable (ascendingKeys fields) :=
  inferInstanceAs (Decidable (fields.Pairwise fun a b => strKey a.1 < strKey b.1))

mutual

def Value.wellFormed : Value → Bool
  | .number (.float text) => isFloatText text
  | .array items => itemsWellFormed items
  | .object fields => decide (ascendingKeys fields) && fieldsWellFormed fields
  | _ => true

def itemsWellFormed : List Value → Bool
  | [] => true
  | v :: vs => v.wellFormed && itemsWellFormed vs

def fieldsWellFormed : List (String × Value) → Bool
  | [] => true
  | (_, v) :: fields => v.wellFormed && fieldsWellFormed fields

end

/-- A value as the library builds it. -/
abbrev JsonValue := { v : Value // v.wellFormed = true }

theorem itemsWellFormed_iff {items : List Value} :
    itemsWellFormed items = true ↔ ∀ v ∈ items, v.wellFormed = true := by
  induction items with
  | nil => simp [itemsWellFormed]
  | cons v items ih => simp [itemsWellFormed, ih]

variable {fields : List (String × Value)}

theorem fieldsWellFormed_iff :
    fieldsWellFormed fields = true ↔ ∀ field ∈ fields, field.2.wellFormed = true := by
  induction fields with
  | nil => simp [fieldsWellFormed]
  | cons field fields ih =>
    simp [fieldsWellFormed, ih]

theorem wellFormed_object_iff :
    (Value.object fields).wellFormed = true ↔
      ascendingKeys fields ∧ ∀ field ∈ fields, field.2.wellFormed = true := by
  rw [Value.wellFormed, Bool.and_eq_true, decide_eq_true_eq, fieldsWellFormed_iff]

/-- Keys taken in order from a list in order. -/
theorem ascendingKeys_of_sublist {keys : List String} (taken : (fields.map Prod.fst).Sublist keys)
    (ascending : keys.Pairwise fun a b => strKey a < strKey b) : ascendingKeys fields := by
  unfold ascendingKeys
  rw [← List.pairwise_map (f := Prod.fst) (R := fun a b => strKey a < strKey b)]
  exact ascending.sublist taken

/-- Induction over a value and everything in it. -/
theorem Value.inductionOn {motive : Value → Prop} (v : Value) (null : motive .null)
    (bool : ∀ b, motive (.bool b)) (number : ∀ n, motive (.number n))
    (string : ∀ s, motive (.string s))
    (array : ∀ items, (∀ v ∈ items, motive v) → motive (.array items))
    (object : ∀ fields, (∀ field ∈ fields, motive field.2) → motive (.object fields)) : motive v :=
  @Value.rec motive (fun items => ∀ v ∈ items, motive v)
    (fun fields => ∀ field ∈ fields, motive field.2) (fun field => motive field.2)
    null bool number string array object (by simp)
    (fun _ _ first rest => List.forall_mem_cons.mpr ⟨first, rest⟩) (by simp)
    (fun _ _ first rest => List.forall_mem_cons.mpr ⟨first, rest⟩) (fun _ _ holds => holds) v

/-- The numbers in a value have a property. -/
inductive Value.Numbers (p : Number → Prop) : Value → Prop
  | null : Numbers p .null
  | bool (b : Bool) : Numbers p (.bool b)
  | number {n : Number} (holds : p n) : Numbers p (.number n)
  | string (s : String) : Numbers p (.string s)
  | array {items : List Value} (each : ∀ v ∈ items, Numbers p v) : Numbers p (.array items)
  | object {fields : List (String × Value)} (each : ∀ field ∈ fields, Numbers p field.2) :
      Numbers p (.object fields)

theorem Value.Numbers.all (v : Value) : v.Numbers fun _ => True := by
  induction v using Value.inductionOn with
  | null => exact .null
  | bool b => exact .bool b
  | number n => exact .number trivial
  | string s => exact .string s
  | array items ih => exact .array ih
  | object fields ih => exact .object ih

/-! ## Fields -/

/-- `Map::insert`: the fields stay in order. -/
def insertField (key : String) (v : Value) : List (String × Value) → List (String × Value)
  | [] => [(key, v)]
  | (other, w) :: fields =>
    if strKey key < strKey other then (key, v) :: (other, w) :: fields
    else if key = other then (key, v) :: fields
    else (other, w) :: insertField key v fields

variable {v : Value}

theorem mem_insertField {key : String} {field : String × Value}
    (held : field ∈ insertField key v fields) : field = (key, v) ∨ field ∈ fields := by
  induction fields with
  | nil => exact .inl (by simpa [insertField] using held)
  | cons first fields ih =>
    unfold insertField at held
    split_ifs at held with below same
    · exact List.mem_cons.mp held
    · rcases List.mem_cons.mp held with here | later
      · exact .inl here
      · exact .inr (List.mem_cons_of_mem _ later)
    · rcases List.mem_cons.mp held with here | later
      · exact .inr (here ▸ List.mem_cons_self)
      · rcases ih later with here | kept
        · exact .inl here
        · exact .inr (List.mem_cons_of_mem _ kept)

theorem ascendingKeys_insertField {key : String} (ascending : ascendingKeys fields) :
    ascendingKeys (insertField key v fields) := by
  induction fields with
  | nil => exact List.pairwise_singleton _ _
  | cons first fields ih =>
    obtain ⟨above, rest⟩ := List.pairwise_cons.mp ascending
    unfold insertField
    split_ifs with below same
    · refine List.pairwise_cons.mpr ⟨?_, ascending⟩
      intro field held
      rcases List.mem_cons.mp held with rfl | later
      · exact below
      · exact below.trans (above field later)
    · subst same
      exact List.pairwise_cons.mpr ⟨above, rest⟩
    · refine List.pairwise_cons.mpr ⟨?_, ih rest⟩
      intro field held
      rcases mem_insertField held with rfl | kept
      · exact lt_of_le_of_ne (not_lt.mp below) fun equal => same (strKey_injective equal).symm
      · exact above field kept

theorem fieldVecs_eq_map (fields : List (String × Value)) :
    fieldVecs fields = fields.map fun field => (field.1, field.2.toVec) := by
  induction fields with
  | nil => rfl
  | cons field fields ih =>
    rw [fieldVecs, ih, List.map_cons]

/-! ## The text of a number -/

theorem isNumberByte_of_isDigit {c : Char} (digit : c.isDigit = true) :
    isNumberByte (UInt8.ofNat c.toNat) = true ∧ UInt8.ofNat c.toNat ≠ 45 ∧
      UInt8.ofNat c.toNat ≠ 46 ∧ UInt8.ofNat c.toNat ≠ 101 ∧
      (UInt8.ofNat c.toNat).toNat = c.toNat := by
  have all : ∀ n : Fin 10, isNumberByte (UInt8.ofNat (48 + n)) = true ∧
      UInt8.ofNat (48 + n) ≠ 45 ∧ UInt8.ofNat (48 + n) ≠ 46 ∧ UInt8.ofNat (48 + n) ≠ 101 ∧
      (UInt8.ofNat (48 + n)).toNat = 48 + n := by
    decide
  obtain ⟨low, high⟩ : 48 ≤ c.toNat ∧ c.toNat ≤ 57 := Char.isDigit_iff_toNat.mp digit
  have value := all ⟨c.toNat - 48, by omega⟩
  rwa [show 48 + (c.toNat - 48) = c.toNat by omega] at value

theorem mem_decimal {n : Nat} {b : UInt8} (held : b ∈ decimal n) :
    isNumberByte b = true ∧ b ≠ 45 ∧ b ≠ 46 ∧ b ≠ 101 := by
  obtain ⟨c, member, rfl⟩ := List.mem_map.mp held
  obtain ⟨number, minus, point, exponent, _⟩ := isNumberByte_of_isDigit (isDigit_of_mem member)
  exact ⟨number, minus, point, exponent⟩

theorem decimal_injective : Function.Injective decimal := by
  -- the digits can be read back from their bytes
  have back : ∀ n, (decimal n).map (fun b => Char.ofNat b.toNat) = Nat.toDigits 10 n := by
    intro n
    unfold decimal
    rw [List.map_map]
    refine (List.map_congr_left ?_).trans (List.map_id _)
    intro c member
    obtain ⟨_, _, _, _, same⟩ := isNumberByte_of_isDigit (isDigit_of_mem member)
    simp [same, Char.ofNat_toNat]
  intro n m same
  apply toDigits_injective
  rw [← back n, ← back m, same]

theorem decimal_ne_nil (n : Nat) : decimal n ≠ [] := by
  unfold decimal
  simp [Nat.toDigits_ne_nil]

def Number.wellFormed : Number → Bool
  | .float text => isFloatText text
  | _ => true

variable {n : Number}

theorem number_bytes (good : n.wellFormed = true) : ∀ b ∈ n.text, isNumberByte b = true := by
  intro b held
  cases n with
  | posInt n => exact (mem_decimal held).1
  | negInt n =>
    rcases List.mem_cons.mp held with rfl | digit
    · decide
    · exact (mem_decimal digit).1
  | float text =>
    rw [Number.wellFormed, isFloatText, Bool.and_eq_true, List.all_eq_true] at good
    exact good.1 b held

theorem number_ne_nil (good : n.wellFormed = true) : n.text ≠ [] := by
  cases n with
  | posInt n => exact decimal_ne_nil n
  | negInt n => simp [Number.text]
  | float text =>
    rw [Number.wellFormed, isFloatText, Bool.and_eq_true, List.any_eq_true] at good
    obtain ⟨_, b, held, _⟩ := good
    exact List.ne_nil_of_mem held

/-- A double shows in its text, and so does a sign. -/
theorem number_text_injective {m : Number} (goodN : n.wellFormed = true)
    (goodM : m.wellFormed = true) (same : n.text = m.text) : n = m := by
  -- a float has a point or an exponent, and a signed number has neither
  have float : ∀ {n : Nat} {text : String} {bytes : List UInt8}, isFloatText text = true →
      bytes ⊆ 45 :: decimal n → bytes ≠ utf8 text := by
    rintro n text _ good inside rfl
    rw [isFloatText, Bool.and_eq_true, List.any_eq_true] at good
    obtain ⟨_, b, held, mark⟩ := good
    rcases List.mem_cons.mp (inside held) with rfl | digit
    · exact absurd mark (by decide)
    · obtain ⟨_, _, point, exponent⟩ := mem_decimal digit
      simp [point, exponent] at mark
  have unsigned : ∀ n m : Nat, decimal n ≠ 45 :: decimal m := by
    intro n m equal
    exact (mem_decimal (n := n) (equal ▸ List.mem_cons_self)).2.1 rfl
  cases n <;> cases m <;> simp only [Number.text] at same
  · rw [decimal_injective same]
  · exact absurd same (unsigned _ _)
  · exact absurd same (float goodM (List.subset_cons_self _ _))
  · exact absurd same.symm (unsigned _ _)
  · rw [decimal_injective (List.cons.inj same).2]
  · exact absurd same (float goodM (List.Subset.refl _))
  · exact absurd same.symm (float goodN (List.subset_cons_self _ _))
  · exact absurd same.symm (float goodN (List.Subset.refl _))
  · congr 1
    exact strKey_injective (by simp only [strKey, same])

/-- A value whose numbers are written as the library writes them. -/
abbrev Value.PlainNumbers (v : Value) : Prop :=
  v.Numbers fun n => n.wellFormed = true

theorem plainNumbers_of_wellFormed (good : v.wellFormed = true) : v.PlainNumbers := by
  induction v using Value.inductionOn with
  | null => exact .null
  | bool b => exact .bool b
  | number n =>
    refine .number ?_
    cases n <;> first | rfl | exact good
  | string s => exact .string s
  | array items ih =>
    rw [Value.wellFormed, itemsWellFormed_iff] at good
    exact .array fun v held => ih v held (good v held)
  | object fields ih =>
    exact .object fun field held => ih field held ((wellFormed_object_iff.mp good).2 field held)

/-! ## The text of a string -/

def unhex (b : UInt8) : UInt8 := if b < 58 then b - 48 else b - 87

/-- Reads one escaped byte off a text. -/
def unescape : List UInt8 → Option (UInt8 × List UInt8)
  | 92 :: 117 :: 48 :: 48 :: high :: low :: rest => some (16 * unhex high + unhex low, rest)
  | 92 :: 98 :: rest => some (8, rest)
  | 92 :: 116 :: rest => some (9, rest)
  | 92 :: 110 :: rest => some (10, rest)
  | 92 :: 102 :: rest => some (12, rest)
  | 92 :: 114 :: rest => some (13, rest)
  | 92 :: b :: rest => some (b, rest)
  | b :: rest => some (b, rest)
  | [] => none

theorem unescape_escapeByte (b : UInt8) (rest : List UInt8) :
    unescape (escapeByte b ++ rest) = some (b, rest) := by
  have hex : ∀ n : Fin 32,
      16 * unhex (hexDigit (UInt8.ofNat n / 16)) + unhex (hexDigit (UInt8.ofNat n % 16)) =
        UInt8.ofNat n := by
    decide
  unfold escapeByte
  split_ifs with quoted backslash backspace tab newline feed return' control
  · subst quoted
    rfl
  · subst backslash
    rfl
  · subst backspace
    rfl
  · subst tab
    rfl
  · subst newline
    rfl
  · subst feed
    rfl
  · subst return'
    rfl
  · have value := hex ⟨b.toNat, UInt8.lt_iff_toNat_lt.mp control⟩
    simp only [UInt8.ofNat_toNat] at value
    simp [unescape, value]
  · unfold unescape
    split <;> simp_all

theorem told_escapeByte (a : UInt8) : Told escapeByte (fun _ => True) (fun _ => True) a := by
  intro b rest rest' _ _ _ same
  have read := congrArg unescape same
  rw [unescape_escapeByte, unescape_escapeByte, Option.some.injEq, Prod.mk.injEq] at read
  exact read

theorem escapeByte_begins (b : UInt8) : ∃ first tail, escapeByte b = first :: tail ∧
    first ≠ (34 : UInt8) := by
  unfold escapeByte
  split_ifs with quoted
  all_goals first
    | exact ⟨92, _, rfl, by decide⟩
    | exact ⟨b, [], rfl, quoted⟩

theorem told_quote (s : String) {stop : List UInt8 → Prop} : Told quote (fun _ => True) stop s := by
  intro t rest rest' _ _ _ same
  simp only [quote, List.cons_append, List.cons.injEq, true_and] at same
  obtain ⟨bytes, rfl⟩ := told_pieces escapeByte_begins (fun _ _ => trivial)
    (fun b _ => told_escapeByte b) (utf8 t) rest rest' (fun _ _ => trivial) trivial trivial same
  exact ⟨strKey_injective (by simp only [strKey, bytes]), rfl⟩

/-! ## The text of a value -/

/-- What may follow a value: anything that does not go on with a number. -/
def EndsNumber (rest : List UInt8) : Prop :=
  ∀ b tail, rest = b :: tail → isNumberByte b = false

theorem endsNumber_of_follows {close : UInt8} (apart : isNumberByte close = false)
    {rest : List UInt8} (follows : Follows 44 close rest) : EndsNumber rest := by
  intro b tail split
  rcases follows with ⟨_, rfl⟩ | ⟨_, rfl⟩
  · rw [← (List.cons.inj split).1]
    decide
  · rw [← (List.cons.inj split).1]
    exact apart

/-- The first byte of a text tells what kind of value it is. -/
inductive Kind
  | null
  | bool
  | number
  | string
  | array
  | object
deriving DecidableEq

def Value.kind : Value → Kind
  | .null => .null
  | .bool _ => .bool
  | .number _ => .number
  | .string _ => .string
  | .array _ => .array
  | .object _ => .object

def kindOf (b : UInt8) : Kind :=
  if b = 110 then .null
  else if b = 116 ∨ b = 102 then .bool
  else if b = 34 then .string
  else if b = 91 then .array
  else if b = 123 then .object
  else .number

theorem kindOf_number {b : UInt8} (number : isNumberByte b = true) : kindOf b = .number := by
  have other : ∀ c, isNumberByte c = false → b ≠ c := by
    rintro c letter rfl
    rw [number] at letter
    cases letter
  unfold kindOf
  rw [if_neg (other 110 (by decide)), if_neg (by simp [other 116 (by decide),
      other 102 (by decide)]),
    if_neg (other 34 (by decide)), if_neg (other 91 (by decide)), if_neg (other 123 (by decide))]

theorem toVec_begins (good : v.PlainNumbers) :
    ∃ first tail, v.toVec = first :: tail ∧ kindOf first = v.kind := by
  cases good with
  | null => exact ⟨110, _, rfl, rfl⟩
  | bool b =>
    cases b with
    | true => exact ⟨116, _, rfl, rfl⟩
    | false => exact ⟨102, _, rfl, rfl⟩
  | number good =>
    obtain ⟨first, tail, split⟩ := List.exists_cons_of_ne_nil (number_ne_nil good)
    refine ⟨first, tail, split, kindOf_number ?_⟩
    exact number_bytes good first (by simp [split])
  | string s => exact ⟨34, _, rfl, rfl⟩
  | array each => exact ⟨91, _, rfl, rfl⟩
  | object each => exact ⟨123, _, rfl, rfl⟩

variable {w : Value}

/-- Two texts that go on the same way begin the same way. -/
theorem kind_eq {rest rest' : List UInt8} (goodV : v.PlainNumbers) (goodW : w.PlainNumbers)
    (same : v.toVec ++ rest = w.toVec ++ rest') : v.kind = w.kind := by
  obtain ⟨first, tail, split, kind⟩ := toVec_begins goodV
  obtain ⟨first', tail', split', kind'⟩ := toVec_begins goodW
  rw [split, split'] at same
  rw [← kind, ← kind', (List.cons.inj same).1]

/-- No item begins with the bracket that closes an array. -/
theorem toVec_begins_item (good : v.PlainNumbers) :
    ∃ first tail, v.toVec = first :: tail ∧ first ≠ (93 : UInt8) := by
  obtain ⟨first, tail, split, kind⟩ := toVec_begins good
  refine ⟨first, tail, split, ?_⟩
  rintro rfl
  cases good with
  | @number n good =>
    have digit := number_bytes good 93 (by
      rw [show n.text = 93 :: tail from split]
      exact List.mem_cons_self)
    exact absurd digit (by decide)
  | _ => cases kind

theorem told_number (good : n.wellFormed = true) :
    Told (fun n : Number => n.text) (fun n => n.wellFormed = true) EndsNumber n :=
  told_run (fun _ => number_bytes) (fun _ => number_text_injective good) good

/-- The text of a value tells the value. -/
theorem told_toVec (good : v.PlainNumbers) : Told Value.toVec Value.PlainNumbers EndsNumber v := by
  intro w rest rest' goodW stops stops' same
  have kinds := kind_eq good goodW same
  induction good generalizing w rest rest' with
  | null =>
    cases w with
    | null => exact ⟨rfl, List.append_cancel_left same⟩
    | _ => cases kinds
  | bool b =>
    cases w with
    | bool c =>
      cases b <;> cases c
      · exact ⟨rfl, List.append_cancel_left same⟩
      · exact absurd (List.cons.inj same).1 (by decide)
      · exact absurd (List.cons.inj same).1 (by decide)
      · exact ⟨rfl, List.append_cancel_left same⟩
    | _ => cases kinds
  | number good =>
    cases goodW with
    | @number m goodM =>
      obtain ⟨rfl, rfl⟩ := told_number good m rest rest' goodM stops stops' same
      exact ⟨rfl, rfl⟩
    | _ => cases kinds
  | string s =>
    cases w with
    | string t =>
      obtain ⟨rfl, rfl⟩ := told_quote s t rest rest' trivial stops stops' same
      exact ⟨rfl, rfl⟩
    | _ => cases kinds
  | @array items good ih =>
    cases goodW with
    | @array others goodW =>
      simp only [Value.toVec, bracketed, toVecs_eq_map, List.cons_append, List.cons.injEq,
        true_and] at same
      have told : ∀ v ∈ items, Told Value.toVec Value.PlainNumbers (Follows 44 93) v := by
        intro v held w rest rest' goodW stops stops' same
        exact ih v held w rest rest' goodW (endsNumber_of_follows (by decide) stops)
          (endsNumber_of_follows (by decide) stops') same (kind_eq (good v held) goodW same)
      obtain ⟨rfl, rfl⟩ := told_bracketed (by decide) (fun _ => toVec_begins_item) good told
        others rest rest' goodW trivial trivial same
      exact ⟨rfl, rfl⟩
    | _ => cases kinds
  | @object fields good ih =>
    cases goodW with
    | @object others goodW =>
      have texts : ∀ fields : List (String × Value), (fieldVecs fields).map fieldText =
          fields.map fun field => quote field.1 ++ 58 :: field.2.toVec := by
        intro fields
        rw [fieldVecs_eq_map, List.map_map]
        rfl
      simp only [Value.toVec, bracketed, texts, List.cons_append, List.cons.injEq, true_and] at same
      have told : ∀ field ∈ fields, Told
          (fun field : String × Value => quote field.1 ++ 58 :: field.2.toVec)
          (fun field => True ∧ field.2.PlainNumbers) (Follows 44 125) field := by
        rintro ⟨key, v⟩ held
        apply Told.pair (told_quote key)
        intro w rest rest' goodW stops stops' same
        exact ih _ held w rest rest' goodW (endsNumber_of_follows (by decide) stops)
          (endsNumber_of_follows (by decide) stops') same (kind_eq (good _ held) goodW same)
      obtain ⟨rfl, rfl⟩ := told_bracketed (by decide)
        (fun field _ => ⟨34, _, rfl, by decide⟩) (fun field held => ⟨trivial, good field held⟩)
        told others rest rest' (fun field held => ⟨trivial, goodW field held⟩) trivial trivial
        same
      exact ⟨rfl, rfl⟩
    | _ => cases kinds

/-- Values with the same text are the same, in the order of their fields too. -/
theorem eq_of_toVec_eq (goodV : v.PlainNumbers) (goodW : w.PlainNumbers)
    (same : v.toVec = w.toVec) : v = w :=
  (told_toVec goodV).eq (by rintro b tail ⟨⟩) goodW same

/-- Values the library builds have the same text only if they are the same. -/
theorem toVec_injective (goodV : v.wellFormed = true) (goodW : w.wellFormed = true)
    (same : v.toVec = w.toVec) : v = w :=
  eq_of_toVec_eq (plainNumbers_of_wellFormed goodV) (plainNumbers_of_wellFormed goodW) same

end MetaMesh
