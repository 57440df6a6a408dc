import Mathlib.Algebra.Ring.Nat
import Mathlib.Data.List.Lex
import MetaMesh.Lib.Fallible
import MetaMesh.Lib.Sorted

/-!
# JSON values of the core crate

The records of the core are signed, hashed, bounded and exchanged as JSON.
`Value` is `serde_json::Value`, `Serialize.toValue` is `serde_json::to_value`
and `Deserialize.fromValue` is `serde_json::from_value`.  Text is kept as its
UTF-8 bytes: `Value.toVec` is `serde_json::to_vec` and
`canonicalizeWithNumbers` is the crate's own canonical form, with object keys
in order.

A struct is read from an object, whose unknown fields are ignored, or from an
array of its fields in order; both are what a derived deserializer accepts.
-/

namespace MetaMesh

open Fallible

/-- A JSON number.  `posInt` is the `u64` case, `negInt n` the negative integer
`-n`, and a finite double is named by its shortest decimal text. -/
inductive Number
  | posInt (n : Nat)
  | negInt (n : Nat)
  | float (text : String)
deriving DecidableEq, Repr

/-- A `serde_json` value. -/
inductive Value
  | null
  | bool (b : Bool)
  | number (n : Number)
  | string (s : String)
  | array (items : List Value)
  | object (fields : List (String × Value))
deriving Repr

namespace Value

/-- `Value::get` with a field name. -/
def get? (key : String) : Value → Option Value
  | object fields => fields.lookup key
  | _ => none

/-- `Value::pointer`.  The tokens the crate uses are field names, which index
no array. -/
def pointer? : List String → Value → Option Value
  | [], v => some v
  | token :: tokens, v => (v.get? token).bind (pointer? tokens)

def asStr? : Value → Option String
  | string s => some s
  | _ => none

def asU64? : Value → Option Nat
  | number (.posInt n) => some n
  | _ => none

def asObject? : Value → Option (List (String × Value))
  | object fields => some fields
  | _ => none

/-- The field `name` of a struct with the fields `names`. -/
def structField (names : List String) (name : String) : Value → Option Value
  | object fields => fields.lookup name
  | array items =>
    if items.length ≤ names.length then items[names.idxOf name]? else none
  | _ => none

/-- `deny_unknown_fields`: an object has no field besides those in `names`. -/
def knownFields (names : List String) : Value → Bool
  | object fields => fields.all fun field => field.1 ∈ names
  | _ => true

end Value

/-! ## Text -/

def utf8 (s : String) : List UInt8 :=
  s.toByteArray.data.toList

/-- Strings compare as their bytes: `a < b` for `str` is `strKey a < strKey b`. -/
def strKey (s : String) : List Nat :=
  (utf8 s).map UInt8.toNat

theorem strKey_injective : Function.Injective strKey := by
  intro a b same
  have bytes : utf8 a = utf8 b :=
    List.map_injective_iff.mpr (fun _ _ => UInt8.toNat_inj.mp) same
  simp only [utf8, Array.toList_inj] at bytes
  exact String.toByteArray_inj.mp (ByteArray.ext bytes)

def hexDigit (n : UInt8) : UInt8 :=
  if n < 10 then 48 + n else 87 + n

/-- The escapes of `serde_json`'s string writer. -/
def escapeByte (b : UInt8) : List UInt8 :=
  if b = 34 then [92, 34]
  else if b = 92 then [92, 92]
  else if b = 8 then [92, 98]
  else if b = 9 then [92, 116]
  else if b = 10 then [92, 110]
  else if b = 12 then [92, 102]
  else if b = 13 then [92, 114]
  else if b < 32 then [92, 117, 48, 48, hexDigit (b / 16), hexDigit (b % 16)]
  else [b]

def quote (s : String) : List UInt8 :=
  34 :: (utf8 s).flatMap escapeByte ++ [34]

def decimal (n : Nat) : List UInt8 :=
  (Nat.toDigits 10 n).map fun c => UInt8.ofNat c.toNat

theorem isDigit_of_mem {n : Nat} {c : Char} (member : c ∈ Nat.toDigits 10 n) : c.isDigit = true :=
  Nat.isDigit_of_mem_toDigits (by decide) (by decide) member

theorem toDigits_injective : Function.Injective (Nat.toDigits 10) := by
  intro m n same
  rw [← @Nat.ofDigitChars_toDigits 10 m (by decide) (by decide), same,
    Nat.ofDigitChars_toDigits (by decide) (by decide)]

def Number.text : Number → List UInt8
  | posInt n => decimal n
  | negInt n => 45 :: decimal n
  | float text => utf8 text

/-- Items between brackets, with commas. -/
def bracketed (openByte closeByte : UInt8) (items : List (List UInt8)) : List UInt8 :=
  openByte :: [44].intercalate items ++ [closeByte]

def fieldText (field : String × List UInt8) : List UInt8 :=
  quote field.1 ++ 58 :: field.2

mutual

/-- `serde_json::to_vec`: compact text, fields in order of declaration. -/
def Value.toVec : Value → List UInt8
  | .null => utf8 "null"
  | .bool b => utf8 (if b then "true" else "false")
  | .number n => n.text
  | .string s => quote s
  | .array items => bracketed 91 93 (toVecs items)
  | .object fields => bracketed 123 125 ((fieldVecs fields).map fieldText)

def toVecs : List Value → List (List UInt8)
  | [] => []
  | v :: vs => v.toVec :: toVecs vs

def fieldVecs : List (String × Value) → List (String × List UInt8)
  | [] => []
  | (key, v) :: fields => (key, v.toVec) :: fieldVecs fields

end

theorem toVecs_eq_map (items : List Value) : toVecs items = items.map Value.toVec := by
  induction items with
  | nil => rfl
  | cons v items ih => rw [toVecs, ih, List.map_cons]

theorem length_intercalate_comma (items : List (List UInt8)) :
    ([44].intercalate items).length = (items.map List.length).sum + (items.length - 1) := by
  induction items with
  | nil => rfl
  | cons first rest ih =>
    cases rest with
    | nil => simp [List.intercalate]
    | cons second rest =>
      have split : [44].intercalate (first :: second :: rest) =
          first ++ 44 :: [44].intercalate (second :: rest) := by
        simp [List.intercalate, List.intersperse]
      rw [split, List.length_append, List.length_cons, ih]
      simp only [List.map_cons, List.sum_cons, List.length_cons]
      omega

theorem length_toVec_object (fields : List (String × Value)) :
    (Value.object fields).toVec.length =
      (fields.map fun field => (quote field.1).length + 1 + field.2.toVec.length).sum +
        (fields.length - 1) + 2 := by
  have texts : ((fieldVecs fields).map fieldText).map List.length =
      fields.map fun field => (quote field.1).length + 1 + field.2.toVec.length := by
    induction fields with
    | nil => rfl
    | cons field fields ih =>
      simp only [fieldVecs, List.map_cons, ih, fieldText, List.length_append, List.length_cons]
      congr 1
      omega
  have count : ((fieldVecs fields).map fieldText).length = fields.length := by
    simpa using congrArg List.length texts
  rw [Value.toVec, bracketed, List.cons_append, List.length_cons, List.length_append,
    length_intercalate_comma, texts, count]
  rfl

/-- The length of an array's text depends on the lengths of its items' texts,
in whatever order. -/
theorem length_toVec_array {left right : List Value}
    (same : (left.map fun v => v.toVec.length).Perm (right.map fun v => v.toVec.length)) :
    (Value.array left).toVec.length = (Value.array right).toVec.length := by
  have count : left.length = right.length := by simpa using same.length_eq
  have sums := same.sum_nat
  simp only [Value.toVec, bracketed, toVecs_eq_map, List.length_cons, List.length_append,
    length_intercalate_comma, List.map_map, List.length_map, Function.comp_def, sums, count]

/-- Fewer items make no longer a text. -/
theorem length_toVec_array_le {left right : List Value} (fewer : left.Subperm right) :
    (Value.array left).toVec.length ≤ (Value.array right).toVec.length := by
  obtain ⟨part, same, sub⟩ := fewer
  rw [length_toVec_array (same.symm.map fun v => v.toVec.length)]
  have count := sub.length_le
  have sums : (part.map fun v => v.toVec.length).sum ≤ (right.map fun v => v.toVec.length).sum := by
    clear same count
    induction sub with
    | slnil => exact le_rfl
    | cons _ _ ih => exact le_trans ih (by simp)
    | cons_cons _ _ ih => simpa using ih
  simp only [Value.toVec, bracketed, toVecs_eq_map, List.length_cons, List.length_append,
    length_intercalate_comma, List.map_map, List.length_map, Function.comp_def]
  omega

/-- The largest integer JavaScript represents exactly. -/
def maxSafeInteger : Nat := 9007199254740991

/-- A number in signature bytes: integers outside the safe range are refused,
doubles get ECMAScript's format, given by `formatFinite`. -/
def signatureNumber (formatFinite : String → String) : Number → Except String (List UInt8)
  | .float text => .ok (utf8 (formatFinite text))
  | .posInt n => do
      refuse (maxSafeInteger < n) "Signed integer exceeds JavaScript safe range"
      .ok (decimal n)
  | .negInt n => do
      refuse (maxSafeInteger < n) "Signed integer exceeds JavaScript safe range"
      .ok (45 :: decimal n)

section Canonical

variable (formatFinite : String → String) (signatureNumbers : Bool)

mutual

def canonicalizeWithNumbers : Value → Except String (List UInt8)
  | .number n => if signatureNumbers then signatureNumber formatFinite n else .ok n.text
  | .null => .ok (utf8 "null")
  | .bool b => .ok (utf8 (if b then "true" else "false"))
  | .string s => .ok (quote s)
  | .array items => do .ok (bracketed 91 93 (← canonicalizeItems items))
  | .object fields => do
      let texts ← canonicalizeFields fields
      .ok (bracketed 123 125 ((sortBy (fun field => strKey field.1) texts).map fieldText))

def canonicalizeItems : List Value → Except String (List (List UInt8))
  | [] => .ok []
  | v :: vs => do .ok ((← canonicalizeWithNumbers v) :: (← canonicalizeItems vs))

def canonicalizeFields : List (String × Value) → Except String (List (String × List UInt8))
  | [] => .ok []
  | (key, v) :: fields => do
      .ok ((key, ← canonicalizeWithNumbers v) :: (← canonicalizeFields fields))

end

end Canonical

/-! ## Serialization of typed records -/

/-- What can be written as JSON. -/
class Serialize (T : Type) where
  toValue : T → Value

/-- What can be read from JSON. -/
class Deserialize (T : Type) where
  fromValue : Value → Option T

export Serialize (toValue)
export Deserialize (fromValue)

instance : Serialize String := ⟨.string⟩
instance : Serialize Nat := ⟨fun n => .number (.posInt n)⟩
instance : Serialize Bool := ⟨.bool⟩
instance {T : Type} [Serialize T] : Serialize (Option T) := ⟨fun o => o.elim .null toValue⟩
instance {T : Type} [Serialize T] : Serialize (List T) := ⟨fun items => .array (items.map toValue)⟩

@[simp] theorem toValue_none {T : Type} [Serialize T] : toValue (none : Option T) = .null := rfl

@[simp] theorem toValue_some {T : Type} [Serialize T] (t : T) : toValue (some t) = toValue t := rfl

/-- A field left out of the text when its value is `None`. -/
def optionalField {T : Type} [Serialize T] (name : String) (o : Option T) : List (String × Value) :=
  o.elim [] fun v => [(name, toValue v)]

def fromArray {T : Type} [Deserialize T] : Value → Option (List T)
  | .array items => items.mapM fromValue
  | _ => none

instance : Deserialize String := ⟨Value.asStr?⟩
instance : Deserialize Nat := ⟨Value.asU64?⟩
instance : Deserialize Bool := ⟨fun | .bool b => some b | _ => none⟩
instance {T : Type} [Deserialize T] : Deserialize (List T) := ⟨fromArray⟩

/-- A field of type `Option`: absent and `null` both read as `None`. -/
def fromOptional {T : Type} [Deserialize T] : Option Value → Option (Option T)
  | none => some none
  | some .null => some none
  | some v => (fromValue v).map some

/-- A required field. -/
def fromField {T : Type} [Deserialize T] (v : Option Value) : Option T :=
  v.bind fromValue

/-- The typed records read back what they write. -/
class RoundTrip (T : Type) [Serialize T] [Deserialize T] : Prop where
  fromValue_toValue : ∀ t : T, fromValue (toValue t) = some t

export RoundTrip (fromValue_toValue)
attribute [simp] fromValue_toValue

theorem toValue_injective {T : Type} [Serialize T] [Deserialize T] [RoundTrip T] :
    Function.Injective (toValue : T → Value) := by
  intro a b same
  have read := congrArg (fromValue (T := T)) same
  simpa using read

instance : RoundTrip String := ⟨fun _ => rfl⟩
instance : RoundTrip Nat := ⟨fun _ => rfl⟩
instance : RoundTrip Bool := ⟨fun _ => rfl⟩

/-- A required field that was written is read back. -/
@[simp] theorem fromField_toValue {T : Type} [Serialize T] [Deserialize T] [RoundTrip T] (t : T) :
    fromField (some (toValue t)) = some t := by
  simp [fromField]

instance {T : Type} [Serialize T] [Deserialize T] [RoundTrip T] : RoundTrip (List T) where
  fromValue_toValue items := by
    show (items.map toValue).mapM (fromValue (T := T)) = some items
    induction items with
    | nil => rfl
    | cons t items ih => simp [ih]

end MetaMesh
