import MetaMesh.Browser.Certificates
import MetaMesh.Browser.Text
import MetaMesh.CanonicalText

/-!
# The bytes both languages sign

`canonicalizeJsonWithOrder`, `signatureInput` and `verifyEnvelope` of
`packages/mesh-identity/src/index.ts`, for any payload.  A string is its characters, and the
text it becomes is kept as its UTF-8 bytes, as `TextEncoder` gives them.  `Object.keys` lists
the fields in their order in the value.

The comparison of keys reads code points off UTF-16 code units; the core compares UTF-8
bytes.  Both order strings by their characters, so both languages write the same text
(`exists_ordered`), and a text with its domain and kind can be read back
(`signatureInput_inj`).
-/

namespace MetaMesh.Browser.Signing

open Fallible Framing

/-! ## Canonical text -/

/-- `codePointAt` at the first of the code units. -/
def codePointAt : List Nat → Nat
  | high :: low :: _ =>
    if 0xd800 ≤ high ∧ high ≤ 0xdbff ∧ 0xdc00 ≤ low ∧ low ≤ 0xdfff then
      (high - 0xd800) * 0x400 + (low - 0xdc00) + 0x10000
    else high
  | unit :: [] => unit
  | [] => 0

/-- The loop of `compareCanonicalKeys` on the code units that are left.  Each round takes one
or two of the left ones, so the fuel is for all of them. -/
def compareFrom : Nat → List Nat → List Nat → Int
  | fuel + 1, left@(_ :: _), right@(_ :: _) =>
    let leftPoint := codePointAt left
    let rightPoint := codePointAt right
    if leftPoint ≠ rightPoint then leftPoint - rightPoint
    else compareFrom fuel (left.drop (if leftPoint > 0xffff then 2 else 1))
      (right.drop (if rightPoint > 0xffff then 2 else 1))
  | _, left, right => (if left = [] then 0 else 1) - (if right = [] then 0 else 1)

def compareCanonicalKeys (left right : String) : Int :=
  compareFrom (unitKey left).length (unitKey left) (unitKey right)

/-- What `JSON.stringify` writes for a character. -/
def escapeChar (c : Char) : List Char :=
  if c = '"' then ['\\', '"']
  else if c = '\\' then ['\\', '\\']
  else if c.toNat = 8 then ['\\', 'b']
  else if c.toNat = 9 then ['\\', 't']
  else if c.toNat = 10 then ['\\', 'n']
  else if c.toNat = 12 then ['\\', 'f']
  else if c.toNat = 13 then ['\\', 'r']
  else if c.toNat < 32 then
    ['\\', 'u', '0', '0', Nat.digitChar (c.toNat / 16), Nat.digitChar (c.toNat % 16)]
  else [c]

def stringify (s : String) : List UInt8 :=
  utf8 (String.ofList ('"' :: s.toList.flatMap escapeChar ++ ['"']))

section Order

variable (formatFinite : String → String) (compareKeys : Option (String → String → Int))

/-- `sort(compareKeys)`: by code units if there is no comparison. -/
def sortKeys {α : Type} (fields : List (String × α)) : List (String × α) :=
  match compareKeys with
  | some compare => fields.insertionSort fun a b => compare a.1 b.1 ≤ 0
  | none => sortBy (fun field => unitKey field.1) fields

mutual

def canonicalizeJsonWithOrder : Value → List UInt8
  | .null => utf8 "null"
  | .bool b => utf8 (if b then "true" else "false")
  | .number (.posInt n) => utf8 (toString n)
  | .number (.negInt n) => utf8 ("-" ++ toString n)
  | .number (.float text) => utf8 (formatFinite text)
  | .string s => stringify s
  | .array items => bracketed 91 93 (canonicalizeEach items)
  | .object fields => bracketed 123 125 ((sortKeys compareKeys (canonicalizeProperties fields)).map
      fun field => stringify field.1 ++ 58 :: field.2)

def canonicalizeEach : List Value → List (List UInt8)
  | [] => []
  | v :: vs => canonicalizeJsonWithOrder v :: canonicalizeEach vs

def canonicalizeProperties : List (String × Value) → List (String × List UInt8)
  | [] => []
  | (key, v) :: fields => (key, canonicalizeJsonWithOrder v) :: canonicalizeProperties fields

end

end Order

def canonicalizeSignatureJson (formatFinite : String → String) (value : Value) : List UInt8 :=
  canonicalizeJsonWithOrder formatFinite (some compareCanonicalKeys) value

def signatureInput (payloadKind : String) (canonicalPayload : List UInt8) (domain : String) :
    List UInt8 :=
  utf8 (domain ++ "/" ++ payloadKind ++ "\x00") ++ canonicalPayload

instance : Serialize Value := ⟨id⟩

def verifyEnvelope (P : Primitives) (envelope : SignedEnvelope Value)
    (publicKey domain : String) : Except String Bool := do
  let key ← decodePublicKey P publicKey
  let canonical := canonicalizeSignatureJson P.formatFinite envelope.payload
  let signature ← okOr (P.base64Decode envelope.signature) "Invalid signature"
  let kind := payloadKind envelope.payload
  let legacyCanonical := canonicalizeJsonWithOrder P.formatFinite none envelope.payload
  .ok (P.ed25519Verify key (signatureInput kind canonical domain) signature ||
    (legacyCanonical ≠ canonical &&
      P.ed25519Verify key (signatureInput kind legacyCanonical domain) signature))

/-- Null, booleans, strings, safe integers, arrays, and objects with distinct keys. -/
inductive Signable : Value → Prop
  | null : Signable .null
  | bool (b : Bool) : Signable (.bool b)
  | posInt {n : Nat} (safe : n ≤ maxSafeInteger) : Signable (.number (.posInt n))
  | negInt {n : Nat} (negative : 0 < n) (safe : n ≤ maxSafeInteger) : Signable (.number (.negInt n))
  | string (s : String) : Signable (.string s)
  | array {items : List Value} (each : ∀ v ∈ items, Signable v) : Signable (.array items)
  | object {fields : List (String × Value)} (distinct : (fields.map Prod.fst).Nodup)
      (each : ∀ field ∈ fields, Signable field.2) : Signable (.object fields)

/-! ## The order of keys -/

theorem utf8_eq (s : String) : utf8 s = s.toList.flatMap String.utf8EncodeChar := by
  rw [utf8, ← String.utf8Encode_toList, List.utf8Encode, List.data_toByteArray]

def byteKey (c : Char) : List Nat :=
  (String.utf8EncodeChar c).map UInt8.toNat

theorem strKey_eq (s : String) : strKey s = s.toList.flatMap byteKey := by
  rw [strKey, utf8_eq, List.map_flatMap]
  rfl

variable {c : Char} {v w : Value} {kind kind' : String}

/-- The bytes of two characters differ before either ends, and as the characters do. -/
theorem byteKey_lt {d : Char} (below : c.toNat < d.toNat) (rest rest' : List Nat) :
    byteKey c ++ rest < byteKey d ++ rest' := by
  have valid : d.toNat < 0xd800 ∨ 0xdfff < d.toNat ∧ d.toNat < 0x110000 := d.valid
  simp only [byteKey, String.utf8EncodeChar, show c.val.toNat = c.toNat from rfl,
    show d.val.toNat = d.toNat from rfl]
  split_ifs <;>
    simp (disch := omega) only [List.map_cons, List.map_nil, List.cons_append, List.nil_append,
      List.cons_lt_cons_iff, UInt8.toNat_ofNat', Nat.mod_eq_of_lt] <;>
    omega

theorem codePointAt_codeUnits (c : Char) (rest : List Nat) :
    codePointAt (codeUnits c ++ rest) = c.toNat ∧
      (codeUnits c ++ rest).drop (if c.toNat > 0xffff then 2 else 1) = rest := by
  have valid : c.toNat < 0xd800 ∨ 0xdfff < c.toNat ∧ c.toNat < 0x110000 := c.valid
  unfold codeUnits
  split_ifs with plane
  · omega
  · cases rest with
    | nil => exact ⟨rfl, rfl⟩
    | cons unit rest => exact ⟨if_neg (by omega), rfl⟩
  · exact ⟨(if_pos (by omega)).trans (by omega), rfl⟩
  · omega

theorem codeUnits_begins (c : Char) : ∃ first tail, codeUnits c = first :: tail := by
  unfold codeUnits
  split
  · exact ⟨_, _, rfl⟩
  · exact ⟨_, _, rfl⟩

theorem compareFrom_cons (fuel : Nat) (c d : Char) (rest rest' : List Nat) :
    compareFrom (fuel + 1) (codeUnits c ++ rest) (codeUnits d ++ rest') =
      if c.toNat ≠ d.toNat then (c.toNat : Int) - d.toNat else compareFrom fuel rest rest' := by
  have left := codePointAt_codeUnits c rest
  have right := codePointAt_codeUnits d rest'
  obtain ⟨first, tail, isLeft⟩ := codeUnits_begins c
  obtain ⟨first', tail', isRight⟩ := codeUnits_begins d
  rw [isLeft, List.cons_append] at left ⊢
  rw [isRight, List.cons_append] at right ⊢
  rw [compareFrom, left.1, right.1, left.2, right.2]

theorem append_lt_append_left_iff (front left right : List Nat) :
    front ++ left < front ++ right ↔ left < right := by
  induction front with
  | nil => rfl
  | cons n front ih => simp [ih]

/-- The comparison orders strings as their bytes do. -/
theorem compareFrom_le {left right : List Char} {fuel : Nat}
    (enough : (left.flatMap codeUnits).length ≤ fuel) :
    compareFrom fuel (left.flatMap codeUnits) (right.flatMap codeUnits) ≤ 0 ↔
      left.flatMap byteKey ≤ right.flatMap byteKey := by
  induction left generalizing right fuel with
  | nil =>
    refine iff_of_true ?_ (not_lt.mp (List.not_lt_nil _))
    unfold compareFrom
    cases right.flatMap codeUnits <;> cases fuel <;> simp
  | cons c left ih =>
    obtain ⟨first, tail, isFirst⟩ := codeUnits_begins c
    rw [List.flatMap_cons, isFirst, List.length_append, List.length_cons] at enough
    obtain ⟨fuel, rfl⟩ := Nat.exists_eq_succ_of_ne_zero (show fuel ≠ 0 by omega)
    cases right with
    | nil =>
      rw [List.flatMap_cons, List.flatMap_cons, isFirst]
      refine iff_of_false (by simp [compareFrom]) (not_le.mpr ?_)
      obtain ⟨b, bytes, isByte⟩ := List.exists_cons_of_ne_nil
        (String.utf8EncodeChar_ne_nil (c := c))
      rw [byteKey, isByte]
      exact List.nil_lt_cons _ _
    | cons d right =>
      rw [List.flatMap_cons, List.flatMap_cons, List.flatMap_cons, List.flatMap_cons,
        compareFrom_cons]
      rcases lt_trichotomy c.toNat d.toNat with below | same | above
      · rw [if_pos (by omega)]
        exact iff_of_true (by omega) (le_of_lt (byteKey_lt below _ _))
      · obtain rfl := Char.toNat_inj.mp same
        rw [if_neg (by simp), ih (by omega), ← not_lt, ← not_lt]
        exact not_congr (append_lt_append_left_iff _ _ _).symm
      · rw [if_pos (by omega)]
        exact iff_of_false (by omega) (not_le.mpr (byteKey_lt above _ _))

theorem compareCanonicalKeys_le {left right : String} :
    compareCanonicalKeys left right ≤ 0 ↔ strKey left ≤ strKey right := by
  rw [strKey_eq, strKey_eq]
  exact compareFrom_le le_rfl

/-! ## The text of a value -/

/-- No byte of a character outside ASCII is escaped. -/
theorem escapeByte_of_mem (other : 127 < c.toNat) {b : UInt8} (held : b ∈ String.utf8EncodeChar c) :
    escapeByte b = [b] := by
  have high : 128 ≤ b.toNat := by
    rw [String.utf8EncodeChar, show c.val.toNat = c.toNat from rfl, if_neg (by omega)] at held
    split_ifs at held <;> simp only [List.mem_cons, List.not_mem_nil, or_false] at held <;>
      rcases held with rfl | rfl | rfl | rfl <;> rw [UInt8.toNat_ofNat'] <;> omega
  have apart : ∀ n : UInt8, n.toNat < 128 → b ≠ n := by
    rintro n low rfl
    omega
  have printed : ¬ b < 32 := by
    rw [UInt8.lt_iff_toNat_lt, show (32 : UInt8).toNat = 32 from rfl]
    omega
  simp [escapeByte, apart, printed]

/-- Escapes are the same, character by character and byte by byte. -/
theorem escapeChar_bytes (c : Char) : (escapeChar c).flatMap String.utf8EncodeChar =
    (String.utf8EncodeChar c).flatMap escapeByte := by
  by_cases ascii : c.toNat ≤ 127
  · have all : ∀ n : Fin 128, (escapeChar (Char.ofNat n)).flatMap String.utf8EncodeChar =
        (String.utf8EncodeChar (Char.ofNat n)).flatMap escapeByte := by
      decide
    have here := all ⟨c.toNat, by omega⟩
    rwa [Char.ofNat_toNat] at here
  · have apart : ∀ d : Char, d.toNat ≤ 127 → c ≠ d := by
      rintro d low rfl
      omega
    have plain : escapeChar c = [c] := by
      unfold escapeChar
      rw [if_neg (apart _ (by decide)), if_neg (apart _ (by decide)), if_neg (by omega),
        if_neg (by omega), if_neg (by omega), if_neg (by omega), if_neg (by omega),
        if_neg (by omega)]
    rw [plain, List.flatMap_singleton]
    have escaped := List.flatMap_congr fun b held => escapeByte_of_mem (not_le.mp ascii) held
    refine (escaped.trans ?_).symm
    exact List.flatMap_singleton' _

theorem stringify_eq_quote (s : String) : stringify s = quote s := by
  rw [stringify, utf8_eq, String.toList_ofList, quote, utf8_eq, List.flatMap_append,
    List.flatMap_cons, List.flatMap_assoc, List.flatMap_assoc, List.flatMap_congr
      fun c _ => escapeChar_bytes c]
  rfl

theorem utf8_toString (n : Nat) : utf8 (toString n) = decimal n := by
  have digits : (toString n).toList = Nat.toDigits 10 n := by simp [toString, Nat.repr]
  rw [utf8_eq, digits, decimal, ← List.flatMap_pure_eq_map]
  refine List.flatMap_congr fun c member => if_pos ?_
  exact (Char.isDigit_iff_toNat.mp (isDigit_of_mem member)).2.trans (by decide)

section Order

variable {formatFinite : String → String} {compareKeys : Option (String → String → Int)} {α : Type}
  {v : Value}

theorem canonicalizeEach_eq_map (items : List Value) :
    canonicalizeEach formatFinite compareKeys items =
      items.map (canonicalizeJsonWithOrder formatFinite compareKeys) := by
  induction items with
  | nil => rfl
  | cons v items ih => rw [canonicalizeEach, ih, List.map_cons]

theorem canonicalizeProperties_eq_map (fields : List (String × Value)) :
    canonicalizeProperties formatFinite compareKeys fields = fields.map fun field =>
      (field.1, canonicalizeJsonWithOrder formatFinite compareKeys field.2) := by
  induction fields with
  | nil => rfl
  | cons field fields ih => rw [canonicalizeProperties, ih, List.map_cons]

theorem sortKeys_map {β : Type} (f : String × α → β) (fields : List (String × α)) :
    sortKeys compareKeys (fields.map fun field => (field.1, f field)) =
      (sortKeys compareKeys fields).map fun field => (field.1, f field) := by
  cases compareKeys with
  | none => exact sortBy_map _ _ fields
  | some compare =>
    exact (List.map_insertionSort (fun a b : String × α => compare a.1 b.1 ≤ 0)
      (fun a b : String × β => compare a.1 b.1 ≤ 0) _ fields fun _ _ _ _ => Iff.rfl).symm

theorem sortKeys_perm (fields : List (String × α)) : (sortKeys compareKeys fields).Perm fields := by
  cases compareKeys with
  | none => exact sortBy_perm _ fields
  | some compare => exact List.perm_insertionSort _ fields

theorem sortKeys_compareCanonicalKeys (fields : List (String × α)) :
    sortKeys (some compareCanonicalKeys) fields = sortBy (fun field => strKey field.1) fields := by
  have same := List.map_insertionSort _ (fun a b : String × α => strKey a.1 ≤ strKey b.1) id
    fields fun a _ b _ => @compareCanonicalKeys_le a.1 b.1
  rwa [List.map_id, List.map_id] at same

/-- A text of a value, with its fields in some order. -/
def Spells (text : List UInt8) (v : Value) : Prop :=
  ∃ w : Value, text = w.toVec ∧ w.PlainNumbers ∧ w.sorted = v.sorted

/-- The text is that of the value with its fields in some order, and with the comparison of
keys in the order of the core. -/
theorem exists_ordered (signable : Signable v) :
    ∃ w : Value, canonicalizeJsonWithOrder formatFinite compareKeys v = w.toVec ∧
      w.PlainNumbers ∧ w.sorted = v.sorted ∧
      (compareKeys = some compareCanonicalKeys → w = v.sorted) := by
  have : Nonempty Value := ⟨.null⟩
  induction signable with
  | null => exact ⟨.null, rfl, .null, rfl, fun _ => rfl⟩
  | bool b => exact ⟨.bool b, rfl, .bool b, rfl, fun _ => rfl⟩
  | @posInt n safe =>
    exact ⟨.number (.posInt n), utf8_toString n, .number rfl, rfl, fun _ => rfl⟩
  | @negInt n negative safe =>
    refine ⟨.number (.negInt n), ?_, .number rfl, rfl, fun _ => rfl⟩
    rw [canonicalizeJsonWithOrder, utf8_eq, String.toList_append, List.flatMap_append, ← utf8_eq,
      ← utf8_eq, utf8_toString]
    rfl
  | string s => exact ⟨.string s, stringify_eq_quote s, .string s, rfl, fun _ => rfl⟩
  | @array items each ih =>
    choose! f text plain sorted exact' using ih
    refine ⟨.array (items.map f), ?_, .array ?_, ?_, fun order => ?_⟩
    · rw [canonicalizeJsonWithOrder, canonicalizeEach_eq_map, Value.toVec, toVecs_eq_map,
        List.map_map, List.map_congr_left text]
      rfl
    · exact List.forall_mem_map.mpr plain
    · rw [Value.sorted, Value.sorted, sortedItems_eq_map, sortedItems_eq_map, List.map_map]
      exact congrArg _ (List.map_congr_left sorted)
    · rw [Value.sorted, sortedItems_eq_map, List.map_congr_left fun v held => exact' v held order]
  | @object fields distinct each ih =>
    choose! f text plain sorted exact' using ih
    refine ⟨.object (sortKeys compareKeys (fields.map fun field => (field.1, f field))), ?_,
      .object ?_, ?_, fun order => ?_⟩
    · rw [canonicalizeJsonWithOrder, canonicalizeProperties_eq_map, sortKeys_map, sortKeys_map,
        Value.toVec, fieldVecs_eq_map, List.map_map, List.map_map, List.map_map]
      refine congrArg _ (List.map_congr_left fun field held => ?_)
      rw [Function.comp, Function.comp, Function.comp, stringify_eq_quote, fieldText,
        text field ((sortKeys_perm fields).mem_iff.mp held)]
    · intro field held
      obtain ⟨source, member, rfl⟩ := List.mem_map.mp ((sortKeys_perm _).mem_iff.mp held)
      exact plain source member
    · rw [Value.sorted, Value.sorted, sortedFields_eq_map, sortedFields_eq_map]
      refine congrArg _ (sortBy_eq_of_perm _ ?_ ?_).symm
      · refine List.Perm.trans (.of_eq ?_) ((sortKeys_perm _).map _).symm
        rw [List.map_map]
        exact List.map_congr_left fun field held => by rw [Function.comp, sorted field held]
      · intro a heldA b heldB same
        refine List.inj_on_of_nodup_map ?_ heldA heldB (strKey_injective same)
        rw [List.map_map]
        exact distinct
    · rw [Value.sorted, order, sortKeys_compareCanonicalKeys, sortedFields_eq_map,
        List.map_congr_left fun field held => by rw [exact' field held order]]

theorem Signable.spells (signable : Signable v) :
    Spells (canonicalizeJsonWithOrder formatFinite compareKeys v) v := by
  obtain ⟨w, text, plain, content, _⟩ := exists_ordered signable
  exact ⟨w, text, plain, content⟩

theorem Signable.text (signable : Signable v) :
    canonicalizeJsonWithOrder formatFinite (some compareCanonicalKeys) v = v.sorted.toVec := by
  obtain ⟨w, text, _, _, exact'⟩ := exists_ordered signable
  rw [text, exact' rfl]

end Order

/-! ## Reading a signature input back -/

theorem zero_notMem_quote (s : String) : 0 ∉ quote s := by
  have escaped : ∀ b : UInt8, 0 ∉ escapeByte b := by
    intro b
    have controls : ∀ n : Fin 32, 0 ∉ escapeByte (UInt8.ofNat n) := by decide
    by_cases control : b < 32
    · simpa using controls ⟨b.toNat, UInt8.lt_iff_toNat_lt.mp control⟩
    · have other : 0 ≠ b := by
        rintro rfl
        exact control (by decide)
      unfold escapeByte
      split_ifs <;> simp [other]
  simp [quote, escaped]

theorem zero_notMem_bracketed {openByte closeByte : UInt8} {texts : List (List UInt8)}
    (bracket : 0 ≠ openByte ∧ 0 ≠ closeByte) (each : ∀ text ∈ texts, 0 ∉ text) :
    0 ∉ bracketed openByte closeByte texts := by
  unfold bracketed
  simp only [List.cons_append, List.mem_cons, List.mem_append, List.not_mem_nil, or_false, not_or]
  refine ⟨bracket.1, fun held => ?_, bracket.2⟩
  rcases mem_separated held with comma | ⟨text, member, held⟩
  · exact absurd comma (by decide)
  · exact each text member held

theorem zero_notMem_toVec (plain : v.PlainNumbers) : 0 ∉ v.toVec := by
  induction plain with
  | null => decide
  | bool b => cases b <;> decide
  | number good => exact fun held => absurd (number_bytes good 0 held) (by decide)
  | string s => exact zero_notMem_quote s
  | array each ih =>
    rw [Value.toVec, toVecs_eq_map]
    exact zero_notMem_bracketed (by decide) (List.forall_mem_map.mpr ih)
  | object each ih =>
    rw [Value.toVec, fieldVecs_eq_map, List.map_map]
    refine zero_notMem_bracketed (by decide) (List.forall_mem_map.mpr fun field held => ?_)
    simp [fieldText, zero_notMem_quote, ih field held]

/-- Both languages put domain and kind before the text. -/
theorem signatureInput_eq (kind domain : String) (text : List UInt8) :
    signatureInput kind text domain = MetaMesh.signatureInput kind text domain := by
  simp only [signatureInput, MetaMesh.signatureInput, utf8_eq, String.toList_append,
    List.flatMap_append, List.append_assoc]
  rfl

/-- The kind of a payload object. -/
def KindOf (payload : Value) (kind : String) : Prop :=
  payload.get? "kind" = some (.string kind)

theorem KindOf.payloadKind (isKind : KindOf v kind) : payloadKind v = kind := by
  rw [Browser.payloadKind, show toValue v = v from rfl, isKind]
  rfl

theorem lookup_of_mem {fields : List (String × Value)} {key : String}
    (distinct : (fields.map Prod.fst).Nodup) (held : (key, v) ∈ fields) :
    fields.lookup key = some v := by
  obtain ⟨before, after, rfl⟩ := List.append_of_mem held
  refine List.lookup_eq_some_iff.mpr ⟨before, after, rfl, fun field earlier => ?_⟩
  rw [List.map_append, List.map_cons, List.nodup_append] at distinct
  simpa using Ne.symm (distinct.2.2 _ (List.mem_map_of_mem earlier) _ List.mem_cons_self)

/-- Payloads with the same content are of the same kind. -/
theorem KindOf.unique (isKind : KindOf v kind) (isKind' : KindOf w kind') (signable : Signable w)
    (same : v.sorted = w.sorted) : kind = kind' := by
  cases signable with
  | @object right distinct each =>
    cases v with
    | object left =>
      obtain ⟨before, after, rfl, _⟩ := List.lookup_eq_some_iff.mp isKind
      have held : ("kind", Value.string kind) ∈ right.map fun field => (field.1, field.2.sorted) :=
        (sorted_object_perm same).mem_iff.mp
          (List.mem_map.mpr ⟨("kind", .string kind), by simp, rfl⟩)
      obtain ⟨⟨key, value⟩, member, isField⟩ := List.mem_map.mp held
      obtain ⟨rfl, isValue⟩ := Prod.mk.inj isField
      cases value with
      | string text =>
        have found := (lookup_of_mem distinct member).symm.trans isKind'
        rw [← Value.string.inj isValue, Value.string.inj (Option.some.inj found)]
      | _ => cases isValue
    | _ => cases isKind
  | _ => cases isKind'

/-- The signature input is read back from its end: no text has a zero byte, and the payload
tells the kind. -/
theorem signatureInput_inj {domain domain' : String} {text text' : List UInt8}
    (signable : Signable w) (isKind : KindOf v kind) (isKind' : KindOf w kind')
    (spells : Spells text v) (spells' : Spells text' w)
    (same : MetaMesh.signatureInput kind text domain =
      MetaMesh.signatureInput kind' text' domain') :
    domain = domain' ∧ kind = kind' ∧ v.sorted = w.sorted := by
  obtain ⟨v', rfl, plain, content⟩ := spells
  obtain ⟨w', rfl, plain', content'⟩ := spells'
  obtain ⟨front, texts⟩ := last_mark_inj (zero_notMem_toVec plain) (zero_notMem_toVec plain') same
  obtain rfl := eq_of_toVec_eq plain plain' texts
  have content := content.symm.trans content'
  obtain rfl := isKind.unique isKind' signable content
  have domains : utf8 domain = utf8 domain' := List.append_cancel_right front
  exact ⟨strKey_injective (by rw [strKey, strKey, domains]), rfl, content⟩

section Verification

variable {P : Primitives}

theorem Signable.canonicalizes (signable : Signable v) :
    canonicalizeWithNumbers P.formatFinite true v = .ok v.sorted.toVec := by
  have numbers : v.Numbers fun n => signatureNumber P.formatFinite n = .ok n.text := by
    induction signable with
    | null => exact .null
    | bool b => exact .bool b
    | posInt safe
    | negInt _ safe => exact .number (refuse_bind_ok.mpr ⟨not_lt.mpr safe, rfl⟩)
    | string s => exact .string s
    | array _ ih => exact .array ih
    | object _ _ ih => exact .object ih
  exact canonicalizeWithNumbers_eq_sorted (fun n written => written) numbers

/-- A signature verifies in one of the languages. -/
def Verifies (P : Primitives) (envelope : SignedEnvelope Value) (publicKey domain : String) :
    Prop :=
  verifySignedEnvelope P envelope publicKey domain = .ok true ∨
    verifyEnvelope P envelope publicKey domain = .ok true

/-- Then it is one for the domain, the kind and a text of the payload. -/
theorem Verifies.message {envelope : SignedEnvelope Value} {publicKey domain : String}
    (verifies : Verifies P envelope publicKey domain) (signable : Signable envelope.payload)
    (isKind : KindOf envelope.payload kind) :
    ∃ key signature text, decodePublicKey P publicKey = .ok key ∧
      P.base64Decode envelope.signature = some signature ∧ Spells text envelope.payload ∧
      P.ed25519Verify key (MetaMesh.signatureInput kind text domain) signature = true := by
  rcases verifies with verified | verified
  · obtain ⟨kind', isKind', verified⟩ := bind_ok.mp verified
    obtain ⟨signature, decoded, verified⟩ := bind_ok.mp verified
    obtain ⟨_, verified⟩ := refuse_bind_ok.mp verified
    obtain ⟨key, isKey, verified⟩ := bind_ok.mp verified
    obtain ⟨canonical, isText, verified⟩ := bind_ok.mp verified
    obtain rfl : kind = kind' := by
      have := (Option.filter_eq_some_iff.mp (okOr_ok.mp isKind')).1
      rw [show toValue envelope.payload = envelope.payload from rfl, isKind] at this
      exact Option.some.inj this
    refine ⟨key, signature, _, isKey, okOr_ok.mp decoded,
      @Signable.spells P.formatFinite (some compareCanonicalKeys) _ signable, ?_⟩
    rw [canonicalizeJson_eq_sorted] at isText
    rw [← Except.ok.inj isText, MetaMesh.canonicalizeSignatureJson, show toValue envelope.payload =
      envelope.payload from rfl, signable.canonicalizes] at verified
    rw [signable.text]
    simpa using verified
  · obtain ⟨key, isKey, verified⟩ := bind_ok.mp verified
    obtain ⟨signature, decoded, verified⟩ := bind_ok.mp verified
    have verified := Except.ok.inj verified
    simp only [isKind.payloadKind, signatureInput_eq, Bool.or_eq_true, Bool.and_eq_true] at verified
    rcases verified with verified | ⟨_, verified⟩
    · exact ⟨key, signature, _, isKey, okOr_ok.mp decoded, signable.spells, verified⟩
    · exact ⟨key, signature, _, isKey, okOr_ok.mp decoded, signable.spells, verified⟩

/-- What a signature over the payload is checked against. -/
def messages (v : Value) (kind domain : String) : Set (List UInt8) :=
  {message | ∃ text, Spells text v ∧ message = MetaMesh.signatureInput kind text domain}

variable (P) in
/-- A signature that is good for a message of one set is good for no other of the second. -/
def SignsOne (publicKey signature : String) (these those : Set (List UInt8)) : Prop :=
  ∀ key bytes, decodePublicKey P publicKey = .ok key → P.base64Decode signature = some bytes →
    ∀ message ∈ these, ∀ message' ∈ those, P.ed25519Verify key message bytes = true →
      P.ed25519Verify key message' bytes = true → message = message'

/-- Both languages sign the same bytes; the bytes tell domain, kind and payload, up to the
order of fields; and a signature that does not stand for two different messages of the
payloads verifies for one domain, kind and payload in both languages. -/
theorem signed_bytes_unambiguous (P : Primitives) :
    (∀ v, Signable v → MetaMesh.canonicalizeSignatureJson P v =
        .ok (canonicalizeSignatureJson P.formatFinite v) ∧ ∀ kind domain,
      signatureInput kind (canonicalizeSignatureJson P.formatFinite v) domain =
        MetaMesh.signatureInput kind (canonicalizeSignatureJson P.formatFinite v) domain) ∧
    (∀ v w kind kind' domain domain', Signable v → Signable w → KindOf v kind → KindOf w kind' →
      signatureInput kind (canonicalizeSignatureJson P.formatFinite v) domain =
        signatureInput kind' (canonicalizeSignatureJson P.formatFinite w) domain' →
      domain = domain' ∧ kind = kind' ∧ v.sorted = w.sorted) ∧
    ∀ v w kind kind' domain domain' signer signer' signature publicKey,
      SignsOne P publicKey signature (messages v kind domain) (messages w kind' domain') →
      Signable v → Signable w → KindOf v kind → KindOf w kind' →
      Verifies P ⟨v, signer, signature⟩ publicKey domain →
      Verifies P ⟨w, signer', signature⟩ publicKey domain' →
      domain = domain' ∧ kind = kind' ∧ v.sorted = w.sorted := by
  refine ⟨fun v signable => ⟨?_, fun kind domain => signatureInput_eq kind domain _⟩, ?_, ?_⟩
  · rw [canonicalizeSignatureJson, signable.text]
    exact signable.canonicalizes
  · intro v w kind kind' domain domain' signable signable' isKind isKind' same
    rw [signatureInput_eq, signatureInput_eq] at same
    exact signatureInput_inj signable' isKind isKind' signable.spells signable'.spells same
  · intro v w kind kind' domain domain' signer signer' signature publicKey one signable
      signable' isKind isKind' verifies verifies'
    obtain ⟨key, sig, text, isKey, isSig, spells, accepted⟩ := verifies.message signable isKind
    obtain ⟨key', sig', text', isKey', isSig', spells', accepted'⟩ :=
      verifies'.message signable' isKind'
    obtain rfl := ok_unique isKey isKey'
    obtain rfl := Option.mem_unique isSig isSig'
    exact signatureInput_inj signable' isKind isKind' spells spells'
      (one _ _ isKey isSig _ ⟨text, spells, rfl⟩ _ ⟨text', spells', rfl⟩ accepted accepted')

end Verification

namespace Sample

/-- A key that has signed one message. -/
def signedOnce (message : List UInt8) : Primitives :=
  { MetaMesh.Sample.primitives with ed25519Verify := fun _ other _ => other = message }

def note : SignedEnvelope Value :=
  ⟨.object [("text", .string "a\n€"), ("kind", .string "note"), ("likes", .number (.posInt 3))],
    "signer", MetaMesh.Sample.letters 86 0⟩

theorem note_signable : Signable note.payload := by
  refine .object (by decide) ?_
  simp only [List.forall_mem_cons]
  exact ⟨.string _, .string _, .posInt (by decide), nofun⟩

end Sample

/-- A note that was signed for one domain verifies in both languages, for no other domain. -/
theorem signed_bytes_unambiguous_sample :
    let P := Sample.signedOnce (signatureInput "note"
      (canonicalizeSignatureJson id Sample.note.payload) "MATCH/1")
    let key := MetaMesh.Sample.letters 43 0
    verifySignedEnvelope P Sample.note key "MATCH/1" = .ok true ∧
      verifyEnvelope P Sample.note key "MATCH/1" = .ok true ∧
      ∀ domain, Verifies P Sample.note key domain → domain = "MATCH/1" := by
  intro P key
  have verified : verifyEnvelope P Sample.note key "MATCH/1" = .ok true := by decide
  refine ⟨by decide, verified, fun domain verifies => ?_⟩
  have one : SignsOne P key Sample.note.signature (messages Sample.note.payload "note" domain)
      (messages Sample.note.payload "note" "MATCH/1") := by
    intro _ _ _ _ message _ message' _ accepted accepted'
    exact (of_decide_eq_true accepted).trans (of_decide_eq_true accepted').symm
  exact ((signed_bytes_unambiguous P).2.2 _ _ "note" "note" _ _ _ _ _ key one
    Sample.note_signable Sample.note_signable rfl rfl verifies (.inr verified)).1

end MetaMesh.Browser.Signing
