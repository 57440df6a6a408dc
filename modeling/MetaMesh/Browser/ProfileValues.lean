import MetaMesh.Browser.Record

/-!
# Values of a profile

`packages/mesh-identity/src/profileValidation.ts` and the value checks of
`identityProfile.ts`: a display name, a photo of 128 by 128 pixels, or the key of a service
at an origin.  `Platform` is what these checks take from the browser.
-/

namespace MetaMesh.Browser

open Fallible

/-- The parts of `new URL(text)` that the checks read. -/
structure Url where
  origin : String
  username : String
  password : String
  pathname : String
  search : String
  hash : String
  protocol : String
  hostname : String

/-- What the browser offers. -/
structure Platform where
  /-- `normalize("NFKC")`. -/
  normalizeNfkc : String → String
  /-- `new URL`, which throws on some texts. -/
  parseUrl : String → Option Url
  /-- `new Date(text).toISOString()`, where `Date.parse(text)` is finite. -/
  isoDate : String → Option String
  /-- `atob`. -/
  atob : String → Option (List UInt8)

/-- The fields of a profile. -/
inductive IdentityProfileField
  | name
  | photo
  | rustyServicePin
deriving DecidableEq

/-- The key a service is known by. -/
structure IdentityRustyServicePin where
  origin : String
  serviceId : String
  servicePublicKey : String
deriving DecidableEq

/-- What a field holds. -/
inductive IdentityProfileValue
  | text (text : String)
  | photo (avatarData : Option String) (changedAt : String)
  | pin (pin : IdentityRustyServicePin)
deriving DecidableEq

instance : Serialize IdentityProfileField :=
  ⟨fun | .name => .string "name" | .photo => .string "photo"
       | .rustyServicePin => .string "rustyServicePin"⟩

def photoFields (avatarData : Option String) (changedAt : String) : List (String × Value) :=
  [("avatarData", toValue avatarData), ("changedAt", toValue changedAt)]

def IdentityRustyServicePin.fields (pin : IdentityRustyServicePin) : List (String × Value) :=
  [("origin", toValue pin.origin), ("serviceId", toValue pin.serviceId),
    ("servicePublicKey", toValue pin.servicePublicKey)]

instance : Serialize IdentityRustyServicePin := ⟨fun pin => .object pin.fields⟩

instance : Serialize IdentityProfileValue :=
  ⟨fun | .text text => toValue text
       | .photo avatarData changedAt => .object (photoFields avatarData changedAt)
       | .pin pin => toValue pin⟩

instance : Canonical IdentityRustyServicePin := by
  refine .ofFields (fun _ => rfl) (fun _ _ => rfl) (by simp [IdentityRustyServicePin.fields])
    (by simp [IdentityRustyServicePin.fields]) ?_
  rintro ⟨⟩ ⟨⟩ same
  simpa [IdentityRustyServicePin.fields] using same

instance : Canonical IdentityProfileField where
  wellFormed field := by cases field <;> rfl
  injective a b := by cases a <;> cases b <;> simp [toValue, Value.sorted]

instance : Canonical IdentityProfileValue where
  wellFormed value := by
    cases value with
    | text text => rfl
    | photo avatarData changedAt =>
      exact wellFormed_sorted_object (by simp [photoFields]) (by simp [photoFields])
    | pin pin => exact Canonical.wellFormed pin
  injective a b same := by
    have count : ∀ left right : List (String × Value),
        (Value.object left).sorted = (Value.object right).sorted → left.length = right.length := by
      intro left right same
      simpa using (sorted_object_perm same).length_eq
    cases a with
    | text text =>
      cases b with
      | text other => rw [Value.string.inj same]
      | photo _ _ => cases same
      | pin _ => cases same
    | photo avatarData changedAt =>
      cases b with
      | text _ => cases same
      | photo avatarData' changedAt' =>
        have fields := sorted_object_inj (by simp [photoFields]) (by simp [photoFields]) same
        simpa [photoFields] using fields
      | pin _ =>
        exact absurd (count _ _ same) (by simp [photoFields, IdentityRustyServicePin.fields])
    | pin pin =>
      cases b with
      | text _ => cases same
      | photo _ _ =>
        exact absurd (count _ _ same) (by simp [photoFields, IdentityRustyServicePin.fields])
      | pin other => rw [Canonical.injective pin other same]

/-! ## Names -/

/-- `\p{Cc}`. -/
def isControl (c : Char) : Bool :=
  c.toNat ≤ 0x1f || (0x7f ≤ c.toNat && c.toNat ≤ 0x9f)

/-- `\p{Bidi_Control}`. -/
def isBidiControl (c : Char) : Bool :=
  let n := c.toNat
  n = 0x61c || n = 0x200e || n = 0x200f || (0x202a ≤ n && n ≤ 0x202e) || (0x2066 ≤ n && n ≤ 0x2069)

/-- `\p{White_Space}`. -/
def isWhiteSpace (c : Char) : Bool :=
  let n := c.toNat
  (9 ≤ n && n ≤ 13) || n = 32 || n = 0x85 || n = 0xa0 || n = 0x1680 || (0x2000 ≤ n && n ≤ 0x200a) ||
    n = 0x2028 || n = 0x2029 || n = 0x202f || n = 0x205f || n = 0x3000

section Checks

variable (B : Platform)

def normalizeIdentityDisplayName (name : String) : String :=
  trim (String.ofList (joinRuns isWhiteSpace (B.normalizeNfkc name).toList))

def isValidIdentityDisplayName (name : String) : Bool :=
  let normalized := normalizeIdentityDisplayName B name
  name ≠ "" && !name.toList.any isControl && !name.toList.any isBidiControl &&
    normalized ≠ "" && normalized.length ≤ 48 && normalized = name

/-! ## Photos -/

def maxAvatarBytes : Nat := 16 * 1024
def maxAvatarDataUrlLength : Nat := 22000

def textAt (bytes : List UInt8) (offset : Nat) (text : String) : Bool :=
  (bytes.drop offset).take (utf8 text).length = utf8 text

/-- A byte as it enters shifts and masks, where a missing one counts as zero. -/
def byteAt (bytes : List UInt8) (index : Nat) : Nat :=
  (bytes[index]?.getD 0).toNat

def webp128 (bytes : List UInt8) : Bool :=
  let byte := fun index => bytes[index]?
  let number := byteAt bytes
  if bytes.length < 30 || !textAt bytes 0 "RIFF" || !textAt bytes 8 "WEBP" then false
  else
    (textAt bytes 12 "VP8X" && byte 24 = some 127 && byte 25 = some 0 && byte 26 = some 0 &&
      byte 27 = some 127 && byte 28 = some 0 && byte 29 = some 0) ||
    (textAt bytes 12 "VP8 " && byte 23 = some 0x9d && byte 24 = some 0x01 &&
      byte 25 = some 0x2a && (number 26 ||| (number 27 <<< 8)) &&& 0x3fff = 128 &&
      (number 28 ||| (number 29 <<< 8)) &&& 0x3fff = 128) ||
    (textAt bytes 12 "VP8L" && 25 ≤ bytes.length && byte 20 = some 0x2f &&
      1 + number 21 + ((number 22 &&& 0x3f) <<< 8) = 128 &&
      1 + ((number 22 &&& 0xc0) >>> 6) + (number 23 <<< 2) + ((number 24 &&& 0x0f) <<< 10) = 128)

/-- The markers that carry the size of the picture. -/
def frameMarkers : List Nat :=
  [0xc0, 0xc1, 0xc2, 0xc3, 0xc5, 0xc6, 0xc7, 0xc9, 0xca, 0xcb, 0xcd, 0xce, 0xcf]

/-- The segments from an offset on; each round goes on by two bytes at least. -/
def jpegSegments (bytes : List UInt8) : Nat → Nat → Bool
  | 0, _ => false
  | fuel + 1, offset =>
    let number := byteAt bytes
    if bytes.length ≤ offset + 3 then false
    else if number offset ≠ 0xff then false
    else
      let marker := number (offset + 1)
      let start := offset + 2
      if marker = 0xd8 || marker = 0xd9 || (0xd0 ≤ marker && marker ≤ 0xd7) || marker = 0x01 then
        jpegSegments bytes fuel start
      else
        let length := (number start <<< 8) ||| number (start + 1)
        if length < 2 || bytes.length < start + length then false
        else if marker ∈ frameMarkers then
          (number (start + 3) <<< 8 ||| number (start + 4)) = 128 &&
            (number (start + 5) <<< 8 ||| number (start + 6)) = 128
        else jpegSegments bytes fuel (start + length)

def jpeg128 (bytes : List UInt8) : Bool :=
  if bytes.length < 4 || byteAt bytes 0 ≠ 0xff || byteAt bytes 1 ≠ 0xd8 then false
  else jpegSegments bytes (bytes.length + 1) 2

/-- `[A-Za-z0-9+/]`. -/
def isBase64 (c : Char) : Bool :=
  c.isAlphanum || c = '+' || c = '/'

/-- The letters between the head of a data URL and at most two `=` at its end. -/
def encodedPart (text : List Char) : Option (List Char) :=
  let letters := text.takeWhile isBase64
  let padding := text.dropWhile isBase64
  if letters ≠ [] ∧ padding.length ≤ 2 ∧ padding.all (· = '=') = true then some text else none

def isValidIdentityAvatar (value : String) : Bool :=
  let webp := "data:image/webp;base64,".toList
  let jpeg := "data:image/jpeg;base64,".toList
  let head := value.toList.take webp.length
  if maxAvatarDataUrlLength < (unitKey value).length || (head ≠ webp && head ≠ jpeg) then false
  else
    match encodedPart (value.toList.drop webp.length) with
    | none => false
    | some encoded =>
      let padding := (encoded.reverse.takeWhile (· = '=')).length
      if encoded.length % 4 ≠ 0 || maxAvatarBytes < encoded.length * 3 / 4 - padding then false
      else
        match B.atob (String.ofList encoded) with
        | none => false
        | some bytes => if head = webp then webp128 bytes else jpeg128 bytes

def isValidIdentityProfilePhoto (avatarData : Option String) (changedAt : String) : Bool :=
  avatarData.all (isValidIdentityAvatar B) && B.isoDate changedAt = some changedAt

/-! ## Service pins -/

def isIdentityRustyServicePin (pin : IdentityRustyServicePin) : Bool :=
  hasShape isBase64Url 43 pin.serviceId.toList &&
    (B.parseUrl pin.origin).any fun url =>
      url.origin = pin.origin && url.username = "" && url.password = "" && url.pathname = "/" &&
        url.search = "" && url.hash = "" &&
        (url.protocol = "https:" ||
          (url.protocol = "http:" && ["localhost", "127.0.0.1", "[::1]"].contains url.hostname))

def validateValue (field : IdentityProfileField) (value : IdentityProfileValue) :
    Except String Unit :=
  match field with
  | .name =>
    match value with
    | .text text =>
      refuse (isValidIdentityDisplayName B text = false) "Invalid identity profile name"
    | _ => .error "Invalid identity profile name"
  | .rustyServicePin =>
    match value with
    | .pin pin => refuse (isIdentityRustyServicePin B pin = false) "Invalid Rusty service pin"
    | _ => .error "Invalid Rusty service pin"
  | .photo =>
    match value with
    | .photo avatarData changedAt =>
      refuse (isValidIdentityProfilePhoto B avatarData changedAt = false)
        "Invalid identity profile photo"
    | _ => .error "Invalid identity profile photo"

end Checks

end MetaMesh.Browser
