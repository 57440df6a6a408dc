import MetaMesh.Json
import MetaMesh.Lib.Framing

/-!
# Text and numbers in the browser packages

Strings compare by their UTF-16 code units, and a number that the packages exchange is an
integer.  `unitKey` tells strings apart, so a sort by it depends on the strings alone.
-/

namespace MetaMesh.Browser

/-! ## Order -/

/-- The code units of a character. -/
def codeUnits (c : Char) : List Nat :=
  if c.toNat ≤ 0xffff then [c.toNat]
  else [0xd800 + (c.toNat - 0x10000) / 0x400, 0xdc00 + (c.toNat - 0x10000) % 0x400]

/-- `a < b` for strings is `unitKey a < unitKey b`. -/
def unitKey (s : String) : List Nat :=
  s.toList.flatMap codeUnits

/-- No character begins as another one does: surrogates are not characters. -/
theorem codeUnits_append_inj {c d : Char} {rest rest' : List Nat}
    (same : codeUnits c ++ rest = codeUnits d ++ rest') : c = d ∧ rest = rest' := by
  have apart : ∀ x : Char, x.toNat < 0xd800 ∨ 0xdfff < x.toNat ∧ x.toNat < 0x110000 :=
    fun x => x.valid
  have eq_of_toNat : ∀ x y : Char, x.toNat = y.toNat → x = y := fun x y => Char.toNat_inj.mp
  have ofC := apart c
  have ofD := apart d
  unfold codeUnits at same
  split at same <;> split at same <;>
    simp only [List.cons_append, List.nil_append, List.cons.injEq] at same
  · exact ⟨eq_of_toNat c d same.1, same.2⟩
  · omega
  · omega
  · exact ⟨eq_of_toNat c d (by omega), same.2.2⟩

theorem unitKey_injective : Function.Injective unitKey := by
  have chars : ∀ left right : List Char,
      left.flatMap codeUnits = right.flatMap codeUnits → left = right := by
    have nonempty : ∀ c rest, codeUnits c ++ rest ≠ [] := by
      intro c rest
      unfold codeUnits
      split <;> simp
    intro left
    induction left with
    | nil =>
      intro right same
      cases right with
      | nil => rfl
      | cons d right => exact absurd same.symm (nonempty d _)
    | cons c left ih =>
      intro right same
      cases right with
      | nil => exact absurd same (nonempty c _)
      | cons d right =>
        obtain ⟨rfl, rest⟩ := codeUnits_append_inj same
        rw [ih right rest]
  intro a b same
  exact String.toList_inj.mp (chars a.toList b.toList same)

/-! ## Shapes -/

/-- White space and line ends, as `trim` and `\s` take them. -/
def isSpace (c : Char) : Bool :=
  let n := c.toNat
  (9 ≤ n && n ≤ 13) || n = 32 || n = 0xa0 || n = 0x1680 || (0x2000 ≤ n && n ≤ 0x200a) ||
    n = 0x2028 || n = 0x2029 || n = 0x202f || n = 0x205f || n = 0x3000 || n = 0xfeff

def trim (text : String) : String :=
  String.ofList ((text.toList.dropWhile isSpace).reverse.dropWhile isSpace).reverse

/-- `replace(/[…]+/g, " ")` for a class of characters. -/
def joinRuns (space : Char → Bool) : List Char → List Char
  | [] => []
  | c :: rest =>
    if space c then
      match rest with
      | [] => [' ']
      | d :: _ => if space d then joinRuns space rest else ' ' :: joinRuns space rest
    else c :: joinRuns space rest

/-- `slice(0, n)`: `n` code units. -/
def sliceUnits : Nat → List Char → List Char
  | _, [] => []
  | n, c :: rest =>
    let units := if c.toNat ≤ 0xffff then 1 else 2
    if units ≤ n then c :: sliceUnits (n - units) rest else []

def isBase64Url (c : Char) : Bool :=
  c.isAlphanum || c = '_' || c = '-'

def isHex (c : Char) : Bool :=
  c.isDigit || ('a' ≤ c && c ≤ 'f') || ('A' ≤ c && c ≤ 'F')

/-- The letters a text consists of, and how many there are. -/
def hasShape (letter : Char → Bool) (count : Nat) (text : List Char) : Bool :=
  text.length = count && text.all letter

/-! ## Numbers -/

def integer (n : Int) : Number :=
  if 0 ≤ n then .posInt n.toNat else .negInt (-n).toNat

instance : Serialize Int := ⟨fun n => .number (integer n)⟩

def isSafeInteger (n : Int) : Bool :=
  -maxSafeInteger ≤ n && n ≤ maxSafeInteger

/-- The text `name:number`. -/
def numbered (name : String) (number : Int) : String :=
  name ++ ":" ++ toString number

def digits : Int → List Char
  | .ofNat n => Nat.toDigits 10 n
  | .negSucc n => '-' :: Nat.toDigits 10 (n + 1)

theorem toList_toString (n : Int) : (toString n).toList = digits n := by
  cases n with
  | ofNat n => simp [digits, toString, Int.repr, Nat.repr]
  | negSucc n =>
    show ("-" ++ Nat.repr (n + 1)).toList = _
    simp [digits, Nat.repr]

theorem colon_notMem_digits (n : Int) : ':' ∉ digits n := by
  cases n with
  | ofNat n => exact fun member => absurd (isDigit_of_mem member) (by decide)
  | negSucc n =>
    intro member
    rcases List.mem_cons.mp member with same | later
    · exact absurd same (by decide)
    · exact absurd (isDigit_of_mem later) (by decide)

theorem digits_injective : Function.Injective digits := by
  have minus : ∀ m n : Nat, Nat.toDigits 10 m ≠ '-' :: Nat.toDigits 10 n := by
    intro m n same
    exact absurd (isDigit_of_mem (same ▸ List.mem_cons_self)) (by decide)
  rintro (m | m) (n | n) same
  · rw [toDigits_injective same]
  · exact absurd same (minus m (n + 1))
  · exact absurd same.symm (minus n (m + 1))
  · rw [Nat.succ.inj (toDigits_injective (List.cons.inj same).2)]

/-- The number stands after the last colon. -/
theorem numbered_inj {name name' : String} {n n' : Int} :
    numbered name n = numbered name' n' ↔ name = name' ∧ n = n' := by
  constructor
  · intro same
    have chars := congrArg String.toList same
    simp only [numbered, String.toList_append, toList_toString, List.append_assoc] at chars
    obtain ⟨front, back⟩ := Framing.last_mark_inj (colon_notMem_digits n) (colon_notMem_digits n')
      chars
    exact ⟨String.toList_inj.mp front, digits_injective back⟩
  · rintro ⟨rfl, rfl⟩
    rfl

end MetaMesh.Browser
