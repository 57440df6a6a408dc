import MetaMesh.Json
import MetaMesh.Lib.Loop

/-!
# The size of an avatar

`avatar_dimensions` reads the bytes of a picture that a visitor sends.  Every
index and every sum is checked, so an error below is a panic or a loop that does
not end.
-/

namespace MetaMesh

open Fallible

/-- A slice has at most `isize::MAX` bytes. -/
abbrev ByteSlice := { bytes : List UInt8 // bytes.length < 2 ^ 63 }

/-- A sum of unsigned integers of so many bits. -/
def sumIn (bits sum : Nat) : Except Unit Nat :=
  if sum < 2 ^ bits then .ok sum else .error ()

/-- `u16::from_be_bytes`. -/
def fromBeBytes (high low : UInt8) : Nat :=
  256 * high.toNat + low.toNat

def u16At (bytes : List UInt8) (i : Nat) : Option Nat := do
  return fromBeBytes (← bytes[i]?) (← bytes[i + 1]?)

/-- The markers without a length. -/
def isStandalone (marker : UInt8) : Bool :=
  marker = 0xd8 || marker = 0xd9 || (0xd0 ≤ marker && marker ≤ 0xd7) || marker = 0x01

def isStartOfFrame (marker : UInt8) : Bool :=
  marker ∈ [0xc0, 0xc1, 0xc2, 0xc3, 0xc5, 0xc6, 0xc7, 0xc9, 0xca, 0xcb, 0xcd, 0xce, 0xcf]

section

variable (bytes : ByteSlice) (offset : Nat)

/-- `bytes[offset + i]`. -/
def byteAt (i : Nat) : Except Unit UInt8 := do
  okOr bytes.1[← sumIn 64 (offset + i)]? ()

/-- `bytes[offset..end] == part`. -/
def rangeIs (part : List UInt8) : Except Unit Bool :=
  if offset + part.length ≤ bytes.1.length then
    .ok ((bytes.1.drop offset).take part.length = part)
  else .error ()

def readU16 (i : Nat) : Except Unit Nat := do
  return fromBeBytes (← byteAt bytes offset i) (← byteAt bytes offset (i + 1))

/-- One round of the loop over the segments. -/
def segmentRound : Except Unit (Nat ⊕ Bool) := do
  if bytes.1.length ≤ (← sumIn 64 (offset + 3)) then return .inr false
  if (← byteAt bytes offset 0) ≠ 0xff then return .inr false
  let marker ← byteAt bytes offset 1
  let offset ← sumIn 64 (offset + 2)
  if isStandalone marker then return .inl offset
  let length ← readU16 bytes offset 0
  if length < 2 then return .inr false
  if bytes.1.length < (← sumIn 64 (offset + length)) then return .inr false
  if isStartOfFrame marker then
    if length < 7 then return .inr false
    let height ← readU16 bytes offset 3
    let width ← readU16 bytes offset 5
    return .inr (width = 128 && height = 128)
  return .inl (← sumIn 64 (offset + length))

def jpegDimensions : Except Unit Bool := do
  if bytes.1.length < 4 then return false
  if !(← rangeIs bytes 0 [0xff, 0xd8]) then return false
  run () (segmentRound bytes) bytes.1.length 2

def avatarDimensions (webp : Bool) : Except Unit Bool := do
  if !webp then return ← jpegDimensions bytes
  if bytes.1.length < 30 then return false
  if !(← rangeIs bytes 0 (utf8 "RIFF")) then return false
  if !(← rangeIs bytes 8 (utf8 "WEBP")) then return false
  if ← rangeIs bytes 12 (utf8 "VP8X") then return ← rangeIs bytes 24 [127, 0, 0, 127, 0, 0]
  let byte := byteAt bytes 0
  if ← rangeIs bytes 12 (utf8 "VP8 ") then
    let width := fromBeBytes (← byte 27) (← byte 26) &&& 0x3fff
    let height := fromBeBytes (← byte 29) (← byte 28) &&& 0x3fff
    return (← rangeIs bytes 23 [0x9d, 0x01, 0x2a]) && width = 128 && height = 128
  if !(← rangeIs bytes 12 (utf8 "VP8L")) then return false
  if bytes.1.length < 25 then return false
  if (← byte 20) ≠ 0x2f then return false
  let width ← sumIn 32 (1 + (← byte 21).toNat + ((← byte 22) &&& 0x3f).toNat <<< 8)
  let height ← sumIn 32 (1 + ((← byte 22) &&& 0xc0).toNat >>> 6 + (← byte 23).toNat <<< 2 +
    ((← byte 24) &&& 0x0f).toNat <<< 10)
  return width = 128 && height = 128

end

/-- The segments lead to a start of frame, and the first one is 128 by 128. -/
def ReachesFrame : List UInt8 → Prop
  | mark :: marker :: rest => mark = 0xff ∧
    if isStandalone marker then ReachesFrame rest
    else ∃ length, u16At rest 0 = some length ∧ 2 ≤ length ∧ length ≤ rest.length ∧
      if isStartOfFrame marker then
        7 ≤ length ∧ u16At rest 3 = some 128 ∧ u16At rest 5 = some 128
      else ReachesFrame (rest.drop length)
  | _ => False
termination_by bytes => bytes.length
decreasing_by all_goals simp only [List.length_cons, List.length_drop]; omega

theorem ReachesFrame.length {bytes : List UInt8} (reaches : ReachesFrame bytes) :
    3 < bytes.length := by
  obtain _ | ⟨_, _ | ⟨_, _ | ⟨_, _ | ⟨_, _⟩⟩⟩⟩ := bytes <;> simp_all [ReachesFrame, u16At]

variable {bytes : ByteSlice} {offset i : Nat}

theorem byteAt_eq (inside : offset + i < bytes.1.length) :
    byteAt bytes offset i = .ok bytes.1[offset + i] := by
  have := bytes.2
  rw [byteAt, sumIn, if_pos (by omega)]
  simp [okOr, inside]

theorem readU16_ok (inside : offset + i + 1 < bytes.1.length) :
    ∃ n < 2 ^ 16, readU16 bytes offset i = .ok n ∧ u16At (bytes.1.drop offset) i = some n := by
  refine ⟨fromBeBytes bytes.1[offset + i] bytes.1[offset + (i + 1)], ?_, ?_, ?_⟩
  · have high := bytes.1[offset + i].toNat_lt
    have low := bytes.1[offset + (i + 1)].toNat_lt
    unfold fromBeBytes
    omega
  · rw [readU16, byteAt_eq, byteAt_eq]
    rfl
  · simp [u16At, List.getElem?_drop, show offset + i < bytes.1.length by omega, inside, ← add_assoc]

/-- A round keeps what is left to reach. -/
theorem segmentRound_spec {start : Nat} (held : offset ≤ bytes.1.length ∧
      (ReachesFrame (bytes.1.drop start) ↔ ReachesFrame (bytes.1.drop offset))) :
    RoundSpec (fun next => next ≤ bytes.1.length ∧
        (ReachesFrame (bytes.1.drop start) ↔ ReachesFrame (bytes.1.drop next)))
      (bytes.1.length - ·)
      (∃ accepted, · = .ok accepted ∧ (accepted = true ↔ ReachesFrame (bytes.1.drop start)))
      offset (segmentRound bytes offset) := by
  rw [held.2]
  have before := held.1
  have small := bytes.2
  have sums : ∀ n < 2 ^ 62, sumIn 64 (offset + n) = .ok (offset + n) :=
    fun n low => if_pos (by omega)
  rw [segmentRound, sums 3 (by decide), ok_bind]
  split
  · refine ⟨false, rfl, by simp, fun reaches => ?_⟩
    have := reaches.length
    rw [List.length_drop] at this
    omega
  obtain ⟨length, low, read, isLength⟩ := @readU16_ok bytes (offset + 2) 0 (by omega)
  have reaches := @ReachesFrame.eq_1 bytes.1[offset] bytes.1[offset + 1] (bytes.1.drop (offset + 2))
  rw [← List.drop_eq_getElem_cons, ← List.drop_eq_getElem_cons] at reaches
  simp only [isLength, Option.some.injEq, exists_eq_left', List.length_drop, List.drop_drop,
    add_assoc] at reaches
  rw [byteAt_eq (by omega), byteAt_eq (by omega), sums 2 (by decide)]
  simp only [Nat.add_zero, ok_bind]
  split
  · next other => exact ⟨false, rfl, by simp [reaches, other]⟩
  next mark =>
  simp only [not_not.mp mark, true_and] at reaches
  split
  · next alone =>
    exact ⟨⟨by omega, by simp [reaches, alone]⟩, Nat.sub_lt_sub_left (by omega) (by omega)⟩
  next other =>
  rw [if_neg other] at reaches
  rw [read, ok_bind]
  split
  · next short => exact ⟨false, rfl, by simp [reaches, short]⟩
  next two =>
  rw [add_assoc, sums _ (by omega), ok_bind]
  split
  · next outside => exact ⟨false, rfl, by simp [reaches]; omega⟩
  have within : length ≤ bytes.1.length - (offset + 2) := by omega
  split
  · next isFrame =>
    split
    · next short => exact ⟨false, rfl, by simp [reaches, isFrame, short]⟩
    obtain ⟨height, -, readHeight, isHeight⟩ := @readU16_ok bytes (offset + 2) 3 (by omega)
    obtain ⟨width, -, readWidth, isWidth⟩ := @readU16_ok bytes (offset + 2) 5 (by omega)
    rw [readHeight, readWidth, ok_bind, ok_bind]
    refine ⟨_, rfl, ?_⟩
    simp [reaches, isFrame, isHeight, isWidth]
    omega
  · next noFrame =>
    refine ⟨⟨by omega, ?_⟩, Nat.sub_lt_sub_left (by omega) (by omega)⟩
    simp [reaches, noFrame, Nat.not_lt.mp two, within]

theorem jpegDimensions_spec : ∃ accepted, jpegDimensions bytes = .ok accepted ∧
    (accepted = true ↔
      bytes.1.take 2 = [0xff, 0xd8] ∧ ReachesFrame (bytes.1.drop 2)) := by
  unfold jpegDimensions
  split
  · refine ⟨false, rfl, by simp, fun starts => ?_⟩
    have := starts.2.length
    rw [List.length_drop] at this
    omega
  rw [rangeIs, if_pos (by simp; omega), ok_bind]
  split
  · next other => exact ⟨false, rfl, by simp_all⟩
  · next starts =>
    have starts : bytes.1.take 2 = [0xff, 0xd8] := by simpa using starts
    simp only [starts, true_and]
    exact run_spec _ _ _ (fun _ => segmentRound_spec) ⟨by omega, Iff.rfl⟩
      (Nat.sub_lt (by omega) (by decide))

theorem bind_total {α β : Type} {x : Except Unit α} {f : α → Except Unit β} (first : ∃ a, x = .ok a)
    (next : ∀ a, ∃ b, f a = .ok b) : ∃ b, x >>= f = .ok b := by
  obtain ⟨a, rfl⟩ := first
  exact next a

/-- No bytes make it panic or run on.  A JPEG is accepted exactly if it starts with the
start-of-image marker and its segments lead to a frame of 128 by 128. -/
theorem avatar_dimensions (bytes : ByteSlice) :
    (∀ webp, ∃ accepted, avatarDimensions bytes webp = .ok accepted) ∧
    (avatarDimensions bytes false = .ok true ↔
      bytes.1.take 2 = [0xff, 0xd8] ∧ ReachesFrame (bytes.1.drop 2)) := by
  obtain ⟨accepted, isJpeg, reaches⟩ := @jpegDimensions_spec bytes
  have jpeg : avatarDimensions bytes false = .ok accepted := by
    simp [avatarDimensions, isJpeg]
  constructor
  · rintro (_ | _)
    · exact ⟨accepted, jpeg⟩
    unfold avatarDimensions
    simp only [Bool.not_true, Bool.false_eq_true, if_false]
    split
    · exact ⟨false, rfl⟩
    have range : ∀ offset part, offset + part.length ≤ 30 →
        ∃ same, rangeIs bytes offset part = .ok same :=
      fun offset part inside => ⟨_, if_pos (by omega)⟩
    have byte : ∀ i < 30, ∃ b, byteAt bytes 0 i = .ok b :=
      fun i inside => ⟨_, byteAt_eq (by omega)⟩
    have width : ∀ a b : UInt8, ∃ n, sumIn 32 (1 + a.toNat + b.toNat <<< 8) = .ok n := by
      intro a b
      have := a.toNat_lt
      have := b.toNat_lt
      exact ⟨_, if_pos (by omega)⟩
    have height : ∀ a b c : UInt8,
        ∃ n, sumIn 32 (1 + a.toNat >>> 6 + b.toNat <<< 2 + c.toNat <<< 10) = .ok n := by
      intro a b c
      have := a.toNat_lt
      have := b.toNat_lt
      have := c.toNat_lt
      exact ⟨_, if_pos (by omega)⟩
    repeat' with_reducible first
      | refine bind_total ?_ fun _ => ?_
      | exact range _ _ (by decide)
      | exact byte _ (by decide)
      | exact width _ _
      | exact height _ _ _
      | exact ⟨_, rfl⟩
      | split
  · rw [jpeg, ← reaches, Except.ok.injEq]

end MetaMesh
