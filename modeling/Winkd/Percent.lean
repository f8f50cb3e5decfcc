import Winkd.Hex
import Winkd.UnicodeText

/-!
# Percent-encoding

A text is encoded character by character: one that is kept stands for itself, and another is written as
the octets of its UTF-8, each a percent sign and two digits.  The decoder is that of JavaScript, which
takes the number of octets from the first one, and refuses what is no character.  It reads back whatever
was encoded (`decode_encode`).
-/

namespace Percent
open UnicodeText

/-- One octet. -/
def escape (b : UInt8) : List Char := ['%', Hex.upperDigit (b.toNat / 16), Hex.upperDigit (b.toNat % 16)]

def encodeChar (keep : Char → Bool) (c : Char) : List Char :=
  if keep c then [c] else (octetsOf c.toNat).flatMap escape

def encode (keep : Char → Bool) (t : List Char) : List Char := t.flatMap (encodeChar keep)

/-- As many escapes as are asked for, from the front. -/
def takeEscapes : ℕ → List Char → Option (List UInt8)
  | 0, _ => some []
  | n + 1, '%' :: c :: d :: t =>
    match Hex.value c, Hex.value d with
    | some x, some y => (takeEscapes n t).map (UInt8.ofNat (16 * x + y) :: ·)
    | _, _ => none
  | _, _ => none

/-- How many octets a character has that starts with this one. -/
def octetCount (b : UInt8) : ℕ :=
  if b.toNat < 0x80 then 1
  else if b.toNat < 0xC0 then 0
  else if b.toNat < 0xE0 then 2
  else if b.toNat < 0xF0 then 3
  else if b.toNat < 0xF8 then 4
  else 0

/-- The character with these octets, if there is one. -/
def charOf (octets : List UInt8) : Option Char :=
  match decodeFrom none octets with
  | [n] => if octetsOf n = octets then some (Char.ofNat n) else none
  | _ => none

/-- The character that is escaped at the front, and the length of its escapes. -/
def escapedChar (t : List Char) : Option (Char × ℕ) :=
  match takeEscapes 1 t with
  | some [b] => ((takeEscapes (octetCount b) t).bind charOf).map fun c => (c, 3 * octetCount b)
  | _ => none

/-- The first `skip` characters have been read. -/
def decodeAfter : (skip : ℕ) → List Char → Option (List Char)
  | _, [] => some []
  | skip + 1, _ :: t => decodeAfter skip t
  | 0, c :: t =>
    if c = '%' then
      match escapedChar (c :: t) with
      | some (d, n) => (decodeAfter (n - 1) t).map (d :: ·)
      | none => none
    else (decodeAfter 0 t).map (c :: ·)

/-- A percent sign that no character follows makes the text one that is not decoded. -/
def decode (t : List Char) : Option (List Char) := decodeAfter 0 t

example : decode "a%23%E2%82%ac".toList = some "a#€".toList ∧ decode "%E2%82".toList = none := by decide

/-! ## Octets -/

theorem takeEscapes_escape (n : ℕ) (b : UInt8) (t : List Char) :
    takeEscapes (n + 1) (escape b ++ t) = (takeEscapes n t).map (b :: ·) := by
  have hb := b.toNat_lt
  have hbyte : UInt8.ofNat (16 * (b.toNat / 16) + b.toNat % 16) = b :=
    (Hex.ofNat_eq_iff (by omega) (by omega) b).2 ⟨rfl, rfl⟩
  show takeEscapes (n + 1)
    ('%' :: Hex.upperDigit (b.toNat / 16) :: Hex.upperDigit (b.toNat % 16) :: t) = _
  rw [takeEscapes, Hex.value_upperDigit (by omega), Hex.value_upperDigit (by omega)]
  show (takeEscapes n t).map (UInt8.ofNat (16 * (b.toNat / 16) + b.toNat % 16) :: ·) = _
  rw [hbyte]

theorem takeEscapes_flatMap (octets : List UInt8) (t : List Char) :
    takeEscapes octets.length (octets.flatMap escape ++ t) = some octets := by
  induction octets with
  | nil => rfl
  | cons b octets ih =>
    rw [List.flatMap_cons, List.append_assoc, List.length_cons, takeEscapes_escape, ih]
    rfl

theorem length_flatMap_escape (octets : List UInt8) :
    (octets.flatMap escape).length = 3 * octets.length := by
  induction octets with
  | nil => rfl
  | cons b octets ih =>
    rw [List.flatMap_cons, List.length_append, ih, List.length_cons]
    show 3 + _ = _
    omega

/-! ## Characters -/

theorem isScalar_toNat (c : Char) : IsScalar c.toNat := by
  have hvalid := c.valid
  unfold IsScalar
  unfold UInt32.isValidChar Nat.isValidChar at hvalid
  show c.val.toNat < _ ∨ _ ≤ c.val.toNat ∧ c.val.toNat < _
  omega

theorem charOf_octetsOf (c : Char) : charOf (octetsOf c.toNat) = some c := by
  have hdecode : decodeFrom none (octetsOf c.toNat) = [c.toNat] := by
    have h := decodeFrom_octetsOf (isScalar_toNat c) []
    rwa [List.append_nil] at h
  rw [charOf, hdecode]
  show (if octetsOf c.toNat = octetsOf c.toNat then some (Char.ofNat c.toNat) else none) = _
  rw [if_pos rfl, Char.ofNat_toNat]

/-- The first octet says how many there are. -/
theorem octetsOf_eq_cons {n : ℕ} (hn : IsScalar n) :
    ∃ b octets, octetsOf n = b :: octets ∧ octetCount b = (b :: octets).length := by
  unfold IsScalar at hn
  have htoNat : ∀ {m : ℕ}, m < 256 → (UInt8.ofNat m).toNat = m := fun h => UInt8.toNat_ofNat_of_lt' h
  unfold octetsOf
  split_ifs with h1 h2 h3
  · refine ⟨_, _, rfl, ?_⟩
    rw [octetCount, htoNat (by omega), if_pos h1]
    rfl
  · refine ⟨_, _, rfl, ?_⟩
    rw [octetCount, htoNat (by omega), if_neg (by omega), if_neg (by omega), if_pos (by omega)]
    rfl
  · refine ⟨_, _, rfl, ?_⟩
    rw [octetCount, htoNat (by omega), if_neg (by omega), if_neg (by omega), if_neg (by omega),
      if_pos (by omega)]
    rfl
  · refine ⟨_, _, rfl, ?_⟩
    rw [octetCount, htoNat (by omega), if_neg (by omega), if_neg (by omega), if_neg (by omega),
      if_neg (by omega), if_pos (by omega)]
    rfl

theorem escapedChar_append (c : Char) (t : List Char) :
    escapedChar ((octetsOf c.toNat).flatMap escape ++ t) =
      some (c, ((octetsOf c.toNat).flatMap escape).length) := by
  obtain ⟨b, octets, heq, hcount⟩ := octetsOf_eq_cons (isScalar_toNat c)
  have hfirst : takeEscapes 1 ((octetsOf c.toNat).flatMap escape ++ t) = some [b] := by
    rw [heq, List.flatMap_cons, List.append_assoc, takeEscapes_escape]
    rfl
  have hall : takeEscapes (octetCount b) ((octetsOf c.toNat).flatMap escape ++ t) =
      some (octetsOf c.toNat) := by
    rw [hcount, ← heq]
    exact takeEscapes_flatMap _ t
  rw [escapedChar, hfirst]
  show ((takeEscapes (octetCount b) _).bind charOf).map (fun c => (c, 3 * octetCount b)) = _
  rw [hall, Option.bind_some, charOf_octetsOf, length_flatMap_escape, hcount, ← heq]
  rfl

theorem decodeAfter_skip (s t : List Char) : decodeAfter s.length (s ++ t) = decodeAfter 0 t := by
  induction s with
  | nil => rfl
  | cons c s ih => exact ih

/-! ## Texts -/

section
variable {keep : Char → Bool} (hkeep : keep '%' = false)
include hkeep

theorem decode_encodeChar (c : Char) (t : List Char) :
    decode (encodeChar keep c ++ t) = (decode t).map (c :: ·) := by
  rw [encodeChar]
  split
  next hc =>
    have hne : c ≠ '%' := by
      rintro rfl
      exact Bool.false_ne_true (hkeep.symm.trans hc)
    show decodeAfter 0 (c :: t) = _
    rw [decodeAfter, if_neg hne]
    rfl
  next hc =>
    have hescaped := escapedChar_append c t
    obtain ⟨b, octets, heq, -⟩ := octetsOf_eq_cons (isScalar_toNat c)
    obtain ⟨s, hs⟩ : ∃ s, (octetsOf c.toNat).flatMap escape = '%' :: s := ⟨_, by rw [heq]; rfl⟩
    rw [hs] at hescaped ⊢
    show decodeAfter 0 ('%' :: (s ++ t)) = _
    rw [decodeAfter, if_pos rfl]
    rw [List.cons_append] at hescaped
    rw [hescaped]
    show (decodeAfter s.length (s ++ t)).map (c :: ·) = _
    rw [decodeAfter_skip]
    rfl

/-- **What was encoded is read back.** -/
theorem decode_encode (t : List Char) : decode (encode keep t) = some t := by
  induction t with
  | nil => rfl
  | cons c t ih =>
    have hcons : encode keep (c :: t) = encodeChar keep c ++ encode keep t := rfl
    rw [hcons, decode_encodeChar hkeep, ih]
    rfl

end

/-- **What an encoded text consists of**: characters that are kept, percent signs and digits. -/
theorem mem_encode {keep : Char → Bool} {t : List Char} {c : Char} (hc : c ∈ encode keep t) :
    keep c = true ∨ c = '%' ∨ ∃ n < 16, c = Hex.upperDigit n := by
  obtain ⟨d, -, hd⟩ := List.mem_flatMap.1 hc
  rw [encodeChar] at hd
  split at hd
  next hkept => exact .inl (List.mem_singleton.1 hd ▸ hkept)
  next =>
    obtain ⟨b, -, hb⟩ := List.mem_flatMap.1 hd
    have hlt := b.toNat_lt
    obtain rfl | rfl | rfl : c = '%' ∨ c = Hex.upperDigit (b.toNat / 16) ∨
        c = Hex.upperDigit (b.toNat % 16) := by
      simpa [escape] using hb
    · exact .inr (.inl rfl)
    · exact .inr (.inr ⟨_, by omega, rfl⟩)
    · exact .inr (.inr ⟨_, by omega, rfl⟩)

end Percent
