import Winkd.StringLaws
import Mathlib.Tactic.SplitIfs

/-!
# Hexadecimal digits

A byte is written as two digits, and read back from two digits of either case
(`decode_eq_some_iff`).
-/

namespace Hex
open Winkd.Server

/-- The digit of a number below 16, in lower case. -/
def digit (n : ℕ) : Char := Char.ofNat (if n < 10 then 48 + n else 87 + n)

/-- The same digit in upper case. -/
def upperDigit (n : ℕ) : Char := Char.ofNat (if n < 10 then 48 + n else 55 + n)

/-- What a digit stands for. -/
def value (c : Char) : Option ℕ :=
  if 48 ≤ c.toNat ∧ c.toNat ≤ 57 then some (c.toNat - 48)
  else if 97 ≤ c.toNat ∧ c.toNat ≤ 102 then some (c.toNat - 87)
  else if 65 ≤ c.toNat ∧ c.toNat ≤ 70 then some (c.toNat - 55)
  else none

def encode (bytes : List UInt8) : List Char :=
  bytes.flatMap fun b => [digit (b.toNat / 16), digit (b.toNat % 16)]

/-- Digits in pairs, and nothing else. -/
def decode : List Char → Option (List UInt8)
  | [] => some []
  | [_] => none
  | c :: d :: t =>
    match value c, value d with
    | some x, some y => (decode t).map (UInt8.ofNat (16 * x + y) :: ·)
    | _, _ => none

example : decode "4a6F".toList = some [0x4a, 0x6f] := by decide

/-! ## Single digits -/

theorem toNat_digit {n : ℕ} (hn : n < 16) : (digit n).toNat = if n < 10 then 48 + n else 87 + n := by
  have hsmall : (if n < 10 then 48 + n else 87 + n) < 0xD800 := by split <;> omega
  rw [digit, Char.ofNat, dif_pos (Or.inl hsmall)]
  rfl

theorem toNat_upperDigit {n : ℕ} (hn : n < 16) :
    (upperDigit n).toNat = if n < 10 then 48 + n else 55 + n := by
  have hsmall : (if n < 10 then 48 + n else 55 + n) < 0xD800 := by split <;> omega
  rw [upperDigit, Char.ofNat, dif_pos (Or.inl hsmall)]
  rfl

theorem value_lt {c : Char} {n : ℕ} (h : value c = some n) : n < 16 := by
  unfold value at h
  split_ifs at h
  all_goals
    cases h
    omega

/-- **A character stands for a number just if it is the number's digit**, in either case. -/
theorem value_eq_some_iff {c : Char} {n : ℕ} : value c = some n ↔ n < 16 ∧ c.toLower = digit n := by
  constructor
  · intro h
    have hn := value_lt h
    refine ⟨hn, Char.toNat_inj.1 ?_⟩
    rw [Text.toNat_toLower, toNat_digit hn]
    unfold value at h
    split_ifs at h
    all_goals
      cases h
      split_ifs <;> omega
  · rintro ⟨hn, heq⟩
    have hnat := congrArg Char.toNat heq
    rw [Text.toNat_toLower, toNat_digit hn] at hnat
    unfold value
    split_ifs at hnat ⊢
    all_goals
      first
      | exact congrArg some (by omega)
      | omega

theorem value_upperDigit {n : ℕ} (hn : n < 16) : value (upperDigit n) = some n := by
  rw [value_eq_some_iff]
  refine ⟨hn, Char.toNat_inj.1 ?_⟩
  rw [Text.toNat_toLower, toNat_upperDigit hn, toNat_digit hn]
  split_ifs <;> omega

/-! ## Bytes -/

/-- A byte is its high half and its low half. -/
theorem ofNat_eq_iff {x y : ℕ} (hx : x < 16) (hy : y < 16) (b : UInt8) :
    UInt8.ofNat (16 * x + y) = b ↔ x = b.toNat / 16 ∧ y = b.toNat % 16 := by
  rw [← UInt8.toNat_inj, UInt8.toNat_ofNat_of_lt' (show 16 * x + y < 2 ^ 8 by omega)]
  omega

theorem toLower_eq_digit_iff {c : Char} {x n : ℕ} (hx : value c = some x) (hn : n < 16) :
    c.toLower = digit n ↔ x = n := by
  calc c.toLower = digit n ↔ value c = some n := by rw [value_eq_some_iff, and_iff_right hn]
    _ ↔ x = n := by rw [hx, Option.some_inj]

/-- **What is decoded is the text's bytes in hexadecimal**, in letters of any case. -/
theorem decode_eq_some_iff {t : List Char} {bytes : List UInt8} :
    decode t = some bytes ↔ t.map Char.toLower = encode bytes := by
  have hencode : ∀ b bytes, encode (b :: bytes) =
      digit (b.toNat / 16) :: digit (b.toNat % 16) :: encode bytes := fun _ _ => rfl
  fun_induction decode t generalizing bytes with
  | case1 => cases bytes <;> simp [encode]
  | case2 c => cases bytes <;> simp [encode]
  | case3 c d t x y hy hx ih =>
    cases bytes with
    | nil => simp [encode]
    | cons b bytes =>
      have hb := b.toNat_lt
      have hrest : decode t = some bytes ↔ t.map Char.toLower = encode bytes := ih
      rw [hencode, List.map_cons, List.map_cons, List.cons.injEq, List.cons.injEq, ← hrest,
        toLower_eq_digit_iff hx (by omega), toLower_eq_digit_iff hy (by omega), ← and_assoc,
        ← ofNat_eq_iff (value_lt hx) (value_lt hy), Option.map_eq_some_iff]
      constructor
      · rintro ⟨rest, hdecode, heq⟩
        obtain ⟨hbyte, rfl⟩ := List.cons.inj heq
        exact ⟨hbyte, hdecode⟩
      · rintro ⟨hbyte, hdecode⟩
        exact ⟨bytes, hdecode, congrArg (· :: bytes) hbyte⟩
  | case4 c d t hno =>
    cases bytes with
    | nil => simp [encode]
    | cons b bytes =>
      have hb := b.toNat_lt
      refine iff_of_false nofun fun h => ?_
      rw [hencode, List.map_cons, List.map_cons, List.cons.injEq, List.cons.injEq] at h
      exact hno _ _ (value_eq_some_iff.2 ⟨by omega, h.1⟩) (value_eq_some_iff.2 ⟨by omega, h.2.1⟩)

end Hex
