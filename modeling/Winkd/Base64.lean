import Mathlib.Data.List.Basic
import Mathlib.Tactic.SplitIfs

/-!
# Base64, written

Three bytes are four characters; what is left of one or two bytes is filled up with `=`.  So a text
of `n` bytes has four characters for each three of them or part of three (`length_encode`).
-/

namespace Base64

/-- The character for six bits. -/
def digit (n : ℕ) : Char :=
  Char.ofNat (if n < 26 then 65 + n else if n < 52 then 71 + n else if n < 62 then n - 4
    else if n = 62 then 43 else 47)

def encode : List UInt8 → List Char
  | a :: b :: c :: rest =>
    [digit (a.toNat / 4), digit (16 * (a.toNat % 4) + b.toNat / 16),
      digit (4 * (b.toNat % 16) + c.toNat / 64), digit (c.toNat % 64)] ++ encode rest
  | [a, b] =>
    [digit (a.toNat / 4), digit (16 * (a.toNat % 4) + b.toNat / 16), digit (4 * (b.toNat % 16)), '=']
  | [a] => [digit (a.toNat / 4), digit (16 * (a.toNat % 4)), '=', '=']
  | [] => []

example : encode [77, 97, 110, 77] = "TWFuTQ==".toList := by decide

/-- **Four characters for three bytes**, or for what is left of them. -/
theorem length_encode (bytes : List UInt8) : (encode bytes).length = 4 * ((bytes.length + 2) / 3) := by
  fun_induction encode bytes with
  | case1 a b c rest ih =>
    rw [List.length_append, ih]
    simp only [List.length_cons, List.length_nil]
    omega
  | case2 a b => simp
  | case3 a => simp
  | case4 => rfl

theorem toNat_digit {n : ℕ} (hn : n < 64) : (digit n).toNat =
    if n < 26 then 65 + n else if n < 52 then 71 + n else if n < 62 then n - 4
      else if n = 62 then 43 else 47 := by
  have hsmall : (if n < 26 then 65 + n else if n < 52 then 71 + n else if n < 62 then n - 4
      else if n = 62 then 43 else 47) < 0xD800 := by
    split_ifs <;> omega
  rw [digit, Char.ofNat, dif_pos (Or.inl hsmall)]
  rfl

theorem toNat_digit_lt {n : ℕ} (hn : n < 64) : (digit n).toNat < 128 := by
  rw [toNat_digit hn]
  split_ifs <;> omega

/-- **The text is ASCII.** -/
theorem toNat_lt_of_mem_encode (bytes : List UInt8) : ∀ c ∈ encode bytes, c.toNat < 128 := by
  have hfill : '='.toNat < 128 := by decide
  fun_induction encode bytes with
  | case1 a b c rest ih =>
    have ha := a.toNat_lt
    have hb := b.toNat_lt
    have hc := c.toNat_lt
    refine List.forall_mem_append.2 ⟨?_, ih⟩
    simp only [List.forall_mem_cons, List.not_mem_nil, false_imp_iff, implies_true, and_true]
    exact ⟨toNat_digit_lt (by omega), toNat_digit_lt (by omega), toNat_digit_lt (by omega),
      toNat_digit_lt (by omega)⟩
  | case2 a b =>
    have ha := a.toNat_lt
    have hb := b.toNat_lt
    simp only [List.forall_mem_cons, List.not_mem_nil, false_imp_iff, implies_true, and_true]
    exact ⟨toNat_digit_lt (by omega), toNat_digit_lt (by omega), toNat_digit_lt (by omega), hfill⟩
  | case3 a =>
    have ha := a.toNat_lt
    simp only [List.forall_mem_cons, List.not_mem_nil, false_imp_iff, implies_true, and_true]
    exact ⟨toNat_digit_lt (by omega), toNat_digit_lt (by omega), hfill, hfill⟩
  | case4 => nofun

end Base64
