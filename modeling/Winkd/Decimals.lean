import Mathlib

/-!
# Decimals of a fixed width

A number below `10 ^ width`, written with as many digits as the width says: zeros first, then its
digits.  Such a text is determined by its length and its value (`eq_padded_iff`).
-/

namespace Decimals

/-- The decimal of `n`, with zeros before it up to `width` digits. -/
def padded (width n : ℕ) : List Char :=
  List.replicate (width - (Nat.toDigits 10 n).length) '0' ++ Nat.toDigits 10 n

example : padded 6 4207 = "004207".toList := by decide

theorem digit_le {c : Char} (hc : c.isDigit = true) : c.toNat - '0'.toNat ≤ 9 := by
  rw [Char.isDigit, Bool.and_eq_true] at hc
  have h9 : c.toNat ≤ 57 := UInt32.le_iff_toNat_le.mp (of_decide_eq_true hc.2)
  have h0 : '0'.toNat = 48 := rfl
  omega

/-- Digits are told apart by their values. -/
theorem digit_inj {c d : Char} (hc : c.isDigit = true) (hd : d.isDigit = true)
    (h : c.toNat - '0'.toNat = d.toNat - '0'.toNat) : c = d := by
  rw [Char.isDigit, Bool.and_eq_true] at hc hd
  have hc0 : 48 ≤ c.toNat := UInt32.le_iff_toNat_le.mp (of_decide_eq_true hc.1)
  have hd0 : 48 ≤ d.toNat := UInt32.le_iff_toNat_le.mp (of_decide_eq_true hd.1)
  have h0 : '0'.toNat = 48 := rfl
  have hnat : c.toNat = d.toNat := by omega
  exact Char.toNat_inj.mp hnat

theorem ofDigitChars_lt {t : List Char} (ht : ∀ c ∈ t, c.isDigit = true) :
    Nat.ofDigitChars 10 t 0 < 10 ^ t.length := by
  induction t with
  | nil => decide
  | cons c t ih =>
    have hc := digit_le (ht c List.mem_cons_self)
    have hrest := ih fun d hd => ht d (List.mem_cons_of_mem c hd)
    rw [Nat.ofDigitChars_cons, Nat.ofDigitChars_eq_ofDigitChars_zero, List.length_cons, Nat.pow_succ]
    calc 10 ^ t.length * (10 * 0 + (c.toNat - '0'.toNat)) + Nat.ofDigitChars 10 t 0
        < 10 ^ t.length * (10 * 0 + (c.toNat - '0'.toNat)) + 10 ^ t.length := Nat.add_lt_add_left hrest _
      _ = 10 ^ t.length * (c.toNat - '0'.toNat + 1) := by rw [Nat.mul_zero, Nat.zero_add, Nat.mul_succ]
      _ ≤ 10 ^ t.length * 10 := Nat.mul_le_mul_left _ (by omega)

/-- **Digits of one length are told apart by their value.** -/
theorem ofDigitChars_inj {s t : List Char} (hs : ∀ c ∈ s, c.isDigit = true)
    (ht : ∀ c ∈ t, c.isDigit = true) (hlen : s.length = t.length)
    (h : Nat.ofDigitChars 10 s 0 = Nat.ofDigitChars 10 t 0) : s = t := by
  induction s generalizing t with
  | nil => exact (List.length_eq_zero_iff.mp hlen.symm).symm
  | cons c s ih =>
    cases t with
    | nil => cases hlen
    | cons d t =>
      have hlen' : s.length = t.length := Nat.succ.inj hlen
      have hs' := ofDigitChars_lt fun e he => hs e (List.mem_cons_of_mem c he)
      have ht' := ofDigitChars_lt fun e he => ht e (List.mem_cons_of_mem d he)
      rw [Nat.ofDigitChars_cons, Nat.ofDigitChars_eq_ofDigitChars_zero, Nat.mul_zero, Nat.zero_add,
        Nat.ofDigitChars_cons, Nat.ofDigitChars_eq_ofDigitChars_zero (l := t), Nat.mul_zero, Nat.zero_add,
        hlen'] at h
      rw [hlen'] at hs'
      -- the first digit is the quotient, the others are the remainder
      have hquot := congrArg (· / 10 ^ t.length) h
      have hrem := congrArg (· % 10 ^ t.length) h
      simp only [Nat.mul_add_div (Nat.pos_of_neZero (10 ^ t.length)), Nat.div_eq_of_lt hs',
        Nat.div_eq_of_lt ht', Nat.add_zero] at hquot
      simp only [Nat.mul_add_mod, Nat.mod_eq_of_lt hs', Nat.mod_eq_of_lt ht'] at hrem
      rw [digit_inj (hs c List.mem_cons_self) (ht d List.mem_cons_self) hquot,
        ih (fun e he => hs e (List.mem_cons_of_mem c he)) (fun e he => ht e (List.mem_cons_of_mem d he))
          hlen' hrem]

/-! ## What is padded -/

variable {width n : ℕ}

theorem length_padded (hwidth : 0 < width) (hn : n < 10 ^ width) : (padded width n).length = width := by
  have hlen : (Nat.toDigits 10 n).length ≤ width :=
    (Nat.length_toDigits_le_iff (by decide) hwidth).mpr hn
  rw [padded, List.length_append, List.length_replicate]
  omega

theorem isDigit_of_mem_padded {c : Char} (hc : c ∈ padded width n) : c.isDigit = true := by
  rcases List.mem_append.mp hc with hc | hc
  · rw [(List.mem_replicate.mp hc).2]
    decide
  · exact Nat.isDigit_of_mem_toDigits (by decide) (by decide) hc

theorem ofDigitChars_padded : Nat.ofDigitChars 10 (padded width n) 0 = n := by
  rw [padded, Nat.ofDigitChars_append, Nat.ofDigitChars_replicate_zero, Nat.mul_zero,
    Nat.ofDigitChars_ten_toDigits]

/-- **So many digits with a value are its padded decimal**, and nothing else is. -/
theorem eq_padded_iff (hwidth : 0 < width) (hn : n < 10 ^ width) {t : List Char} : t = padded width n ↔
    t.length = width ∧ (∀ c ∈ t, c.isDigit = true) ∧ Nat.ofDigitChars 10 t 0 = n := by
  constructor
  · rintro rfl
    exact ⟨length_padded hwidth hn, fun c hc => isDigit_of_mem_padded hc, ofDigitChars_padded⟩
  · rintro ⟨hlen, hdigits, hvalue⟩
    refine ofDigitChars_inj hdigits (fun c hc => isDigit_of_mem_padded hc) ?_ ?_
    · rw [hlen, length_padded hwidth hn]
    · rw [hvalue, ofDigitChars_padded]

end Decimals
