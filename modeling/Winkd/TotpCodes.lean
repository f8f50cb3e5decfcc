import Winkd.Decimals
import Winkd.StringLaws
import Winkd.Service

/-!
# Which texts are codes

`totp::verify` parses the code it is given and compares numbers.  What it accepts is nevertheless
the six digits that an authenticator shows, leading zeros included, of the current step or of one
next to it (`verify_exact`).
-/

namespace Winkd.Server.Totp

theorem offset_le (b : UInt8) : (b &&& 0x0f).toNat ≤ 15 := by
  rw [UInt8.toNat_and]
  exact Nat.and_le_right

/-- Four bytes from an offset below 16 are within the MAC. -/
theorem offset_lt (result : Vector UInt8 20) {i : ℕ} (hi : i < 4) :
    (result[19] &&& 0x0f).toNat + i < 20 := by
  have hoffset := offset_le result[19]
  omega

/-- **No byte past the end is read**, and `hotp` is what is read. -/
theorem truncated_hotp (C : Crates) (secret : List UInt8) (counter : ℕ) :
    truncated (C.hmacSha1 secret (toBeBytes counter)) = some (hotp C secret counter) := by
  generalize hmac : C.hmacSha1 secret (toBeBytes counter) = result
  have hbyte : ∀ i < 4, result[(result[19] &&& 0x0f).toNat + i]? =
      some (result.toArray.getD ((result[19] &&& 0x0f).toNat + i) 0) := by
    intro i hi
    have hlt := offset_lt result hi
    rw [Vector.getElem?_eq_getElem hlt, Array.getD_eq_getD_getElem?,
      Array.getElem?_eq_getElem (by rw [result.size_toArray]; exact hlt)]
    rfl
  have h0 := hbyte 0 (by decide)
  rw [Nat.add_zero] at h0
  simp only [truncated, h0, hbyte 1 (by decide), hbyte 2 (by decide), hbyte 3 (by decide), hotp, hmac,
    Option.bind_eq_bind, Option.bind_some, Nat.add_zero]

theorem hotp_lt (C : Crates) (secret : List UInt8) (counter : ℕ) : hotp C secret counter < 10 ^ 6 :=
  Nat.mod_lt _ (by decide)

/-! ## The window -/

/-- A step is the one of floor division, as long as nothing wraps or saturates. -/
theorem stepAt_eq {now : ℕ} {delta : Int} (hnow : (now : Int) ≤ 9223372036854775807)
    (hlow : 0 ≤ (now : Int) + delta * 30) (hhigh : (now : Int) + delta * 30 ≤ 9223372036854775807) :
    stepAt now delta = (((now : Int) + delta * 30) / 30).toNat := by
  have hi64 : asI64 now = now := by
    unfold asI64
    exact Int.bmod_eq_of_le_mul_two (by omega) (by omega)
  have hsum : saturatingAdd now (delta * STEP_SECS) = now + delta * 30 := by
    unfold saturatingAdd STEP_SECS
    norm_num
    omega
  rw [stepAt, hi64, hsum, asU64]
  norm_num
  unfold STEP_SECS
  omega

theorem window_eq {now : ℕ} (hlow : 30 ≤ now) (hhigh : now ≤ 2 ^ 63 - 31) :
    window now = [now / 30 - 1, now / 30, now / 30 + 1] := by
  norm_num at hhigh
  have hnow : (now : Int) ≤ 9223372036854775807 := by omega
  simp only [window, List.map_cons, List.map_nil, List.cons.injEq, and_true]
  refine ⟨?_, ?_, ?_⟩
  · rw [stepAt_eq hnow (by omega) (by omega)]
    omega
  · rw [stepAt_eq hnow (by omega) (by omega)]
    omega
  · rw [stepAt_eq hnow (by omega) (by omega)]
    omega

/-! ## The texts -/

/-- Six digits with the value of a code are the code. -/
theorem isCodeOf_iff {C : Crates} {secretB32 code : Text} {step : ℕ} :
    IsCodeOf C secretB32 code step ↔ ∃ secret, C.base32Decode secretB32 = some secret ∧
      code.trim = Decimals.padded 6 (hotp C secret step) := by
  have hcode : isCode code.trim = true ↔ code.trim.length = 6 ∧ ∀ c ∈ code.trim, c.isDigit = true := by
    rw [isCode, Bool.and_eq_true, beq_iff_eq, List.all_eq_true]
    refine and_congr_left fun hdigits => ?_
    rw [Text.len_eq_length fun c hc => Text.toNat_lt_of_isDigit (hdigits c hc)]
  rw [IsCodeOf, hcode]
  constructor
  · rintro ⟨⟨hlen, hdigits⟩, secret, hsecret, hvalue⟩
    refine ⟨secret, hsecret, ?_⟩
    exact (Decimals.eq_padded_iff (by decide) (hotp_lt C secret step)).mpr ⟨hlen, hdigits, hvalue.symm⟩
  · rintro ⟨secret, hsecret, heq⟩
    obtain ⟨hlen, hdigits, hvalue⟩ :=
      (Decimals.eq_padded_iff (by decide) (hotp_lt C secret step)).mp heq
    exact ⟨⟨hlen, hdigits⟩, secret, hsecret, hvalue.symm⟩

/-- **A text is accepted just if it is, trimmed, the six digits of the current step or of one next to
it.**  The truncation reads within every MAC, and is below a million. -/
theorem verify_exact (C : Crates) {now : ℕ} (hlow : 30 ≤ now) (hhigh : now ≤ 2 ^ 63 - 31)
    (secretB32 code : Text) :
    (verify C now secretB32 code = true ↔ ∃ secret, C.base32Decode secretB32 = some secret ∧
      ∃ step ∈ [now / 30 - 1, now / 30, now / 30 + 1],
        code.trim = Decimals.padded 6 (hotp C secret step)) ∧
    (∀ (secret : List UInt8) (step : ℕ),
      truncated (C.hmacSha1 secret (toBeBytes step)) = some (hotp C secret step)) ∧
    ∀ result : Vector UInt8 20, (∀ i < 4, (result[19] &&& 0x0f).toNat + i < 20) ∧
      ∃ n < 10 ^ 6, truncated result = some n := by
  refine ⟨?_, truncated_hotp C, fun result => ⟨fun i hi => offset_lt result hi, ?_⟩⟩
  · rw [verify_iff, window_eq hlow hhigh]
    simp only [isCodeOf_iff]
    constructor
    · rintro ⟨step, hstep, secret, hsecret, heq⟩
      exact ⟨secret, hsecret, step, hstep, heq⟩
    · rintro ⟨secret, hsecret, step, hstep, heq⟩
      exact ⟨step, hstep, secret, hsecret, heq⟩
  · have hsome := truncated_hotp { C with hmacSha1 := fun _ _ => result } [] 0
    exact ⟨_, hotp_lt _ [] 0, hsome⟩

/-- A MAC that is truncated to 42 is the code 000042, with its zeros. -/
theorem verify_exact_leading_zeros :
    verify { Sample.crates with hmacSha1 := fun _ _ => Sample.mac (42 * 256 ^ 16) } 30 Sample.secret
      " 000042".toList = true := by
  let C : Crates := { Sample.crates with hmacSha1 := fun _ _ => Sample.mac (42 * 256 ^ 16) }
  obtain ⟨hverify, -⟩ := verify_exact C (Nat.le_refl 30) (by decide) Sample.secret
    " 000042".toList
  exact hverify.mpr ⟨Sample.key, by decide, 1, by decide, by decide⟩

end Winkd.Server.Totp
