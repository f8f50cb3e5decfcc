import Winkd.Strings
import Mathlib.Data.Vector.Basic

/-!
# Time-based one-time passwords

`totp.rs`.  A code is checked against the codes of the current 30-second step and
of the steps before and after it (`verify_iff`), and against nothing else: what was
accepted before plays no part.

The machine integers are `u64` and `i64`; a `u64` is a natural number below 2⁶⁴,
and the conversions between them wrap as Rust's `as` does.
-/

namespace Winkd.Server

/-- What the server uses of other crates: HMAC-SHA1, SHA-256 in hex, Base32 without
padding, Argon2 and its hash format, URL encoding, and the classification of
letters. -/
structure Crates where
  hmacSha1 : (key message : List UInt8) → Vector UInt8 20
  sha256Hex : Text → Text
  base32Encode : List UInt8 → Text
  base32Decode : Text → Option (List UInt8)
  /-- `PasswordHash::new` accepts the text. -/
  isPasswordHash : Text → Bool
  verifyPassword : (password hash : Text) → Bool
  hashPassword : (password salt : Text) → Except Text Text
  urlEncode : Text → Text
  urlDecode : Text → Option Text
  /-- `RedirectUrl::new` accepts the text. -/
  isRedirectUrl : Text → Bool
  isUppercase : Char → Bool
  isLowercase : Char → Bool

namespace Totp

def STEP_SECS : ℕ := 30

/-- `n as i64`, for a `u64`. -/
def asI64 (n : ℕ) : Int := Int.bmod n (2 ^ 64)

/-- `i as u64`. -/
def asU64 (i : Int) : ℕ := (i % 2 ^ 64).toNat

/-- `i64::saturating_add`. -/
def saturatingAdd (a b : Int) : Int := max (-2 ^ 63) (min (2 ^ 63 - 1) (a + b))

/-- `u64::to_be_bytes`. -/
def toBeBytes (n : ℕ) : List UInt8 := (List.range 8).map fun i => UInt8.ofNat (n / 256 ^ (7 - i))

variable (C : Crates)

/-- `hotp`: the dynamic truncation of a MAC of the counter, to six digits. -/
def hotp (secret : List UInt8) (counter : ℕ) : ℕ :=
  let result := C.hmacSha1 secret (toBeBytes counter)
  let offset := (result[19] &&& 0x0f).toNat
  let byte i := result.toArray.getD (offset + i) 0
  let code := (byte 0 &&& 0x7f).toNat * 2 ^ 24 + (byte 1).toNat * 2 ^ 16 + (byte 2).toNat * 2 ^ 8 +
    (byte 3).toNat
  code % 10 ^ 6

/-- The dynamic truncation of RFC 4226; reading past the end of the MAC gives none. -/
def truncated (result : Vector UInt8 20) : Option ℕ := do
  let offset := (result[19] &&& 0x0f).toNat
  let b0 ← result[offset]?
  let b1 ← result[offset + 1]?
  let b2 ← result[offset + 2]?
  let b3 ← result[offset + 3]?
  let code := (b0 &&& 0x7f).toNat * 2 ^ 24 + b1.toNat * 2 ^ 16 + b2.toNat * 2 ^ 8 + b3.toNat
  some (code % 10 ^ 6)

/-- The step `delta` steps from the one at `now`. -/
def stepAt (now : ℕ) (delta : Int) : ℕ :=
  asU64 (saturatingAdd (asI64 now) (delta * STEP_SECS)) / STEP_SECS

/-- The steps whose codes are accepted at `now`. -/
def window (now : ℕ) : List ℕ := [-1, 0, 1].map (stepAt now)

/-- Six digits. -/
def isCode (code : Text) : Bool := code.len == 6 && code.all Char.isDigit

/-- `verify`, when `current_unix_secs()` is `now`. -/
def verify (now : ℕ) (secretB32 code : Text) : Bool :=
  let code := code.trim
  if isCode code then
    match Text.parseUnsigned (2 ^ 32) code with
    | none => false
    | some expected =>
      match C.base32Decode secretB32 with
      | none => false
      | some secret => (window now).any fun step => hotp C secret step == expected
  else false

/-- `generate_secret`, from the twenty bytes it draws. -/
def generateSecret (bytes : List UInt8) : Text := C.base32Encode bytes

/-- `totp_uri`. -/
def totpUri (secret account issuer : Text) : Text :=
  "otpauth://totp/".toList ++ C.urlEncode issuer ++ ":".toList ++ C.urlEncode account ++
    "?secret=".toList ++ secret ++ "&issuer=".toList ++ C.urlEncode issuer ++
    "&algorithm=SHA1&digits=6&period=30".toList

/-- The code is the one of `step` for the secret. -/
def IsCodeOf (secretB32 code : Text) (step : ℕ) : Prop :=
  isCode code.trim = true ∧ ∃ secret, C.base32Decode secretB32 = some secret ∧
    hotp C secret step = Text.digitsValue code.trim

variable {C}

/-- **`verify` accepts the codes of the three steps around `now`**, and nothing else. -/
theorem verify_iff {now : ℕ} {secretB32 code : Text} :
    verify C now secretB32 code = true ↔ ∃ step ∈ window now, IsCodeOf C secretB32 code step := by
  by_cases hc : isCode code.trim = true
  · have hd : code.trim.all Char.isDigit = true := by
      rw [isCode, Bool.and_eq_true] at hc
      exact hc.2
    have hlen : code.trim.len = 6 := by
      rw [isCode, Bool.and_eq_true, beq_iff_eq] at hc
      exact hc.1
    have hne : code.trim ≠ [] := by
      intro h
      rw [h] at hlen
      cases hlen
    have hlt : Text.digitsValue code.trim < 2 ^ 32 :=
      calc Text.digitsValue code.trim < 10 ^ code.trim.length := Text.digitsValue_lt hd
        _ ≤ 10 ^ 6 := Nat.pow_le_pow_right (by omega) (hlen ▸ Text.length_le_len _)
        _ < 2 ^ 32 := by decide
    rw [verify, if_pos hc, Text.parseUnsigned_digits hd hne hlt]
    cases hs : C.base32Decode secretB32 with
    | none =>
      constructor
      · intro h
        cases h
      · rintro ⟨_, -, -, secret, hsecret, -⟩
        exact absurd (hs.symm.trans hsecret) (by simp)
    | some secret =>
      simp only [List.any_eq_true, beq_iff_eq]
      constructor
      · rintro ⟨step, hstep, heq⟩
        exact ⟨step, hstep, hc, secret, hs, heq⟩
      · rintro ⟨step, hstep, -, secret', hsecret, heq⟩
        obtain rfl := Option.some.inj (hs.symm.trans hsecret)
        exact ⟨step, hstep, heq⟩
  · rw [verify, if_neg hc]
    constructor
    · intro h
      cases h
    · rintro ⟨_, -, hcode, -⟩
      exact absurd hcode hc

end Totp
end Winkd.Server
