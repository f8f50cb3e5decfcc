import Winkd.StringLaws
import Winkd.Service

/-!
# Recovery codes on paper

A recovery code is written down and typed in again: in capitals, with blanks or hyphens between its
groups.  `normalize_2fa_code` undoes whatever was done to it that way (`normalize_transcribed`), and a
code is never taken for the six digits of an authenticator, so it is looked up by the hash it was
stored with (`transcribed_accepted`).
-/

namespace Winkd.Server

/-! ## The codes -/

def recoveryCodeCount : ℕ := 10

def recoveryCodeLen : ℕ := 32

def charset : Text := "abcdefghijklmnopqrstuvwxyz0123456789".toList

/-- `generate_recovery_codes`, from the indices it draws: the codes, and their hashes. -/
def generateRecoveryCodes (C : Crates) (genRange : ℕ → ℕ → Fin charset.length) : List Text × List Text :=
  let plaintext := (List.range recoveryCodeCount).map fun i =>
    (List.range recoveryCodeLen).map fun j => charset.get (genRange i j)
  (plaintext, plaintext.map C.sha256Hex)

/-- A text is a transcription of a code: letters in either case, and whitespace and hyphens anywhere. -/
inductive Transcribed : Text → Text → Prop where
  | done : Transcribed [] []
  | inserted {code s : Text} (c : Char) (hc : Text.isWhitespace c = true ∨ c = '-')
      (rest : Transcribed code s) : Transcribed code (c :: s)
  | written {code s : Text} (c d : Char) (hcase : d.toLower = c.toLower) (rest : Transcribed code s) :
      Transcribed (c :: code) (d :: s)

/-! ## Normalization -/

/-- What `normalize_2fa_code` keeps. -/
def isCodeChar (c : Char) : Bool := !Text.isWhitespace c && c != '-'

theorem isCodeChar_of_isWhitespace {c : Char} (hc : Text.isWhitespace c = true) : isCodeChar c = false := by
  rw [isCodeChar, hc]
  rfl

theorem isCodeChar_toLower (c : Char) : isCodeChar c.toLower = isCodeChar c := by
  have hhyphen : c.toLower = '-' ↔ c = '-' := by
    by_cases h : 65 ≤ c.toNat ∧ c.toNat ≤ 90
    · refine iff_of_false (fun heq => ?_) fun heq => ?_
      · have hnat := congrArg Char.toNat heq
        rw [Text.toNat_toLower, if_pos h, show '-'.toNat = 45 from rfl] at hnat
        omega
      · have hnat := congrArg Char.toNat heq
        rw [show '-'.toNat = 45 from rfl] at hnat
        omega
    · rw [Text.toLower_eq_self h]
  have hsame : (c.toLower == '-') = (c == '-') := by
    rw [Bool.eq_iff_iff, beq_iff_eq, beq_iff_eq]
    exact hhyphen
  rw [isCodeChar, isCodeChar, Text.isWhitespace_toLower, bne, bne, hsame]

/-- Trimming drops nothing that would be kept. -/
theorem normalize_eq (s : Text) : normalize2faCode s = Text.toAsciiLowercase (s.filter isCodeChar) := by
  rw [normalize2faCode]
  exact congrArg Text.toAsciiLowercase (Text.filter_trim (fun c hc => isCodeChar_of_isWhitespace hc) s)

/-- **Normalization is idempotent.** -/
theorem normalize_normalize (s : Text) : normalize2faCode (normalize2faCode s) = normalize2faCode s := by
  have hkept : ∀ c ∈ Text.toAsciiLowercase (s.filter isCodeChar), isCodeChar c = true := by
    intro c hc
    obtain ⟨d, hd, rfl⟩ := List.mem_map.mp hc
    rw [isCodeChar_toLower]
    exact (List.mem_filter.mp hd).2
  rw [normalize_eq (normalize2faCode s), normalize_eq s, List.filter_eq_self.mpr hkept, Text.toAsciiLowercase,
    Text.toAsciiLowercase, List.map_map]
  exact List.map_congr_left fun c _ => Text.toLower_toLower c

/-- **A transcription normalizes to the code**, if that is in lower case and has no hyphens. -/
theorem normalize_transcribed {code s : Text} (h : Transcribed code s)
    (hcode : ∀ c ∈ code, c.toLower = c ∧ isCodeChar c = true) : normalize2faCode s = code := by
  rw [normalize_eq]
  induction h with
  | done => rfl
  | inserted c hc rest ih =>
    have hdropped : isCodeChar c = false := by
      rcases hc with hc | rfl
      · exact isCodeChar_of_isWhitespace hc
      · decide
    rw [List.filter_cons_of_neg (by rw [hdropped]; exact Bool.false_ne_true)]
    exact ih hcode
  | written c d hcase rest ih =>
    obtain ⟨hlower, hchar⟩ := hcode c List.mem_cons_self
    have hkept : isCodeChar d = true := by
      rw [← isCodeChar_toLower, hcase, isCodeChar_toLower, hchar]
    rw [List.filter_cons_of_pos hkept, Text.toAsciiLowercase, List.map_cons, hcase, hlower]
    exact congrArg (c :: ·) (ih fun e he => hcode e (List.mem_cons_of_mem c he))

/-! ## The branch -/

theorem mem_charset {c : Char} (hc : c ∈ charset) :
    (c.toLower = c ∧ isCodeChar c = true) ∧ c.toNat < 128 := by
  have hall : charset.all fun c => decide ((c.toLower = c ∧ isCodeChar c = true) ∧ c.toNat < 128) := by
    decide
  exact of_decide_eq_true (List.all_eq_true.mp hall c hc)

/-- A code has 32 characters of the alphabet. -/
theorem of_mem_generated {C : Crates} {genRange : ℕ → ℕ → Fin charset.length} {code : Text}
    (h : code ∈ (generateRecoveryCodes C genRange).1) :
    code.length = recoveryCodeLen ∧ ∀ c ∈ code, c ∈ charset := by
  obtain ⟨i, -, rfl⟩ := List.mem_map.mp h
  refine ⟨?_, fun c hc => ?_⟩
  · rw [List.length_map, List.length_range]
  · obtain ⟨j, -, rfl⟩ := List.mem_map.mp hc
    exact List.get_mem charset _

theorem generated_hashes (C : Crates) (genRange : ℕ → ℕ → Fin charset.length) :
    (generateRecoveryCodes C genRange).2 = (generateRecoveryCodes C genRange).1.map C.sha256Hex := rfl

theorem isTotpCode_generated {C : Crates} {genRange : ℕ → ℕ → Fin charset.length} {code : Text}
    (h : code ∈ (generateRecoveryCodes C genRange).1) : isTotpCode code = false := by
  obtain ⟨hlen, hchars⟩ := of_mem_generated h
  rw [isTotpCode, Text.len_eq_length fun c hc => (mem_charset (hchars c hc)).2, hlen]
  rfl

/-- A stored hash is found. -/
theorem run_consumeRecoveryCode {b : Backend} {userId : Id} {codeHash : Text}
    (h : ∃ row ∈ b.recoveryCodes, row.userId = userId ∧ row.codeHash = codeHash) :
    ((consumeRecoveryCode userId codeHash).run answer b).1 = .ok true := by
  obtain ⟨row, hrow, hmatches⟩ := h
  have hfound : (b.recoveryCodes.find? fun c => c.userId = userId ∧ c.codeHash = codeHash).isSome = true :=
    List.find?_isSome.mpr ⟨row, hrow, decide_eq_true hmatches⟩
  obtain ⟨r, hr⟩ := Option.isSome_iff_exists.mp hfound
  have hredeemed : b.redeemed userId codeHash = [r] := by
    rw [Backend.redeemed, hr]
    rfl
  show Except.ok (decide (0 < (b.redeemed userId codeHash).length)) = .ok true
  rw [hredeemed]
  rfl

/-- **A recovery code survives any transcription**: it is normalized to the code it was, taken for a
recovery code, and found by the hash it is stored with.  And normalizing twice is normalizing once. -/
theorem transcribed_accepted (C : Crates) (genRange : ℕ → ℕ → Fin charset.length) {code s : Text}
    (hcode : code ∈ (generateRecoveryCodes C genRange).1) (hs : Transcribed code s) :
    normalize2faCode s = code ∧ isTotpCode (normalize2faCode s) = false ∧
      (code, C.sha256Hex (normalize2faCode s)) ∈
        (generateRecoveryCodes C genRange).1.zip (generateRecoveryCodes C genRange).2 ∧
      (∀ (b : Backend) (userId : Id) (secret : Text),
        (∃ row ∈ b.recoveryCodes, row.userId = userId ∧ row.codeHash = C.sha256Hex code) →
          verifyTotpOrRecovery C userId secret s = consumeRecoveryCode userId (C.sha256Hex code) ∧
            ((verifyTotpOrRecovery C userId secret s).run answer b).1 = .ok true) ∧
      ∀ t, normalize2faCode (normalize2faCode t) = normalize2faCode t := by
  have hnormal : normalize2faCode s = code :=
    normalize_transcribed hs fun c hc => (mem_charset ((of_mem_generated hcode).2 c hc)).1
  have hbranch := isTotpCode_generated hcode
  refine ⟨hnormal, hnormal.symm ▸ hbranch, ?_, fun b userId secret hstored => ?_, normalize_normalize⟩
  · rw [hnormal, generated_hashes, ← List.map_prod_left_eq_zip]
    exact List.mem_map.mpr ⟨code, hcode, rfl⟩
  · have heq : verifyTotpOrRecovery C userId secret s = consumeRecoveryCode userId (C.sha256Hex code) := by
      rw [verifyTotpOrRecovery, hnormal, hbranch]
      rfl
    exact ⟨heq, heq ▸ run_consumeRecoveryCode hstored⟩

/-- A code in capitals, in two groups, is accepted where the code is stored. -/
theorem transcribed_accepted_capitals :
    ((verifyTotpOrRecovery Sample.crates 0 Sample.secret
      (List.replicate 16 'A' ++ '-' :: List.replicate 16 'A')).run answer
        { Backend.init 0 with recoveryCodes := [⟨0, 0, Sample.crates.sha256Hex (List.replicate 32 'a')⟩] }).1 =
      .ok true := by
  have hcapitals : ∀ (n : ℕ) {code s : Text}, Transcribed code s →
      Transcribed (List.replicate n 'a' ++ code) (List.replicate n 'A' ++ s) := by
    intro n code s h
    induction n with
    | zero => exact h
    | succ n ih => exact .written 'a' 'A' (by decide) ih
  have hcode : List.replicate 32 'a' ∈ (generateRecoveryCodes Sample.crates fun _ _ => ⟨0, by decide⟩).1 :=
    List.mem_map.mpr ⟨0, by decide, by decide⟩
  have hs : Transcribed (List.replicate 32 'a') (List.replicate 16 'A' ++ '-' :: List.replicate 16 'A') :=
    hcapitals 16 (.inserted '-' (.inr rfl) (hcapitals 16 .done))
  obtain ⟨-, -, -, haccepted, -⟩ := transcribed_accepted Sample.crates _ hcode hs
  exact (haccepted _ 0 Sample.secret ⟨_, List.mem_singleton_self _, rfl, rfl⟩).2

end Winkd.Server
