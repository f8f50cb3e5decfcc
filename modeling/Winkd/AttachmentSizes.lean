import Winkd.Base64
import Winkd.Preflight

/-!
# How large an attachment is

Neither side decodes an attachment to learn its size; both take three bytes for each four characters of
the base64 text.  The server multiplies 64-bit integers, at most up to the largest of them, and the page
multiplies floating-point numbers and cuts the quotient.  For an attachment that can exist the two
numbers are the same, and too large by two bytes at most (`attachment_estimate`).
-/

namespace Winkd.Web
open UnicodeText Winkd.Server

/-! ## The numbers of the machines -/

/-- `usize::saturating_mul`. -/
def saturatingMul (m n : ℕ) : ℕ := min (m * n) (2 ^ 64 - 1)

/-- A whole number as a floating-point number: its first 53 binary digits, a tie to the even one. -/
def toDouble (n : ℕ) : ℕ := roundHalfEven n (2 ^ (n.log2 - 52)) * 2 ^ (n.log2 - 52)

example : toDouble (2 ^ 53 + 1) = 2 ^ 53 ∧ toDouble (2 ^ 53 + 3) = 2 ^ 53 + 4 := by decide

/-- What follows the first comma, or all of the URL. -/
def uriBody (uri : Text) : Text := (Text.splitOnce ',' uri).2.getD uri

/-- `approx_base64_decoded_len`, on a `usize`. -/
def approxLenUsize (uri : Text) : ℕ := saturatingMul (Text.len (uriBody uri)) 3 / 4

/-- `approxDataUriBytes`, on floating-point numbers.  A quotient by four has the digits of its
dividend, so it is not rounded; it is cut to a whole number. -/
def approxBytesDouble (uri : Text) : ℕ := toDouble (jsLength (uriBody uri) * 3) / 4

/-- Whole numbers up to 2^53 are floating-point numbers. -/
theorem toDouble_eq {n : ℕ} (hn : n ≤ 2 ^ 53) : toDouble n = n := by
  have hone : ∀ k, roundHalfEven k 1 = k := by
    intro k
    rw [roundHalfEven, Nat.div_one, Nat.mod_one, if_pos (by omega)]
  by_cases hzero : n = 0
  · rw [hzero]
    rfl
  obtain hlt | heq := Nat.lt_or_eq_of_le hn
  · have hdigits : n.log2 < 53 := (Nat.log2_lt hzero).2 hlt
    rw [toDouble, Nat.sub_eq_zero_of_le (by omega), pow_zero, hone, Nat.mul_one]
  · rw [heq]
    decide

/-- Where nothing saturates, the server's number is the one its check has in `Limits`. -/
theorem approxLenUsize_eq {uri : Text} (h : Text.len (uriBody uri) * 3 < 2 ^ 64) :
    approxLenUsize uri = approxBase64DecodedLen uri := by
  have hmin : saturatingMul (Text.len (uriBody uri)) 3 = Text.len (uriBody uri) * 3 :=
    Nat.min_eq_left (by omega)
  rw [approxLenUsize, hmin]
  rfl

/-- Where nothing is rounded, the page's number is the one `sendMsg` has in `Preflight`. -/
theorem approxBytesDouble_eq {uri : Text} (h : jsLength (uriBody uri) * 3 ≤ 2 ^ 53) :
    approxBytesDouble uri = Compose.approxDataUriBytes uri := by
  rw [approxBytesDouble, toDouble_eq h]
  rfl

/-! ## Attachments -/

/-- A `data:` URL with a base64 body. -/
def dataUri (header : Text) (bytes : List UInt8) : Text := header ++ ',' :: Base64.encode bytes

/-- The estimate of an attachment of `n` bytes, and what the two sides make of it. -/
structure Estimated (uri : Text) (n : ℕ) : Prop where
  least : n ≤ approxLenUsize uri
  most : approxLenUsize uri ≤ n + 2
  shared : approxBytesDouble uri = approxLenUsize uri
  /-- A message with the attachment is refused where it is larger than the limit. -/
  serverRefuses : ∀ (payload : Json) (limits : TierLimits),
    (payload.getAny ["mediaData", "media_data"]).bind Json.asStr = some uri →
      limits.maxMediaBytes < n → validateSendPayload payload limits ≠ .ok ()
  /-- It is refused for its size only where it is at most two bytes smaller than that. -/
  serverRefusesOnly : ∀ (payload : Json) (limits : TierLimits) (bytes max : ℕ),
    (payload.getAny ["mediaData", "media_data"]).bind Json.asStr = some uri →
      validateSendPayload payload limits = .error (.mediaTooLarge bytes max) → limits.maxMediaBytes < n + 2
  /-- Where it is smaller than that, nothing but the text and a link can keep the message out. -/
  serverAccepts : ∀ (payload : Json) (limits : TierLimits),
    (payload.getAny ["mediaData", "media_data"]).bind Json.asStr = some uri →
      (∀ t ∈ payload.getStr "body", t.length ≤ limits.maxTextChars) →
        (∀ t ∈ (payload.getAny ["mediaUrl", "media_url"]).bind Json.asStr,
          Text.len t ≤ limits.maxMediaUrlChars) →
          n + 2 ≤ limits.maxMediaBytes → validateSendPayload payload limits = .ok ()
  clientRefuses : ∀ (s : Compose) (w : Compose.Sender) (mime : Text),
    s.attachment = some (.image uri mime) → s.limits.maxMediaBytes < n → ∀ p, s.sendMsg w ≠ .ok p
  clientRefusesOnly : ∀ (s : Compose) (w : Compose.Sender) (mime : Text) (bytes max : ℕ),
    s.attachment = some (.image uri mime) → s.sendMsg w = .error (.imageTooLarge bytes max) →
      s.limits.maxMediaBytes < n + 2
  clientAccepts : ∀ (s : Compose) (w : Compose.Sender) (mime conversationId : Text),
    s.attachment = some (.image uri mime) → w.activeContact.filter (· ≠ []) = some conversationId →
      jsLength (jsTrim s.value) ≤ s.limits.maxTextChars → n + 2 ≤ s.limits.maxMediaBytes →
        s.sendMsg w = .ok (Compose.payload w conversationId (jsTrim s.value) s.attachment)

/-- A message that is too large has a media field that is. -/
theorem validateSendPayload_mediaTooLarge {payload : Json} {limits : TierLimits} {bytes max : ℕ}
    (h : validateSendPayload payload limits = .error (.mediaTooLarge bytes max)) :
    ∃ t, (payload.getAny ["mediaData", "media_data"]).bind Json.asStr = some t ∧
      limits.maxMediaBytes < approxBase64DecodedLen t := by
  have hcheck : ∀ {value : Option Text} {size : Text → ℕ} {n : ℕ} {violation : ℕ → ℕ → LimitViolation},
      (∀ k, violation k n ≠ .mediaTooLarge bytes max) →
        checkSize value size n violation ≠ .error (.mediaTooLarge bytes max) := by
    intro value size n violation hother herror
    cases value with
    | none => cases herror
    | some t =>
      rw [checkSize] at herror
      split at herror
      · exact hother _ (Except.error.inj herror)
      · cases herror
  unfold validateSendPayload at h
  cases htext : checkSize (payload.getStr "body") List.length limits.maxTextChars .textTooLong with
  | error e =>
    rw [htext] at h
    exact absurd (htext.trans h) (hcheck fun _ heq => by cases heq)
  | ok u =>
    rw [htext] at h
    cases hmedia : (payload.getAny ["mediaData", "media_data"]).bind Json.asStr with
    | none =>
      rw [hmedia] at h
      exact absurd h (hcheck fun _ heq => by cases heq)
    | some t =>
      refine ⟨t, rfl, ?_⟩
      rw [hmedia] at h
      by_contra hfits
      rw [checkSize, if_neg hfits] at h
      exact absurd h (hcheck fun _ heq => by cases heq)

theorem sendMsg_imageTooLarge {s : Compose} {w : Compose.Sender} {bytes max : ℕ}
    (h : s.sendMsg w = .error (.imageTooLarge bytes max)) :
    s.limits.maxMediaBytes < Compose.imageBytes s.attachment := by
  unfold Compose.sendMsg at h
  split at h
  · cases h
  · dsimp only at h
    split_ifs at h
    all_goals
      first
      | assumption
      | cases h

section Uri
variable {header : Text} {bytes : List UInt8}

theorem uriBody_dataUri (hcomma : ',' ∉ header) : uriBody (dataUri header bytes) = Base64.encode bytes := by
  rw [uriBody, dataUri, Text.splitOnce_append hcomma]
  rfl

/-- **The estimate is the size rounded up to three bytes**, on both sides. -/
theorem estimates_eq (hcomma : ',' ∉ header) (hsize : bytes.length ≤ 2 ^ 50) :
    approxLenUsize (dataUri header bytes) = 3 * ((bytes.length + 2) / 3) ∧
      approxBytesDouble (dataUri header bytes) = 3 * ((bytes.length + 2) / 3) ∧
      approxBase64DecodedLen (dataUri header bytes) = 3 * ((bytes.length + 2) / 3) ∧
      Compose.approxDataUriBytes (dataUri header bytes) = 3 * ((bytes.length + 2) / 3) := by
  have hbody : uriBody (dataUri header bytes) = _ := uriBody_dataUri hcomma
  have hascii := Base64.toNat_lt_of_mem_encode bytes
  have hlen : Text.len (uriBody (dataUri header bytes)) = 4 * ((bytes.length + 2) / 3) := by
    rw [hbody, Text.len_eq_length hascii, Base64.length_encode]
  have hjs : jsLength (uriBody (dataUri header bytes)) = 4 * ((bytes.length + 2) / 3) := by
    rw [hbody, Compose.jsLength_eq_length hascii, Base64.length_encode]
  have hserver : approxBase64DecodedLen (dataUri header bytes) = 3 * ((bytes.length + 2) / 3) := by
    show Text.len (uriBody (dataUri header bytes)) * 3 / 4 = _
    rw [hlen]
    omega
  have hclient : Compose.approxDataUriBytes (dataUri header bytes) = 3 * ((bytes.length + 2) / 3) := by
    show jsLength (uriBody (dataUri header bytes)) * 3 / 4 = _
    rw [hjs]
    omega
  refine ⟨?_, ?_, hserver, hclient⟩
  · rw [approxLenUsize_eq (by rw [hlen]; omega), hserver]
  · rw [approxBytesDouble_eq (by rw [hjs]; omega), hclient]

/-- **The estimate is tight and shared**, and both sides refuse and accept by it. -/
theorem attachment_estimate (hcomma : ',' ∉ header) (hsize : bytes.length ≤ 2 ^ 50) :
    Estimated (dataUri header bytes) bytes.length := by
  obtain ⟨husize, hdouble, hserver, hclient⟩ := estimates_eq hcomma hsize
  constructor
  case least => omega
  case most => omega
  case shared => rw [hdouble, husize]
  case serverRefuses =>
    intro payload limits hmedia hlarge hok
    have hfits := (validateSendPayload_ok_iff.1 hok).media _ hmedia
    omega
  case serverRefusesOnly =>
    intro payload limits n max hmedia herror
    obtain ⟨t, ht, hlarge⟩ := validateSendPayload_mediaTooLarge herror
    obtain rfl := Option.some.inj (hmedia.symm.trans ht)
    omega
  case serverAccepts =>
    intro payload limits hmedia htext hlink hsmall
    refine validateSendPayload_ok_iff.2 ⟨htext, fun t ht => ?_, hlink⟩
    obtain rfl := Option.some.inj (hmedia.symm.trans ht)
    omega
  case clientRefuses =>
    intro s w mime hattachment hlarge p hsent
    have hfits := (Compose.sendMsg_ok_iff.1 hsent).1.image
    rw [hattachment, Compose.imageBytes] at hfits
    omega
  case clientRefusesOnly =>
    intro s w mime n max hattachment herror
    have hlarge := sendMsg_imageTooLarge herror
    rw [hattachment, Compose.imageBytes] at hlarge
    omega
  case clientAccepts =>
    intro s w mime conversationId hattachment hcontact htext hsmall
    refine Compose.sendMsg_ok_iff.2 ⟨⟨?_, htext, ?_, ?_⟩, conversationId, hcontact, rfl⟩
    · rw [hattachment]
      exact fun hnothing => nomatch hnothing.2
    · rw [hattachment, Compose.imageBytes]
      omega
    · rw [hattachment]
      exact Nat.zero_le _

end Uri

/-- A picture of four bytes counts as six. -/
theorem attachment_estimate_four :
    Estimated (dataUri "data:image/png;base64".toList [77, 97, 110, 77]) 4 ∧
      approxLenUsize (dataUri "data:image/png;base64".toList [77, 97, 110, 77]) = 6 :=
  ⟨attachment_estimate (by decide) (by decide), by decide⟩

end Winkd.Web
