import Winkd.Database
import Winkd.Json

/-!
# Supporter tiers and their limits

`limits.rs`, and the columns of `users` that only the relay and the membership webhook
use: the tier, when it expires, and what was bought.
-/

namespace Winkd.Server

/-- The columns of a row of `users` that the webhook writes. -/
structure Supporter where
  supporterTier : Text
  /-- Microseconds since the epoch, or before it. -/
  supporterExpiresAt : Option ℤ
  purchasedExtras : List Text
  extraBuddySlots : ℤ
  groupChatUnlocked : Bool
  deriving DecidableEq

/-- A row of `users` with all the columns the relay reads. -/
structure Member extends User, Supporter
  deriving DecidableEq

def supporterFree : Text := "free".toList

def supporterPlus : Text := "plus".toList

/-- The defaults of the columns. -/
def Supporter.initial : Supporter := ⟨supporterFree, none, [], 0, false⟩

/-- The roster cap of the free tier. -/
def freeBuddyCap : ℕ := 25

structure TierLimits where
  maxTextChars : ℕ
  maxMediaBytes : ℕ
  maxMediaUrlChars : ℕ
  deriving DecidableEq

def freeLimits : TierLimits := ⟨2000, 3 * 1024 * 1024, 1024⟩

def plusLimits : TierLimits := ⟨6000, 10 * 1024 * 1024, 2048⟩

def limitsFor (tier : Text) : TierLimits := if tier = supporterPlus then plusLimits else freeLimits

/-- `User::effective_tier` at the instant `now`: a membership that has run out counts as
the free tier. -/
def Member.effectiveTier (user : Member) (now : ℕ) : Text :=
  if user.supporterTier = supporterPlus then
    match user.supporterExpiresAt with
    | some exp => if exp < now then supporterFree else supporterPlus
    | none => supporterPlus
  else supporterFree

/-- `User::buddy_cap`: there is none for the plus tier. -/
def Member.buddyCap (user : Member) (now : ℕ) : Option ℤ :=
  if user.effectiveTier now = supporterPlus then none else some (freeBuddyCap + user.extraBuddySlots)

/-- The raw bytes of a `data:` URI, estimated from the length of its base64 body. -/
def approxBase64DecodedLen (dataUri : Text) : ℕ :=
  let body := (Text.splitOnce ',' dataUri).2.getD dataUri
  Text.len body * 3 / 4

inductive LimitViolation where
  | textTooLong (len max : ℕ)
  | mediaTooLarge (bytes max : ℕ)
  | mediaUrlTooLong (len max : ℕ)
  deriving DecidableEq

/-- `n / d` rounded to a whole number, a tie to the even one. -/
def roundHalfEven (n d : ℕ) : ℕ :=
  let q := n / d
  if 2 * (n % d) < d then q else if d < 2 * (n % d) then q + 1 else q + q % 2

/-- Megabytes with one decimal: `{:.1}`. -/
def megabytesOneDecimal (bytes : ℕ) : Text :=
  let tenths := roundHalfEven (10 * bytes) (1024 * 1024)
  Nat.toDigits 10 (tenths / 10) ++ '.' :: Nat.toDigits 10 (tenths % 10)

/-- Megabytes without decimals: `{:.0}`. -/
def megabytesWhole (bytes : ℕ) : Text := Nat.toDigits 10 (roundHalfEven bytes (1024 * 1024))

/-- What the sender is told. -/
def LimitViolation.userMessage (tier : Text) (v : LimitViolation) : Text :=
  let hint := if tier = supporterPlus then [] else " — Winkd Plus! raises this cap.".toList
  match v with
  | .textTooLong len max =>
      "Message is ".toList ++ Nat.toDigits 10 len ++ " characters — limit is ".toList ++
        Nat.toDigits 10 max ++ hint
  | .mediaTooLarge bytes max =>
      "Attachment is ".toList ++ megabytesOneDecimal bytes ++ " MB — limit is ".toList ++
        megabytesWhole max ++ " MB".toList ++ hint
  | .mediaUrlTooLong len max =>
      "Attachment link is ".toList ++ Nat.toDigits 10 len ++ " characters — limit is ".toList ++
        Nat.toDigits 10 max ++ hint

/-- One of the checks: the value of a field, if it is there, is not larger than it may be. -/
def checkSize (value : Option Text) (size : Text → ℕ) (max : ℕ)
    (violation : ℕ → ℕ → LimitViolation) : Except LimitViolation Unit :=
  match value with
  | none => .ok ()
  | some t => if max < size t then .error (violation (size t) max) else .ok ()

/-- The first limit that a message breaks. -/
def validateSendPayload (payload : Json) (limits : TierLimits) : Except LimitViolation Unit := do
  checkSize (payload.getStr "body") List.length limits.maxTextChars .textTooLong
  checkSize ((payload.getAny ["mediaData", "media_data"]).bind Json.asStr) approxBase64DecodedLen
    limits.maxMediaBytes .mediaTooLarge
  checkSize ((payload.getAny ["mediaUrl", "media_url"]).bind Json.asStr) Text.len
    limits.maxMediaUrlChars .mediaUrlTooLong

/-- The message keeps to the limits. -/
structure Fits (payload : Json) (limits : TierLimits) : Prop where
  text : ∀ t ∈ payload.getStr "body", t.length ≤ limits.maxTextChars
  media : ∀ t ∈ (payload.getAny ["mediaData", "media_data"]).bind Json.asStr,
    approxBase64DecodedLen t ≤ limits.maxMediaBytes
  url : ∀ t ∈ (payload.getAny ["mediaUrl", "media_url"]).bind Json.asStr,
    Text.len t ≤ limits.maxMediaUrlChars

theorem checkSize_ok_iff {value : Option Text} {size : Text → ℕ} {max : ℕ}
    {violation : ℕ → ℕ → LimitViolation} :
    checkSize value size max violation = .ok () ↔ ∀ t ∈ value, size t ≤ max := by
  cases value with
  | none => exact iff_of_true rfl fun _ h => nomatch h
  | some t =>
    by_cases h : max < size t
    · simp [checkSize, h]
    · simp [checkSize, h, Nat.not_lt.mp h]

theorem validateSendPayload_ok_iff {payload : Json} {limits : TierLimits} :
    validateSendPayload payload limits = .ok () ↔ Fits payload limits := by
  have hbind : ∀ (a : Except LimitViolation Unit) (f : Unit → Except LimitViolation Unit),
      (a >>= f) = .ok () ↔ a = .ok () ∧ f () = .ok () := by
    intro a f
    cases a with
    | error e => exact iff_of_false (fun h => nomatch h) fun h => nomatch h.1
    | ok u => exact (and_iff_right rfl).symm
  rw [validateSendPayload, hbind, hbind, checkSize_ok_iff, checkSize_ok_iff, checkSize_ok_iff]
  exact ⟨fun ⟨htext, hmedia, hurl⟩ => ⟨htext, hmedia, hurl⟩, fun h => ⟨h.text, h.media, h.url⟩⟩

/-- What keeps to the limits of the free tier keeps to those of the other. -/
theorem Fits.plus {payload : Json} (h : Fits payload freeLimits) : Fits payload plusLimits where
  text t ht := (h.text t ht).trans (by decide)
  media t ht := (h.media t ht).trans (by decide)
  url t ht := (h.url t ht).trans (by decide)

end Winkd.Server
