import Winkd.MessageRow
import Winkd.StringLaws
import Winkd.Transitions
import Mathlib.Tactic.SplitIfs

/-!
# What is checked before a message is sent

The composer of `app.html`: the text that is typed, the attachment beside it, and `sendMsg`, which
checks their sizes against the limits that `auth_ok` brought before the server does.  The page counts
code units.  The server counts the characters of the text, but the bytes of a link; so a link that
the page lets through may still be refused (`sent_accepted_iff`).

A text is its characters here; `units` has what JavaScript sees of it.
-/

namespace Winkd.Web
open UnicodeText Winkd.Server

/-! ## Strings -/

/-- `t.length` -/
def jsLength (t : Text) : ℕ := (units t).length

/-- What `\s` matches, and `trim` removes. -/
def isJsSpace (c : Char) : Bool := (unitsOf c.toNat).any isSpace

/-- `t.trim()` -/
def jsTrim (t : Text) : Text :=
  ((t.dropWhile isJsSpace).reverse.dropWhile isJsSpace).reverse

/-- What follows a literal in lower case, when case is ignored. -/
def afterIgnoreCase (p t : Text) : Option Text :=
  if p.isPrefixOf (Text.toAsciiLowercase t) then some (t.drop p.length) else none

/-- `https?:\/\/`, and what follows it. -/
def afterScheme (t : Text) : Option Text :=
  (afterIgnoreCase "https://".toList t).or (afterIgnoreCase "http://".toList t)

/-- The length of what `\S+?\.gif` matches: it ends where `.gif` comes for the first time. -/
def gifLength : Text → Option ℕ
  | [] => none
  | c :: t =>
    if isJsSpace c then none
    else if (afterIgnoreCase ".gif".toList t).isSome then some 5
    else (gifLength t).map (· + 1)

/-- The length of what `(?:\?[^\s]*)?` matches. -/
def queryLength : Text → ℕ
  | '?' :: t => 1 + (t.takeWhile fun c => !isJsSpace c).length
  | _ => 0

/-- The match of the expression for a link to a GIF, at the front. -/
def gifUrlAt (t : Text) : Option Text := do
  let rest ← afterScheme t
  let n ← gifLength rest
  some (t.take (t.length - rest.length + n + queryLength (rest.drop n)))

def findGifUrl (text : Text) : Option Text := text.tails.findSome? gifUrlAt

example : findGifUrl "see HTTPS://x.org/a.gif.gif?b c".toList = some "HTTPS://x.org/a.gif".toList := by
  decide

/-! ## The composer -/

inductive Attachment where
  | gif (url : Text)
  | image (data mime : Text)
  deriving DecidableEq

structure Compose where
  /-- What is in the input field. -/
  value : Text
  attachment : Option Attachment
  limits : TierLimits

namespace Compose

/-- The page when it is loaded. -/
def load : Compose := ⟨[], none, freeLimits⟩

/-- What the preview shows. -/
def src : Attachment → Text
  | .gif url => url
  | .image data _ => data

/-- An attachment that cannot be shown is dropped. -/
def renderComposePreview (s : Compose) : Compose :=
  match s.attachment with
  | none => s
  | some a =>
    if isWebUrl (units (src a)) || startsWithIgnoreCase (js "data:image/") (units (src a)) then s
    else { s with attachment := none }

def clearComposeAttachment (s : Compose) : Compose := { s with attachment := none }

/-- An image stays until it is cleared or sent. -/
def updateComposePreviewFromInput (s : Compose) : Compose :=
  match s.attachment with
  | some (.image _ _) => s
  | _ => renderComposePreview { s with attachment := (findGifUrl s.value).map .gif }

/-- A limit of `auth_ok`, if it is a number; no string is as long as the numbers that JavaScript
rounds. -/
def limitOf (limits : Json) (key : String) (old : ℕ) : ℕ :=
  match limits.get key with
  | some (.num literal) => if literal.all Char.isDigit then Text.digitsValue literal else old
  | _ => old

/-- Only the limits are kept here. -/
def applyServerLimits (s : Compose) (envelope : Json) : Compose :=
  match envelope.get "limits" with
  | some (.obj fields) =>
    { s with limits :=
      { maxTextChars := limitOf (.obj fields) "max_text_chars" s.limits.maxTextChars
        maxMediaBytes := limitOf (.obj fields) "max_media_bytes" s.limits.maxMediaBytes
        maxMediaUrlChars := limitOf (.obj fields) "max_media_url_chars" s.limits.maxMediaUrlChars } }
  | _ => s

/-- The bytes of a `data:` URL: three for four characters. -/
def approxDataUriBytes (uri : Text) : ℕ :=
  jsLength ((Text.splitOnce ',' uri).2.getD uri) * 3 / 4

/-- What else `sendMsg` puts into a message. -/
structure Sender where
  activeContact : Option Text
  myWinkdId : Text
  msgId : Text
  sentAt : Text
  msgColor : Text
  boldOn : Bool
  italicOn : Bool
  underlineOn : Bool
  /-- The font, unless it is the usual one. -/
  font : Option Text

/-- Why `sendMsg` sends nothing. -/
inductive Refusal where
  | nothing
  | textTooLong (len max : ℕ)
  | imageTooLarge (bytes max : ℕ)
  | linkTooLong (len : ℕ)
  deriving DecidableEq

def imageBytes : Option Attachment → ℕ
  | some (.image data _) => approxDataUriBytes data
  | _ => 0

def linkLength : Option Attachment → ℕ
  | some (.gif url) => jsLength url
  | _ => 0

/-- `mime||'image/png'` -/
def mimeOr (mime : Text) : Text := if mime = [] then "image/png".toList else mime

def mediaFields : Option Attachment → List (String × Json)
  | some (.gif url) =>
    if url = [] then [] else [("media_type", .ofString "gif"), ("media_url", .str url)]
  | some (.image data mime) =>
    if data = [] then []
    else [("media_type", .ofString "image"), ("media_data", .str data),
      ("media_mime", .str (mimeOr mime))]
  | none => []

def textFields (w : Sender) (conversationId body : Text) : List (String × Json) :=
  [("id", .str w.msgId), ("conversationId", .str conversationId), ("senderId", .str w.myWinkdId),
    ("type", .ofString "text"), ("body", .str body), ("sentAt", .str w.sentAt),
    ("delivered", .bool false), ("read", .bool false), ("color", .str w.msgColor),
    ("bold", .bool w.boldOn), ("italic", .bool w.italicOn), ("underline", .bool w.underlineOn),
    ("font", .ofText w.font)]

def payload (w : Sender) (conversationId body : Text) (attachment : Option Attachment) : Json :=
  .obj (textFields w conversationId body ++ mediaFields attachment)

/-- The message, or why there is none.  `wsSend` sends it at once or keeps it for later, and so
takes every message. -/
def sendMsg (s : Compose) (w : Sender) : Except Refusal Json :=
  match w.activeContact.filter (· ≠ []) with
  | none => .error .nothing
  | some conversationId =>
    let t := jsTrim s.value
    if t = [] ∧ s.attachment = none then .error .nothing
    else if s.limits.maxTextChars < jsLength t then
      .error (.textTooLong (jsLength t) s.limits.maxTextChars)
    else if s.limits.maxMediaBytes < imageBytes s.attachment then
      .error (.imageTooLarge (imageBytes s.attachment) s.limits.maxMediaBytes)
    else if s.limits.maxMediaUrlChars < linkLength s.attachment then
      .error (.linkTooLong (linkLength s.attachment))
    else .ok (payload w conversationId t s.attachment)

/-! ## Runs -/

inductive Event where
  /-- The input field is changed, by the user or by the page. -/
  | input (value : Text)
  /-- An image has been read, or photographed. -/
  | image (data mime : Text)
  | cleared
  /-- A conversation is opened, with an input field of its own. -/
  | buildChat
  | authOk (envelope : Json)
  | send (w : Sender)

def next (s : Compose) : Event → Compose
  | .input value => updateComposePreviewFromInput { s with value := value }
  | .image data mime => renderComposePreview { s with attachment := some (.image data mime) }
  | .cleared => s.clearComposeAttachment
  | .buildChat => { s with value := [], attachment := none }
  | .authOk envelope => s.applyServerLimits envelope
  | .send w =>
    match s.sendMsg w with
    | .ok _ => clearComposeAttachment { s with value := [] }
    | .error _ => s

def IsAscii (t : Text) : Prop := ∀ c ∈ t, c.toNat < 128

/-- Images are read as `data:` URLs, which are ASCII. -/
def MayHappen (_ : Compose) : Event → Prop
  | .image data _ => IsAscii data
  | _ => True

def Reached (s : Compose) : Prop := Transitions.Reaches next MayHappen load s

/-! ## Code units, characters and bytes -/

theorem one_le_length_unitsOf (n : ℕ) : 1 ≤ (unitsOf n).length := by
  unfold unitsOf
  split <;> exact Nat.le_add_left 1 _

theorem length_le_jsLength (t : Text) : t.length ≤ jsLength t := by
  induction t with
  | nil => exact Nat.le_refl 0
  | cons c t ih =>
    have hc := one_le_length_unitsOf c.toNat
    rw [jsLength, units] at ih ⊢
    rw [List.flatMap_cons, List.length_append, List.length_cons]
    omega

theorem jsLength_eq_length {t : Text} (ht : IsAscii t) : jsLength t = t.length := by
  induction t with
  | nil => rfl
  | cons c t ih =>
    have hc : c.toNat < 0x10000 := (ht c List.mem_cons_self).trans (by decide)
    have hrest := ih fun d hd => ht d (List.mem_cons_of_mem c hd)
    rw [jsLength, units] at hrest ⊢
    rw [List.flatMap_cons, List.length_append, hrest, unitsOf, if_pos hc, List.length_cons]
    exact Nat.add_comm _ _

/-- No surrogate is a space. -/
theorem isSpace_ofNat_surrogate {n : ℕ} (hlow : 0xD800 ≤ n) (hhigh : n < 0xE000) :
    isSpace (UInt16.ofNat n) = false := by
  have hn : (UInt16.ofNat n).toNat = n := by
    rw [UInt16.toNat_ofNat']
    exact Nat.mod_eq_of_lt (by omega)
  unfold isSpace
  rw [hn, Bool.or_eq_false_iff, Bool.or_eq_false_iff, Bool.and_eq_false_iff, Bool.and_eq_false_iff]
  simp only [decide_eq_false_iff_not, List.mem_cons, List.not_mem_nil, or_false]
  omega

/-- A space has one unit. -/
theorem unitsOf_of_isJsSpace {c : Char} (hc : isJsSpace c = true) :
    ∃ u, unitsOf c.toNat = [u] ∧ isSpace u = true := by
  unfold isJsSpace at hc
  unfold unitsOf at hc ⊢
  split at hc
  · rw [if_pos ‹_›]
    exact ⟨_, rfl, by simpa using hc⟩
  · have hmax : c.toNat < 0x110000 := by
      have hvalid : c.toNat.isValidChar := c.valid
      unfold Nat.isValidChar at hvalid
      omega
    rw [List.any_cons, isSpace_ofNat_surrogate (by omega) (by omega), List.any_cons,
      isSpace_ofNat_surrogate (by omega) (by omega)] at hc
    exact absurd hc (by decide)

theorem unitsOf_of_not_isJsSpace {c : Char} (hc : isJsSpace c = false) :
    unitsOf c.toNat ≠ [] ∧ ∀ u ∈ unitsOf c.toNat, isSpace u = false := by
  refine ⟨List.ne_nil_of_length_pos (one_le_length_unitsOf _), fun u hu => ?_⟩
  exact Bool.eq_false_iff.2 fun hspace => Bool.false_ne_true (hc.symm.trans (List.any_eq_true.2 ⟨u, hu, hspace⟩))

/-- Dropping spaces in front drops their units. -/
theorem dropWhile_flatMap {f : Char → CodeUnits}
    (hspace : ∀ c, isJsSpace c = true → ∃ u, f c = [u] ∧ isSpace u = true)
    (hother : ∀ c, isJsSpace c = false → f c ≠ [] ∧ ∀ u ∈ f c, isSpace u = false) (t : Text) :
    (t.flatMap f).dropWhile isSpace = (t.dropWhile isJsSpace).flatMap f := by
  induction t with
  | nil => rfl
  | cons c t ih =>
    rw [List.flatMap_cons, List.dropWhile_cons]
    cases hc : isJsSpace c with
    | true =>
      obtain ⟨u, hu, huspace⟩ := hspace c hc
      rw [hu, if_pos rfl, ← ih]
      exact List.dropWhile_cons_of_pos huspace
    | false =>
      obtain ⟨hne, hall⟩ := hother c hc
      obtain ⟨u, us, hu⟩ := List.exists_cons_of_ne_nil hne
      have huother : isSpace u = false := hall u (hu ▸ List.mem_cons_self)
      rw [if_neg Bool.false_ne_true, List.flatMap_cons, hu]
      exact List.dropWhile_cons_of_neg (by rw [huother]; exact Bool.false_ne_true)

/-- **Trimming the characters is trimming the code units.** -/
theorem units_jsTrim (t : Text) : units (jsTrim t) = trim (units t) := by
  have hreverse : ∀ t : Text, (units t).reverse = t.reverse.flatMap fun c => (unitsOf c.toNat).reverse :=
    fun t => List.reverse_flatMap
  have hfront : (units t).dropWhile isSpace = units (t.dropWhile isJsSpace) :=
    dropWhile_flatMap (fun c => unitsOf_of_isJsSpace) (fun c => unitsOf_of_not_isJsSpace) t
  have hback : ((units (t.dropWhile isJsSpace)).reverse).dropWhile isSpace =
      (units (jsTrim t)).reverse := by
    rw [hreverse, hreverse, jsTrim, List.reverse_reverse]
    apply dropWhile_flatMap
    · intro c hc
      obtain ⟨u, hu, huspace⟩ := unitsOf_of_isJsSpace hc
      exact ⟨u, by rw [hu]; rfl, huspace⟩
    · intro c hc
      obtain ⟨hne, hall⟩ := unitsOf_of_not_isJsSpace hc
      exact ⟨fun h => hne (List.reverse_eq_nil_iff.1 h), fun u hu => hall u (List.mem_reverse.1 hu)⟩
  rw [trim, hfront, hback, List.reverse_reverse]

/-- The body of a `data:` URL is a part of it. -/
theorem body_ascii {uri : Text} (huri : IsAscii uri) :
    IsAscii ((Text.splitOnce ',' uri).2.getD uri) := by
  unfold Text.splitOnce
  split
  · exact huri
  · rename_i head rest hdrop
    intro c hc
    have hmem : c ∈ uri.dropWhile (· != ',') := hdrop ▸ List.mem_cons_of_mem head hc
    exact huri c ((List.dropWhile_sublist _).subset hmem)

/-- **Both estimate the size of an image alike.** -/
theorem approxDataUriBytes_eq {uri : Text} (huri : IsAscii uri) :
    approxDataUriBytes uri = approxBase64DecodedLen uri := by
  have hbody := body_ascii huri
  rw [approxDataUriBytes, approxBase64DecodedLen, jsLength_eq_length hbody, Text.len_eq_length hbody]

/-! ## What the composer holds -/

/-- A link has been found in a text, and an image is ASCII. -/
def Composed (s : Compose) : Prop :=
  match s.attachment with
  | none => True
  | some (.gif url) => ∃ text, findGifUrl text = some url
  | some (.image data _) => IsAscii data

theorem Composed.render {s : Compose} (h : s.Composed) : s.renderComposePreview.Composed := by
  unfold renderComposePreview
  split
  · exact h
  · split
    · exact h
    · exact trivial

theorem Composed.update {s : Compose} (h : s.Composed) :
    s.updateComposePreviewFromInput.Composed := by
  unfold updateComposePreviewFromInput
  split
  · exact h
  · apply Composed.render
    unfold Composed
    cases hfound : findGifUrl s.value with
    | none => exact trivial
    | some url => exact ⟨s.value, hfound⟩

theorem Composed.next {s : Compose} {e : Event} (h : s.Composed) (he : s.MayHappen e) :
    (s.next e).Composed := by
  cases e with
  | input value =>
    have hvalue : Composed { s with value := value } := h
    exact hvalue.update
  | image data mime =>
    have himage : Composed { s with attachment := some (.image data mime) } := he
    exact himage.render
  | cleared => exact trivial
  | buildChat => exact trivial
  | authOk envelope =>
    show (s.applyServerLimits envelope).Composed
    unfold applyServerLimits
    split <;> exact h
  | send w =>
    show Composed (match s.sendMsg w with
      | .ok _ => clearComposeAttachment { s with value := [] }
      | .error _ => s)
    cases s.sendMsg w with
    | ok p => exact trivial
    | error r => exact h

/-- **An attachment is a link that was found or an image in ASCII**, in every state. -/
theorem Reached.composed {s : Compose} (h : s.Reached) : s.Composed :=
  Transitions.Reaches.invariant h trivial fun _ _ => Composed.next

/-! ## The limits of the server -/

/-- An `auth_ok` that names the limits. -/
def Echoes (envelope : Json) (limits : TierLimits) : Prop :=
  ∃ fields, envelope.get "limits" = some (.obj fields) ∧
    (Json.obj fields).get "max_text_chars" = some (.ofNat limits.maxTextChars) ∧
    (Json.obj fields).get "max_media_bytes" = some (.ofNat limits.maxMediaBytes) ∧
    (Json.obj fields).get "max_media_url_chars" = some (.ofNat limits.maxMediaUrlChars)

/-- The last `auth_ok` that has come named the limits. -/
def Told (s : Compose) (limits : TierLimits) : Prop :=
  ∃ s₀ envelope, Echoes envelope limits ∧
    Transitions.Reaches next (fun _ e => ∀ envelope, e ≠ .authOk envelope)
      (applyServerLimits s₀ envelope) s

/-- A limit as `auth_ok` has it. -/
theorem limitOf_ofNat {limits : Json} {key : String} {n : ℕ} (h : limits.get key = some (.ofNat n))
    (old : ℕ) : limitOf limits key old = n := by
  have hdigits : (Nat.toDigits 10 n).all Char.isDigit = true :=
    List.all_eq_true.2 fun c hc => Nat.isDigit_of_mem_toDigits (by decide) (by decide) hc
  have hvalue : Text.digitsValue (Nat.toDigits 10 n) = n := Nat.ofDigitChars_ten_toDigits
  rw [limitOf, h, Json.ofNat]
  dsimp only
  rw [if_pos hdigits, hvalue]

/-- **The limits are those that the server has sent.** -/
theorem applyServerLimits_echo (s : Compose) {envelope : Json} {limits : TierLimits}
    (h : Echoes envelope limits) : (s.applyServerLimits envelope).limits = limits := by
  obtain ⟨fields, henvelope, htext, hmedia, hurl⟩ := h
  rw [applyServerLimits, henvelope]
  dsimp only
  rw [limitOf_ofNat htext, limitOf_ofNat hmedia, limitOf_ofNat hurl]

theorem limits_renderComposePreview (s : Compose) : s.renderComposePreview.limits = s.limits := by
  unfold renderComposePreview
  split
  · rfl
  · split <;> rfl

/-- Nothing but an `auth_ok` changes them. -/
theorem limits_next {s : Compose} {e : Event} (he : ∀ envelope, e ≠ .authOk envelope) :
    (s.next e).limits = s.limits := by
  cases e with
  | input value =>
    show (updateComposePreviewFromInput { s with value := value }).limits = s.limits
    unfold updateComposePreviewFromInput
    split
    · rfl
    · exact limits_renderComposePreview _
  | image data mime => exact limits_renderComposePreview _
  | cleared => rfl
  | buildChat => rfl
  | authOk envelope => exact absurd rfl (he envelope)
  | send w =>
    show Compose.limits (match s.sendMsg w with
      | .ok _ => clearComposeAttachment { s with value := [] }
      | .error _ => s) = s.limits
    cases s.sendMsg w <;> rfl

theorem Told.limits_eq {s : Compose} {limits : TierLimits} (h : s.Told limits) : s.limits = limits := by
  obtain ⟨s₀, envelope, hechoes, hreaches⟩ := h
  refine Transitions.Reaches.invariant (I := fun s : Compose => s.limits = limits) hreaches
    (applyServerLimits_echo s₀ hechoes) fun s e hlimits he => ?_
  rw [limits_next he]
  exact hlimits

/-! ## What is sent -/

/-- What `sendMsg` checks. -/
structure Passes (s : Compose) : Prop where
  something : ¬ (jsTrim s.value = [] ∧ s.attachment = none)
  text : jsLength (jsTrim s.value) ≤ s.limits.maxTextChars
  image : imageBytes s.attachment ≤ s.limits.maxMediaBytes
  link : linkLength s.attachment ≤ s.limits.maxMediaUrlChars

theorem sendMsg_ok_iff {s : Compose} {w : Sender} {p : Json} :
    s.sendMsg w = .ok p ↔ s.Passes ∧
      ∃ conversationId, w.activeContact.filter (· ≠ []) = some conversationId ∧
        p = payload w conversationId (jsTrim s.value) s.attachment := by
  constructor
  · intro h
    unfold sendMsg at h
    split at h
    · exact nomatch h
    · rename_i conversationId hcontact
      dsimp only at h
      split_ifs at h with hempty htext himage hlink
      exact ⟨⟨hempty, Nat.not_lt.1 htext, Nat.not_lt.1 himage, Nat.not_lt.1 hlink⟩, conversationId,
        hcontact, (Except.ok.inj h).symm⟩
  · rintro ⟨hpasses, conversationId, hcontact, rfl⟩
    rw [sendMsg, hcontact]
    dsimp only
    rw [if_neg hpasses.something, if_neg (Nat.not_lt.2 hpasses.text),
      if_neg (Nat.not_lt.2 hpasses.image), if_neg (Nat.not_lt.2 hpasses.link)]

/-- The link that is attached, if there is one, has no more bytes than it may have characters. -/
def LinkFits (s : Compose) : Prop :=
  ∀ url, s.attachment = some (.gif url) → Text.len url ≤ s.limits.maxMediaUrlChars

/-- The image of an attachment. -/
def imageOf : Option Attachment → Option Text
  | some (.image data _) => if data = [] then none else some data
  | _ => none

def linkOf : Option Attachment → Option Text
  | some (.gif url) => if url = [] then none else some url
  | _ => none

theorem image_of_imageOf {attachment : Option Attachment} {data : Text}
    (h : imageOf attachment = some data) : ∃ mime, attachment = some (.image data mime) := by
  unfold imageOf at h
  split at h
  · rename_i data' mime
    split_ifs at h
    exact ⟨mime, by rw [Option.some.inj h]⟩
  · exact nomatch h

theorem gif_of_linkOf {attachment : Option Attachment} {url : Text}
    (h : linkOf attachment = some url) : attachment = some (.gif url) := by
  unfold linkOf at h
  split at h
  · split_ifs at h
    rw [Option.some.inj h]
  · exact nomatch h

theorem payload_body (w : Sender) (conversationId body : Text) (attachment : Option Attachment) :
    (payload w conversationId body attachment).getStr "body" = some body := by
  simp [payload, textFields, Json.getStr, Json.get, Json.asStr]

/-- The fields of the attachment come after those of the text. -/
theorem payload_get {w : Sender} {conversationId body : Text} {key : String}
    (hkey : (Json.obj (textFields w conversationId body)).get key = none)
    (attachment : Option Attachment) :
    (payload w conversationId body attachment).get key = (Json.obj (mediaFields attachment)).get key := by
  have hfind := Option.map_eq_none_iff.1 hkey
  rw [payload, Json.get, List.find?_append, hfind, Option.none_or]
  rfl

theorem payload_image (w : Sender) (conversationId body : Text) (attachment : Option Attachment) :
    ((payload w conversationId body attachment).getAny ["mediaData", "media_data"]).bind Json.asStr =
      imageOf attachment := by
  rw [getAny_pair, payload_get (by simp [textFields, Json.get]),
    payload_get (by simp [textFields, Json.get])]
  unfold mediaFields imageOf
  cases attachment with
  | none => rfl
  | some a =>
    cases a with
    | gif url => by_cases hurl : url = [] <;> simp [hurl, Json.get]
    | image data mime => by_cases hdata : data = [] <;> simp [hdata, Json.get, Json.asStr]

theorem payload_link (w : Sender) (conversationId body : Text) (attachment : Option Attachment) :
    ((payload w conversationId body attachment).getAny ["mediaUrl", "media_url"]).bind Json.asStr =
      linkOf attachment := by
  rw [getAny_pair, payload_get (by simp [textFields, Json.get]),
    payload_get (by simp [textFields, Json.get])]
  unfold mediaFields linkOf
  cases attachment with
  | none => rfl
  | some a =>
    cases a with
    | gif url => by_cases hurl : url = [] <;> simp [hurl, Json.get, Json.asStr]
    | image data mime => by_cases hdata : data = [] <;> simp [hdata, Json.get]

/-- What is sent keeps to the server's limits just if the link fits in bytes. -/
theorem fits_iff {s : Compose} (hcomposed : s.Composed) (hpasses : s.Passes) (w : Sender)
    (conversationId : Text) :
    Fits (payload w conversationId (jsTrim s.value) s.attachment) s.limits ↔ s.LinkFits := by
  have himage := hpasses.image
  constructor
  · intro hfits url hurl
    by_cases hempty : url = []
    · rw [hempty]
      exact Nat.zero_le _
    · apply hfits.url url
      rw [payload_link, hurl, linkOf, if_neg hempty]
      rfl
  · intro hlink
    constructor
    · intro t ht
      rw [payload_body] at ht
      obtain rfl := Option.mem_some_iff.1 ht
      exact (length_le_jsLength _).trans hpasses.text
    · intro t ht
      rw [payload_image] at ht
      obtain ⟨mime, hattachment⟩ := image_of_imageOf ht
      rw [Composed, hattachment] at hcomposed
      rw [hattachment] at himage
      rw [← approxDataUriBytes_eq hcomposed]
      exact himage
    · intro t ht
      rw [payload_link] at ht
      exact hlink t (gif_of_linkOf ht)

/-- A link in ASCII that the page lets through fits. -/
theorem linkFits_of_ascii {s : Compose} (hpasses : s.Passes)
    (hascii : ∀ url, s.attachment = some (.gif url) → IsAscii url) : s.LinkFits := by
  intro url hurl
  have hlink := hpasses.link
  have hurlAscii := hascii url hurl
  rw [hurl, linkLength, jsLength_eq_length hurlAscii] at hlink
  rw [Text.len_eq_length hurlAscii]
  exact hlink

/-- **What is sent is accepted just if the link fits in bytes**, under the limits that the page has
and so under those it was told; a link in ASCII does.  The text that is sent is the text that was
typed, trimmed. -/
theorem sent_accepted_iff {s : Compose} (h : s.Reached) {w : Sender} {p : Json}
    (hsent : s.sendMsg w = .ok p) :
    (validateSendPayload p s.limits = .ok () ↔ s.LinkFits) ∧
      (∀ limits, s.Told limits → (validateSendPayload p limits = .ok () ↔ s.LinkFits)) ∧
      ((∀ url, s.attachment = some (.gif url) → IsAscii url) → s.LinkFits) ∧
      ∃ body, p.getStr "body" = some body ∧ units body = trim (units s.value) := by
  obtain ⟨hpasses, conversationId, -, rfl⟩ := sendMsg_ok_iff.1 hsent
  have hiff := validateSendPayload_ok_iff.trans (fits_iff h.composed hpasses w conversationId)
  refine ⟨hiff, fun limits htold => ?_, linkFits_of_ascii hpasses,
    jsTrim s.value, payload_body w conversationId _ s.attachment, units_jsTrim s.value⟩
  rw [← htold.limits_eq]
  exact hiff

/-! ## Two links -/

namespace Sample

def sender : Sender :=
  ⟨some "bob#0001".toList, "ada#0001".toList, "m1".toList, "2024-01-01T00:00:00.000Z".toList, [], false,
    false, false, none⟩

/-- A link with `n` characters of two bytes. -/
def link (n : ℕ) : Text := "http://".toList ++ List.replicate n 'é' ++ ".gif".toList

/-- The page after the link was typed. -/
def typed (n : ℕ) : Compose := load.next (.input (link n))

theorem typed_reached (n : ℕ) : (typed n).Reached :=
  Transitions.Reaches.tail (.refl load) trivial

end Sample

/-- It is sent where it passes. -/
theorem Sample.sent {n : ℕ} (h : (typed n).Passes) : ∃ p, (typed n).sendMsg sender = .ok p :=
  ⟨_, sendMsg_ok_iff.2 ⟨h, "bob#0001".toList, rfl, rfl⟩⟩

theorem Sample.typed_attachment :
    (typed 500).attachment = some (.gif (link 500)) ∧
      (typed 1013).attachment = some (.gif (link 1013)) := by
  decide +kernel

theorem Sample.typed_passes : (typed 500).Passes ∧ (typed 1013).Passes :=
  ⟨⟨by decide +kernel, by decide +kernel, by decide +kernel, by decide +kernel⟩,
    by decide +kernel, by decide +kernel, by decide +kernel, by decide +kernel⟩

/-- A link of 511 characters and 1011 bytes is accepted. -/
theorem sent_accepted_short :
    ∃ p, (Sample.typed 500).sendMsg Sample.sender = .ok p ∧
      validateSendPayload p (Sample.typed 500).limits = .ok () := by
  obtain ⟨p, hsent⟩ := Sample.sent Sample.typed_passes.1
  refine ⟨p, hsent, (sent_accepted_iff (Sample.typed_reached 500) hsent).1.2 ?_⟩
  intro url hurl
  rw [Sample.typed_attachment.1] at hurl
  cases hurl
  decide +kernel

/-- A link of 1024 characters is sent, and refused. -/
theorem sent_refused :
    ∃ p, (Sample.typed 1013).Reached ∧ (Sample.typed 1013).sendMsg Sample.sender = .ok p ∧
      validateSendPayload p (Sample.typed 1013).limits ≠ .ok () := by
  obtain ⟨p, hsent⟩ := Sample.sent Sample.typed_passes.2
  refine ⟨p, Sample.typed_reached 1013, hsent, fun haccepted => ?_⟩
  obtain ⟨-, conversationId, -, rfl⟩ := sendMsg_ok_iff.1 hsent
  have hlink := (validateSendPayload_ok_iff.1 haccepted).url (Sample.link 1013)
  have hne : Sample.link 1013 ≠ [] := by decide
  rw [payload_link, Sample.typed_attachment.2, linkOf, if_neg hne] at hlink
  have hfits : Text.len (Sample.link 1013) ≤ (Sample.typed 1013).limits.maxMediaUrlChars := hlink rfl
  exact absurd hfits (by decide +kernel)

end Compose
end Winkd.Web
