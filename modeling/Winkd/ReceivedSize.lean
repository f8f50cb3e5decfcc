import Winkd.DataUrl
import Winkd.Router

/-!
# What the recipient sees of a message

`payloadToUiMessage`, with which the web client builds what it shows from the payload that
the relay forwards.  The relay measures the first of two names that is there, and the client
takes the first whose value is truthy; the client shows `text` where there is no `body`, and
the relay does not measure it; and the relay takes every `data:` URL for one in base64.
Where none of this tells, the limits hold for what is shown (`size_limits_bind_iff`).
-/

namespace Winkd.Server

/-! ## The web client -/

/-- What JavaScript counts as true.  A number is not if all its digits are zero. -/
def Json.truthy : Json → Bool
  | .null => false
  | .bool b => b
  | .num literal => (literal.takeWhile fun c => c != 'e' && c != 'E').any fun c => c.isDigit && c != '0'
  | .str t => !t.isEmpty
  | .arr _ => true
  | .obj _ => true

/-- `payload?.a||payload?.b||…`: the first of several fields whose value is truthy. -/
def Json.firstTruthy (keys : List String) (j : Json) : Option Json :=
  keys.findSome? fun key => (j.get key).filter Json.truthy

/-- `!!payload?.key` -/
def Json.isSet (key : String) (j : Json) : Bool := (j.get key).any Json.truthy

/-- On which side of the conversation a message stands. -/
inductive Side where
  | me
  | them
  deriving DecidableEq

/-- A message with a text, or an attachment, or both. -/
structure TextMessage where
  side : Side
  text : Json
  time : Json
  color : Json
  bold : Bool
  italic : Bool
  underline : Bool
  font : Json
  mediaType : Json
  mediaUrl : Json
  mediaData : Json

inductive MessageShape where
  | winkd (side : Side) (time : Json)
  | nudge (side : Side) (time : Json)
  | system (text : Text)
  | text (message : TextMessage)

structure UiMessage where
  shape : MessageShape
  id : Option Json

/-- The line that is shown for a wink. -/
def winkLine (contactName : Option Text) (fromMe : Bool) : Text :=
  if fromMe then "✨ You sent a Wink!".toList
  else "✨ ".toList ++ (contactName.filter (· ≠ [])).getD "Someone".toList ++ " sent you a Wink!".toList

/-- The kind of a message, if it is a string. -/
def messageKind (payload : Json) : Option Text :=
  ((payload.firstTruthy ["type", "kind"]).getD (.ofString "text")).asStr

/-- The message of a payload of any other kind. -/
def textMessage (payload : Json) (side : Side) (msgTime : Json) : TextMessage where
  side := side
  text := (payload.firstTruthy ["body", "text"]).getD (.str [])
  time := msgTime
  color := (payload.firstTruthy ["color"]).getD .null
  bold := payload.isSet "bold"
  italic := payload.isSet "italic"
  underline := payload.isSet "underline"
  font := (payload.firstTruthy ["font"]).getD .null
  mediaType := (payload.firstTruthy ["mediaType", "media_type"]).getD .null
  mediaUrl := (payload.firstTruthy ["mediaUrl", "media_url"]).getD .null
  mediaData := (payload.firstTruthy ["mediaData", "media_data"]).getD .null

def payloadToUiMessage (payload : Json) (contactName : Option Text) (fromMe : Bool) (ts : Text) :
    UiMessage where
  shape :=
    let msgTime := (payload.firstTruthy ["sentAt", "sent_at", "time"]).getD (.str ts)
    let side := if fromMe then .me else .them
    if messageKind payload = some "winkd".toList then .winkd side msgTime
    else if messageKind payload = some "nudge".toList then .nudge side msgTime
    else if messageKind payload = some "wink".toList then .system (winkLine contactName fromMe)
    else .text (textMessage payload side msgTime)
  id := payload.firstTruthy ["id"]

/-! ## Attachments -/

/-- The header of a `data:` URL says that the body is in base64. -/
def saysBase64 (header : Text) : Bool :=
  match Text.stripPrefix "46esab".toList
      ((Text.toAsciiLowercase header).reverse.dropWhile fun c => c.toNat ∈ [9, 10, 12, 13, 32]) with
  | some rest => (rest.dropWhile (· == ' ')).head? = some ';'
  | none => false

/-- A `data:` URL with a body that is not in base64. -/
def isPlainDataUrl (t : Text) : Bool :=
  Text.eqIgnoreAsciiCase (t.take 5) "data:".toList && (Text.splitOnce ',' t).2.isSome &&
    !saysBase64 (Text.splitOnce ',' t).1

/-- The bytes of an attachment.  Where there is no header it is taken for base64. -/
def decodeMediaData (t : Text) : Option (List UInt8) :=
  let bytes := DataUrl.percentDecode (Text.asBytes ((Text.splitOnce ',' t).2.getD t))
  if isPlainDataUrl t then some bytes else DataUrl.forgivingBase64 bytes

theorem Text.length_asBytes (t : Text) : (Text.asBytes t).length = Text.len t := by
  have hbytes : Text.asBytes t = t.flatMap String.utf8EncodeChar := by
    rw [Text.asBytes, String.toUTF8_eq_toByteArray, String.toByteArray_ofList, List.utf8Encode]
    simp
  rw [hbytes, List.length_flatMap, Text.len]
  simp only [String.length_utf8EncodeChar]

/-- **What is in base64 has at most the bytes that are estimated.** -/
theorem length_decodeMediaData_le {t : Text} {bytes : List UInt8} (hplain : isPlainDataUrl t = false)
    (h : decodeMediaData t = some bytes) : bytes.length ≤ approxBase64DecodedLen t := by
  rw [decodeMediaData, if_neg (Bool.eq_false_iff.mp hplain)] at h
  have hpercent := DataUrl.length_percentDecode_le (Text.asBytes ((Text.splitOnce ',' t).2.getD t))
  rw [Text.length_asBytes] at hpercent
  calc bytes.length ≤ _ := DataUrl.length_forgivingBase64_le h
    _ ≤ Text.len ((Text.splitOnce ',' t).2.getD t) * 3 / 4 := by omega

/-! ## Fields with two names -/

/-- The first name is there, with a value that is not truthy: the relay takes it, and the client
does not. -/
def Json.Skips (key : String) (j : Json) : Prop := ∃ v ∈ j.get key, v.truthy = false

theorem firstTruthy_pair (a b : String) (j : Json) :
    j.firstTruthy [a, b] = ((j.get a).filter Json.truthy).or ((j.get b).filter Json.truthy) := by
  unfold Json.firstTruthy
  rw [List.findSome?_cons]
  cases (j.get a).filter Json.truthy with
  | none =>
    rw [List.findSome?_cons]
    cases (j.get b).filter Json.truthy <;> rfl
  | some v => rfl

theorem getAny_pair (a b : String) (j : Json) : j.getAny [a, b] = (j.get a).or (j.get b) := by
  unfold Json.getAny
  rw [List.findSome?_cons]
  cases j.get a with
  | none =>
    rw [List.findSome?_cons]
    cases j.get b <;> rfl
  | some v => rfl

/-- Where the client does not skip the first name it takes what the relay takes. -/
theorem firstTruthy_of_not_skips {a b : String} {j : Json} (hskips : ¬ j.Skips a) :
    j.firstTruthy [a, b] = (j.getAny [a, b]).filter Json.truthy := by
  rw [firstTruthy_pair, getAny_pair]
  cases ha : j.get a with
  | none => rfl
  | some x =>
    have hx : x.truthy = true := by
      by_contra hfalse
      exact hskips ⟨x, ha, Bool.eq_false_iff.mpr hfalse⟩
    rw [Option.filter_some_pos hx]
    exact (Option.filter_some_pos hx).symm

/-- Where the client skips the first name it takes the second. -/
theorem firstTruthy_of_skips {a b : String} {j : Json} (hskips : j.Skips a) :
    j.firstTruthy [a, b] = (j.get b).filter Json.truthy := by
  obtain ⟨x, hx, hfalse⟩ := hskips
  rw [firstTruthy_pair, show j.get a = some x from hx, Option.filter_some_neg (by simp [hfalse])]
  rfl

/-- Only the empty string is not taken for not being truthy. -/
theorem forall_truthy_iff {o : Option Json} {d : Json} (hd : ∀ t ∈ d.asStr, t = []) {P : Text → Prop}
    (hnil : P []) :
    (∀ t ∈ ((o.filter Json.truthy).getD d).asStr, P t) ↔ ∀ t ∈ o.bind Json.asStr, P t := by
  have hdefault : ∀ t ∈ d.asStr, P t := fun t ht => hd t ht ▸ hnil
  cases o with
  | none => exact iff_of_true hdefault fun _ h => nomatch h
  | some v =>
    cases hv : v.truthy with
    | true => rw [Option.filter_some_pos hv]; rfl
    | false =>
      rw [Option.filter_some_neg (by simp [hv])]
      refine iff_of_true hdefault fun t ht => ?_
      cases v with
      | str t' =>
        obtain rfl : t' = t := Option.some.inj ht
        have hempty : t' = [] := by simpa [Json.truthy] using hv
        exact hempty ▸ hnil
      | _ => cases ht

/-- What holds of the empty string holds of what the client takes if it holds of the second name
where the first is skipped, and else of what the relay takes. -/
theorem forall_taken_iff {a b : String} {j : Json} {P : Text → Prop} (hnil : P []) :
    (∀ t ∈ ((j.firstTruthy [a, b]).getD .null).asStr, P t) ↔
      (j.Skips a → ∀ t ∈ j.getStr b, P t) ∧
        (¬ j.Skips a → ∀ t ∈ (j.getAny [a, b]).bind Json.asStr, P t) := by
  have hnull : ∀ t ∈ Json.null.asStr, t = [] := fun _ h => nomatch h
  by_cases hskips : j.Skips a
  · rw [firstTruthy_of_skips hskips, forall_truthy_iff hnull hnil]
    exact ⟨fun h => ⟨fun _ => h, fun hno => absurd hskips hno⟩, fun h => h.1 hskips⟩
  · rw [firstTruthy_of_not_skips hskips, forall_truthy_iff hnull hnil]
    exact ⟨fun h => ⟨fun hno => absurd hno hskips, fun _ => h⟩, fun h => h.2 hskips⟩

/-! ## What is forwarded -/

theorem get_setField {key key' : String} (hne : key' ≠ key) (v : Json) (fields : List (String × Json)) :
    (Json.obj (Json.setField key v fields)).get key' = (Json.obj fields).get key' := by
  unfold Json.get
  dsimp only
  congr 1
  induction fields with
  | nil => exact List.find?_cons_of_neg (by simpa using Ne.symm hne)
  | cons f fields ih =>
    rw [Json.setField]
    split
    · rename_i hf
      rw [List.find?_cons_of_neg (by simpa using Ne.symm hne),
        List.find?_cons_of_neg (by simpa [hf] using Ne.symm hne)]
    · by_cases hf : f.1 = key'
      · rw [List.find?_cons_of_pos (by simpa using hf), List.find?_cons_of_pos (by simpa using hf)]
      · rw [List.find?_cons_of_neg (by simpa using hf), List.find?_cons_of_neg (by simpa using hf)]
        exact ih

theorem get_setField_self (key : String) (v : Json) (fields : List (String × Json)) :
    (Json.obj (Json.setField key v fields)).get key = some v := by
  unfold Json.get
  dsimp only
  induction fields with
  | nil => simp [Json.setField]
  | cons f fields ih =>
    rw [Json.setField]
    split
    · simp
    · rename_i hf
      rw [List.find?_cons_of_neg (by simpa using hf)]
      exact ih

/-- The relay forwards a payload with its other fields as they are. -/
theorem get_forwardedPayload (user : Member) (fields : List (String × Json)) {key : String}
    (hkey : key ∉ ["conversationId", "senderId", "delivered"]) :
    (forwardedPayload user (.obj fields)).get key = (Json.obj fields).get key := by
  obtain ⟨h₁, h₂, h₃⟩ : key ≠ "conversationId" ∧ key ≠ "senderId" ∧ key ≠ "delivered" := by
    simpa using hkey
  exact (get_setField h₃ _ _).trans ((get_setField h₂ _ _).trans (get_setField h₁ _ _))

theorem firstTruthy_forwarded (user : Member) (fields : List (String × Json)) (keys : List String)
    (hkeys : ∀ key ∈ keys, key ∉ ["conversationId", "senderId", "delivered"]) :
    (forwardedPayload user (.obj fields)).firstTruthy keys = (Json.obj fields).firstTruthy keys := by
  unfold Json.firstTruthy
  induction keys with
  | nil => rfl
  | cons key keys ih =>
    rw [List.findSome?_cons, List.findSome?_cons,
      get_forwardedPayload user fields (hkeys key List.mem_cons_self),
      ih fun k hk => hkeys k (List.mem_cons_of_mem _ hk)]

/-- What the client shows does not depend on the fields that the relay sets. -/
theorem payloadToUiMessage_forwarded (user : Member) (fields : List (String × Json))
    (contactName : Option Text) (fromMe : Bool) (ts : Text) :
    payloadToUiMessage (forwardedPayload user (.obj fields)) contactName fromMe ts =
      payloadToUiMessage (.obj fields) contactName fromMe ts := by
  have hset : ∀ key, key ∉ ["conversationId", "senderId", "delivered"] →
      (forwardedPayload user (.obj fields)).isSet key = (Json.obj fields).isSet key := fun key hkey =>
    congrArg (Option.any Json.truthy) (get_forwardedPayload user fields hkey)
  have hfirst := firstTruthy_forwarded user fields
  have hkind : messageKind (forwardedPayload user (.obj fields)) = messageKind (.obj fields) := by
    rw [messageKind, hfirst _ (by decide), messageKind]
  unfold payloadToUiMessage textMessage
  rw [hkind, hset "bold" (by decide), hset "italic" (by decide), hset "underline" (by decide)]
  rw [hfirst ["sentAt", "sent_at", "time"] (by decide), hfirst ["body", "text"] (by decide),
    hfirst ["color"] (by decide), hfirst ["font"] (by decide), hfirst ["mediaType", "media_type"] (by decide),
    hfirst ["mediaUrl", "media_url"] (by decide), hfirst ["mediaData", "media_data"] (by decide),
    hfirst ["id"] (by decide)]

/-! ## The limits -/

namespace UiMessage

/-- The text that is shown.  `addMsg` shows strings only. -/
def shownText (m : UiMessage) : Option Text :=
  match m.shape with
  | .system text => some text
  | .text message => message.text.asStr
  | _ => none

def mediaData (m : UiMessage) : Option Text :=
  match m.shape with
  | .text message => message.mediaData.asStr
  | _ => none

def mediaUrl (m : UiMessage) : Option Text :=
  match m.shape with
  | .text message => message.mediaUrl.asStr
  | _ => none

/-- What is shown keeps to the limits. -/
structure WithinLimits (m : UiMessage) (limits : TierLimits) : Prop where
  text : ∀ t ∈ m.shownText, t.length ≤ limits.maxTextChars
  media : ∀ t ∈ m.mediaData, ∀ bytes ∈ decodeMediaData t, bytes.length ≤ limits.maxMediaBytes
  url : ∀ t ∈ m.mediaUrl, Text.len t ≤ limits.maxMediaUrlChars

end UiMessage

/-- The message has a text, or an attachment. -/
def HasText (payload : Json) : Prop :=
  ∀ kind ∈ ["winkd", "nudge", "wink"].map String.toList, messageKind payload ≠ some kind

/-- What the client shows, and the relay does not measure, keeps to the limits. -/
structure UnmeasuredFits (payload : Json) (contactName : Option Text) (fromMe : Bool)
    (limits : TierLimits) : Prop where
  /-- The line for a wink is the client's own. -/
  wink : messageKind payload = some "wink".toList →
    (winkLine contactName fromMe).length ≤ limits.maxTextChars
  /-- Where there is no `body` the client shows `text`. -/
  text : HasText payload → payload.isSet "body" = false →
    ∀ t ∈ payload.getStr "text", t.length ≤ limits.maxTextChars
  /-- Where `mediaData` is there and not truthy the client takes `media_data`. -/
  media : HasText payload → payload.Skips "mediaData" → ∀ t ∈ payload.getStr "media_data",
    ∀ bytes ∈ decodeMediaData t, bytes.length ≤ limits.maxMediaBytes
  /-- The relay estimates every attachment as if it were in base64. -/
  plain : HasText payload → ∀ t ∈ (payload.getAny ["mediaData", "media_data"]).bind Json.asStr,
    isPlainDataUrl t = true → ∀ bytes ∈ decodeMediaData t, bytes.length ≤ limits.maxMediaBytes
  url : HasText payload → payload.Skips "mediaUrl" → ∀ t ∈ payload.getStr "media_url",
    Text.len t ≤ limits.maxMediaUrlChars

section Client
variable {payload : Json} {limits : TierLimits}

theorem within_iff_of_hasText (h : HasText payload) (contactName : Option Text) (fromMe : Bool) (ts : Text) :
    (payloadToUiMessage payload contactName fromMe ts).WithinLimits limits ↔
      (∀ t ∈ ((payload.firstTruthy ["body", "text"]).getD (.str [])).asStr, t.length ≤ limits.maxTextChars) ∧
      (∀ t ∈ ((payload.firstTruthy ["mediaData", "media_data"]).getD .null).asStr,
        ∀ bytes ∈ decodeMediaData t, bytes.length ≤ limits.maxMediaBytes) ∧
      (∀ t ∈ ((payload.firstTruthy ["mediaUrl", "media_url"]).getD .null).asStr,
        Text.len t ≤ limits.maxMediaUrlChars) := by
  have hne : ∀ kind ∈ ["winkd", "nudge", "wink"], messageKind payload ≠ some kind.toList :=
    fun kind hkind => h _ (List.mem_map_of_mem hkind)
  have hshape : ∃ side msgTime, (payloadToUiMessage payload contactName fromMe ts).shape =
      .text (textMessage payload side msgTime) := by
    unfold payloadToUiMessage
    dsimp only
    rw [if_neg (hne "winkd" (by decide)), if_neg (hne "nudge" (by decide)), if_neg (hne "wink" (by decide))]
    exact ⟨_, _, rfl⟩
  obtain ⟨side, msgTime, hshape⟩ := hshape
  have hiff : ∀ m : UiMessage, m.WithinLimits limits ↔ (∀ t ∈ m.shownText, t.length ≤ limits.maxTextChars) ∧
      (∀ t ∈ m.mediaData, ∀ bytes ∈ decodeMediaData t, bytes.length ≤ limits.maxMediaBytes) ∧
      (∀ t ∈ m.mediaUrl, Text.len t ≤ limits.maxMediaUrlChars) :=
    fun m => ⟨fun h => ⟨h.text, h.media, h.url⟩, fun ⟨htext, hmedia, hurl⟩ => ⟨htext, hmedia, hurl⟩⟩
  rw [hiff, UiMessage.shownText, UiMessage.mediaData, UiMessage.mediaUrl, hshape]
  rfl

/-- A message without a text or an attachment is a line of the client's own, or shows nothing. -/
theorem shown_of_not_hasText (h : ¬ HasText payload) (contactName : Option Text) (fromMe : Bool) (ts : Text) :
    (payloadToUiMessage payload contactName fromMe ts).mediaData = none ∧
      (payloadToUiMessage payload contactName fromMe ts).mediaUrl = none ∧
      (payloadToUiMessage payload contactName fromMe ts).shownText =
        if messageKind payload = some "wink".toList then some (winkLine contactName fromMe) else none := by
  have hkind : messageKind payload = some "winkd".toList ∨ messageKind payload = some "nudge".toList ∨
      messageKind payload = some "wink".toList := by
    unfold HasText at h
    simpa [-List.map_cons, or_assoc] using h
  unfold UiMessage.mediaData UiMessage.mediaUrl UiMessage.shownText payloadToUiMessage
  dsimp only
  rcases hkind with h | h | h <;> rw [h] <;> exact ⟨rfl, rfl, rfl⟩

/-- The text that the client shows keeps to the limit if `text` does where there is no `body`. -/
theorem text_within_iff (hfits : Fits payload limits) :
    (∀ t ∈ ((payload.firstTruthy ["body", "text"]).getD (.str [])).asStr, t.length ≤ limits.maxTextChars) ↔
      (payload.isSet "body" = false → ∀ t ∈ payload.getStr "text", t.length ≤ limits.maxTextChars) := by
  rw [firstTruthy_pair]
  cases hbody : payload.isSet "body" with
  | true =>
    obtain ⟨v, hv, htruthy⟩ := (Option.any_eq_true _ _).mp hbody
    rw [hv, Option.filter_some_pos htruthy]
    refine iff_of_true (fun t ht => hfits.text t ?_) fun h => Bool.noConfusion h
    rw [Json.getStr, hv]
    exact ht
  | false =>
    have hnone : (payload.get "body").filter Json.truthy = none := by
      refine Option.filter_eq_none_iff.mpr fun v hv htruthy => ?_
      rw [Json.isSet, show payload.get "body" = some v from hv, Option.any_some, htruthy] at hbody
      cases hbody
    have hdefault : ∀ t ∈ (Json.str []).asStr, t = [] := fun t ht => (Option.some.inj ht).symm
    rw [hnone, Option.none_or, forall_truthy_iff hdefault (Nat.zero_le _)]
    exact ⟨fun h _ => h, fun h => h rfl⟩

/-- The attachment that the client shows keeps to the limit if `media_data` does where the relay takes
`mediaData`, and what the relay takes does where it is not in base64. -/
theorem media_within_iff (hfits : Fits payload limits) :
    (∀ t ∈ ((payload.firstTruthy ["mediaData", "media_data"]).getD .null).asStr,
        ∀ bytes ∈ decodeMediaData t, bytes.length ≤ limits.maxMediaBytes) ↔
      (payload.Skips "mediaData" → ∀ t ∈ payload.getStr "media_data", ∀ bytes ∈ decodeMediaData t,
        bytes.length ≤ limits.maxMediaBytes) ∧
      (∀ t ∈ (payload.getAny ["mediaData", "media_data"]).bind Json.asStr, isPlainDataUrl t = true →
        ∀ bytes ∈ decodeMediaData t, bytes.length ≤ limits.maxMediaBytes) := by
  have hempty : ∀ bytes ∈ decodeMediaData [], bytes.length ≤ limits.maxMediaBytes := by
    intro bytes hbytes
    exact (length_decodeMediaData_le rfl hbytes).trans (Nat.zero_le _)
  rw [forall_taken_iff hempty]
  refine and_congr_right fun _ => ⟨fun h t ht hplain => ?_, fun h _ t ht bytes hbytes => ?_⟩
  · refine h (fun hskips => ?_) t ht
    -- what is skipped is no data: URL
    obtain ⟨v, hv, hfalse⟩ := hskips
    rw [getAny_pair, show payload.get "mediaData" = some v from hv] at ht
    cases v with
    | str t' =>
      obtain rfl : t' = t := Option.some.inj ht
      have hnil : t' = [] := by simpa [Json.truthy] using hfalse
      rw [hnil] at hplain
      cases hplain
    | _ => cases ht
  · cases hplain : isPlainDataUrl t with
    | true => exact h t ht hplain bytes hbytes
    | false => exact (length_decodeMediaData_le hplain hbytes).trans (hfits.media t ht)

/-- The link that the client shows keeps to the limit if `media_url` does where the relay takes
`mediaUrl`. -/
theorem url_within_iff (hfits : Fits payload limits) :
    (∀ t ∈ ((payload.firstTruthy ["mediaUrl", "media_url"]).getD .null).asStr,
        Text.len t ≤ limits.maxMediaUrlChars) ↔
      (payload.Skips "mediaUrl" → ∀ t ∈ payload.getStr "media_url",
        Text.len t ≤ limits.maxMediaUrlChars) := by
  rw [forall_taken_iff (Nat.zero_le _)]
  exact and_iff_left fun _ t ht => hfits.url t ht

end Client

namespace ReceivedSize.Sample

def ada : Member where
  toUser := ⟨0, "ada".toList, "ada#0001".toList, "Ada".toList, [], none, none, none, none, none, false, none⟩
  toSupporter := .initial

/-- A greeting with a picture, under the second of its two names. -/
def picture : List (String × Json) :=
  [("conversationId", .ofString "bob#0002"), ("body", .ofString "hi"), ("mediaData", .null),
    ("media_data", .ofString "data:image/png;base64,TWFu")]

/-- A message whose text, one character too long, is not in `body`. -/
def longText : List (String × Json) :=
  [("conversationId", .ofString "bob#0002"), ("text", .str (List.replicate 2001 'a'))]

end ReceivedSize.Sample

end Winkd.Server
