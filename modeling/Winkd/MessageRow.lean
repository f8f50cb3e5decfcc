import Winkd.Profiles
import Winkd.ReceivedSize

/-!
# The row of a message

What `addMsg` assigns to `innerHTML` for a message that `payloadToUiMessage` has made of a
payload.  The payload is JSON: where JavaScript makes a string of a value that is none, it is
made here (`Json.toJsString`), and where it throws, nothing is assigned.
-/

namespace Winkd.Web
open UnicodeText Markup Winkd.Server

/-- The code units of a text. -/
def units (t : Text) : CodeUnits := t.flatMap fun c => unitsOf c.toNat

/-! ## Strings of values -/

section Strings
variable (numberText : Text → CodeUnits)

mutual

/-- `String(v)`, and `${v}`.  An object with a field of the name `toString` cannot be made one. -/
def toJsString : Json → Option CodeUnits
  | .null => some (js "null")
  | .bool b => some (js (if b then "true" else "false"))
  | .num literal => some (numberText literal)
  | .str t => some (units t)
  | .arr items => (itemStrings items).map fun ss => (ss.intersperse (js ",")).flatten
  | .obj fields => if fields.any (fun f => f.1 = "toString") then none else some (js "[object Object]")

/-- The strings that `join` joins. -/
def itemStrings : List Json → Option (List CodeUnits)
  | [] => some []
  | .null :: items => (itemStrings items).map ([] :: ·)
  | item :: items => do
    let s ← toJsString item
    let ss ← itemStrings items
    some (s :: ss)

end

/-- `v||w` -/
def orElse (v w : Json) : Json := if v.truthy then v else w

/-! ## Attachments -/

def isWebUrl (s : CodeUnits) : Bool :=
  startsWithIgnoreCase (js "https://") s || startsWithIgnoreCase (js "http://") s

def sanitizeMediaSrc (src : Json) : Option CodeUnits :=
  if !src.truthy then some []
  else do
    let s ← toJsString numberText src
    if isWebUrl s || startsWithIgnoreCase (js "data:image/") s then
      match src with
      | .str _ => some (replaceUnit '"' (js "&quot;") s)
      | _ => none
    else some []

end Strings

/-! ## Emoticons in a text -/

/-- `/\/msn-emoticons\/[a-z0-9-]+\.(?:png|gif)/gi` -/
def msnLength (s : CodeUnits) : ℕ :=
  if startsWithIgnoreCase (js "/msn-emoticons/") s then
    let slug := (s.drop 15).takeWhile isSlug
    let ending := literalLength [js ".png", js ".gif"] (asciiLower ((s.drop 15).drop slug.length))
    if slug = [] ∨ ending = 0 then 0 else 15 + slug.length + ending
  else 0

/-- `[a-z0-9_-]` with the flag `i`. -/
def isPackUnit (u : UInt16) : Bool := isSlug u || u = unit '_'

/-- `[A-Za-z0-9%_. -]` -/
def isFileUnit (u : UInt16) : Bool := isPackUnit u || u = unit '%' || u = unit '.' || u = unit ' '

/-- `[A-Za-z0-9%_. -]+?\.(?:png|gif)`, tried from so many characters on. -/
def fileLength (s : CodeUnits) : ℕ :=
  let name := s.takeWhile isFileUnit
  ((List.range name.length).findSome? fun n =>
    let ending := literalLength [js ".png", js ".gif"] (asciiLower (s.drop (n + 1)))
    if ending = 0 then none else some (n + 1 + ending)).getD 0

/-- `/\/emoji-packs\/[a-z0-9_-]+\/[A-Za-z0-9%_. -]+?\.(?:png|gif)/gi` -/
def packLength (s : CodeUnits) : ℕ :=
  if startsWithIgnoreCase (js "/emoji-packs/") s then
    let pack := (s.drop 13).takeWhile isPackUnit
    let rest := (s.drop 13).drop pack.length
    if pack = [] ∨ rest.head? ≠ some (unit '/') ∨ fileLength rest.tail = 0 then 0
    else 13 + pack.length + 1 + fileLength rest.tail
  else 0

/-- The image of an emoticon. -/
def emoticon (src alt size : CodeUnits) : List Piece :=
  [.own (js "<img src=\""), .raw .value src, .own (js "\" alt=\""), .raw .value alt,
    .own (js "\" style=\"width:"), .raw .value size, .own (js "px;height:"), .raw .value size,
    .own (js "px;vertical-align:middle;\">")]

/-- What a name of an emoticon is replaced with. -/
def tokenImage (token : CodeUnits) : Option (List Piece) :=
  (emojiTokenToAsset token).map fun src =>
    if msnLength src ≠ 0 ∧ msnLength src = src.length then
      emoticon src (js "msn emoji") (js "20")
    else emoticon src (js "winkd emoji") (js "22")

/-- The text of a message, as `addMsg` writes it. -/
def messageText (rawText : CodeUnits) : CodeUnits :=
  let escaped := replaceUnit '\n' (js "<br>") (escapeHtml rawText)
  let msn := replaceAll msnLength
    (fun url => html (emoticon url (js "msn emoji") (js "20"))) escaped
  let packs := replaceAll packLength
    (fun url => html (emoticon url (js "winkd emoji") (js "22"))) msn
  replaceAll tokenLength (fun token => ((tokenImage token).map html).getD token) packs

/-! ## The row -/

/-- The id of a row, which the page makes of the time and a random number. -/
structure RowId where
  text : CodeUnits
  isSlug : text.all isSlug = true

/-- What the row of a message is made of. -/
structure Row where
  fromMe : Bool
  background : CodeUnits
  avatarSrc : CodeUnits
  initials : CodeUnits
  name : CodeUnits
  time : CodeUnits
  /-- The image of the attachment. -/
  media : Option CodeUnits
  style : List Piece
  /-- The text, as it was sent. -/
  text : CodeUnits
  msgId : RowId

section AddMsg
variable (U : Unicode) (numberText : Text → CodeUnits)

/-- A declaration of the style, if there is a value for it. -/
def declaration (property : CodeUnits) (v : Json) : Option (List Piece) :=
  if v.truthy then
    (toJsString numberText v).map fun s => [.own property, .raw .value s, .own (js ";")]
  else some []

def styleStr (m : TextMessage) : Option (List Piece) := do
  let color ← declaration numberText (js "color:") m.color
  let font ← declaration numberText (js "font-family:") m.font
  some (color ++ (if m.bold then [.own (js "font-weight:700;")] else []) ++
    (if m.italic then [.own (js "font-style:italic;")] else []) ++
    (if m.underline then [.own (js "text-decoration:underline;")] else []) ++ font)

/-- `(m.mediaType||'').toLowerCase()` -/
def lowerMediaType (v : Json) : Option CodeUnits :=
  if !v.truthy then some []
  else match v with
    | .str t => some (U.toLowerCase (units t))
    | _ => none

/-- The image of an attachment, if there is one. -/
def mediaImage (m : TextMessage) : Option (Option CodeUnits) := do
  let safeSrc ← sanitizeMediaSrc numberText (orElse m.mediaUrl m.mediaData)
  let mediaType ← lowerMediaType U m.mediaType
  some (if safeSrc ≠ [] ∧ (mediaType = js "gif" ∨ mediaType = js "image" ∨
    (js "data:image/").isPrefixOf safeSrc) then some safeSrc else none)

/-- `m.text||''`, if it is a string. -/
def rawText (m : TextMessage) : Option CodeUnits :=
  match orElse m.text (.str []) with
  | .str t => some (units t)
  | _ => none

/-- The row of a text message, unless a value of the message makes `addMsg` throw; `now` is
`ts()`. -/
def messageRow (me : Own) (c : Contact) (msgId : RowId) (now : Text) (m : TextMessage) :
    Option Row := do
  let fromMe : Bool := m.side = .me
  let style ← styleStr numberText m
  let media ← mediaImage U numberText m
  let text ← rawText m
  let time ← toJsString numberText (orElse m.time (.str now))
  some
    { fromMe := fromMe
      background :=
        if fromMe then avBg me.avColor.text (dk me.avColor) me.status
        else avBg c.color.text (dk c.color) c.status
      avatarSrc := if fromMe then me.avatarSrc else c.avatarSrc
      initials := if fromMe then myInitials U me else c.initials
      name := if fromMe then me.name else c.name
      time := time
      media := media
      style := style
      text := text
      msgId := msgId }

namespace Row

def avInner (r : Row) : List Piece :=
  avatarOr r.avatarSrc
    [.own (js "<img src=\""), .raw .value r.avatarSrc,
      .own (js "\" style=\"width:100%;height:100%;object-fit:cover;display:block;\">")]
    [.raw .text r.initials]

def mediaHtml (r : Row) : List Piece :=
  match r.media with
  | none => []
  | some safeSrc =>
    [.own (js "<div style=\"margin-bottom:"),
      .raw .value (decimal (if r.text = [] then 0 else 6)), .own (js "px;\"><img src=\""),
      .raw .value safeSrc,
      .own (js "\" alt=\"shared media\" style=\"max-width:min(260px,60vw);max-height:220px;"),
      .own (js "border-radius:8px;display:block;border:1px solid rgba(100,140,210,0.35);\"></div>")]

/-- With the HTML of the text. -/
def textHtml (r : Row) (txt : List Piece) : List Piece :=
  if messageText r.text = [] then []
  else [.own (js "<div style=\"")] ++ r.style ++ [.own (js "\">")] ++ txt ++ [.own (js "</div>")]

/-- The template of a row. -/
def template (r : Row) (txt : List Piece) : List Piece :=
  [.own (js "<div class=\"msg-av\" style=\"background:"), .raw .value r.background,
    .own (js ";\">")] ++ r.avInner ++
  [.own (js "</div><div class=\"msg-body\"><div class=\"msg-meta\">"), .raw .text r.name,
    .own (js " · "), .raw .text r.time, .own (js "</div><div class=\""),
    .raw .value (js (if r.fromMe then "bubble-me" else "bubble-them")), .own (js "\">")] ++
  r.mediaHtml ++ r.textHtml txt ++
  [.own (js "</div><div class=\"msg-reaction-wrap\" id=\"rw-"), .raw .value r.msgId.text,
    .own (js "\"></div></div><div class=\"reaction-add-btn\" onclick=\"openReactionPopover(event,'"),
    .raw .value r.msgId.text, .own (js "')\">＋</div>")]

/-- The HTML of a row. -/
def html (r : Row) : CodeUnits := Markup.html (r.template [.own (messageText r.text)])

end Row

/-- What `addMsg` assigns to `innerHTML`: nothing where it shows a text, or throws. -/
def addMsg (me : Own) (c : Contact) (msgId : RowId) (now : Text) (m : UiMessage) : Option Row :=
  match m.shape with
  | .text message => messageRow U numberText me c msgId now message
  | _ => none

end AddMsg

end Winkd.Web
