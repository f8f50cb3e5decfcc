import Winkd.Emoticons

/-!
# Contacts on the page

The roster, the requests and the blocked users of the web client, the handlers of the events
that change them, and what `renderContacts`, `buildChat`, `renderInboundRequests` and
`renderBlockedUsers` assign to `innerHTML`.  A string that an event does not have, or has as
`null`, is empty.  Conversations, counters and sounds are left out.
-/

namespace Winkd.Web
open UnicodeText Markup

/-! ## Statuses and colours -/

inductive Status where
  | online
  | away
  | busy
  | offline
  | invisible
  deriving DecidableEq

def Status.text : Status → CodeUnits
  | .online => js "online"
  | .away => js "away"
  | .busy => js "busy"
  | .offline => js "offline"
  | .invisible => js "invisible"

/-- With a capital letter, as the groups are labelled and `buildChat` writes it. -/
def Status.label : Status → CodeUnits
  | .online => js "Online"
  | .away => js "Away"
  | .busy => js "Busy"
  | .offline => js "Offline"
  | .invisible => js "Invisible"

def isHexDigit (u : UInt16) : Bool :=
  isDigit u || (97 ≤ u.toNat && u.toNat ≤ 102) || (65 ≤ u.toNat && u.toNat ≤ 70)

def hexDigit (u : UInt16) : ℕ :=
  if isDigit u then u.toNat - 48 else if 97 ≤ u.toNat then u.toNat - 87 else u.toNat - 55

/-- `parseInt(s,16)` of hexadecimal digits. -/
def parseHex (s : CodeUnits) : ℕ := s.foldl (fun n u => 16 * n + hexDigit u) 0

/-- A colour, as `#rrggbb`. -/
structure Color where
  text : CodeUnits
  isHex : text.head? = some (unit '#') ∧ text.length = 7 ∧ text.tail.all isHexDigit = true

namespace Color

def red (h : Color) : ℕ := parseHex ((h.text.drop 1).take 2)

def green (h : Color) : ℕ := parseHex ((h.text.drop 3).take 2)

def blue (h : Color) : ℕ := parseHex ((h.text.drop 5).take 2)

end Color

/-- The colour of a contact. -/
def contactColor : Color := ⟨js "#406080", by decide⟩

/-- `SC` -/
def Status.color : Status → Color
  | .online => ⟨js "#00cc00", by decide⟩
  | .away => ⟨js "#ffaa00", by decide⟩
  | .busy => ⟨js "#dd2020", by decide⟩
  | .offline => ⟨js "#aaaaaa", by decide⟩
  | .invisible => ⟨js "#aaaaaa", by decide⟩

/-- `STATUS_GRAD` -/
def Status.grad : Status → CodeUnits × CodeUnits
  | .online => (js "#70ff90", js "#00aa30")
  | .away => (js "#ffe060", js "#cc8000")
  | .busy => (js "#ff7070", js "#cc0000")
  | .offline => (js "#cccccc", js "#888888")
  | .invisible => (js "#d8d8d8", js "#aaaaaa")

/-- Three numbers, with commas. -/
def commas (r g b : ℕ) : CodeUnits := decimal r ++ js "," ++ decimal g ++ js "," ++ decimal b

def dk (h : Color) : CodeUnits :=
  js "rgb(" ++ commas (h.red - 40) (h.green - 40) (h.blue - 40) ++ js ")"

def gemStyle (status : Status) : CodeUnits :=
  if status = .invisible then js "background:transparent;border:2px dashed rgba(180,200,230,0.7)"
  else
    let col := status.color
    let li := js "rgba(" ++ commas (min (col.red + 70) 255) (min (col.green + 70) 255)
      (min (col.blue + 70) 255) ++ js ",1)"
    let dk2 := js "rgba(" ++ commas (col.red - 30) (col.green - 30) (col.blue - 30) ++ js ",1)"
    js "background:radial-gradient(circle at 35% 30%," ++ li ++ js "," ++ col.text ++ js " 55%," ++
      dk2 ++ js " 100%);box-shadow:inset 0 1px 0 rgba(255,255,255,0.65),0 0 5px rgba(" ++
      commas col.red col.green col.blue ++ js ",0.5)"

def avBg (gradA gradB : CodeUnits) (status : Status) : CodeUnits :=
  js "linear-gradient(135deg," ++ gradA ++ js "," ++ gradB ++
    js ") padding-box,linear-gradient(135deg," ++ status.grad.1 ++ js " 0%," ++ status.grad.2 ++
    js " 100%) border-box"

/-! ## The page -/

structure Contact where
  id : CodeUnits
  initials : CodeUnits
  name : CodeUnits
  mood : CodeUnits
  status : Status
  color : Color
  avatarSrc : CodeUnits
  unread : ℕ

/-- A request's id is a UUID. -/
structure InboundRequest where
  requestId : CodeUnits
  isUuid : requestId.all (fun u => isHexDigit u || u = unit '-') = true
  fromWinkdId : CodeUnits
  fromDisplayName : CodeUnits

structure BlockedUser where
  userId : CodeUnits
  winkdId : CodeUnits
  displayName : CodeUnits
  avatarData : CodeUnits

/-- What the page knows of its own user. -/
structure Own where
  name : CodeUnits
  avColor : Color
  avatarSrc : CodeUnits
  status : Status
  /-- `navigator.onLine` -/
  onLine : Bool

/-- One assignment to `innerHTML`. -/
inductive Shown where
  | group (key : Status) (count : ℕ)
  | contact (c : Contact)
  | chat (c : Contact)
  | request (req : InboundRequest)
  | blocked (user : BlockedUser)

structure Page where
  contacts : List Contact
  inboundRequests : List InboundRequest
  blockedUsers : List BlockedUser
  activeContact : Option CodeUnits
  /-- The text of the search field. -/
  search : CodeUnits
  /-- What has been assigned to `innerHTML`. -/
  shown : List Shown

section Handlers
variable (U : Unicode)

/-- `name.slice(0,2).toUpperCase()` -/
def initials (name : CodeUnits) : CodeUnits := U.toUpperCase (name.take 2)

/-- `display_name||wid.split('#')[0]` -/
def nameOf (displayName winkdId : CodeUnits) : CodeUnits :=
  if displayName = [] then beforeFirst '#' winkdId else displayName

/-- A contact as it comes to the roster. -/
def newContact (winkdId displayName mood : CodeUnits) (status : Status) (avatarSrc : CodeUnits) :
    Contact where
  id := winkdId
  initials := initials U (nameOf displayName winkdId)
  name := nameOf displayName winkdId
  mood := mood
  status := status
  color := contactColor
  avatarSrc := avatarSrc
  unread := 0

def normalizeWinkdId (id : CodeUnits) : CodeUnits := U.toLowerCase (trim id)

def hasContactByWinkdId (contacts : List Contact) (id : CodeUnits) : Bool :=
  normalizeWinkdId U id ≠ [] &&
    contacts.any fun c => normalizeWinkdId U c.id = normalizeWinkdId U id

/-- The statuses of the groups. -/
def groups : List Status := [.online, .away, .busy, .offline]

/-- What a group lists when `f` is searched for. -/
def members (contacts : List Contact) (f : CodeUnits) (key : Status) : List Contact :=
  contacts.filter fun c => c.status = key &&
    (f = [] || includes (U.toLowerCase c.name) (U.toLowerCase f) ||
      includes (U.toLowerCase c.mood) (U.toLowerCase f))

def renderContacts (contacts : List Contact) (f : CodeUnits) : List Shown :=
  groups.flatMap fun key =>
    let ms := members U contacts f key
    if ms.isEmpty then [] else .group key ms.length :: ms.map .contact

namespace Page

def assign (p : Page) (xs : List Shown) : Page := { p with shown := p.shown ++ xs }

def renderContacts (p : Page) (f : CodeUnits) : Page := p.assign (Web.renderContacts U p.contacts f)

def renderInboundRequests (p : Page) : Page := p.assign (p.inboundRequests.map .request)

def renderBlockedUsers (p : Page) : Page := p.assign (p.blockedUsers.map .blocked)

end Page

/-- A contact of the roster snapshot. -/
structure RosterItem where
  winkdId : CodeUnits
  displayName : CodeUnits
  moodMessage : CodeUnits
  avatarData : CodeUnits
  status : Option Status

/-- The contact of a roster item; an invisible one looks offline. -/
def RosterItem.contact (item : RosterItem) : Contact :=
  newContact U item.winkdId item.displayName item.moodMessage
    (if item.status = some .invisible then .offline else item.status.getD .offline) item.avatarData

def handleContactsSnapshot (p : Page) (items : List RosterItem) : Page :=
  let contacts := (items.filter fun item => item.winkdId ≠ []).map (RosterItem.contact U)
  Page.renderContacts U { p with contacts := contacts } p.search

def handleContactRequestSent (p : Page) (toWinkdId toDisplayName toAvatarData : CodeUnits) : Page :=
  if toWinkdId = [] ∨ hasContactByWinkdId U p.contacts toWinkdId then p
  else
    let nc := newContact U toWinkdId toDisplayName (js "Pending acceptance…") .offline toAvatarData
    Page.renderContacts U { p with contacts := p.contacts ++ [nc] } []

def handleInboundContactRequest (p : Page) (req : InboundRequest) : Page :=
  if req.requestId = [] ∨ p.inboundRequests.any (fun r => r.requestId = req.requestId) then p
  else { p with inboundRequests := p.inboundRequests ++ [req] }.renderInboundRequests

def handleContactAccepted (p : Page) (winkdId displayName avatarData moodMessage : CodeUnits) :
    Page :=
  let name := nameOf displayName winkdId
  let same := fun c : Contact => normalizeWinkdId U c.id = normalizeWinkdId U winkdId
  match p.contacts.findIdx? same with
  | some i =>
    let contacts := p.contacts.modify i fun c =>
      { c with
        name := name, initials := initials U name, mood := moodMessage, status := .online
        avatarSrc := avatarData }
    Page.renderContacts U { p with contacts := contacts } []
  | none =>
    let p :=
      match p.inboundRequests.findIdx? fun r => r.fromWinkdId = winkdId with
      | some i => { p with inboundRequests := p.inboundRequests.eraseIdx i }.renderInboundRequests
      | none => p
    let nc := newContact U winkdId displayName moodMessage .online avatarData
    let contacts :=
      if hasContactByWinkdId U p.contacts winkdId then p.contacts else p.contacts ++ [nc]
    Page.renderContacts U { p with contacts := contacts } []

def handleContactUnblocked (p : Page) (userId : CodeUnits) : Page :=
  if userId = [] then p
  else
    let unblocked := p.blockedUsers.find? fun u => u.userId = userId
    let p := { p with blockedUsers := p.blockedUsers.filter fun u => u.userId ≠ userId }
    let p :=
      match unblocked with
      | none => p
      | some u =>
        if u.winkdId = [] ∨ p.contacts.any (fun c => c.id = u.winkdId) then p
        else
          let nc := newContact U u.winkdId u.displayName [] .offline u.avatarData
          Page.renderContacts U { p with contacts := p.contacts ++ [nc] } p.search
    p.renderBlockedUsers

def handleBlockedList (p : Page) (users : List BlockedUser) : Page :=
  { p with blockedUsers := users }.renderBlockedUsers

/-- `selectContact` as far as the roster; on a small screen `buildChat` comes later. -/
def selectContact (p : Page) (id : CodeUnits) : Page :=
  match p.contacts.findIdx? fun c => c.id = id with
  | none => { p with activeContact := some id }
  | some i =>
    let contacts := p.contacts.modify i fun c => { c with unread := 0 }
    Page.renderContacts U { p with activeContact := some id, contacts := contacts } p.search

end Handlers

/-- What the server sends, and what the user does. -/
inductive PageEvent where
  | contactsSnapshot (items : List RosterItem)
  | contactRequest (req : InboundRequest)
  | contactAccepted (winkdId displayName avatarData moodMessage : CodeUnits)
  | contactRequestSent (toWinkdId toDisplayName toAvatarData : CodeUnits)
  | contactUnblocked (userId : CodeUnits)
  | blockedList (users : List BlockedUser)
  | filterContacts (v : CodeUnits)
  | selectContact (id : CodeUnits)
  /-- The chat of a contact is built: one that is on the roster, or was when it was selected. -/
  | buildChat (c : Contact)
  | openBlockedUsersModal

def Page.next (U : Unicode) (p : Page) : PageEvent → Page
  | .contactsSnapshot items => handleContactsSnapshot U p items
  | .contactRequest req => handleInboundContactRequest p req
  | .contactAccepted winkdId displayName avatarData moodMessage =>
      handleContactAccepted U p winkdId displayName avatarData moodMessage
  | .contactRequestSent toWinkdId toDisplayName toAvatarData =>
      handleContactRequestSent U p toWinkdId toDisplayName toAvatarData
  | .contactUnblocked userId => handleContactUnblocked U p userId
  | .blockedList users => handleBlockedList p users
  | .filterContacts v => Page.renderContacts U { p with search := v } v
  | .selectContact id => selectContact U p id
  | .buildChat c => p.assign [.chat c]
  | .openBlockedUsersModal => p.renderBlockedUsers

def Page.start : Page := ⟨[], [], [], none, [], []⟩

/-! ## The templates -/

/-- An image, or the initials where there is none. -/
def avatarOr (avatarSrc : CodeUnits) (img initials : List Piece) : List Piece :=
  if avatarSrc = [] then initials else img

def groupLabel (key : Status) (count : ℕ) : List Piece :=
  [.own (js "<span class=\"arrow\">▼</span> "), .raw .text key.label, .own (js " ("),
    .raw .text (decimal count), .own (js ")")]

def contactItem (U : Unicode) (c : Contact) : List Piece :=
  let avatarInner := avatarOr c.avatarSrc
    [.own (js "<img src=\""), .raw .value c.avatarSrc, .own (js "\" alt=\""),
      .raw .value c.initials,
      .own (js "\" style=\"width:100%;height:100%;object-fit:cover;border-radius:4px;display:block;\">")]
    [.raw .text c.initials]
  let badge := if c.unread = 0 then [] else
    [.own (js "<div class=\"c-badge\">"), .raw .text (decimal c.unread), .own (js "</div>")]
  [.own (js "<div class=\"c-av\" style=\"background:"),
    .raw .value (avBg c.color.text (dk c.color) c.status), .own (js ";\">")] ++ avatarInner ++
  [.own (js "<div class=\"c-dot\" style=\""), .raw .value (gemStyle c.status),
    .own (js "\"></div></div><div style=\"flex:1;min-width:0;\"><div class=\"c-name\">"),
    escaped c.name, .own (js "</div><div class=\"c-mood\">")] ++ moodToInlineHtml U c.mood 13 ++
  [.own (js "</div></div>")] ++ badge

/-- `dpHTML`; one's own picture has no status. -/
def dpHTML (U : Unicode) (initials : CodeUnits) (colorA colorB label : CodeUnits)
    (statusKey : Option Status) (mood imgSrc : CodeUnits) : List Piece :=
  let imgTag := avatarOr imgSrc
    [.own (js "<img src=\""), .raw .value imgSrc, .own (js "\" alt=\""), .raw .value initials,
      .own (js "\">")]
    [.own (js "<span>"), .raw .text initials, .own (js "</span>")]
  let dot := match statusKey with
    | none => []
    | some status => [.own (js "<div class=\"dp-status-dot\" style=\""),
        .raw .value (gemStyle status), .own (js "\"></div>")]
  let statusLine := match statusKey with
    | none => []
    | some status => [.own (js "<div class=\"dp-contact-status\" style=\"color:"),
        .raw .value status.color.text, .own (js ";\">● "), .raw .text status.text,
        .own (js "</div>")]
  let moodLine := if mood = [] then [] else
    [.own (js "<div class=\"dp-contact-mood\">")] ++ moodToInlineHtml U mood 14 ++
      [.own (js "</div>")]
  [.own (js "<div class=\"dp-frame\" style=\"background:"),
    .raw .value (avBg colorA colorB (statusKey.getD .offline)), .own (js ";\" title=\""),
    .raw .value label, .own (js "\">")] ++ imgTag ++ dot ++
  [.own (js "</div>\n            <div class=\"dp-info\"><div class=\"dp-contact-name\">"),
    .raw .text label, .own (js "</div>")] ++ statusLine ++ moodLine ++ [.own (js "</div>")]

def chatTop : CodeUnits := js
    "\">📡 You're offline. Messages will send when reconnected</div>\n<div style=\"display:flex;flex:1;overflow:hidden;min-height:0;\">
  <div style=\"display:flex;flex-direction:column;flex:1;overflow:hidden;min-width:0;\">
    <div id=\"chat-header\">
      <div style=\"display:flex;align-items:center;gap:10px;\">
        <button id=\"mobile-back-btn\" onclick=\"goBack()\" aria-label=\"Back\">‹</button>
        <div class=\"ch-av ch-av-mobile\" style=\"background:linear-gradient(135deg,"

/-- The toolbars, the icons and the field of `buildChat`. -/
def chatControls : CodeUnits := js
    "</div></div>
      </div>
      <div style=\"display:flex;gap:5px;\">
        <div class=\"ch-hbtn\" id=\"block-chat-btn\" onclick=\"blockActiveContact()\" style=\"color:#8a1818;border-color:rgba(200,80,80,0.55);background:linear-gradient(to bottom,rgba(255,238,238,0.95),rgba(255,210,210,0.85));\" title=\"Block this user\">🚫 Block</div>
        <div class=\"ch-hbtn\" id=\"end-chat-btn\" onclick=\"endChat()\">🚪 End Chat</div>
      </div>
    </div>
    <div id=\"chat-messages\"></div>
    <div id=\"chat-toolbar\">
      <div class=\"tbtn tbtn-winkd\" onclick=\"sendWinkd()\">💥 Winkd!</div>
      <div class=\"tbtn tbtn-nudge\" onclick=\"sendNudge()\">🫸 Nudge</div>
      <div class=\"tb-sep\"></div>
      <div class=\"tbtn\" onclick=\"toggleEmoji()\" id=\"emoji-tbtn\">😄 <span class=\"emoji-label-text\">Emoji</span></div>
      <div class=\"tbtn\" onclick=\"sendWink()\">✨ <span class=\"emoji-label-text\">Winks</span></div>
      <div class=\"tbtn\" onclick=\"toggleFormatBar()\" id=\"format-tbtn\" title=\"Text formatting\" style=\"font-size:13px;padding:4px 10px;\"><span style=\"font-style:italic;text-decoration:underline;font-weight:700;font-family:Georgia,serif;\">A</span></div>
      <div class=\"tb-sep\"></div>
      <div class=\"tbtn\" onclick=\"toggleBgPicker()\" id=\"bg-tbtn\" title=\"Chat background\">🖼️ <span class=\"emoji-label-text\">BG</span></div>
      <div class=\"tbtn\" onclick=\"openInkDraw()\" title=\"Draw &amp; send\">✏️ <span class=\"emoji-label-text\">Draw</span></div>
    </div>
    <div id=\"format-bar\">
      <div class=\"tbtn\" id=\"bold-tbtn\" onclick=\"toggleBold()\">𝐁 Bold</div>
      <div class=\"tbtn\" id=\"italic-tbtn\" onclick=\"toggleItalic()\">𝐼 Italic</div>
      <div class=\"tbtn\" id=\"underline-tbtn\" onclick=\"toggleUnderline()\"><u>U</u> Underline</div>
      <div class=\"tb-sep\"></div>
      <div class=\"tbtn\" onclick=\"pickColor()\">🎨 Color</div>
      <div class=\"tb-sep\"></div>
      <select class=\"font-select\" id=\"font-select\" onchange=\"changeFont(this.value)\">
        <option value=\"'Segoe UI',Tahoma,sans-serif\">Segoe UI</option>
        <option value=\"Tahoma,Geneva,sans-serif\">Tahoma</option>
        <option value=\"Verdana,Geneva,sans-serif\">Verdana</option>
        <option value=\"Georgia,'Times New Roman',serif\">Georgia</option>
        <option value=\"'Courier New',Courier,monospace\">Courier New</option>
        <option value=\"Impact,Haettenschweiler,sans-serif\">Impact</option>
        <option value=\"'Arial Black',Gadget,sans-serif\">Arial Black</option>
        <option value=\"'Comic Sans MS','Chalkboard SE',cursive\">Comic Sans MS</option>
      </select>
    </div>
    <div id=\"compose-preview\" style=\"display:none;padding:8px 10px 6px;border-top:1px solid rgba(130,175,240,0.25);background:linear-gradient(to bottom,rgba(220,234,255,0.75),rgba(208,226,255,0.68));\"></div>
    <svg width=\"0\" height=\"0\" style=\"position:absolute\" aria-hidden=\"true\">
      <defs>
        <linearGradient id=\"aero-chrome\" x1=\"0\" y1=\"0\" x2=\"0\" y2=\"1\">
          <stop offset=\"0%\" stop-color=\"#f4f8fd\"/><stop offset=\"45%\" stop-color=\"#c9d8e8\"/>
          <stop offset=\"55%\" stop-color=\"#9fb4c8\"/><stop offset=\"100%\" stop-color=\"#6a8099\"/>
        </linearGradient>
        <linearGradient id=\"aero-chrome-top\" x1=\"0\" y1=\"0\" x2=\"0\" y2=\"1\">
          <stop offset=\"0%\" stop-color=\"#e4ecf5\"/><stop offset=\"60%\" stop-color=\"#b3c4d6\"/><stop offset=\"100%\" stop-color=\"#8296ad\"/>
        </linearGradient>
        <radialGradient id=\"aero-lens\" cx=\"0.35\" cy=\"0.3\" r=\"0.85\">
          <stop offset=\"0%\" stop-color=\"#9ec5ff\"/><stop offset=\"35%\" stop-color=\"#3a72c8\"/>
          <stop offset=\"75%\" stop-color=\"#12305e\"/><stop offset=\"100%\" stop-color=\"#05152f\"/>
        </radialGradient>
        <radialGradient id=\"aero-lens-hi\" cx=\"0.3\" cy=\"0.25\" r=\"0.4\">
          <stop offset=\"0%\" stop-color=\"rgba(255,255,255,0.85)\"/><stop offset=\"100%\" stop-color=\"rgba(255,255,255,0)\"/>
        </radialGradient>
        <linearGradient id=\"aero-clip\" x1=\"0\" y1=\"0\" x2=\"0\" y2=\"1\">
          <stop offset=\"0%\" stop-color=\"#f6f9fc\"/><stop offset=\"40%\" stop-color=\"#b9c9dc\"/>
          <stop offset=\"60%\" stop-color=\"#7d92a8\"/><stop offset=\"100%\" stop-color=\"#4a5d73\"/>
        </linearGradient>
      </defs>
    </svg>
    <div id=\"chat-input-area\">
      <div class=\"tbtn\" onclick=\"openPhotoPicker()\" title=\"Take photo\" style=\"flex-shrink:0;align-self:stretch;display:flex;align-items:center;justify-content:center;padding:0 8px;\">
        <svg width=\"22\" height=\"22\" viewBox=\"0 0 22 22\" aria-hidden=\"true\">
          <rect x=\"7.5\" y=\"4\" width=\"5.5\" height=\"2.2\" rx=\"0.6\" fill=\"url(#aero-chrome-top)\" stroke=\"#4a5d73\" stroke-width=\"0.4\"/>
          <rect x=\"1.5\" y=\"6\" width=\"19\" height=\"12\" rx=\"1.8\" fill=\"url(#aero-chrome)\" stroke=\"#3a4a5d\" stroke-width=\"0.5\"/>
          <rect x=\"2\" y=\"6.5\" width=\"18\" height=\"3.6\" rx=\"1.2\" fill=\"rgba(255,255,255,0.38)\"/>
          <circle cx=\"11\" cy=\"12.5\" r=\"4.3\" fill=\"#2a3a4d\" stroke=\"#1a2230\" stroke-width=\"0.4\"/>
          <circle cx=\"11\" cy=\"12.5\" r=\"3.5\" fill=\"url(#aero-lens)\"/>
          <ellipse cx=\"9.5\" cy=\"11.3\" rx=\"1.7\" ry=\"1.2\" fill=\"url(#aero-lens-hi)\"/>
          <circle cx=\"17.8\" cy=\"8.2\" r=\"0.6\" fill=\"#ff4848\" stroke=\"#6a1010\" stroke-width=\"0.2\"/>
          <circle cx=\"17.65\" cy=\"8.05\" r=\"0.22\" fill=\"rgba(255,255,255,0.85)\"/>
        </svg>
      </div>
      <textarea id=\"chat-input\" placeholder=\"Type a message…\" rows=\"1\"></textarea>
      <div id=\"input-file-btns\">
        <div class=\"tbtn\" onclick=\"openFilePicker()\" title=\"Attach file\" style=\"flex-shrink:0;align-self:stretch;display:flex;align-items:center;justify-content:center;padding:0 8px;\">
          <svg width=\"22\" height=\"22\" viewBox=\"0 0 24 24\" aria-hidden=\"true\">
            <path d=\"M21.44 11.05l-9.19 9.19a6 6 0 0 1-8.49-8.49l9.19-9.19a4 4 0 0 1 5.66 5.66l-9.2 9.19a2 2 0 0 1-2.83-2.83l8.49-8.48\"
                  fill=\"none\" stroke=\"rgba(20,30,50,0.3)\" stroke-width=\"2.6\" stroke-linecap=\"round\" stroke-linejoin=\"round\" transform=\"translate(0.3,0.5)\"/>
            <path d=\"M21.44 11.05l-9.19 9.19a6 6 0 0 1-8.49-8.49l9.19-9.19a4 4 0 0 1 5.66 5.66l-9.2 9.19a2 2 0 0 1-2.83-2.83l8.49-8.48\"
                  fill=\"none\" stroke=\"url(#aero-clip)\" stroke-width=\"2.2\" stroke-linecap=\"round\" stroke-linejoin=\"round\"/>
          </svg>
        </div>
        <input id=\"photo-upload-input\" type=\"file\" accept=\"image/*\" capture=\"environment\" style=\"display:none;\" onchange=\"handlePhotoSelected(this)\">
        <input id=\"file-upload-input\" type=\"file\" style=\"display:none;\" onchange=\"handleFileSelected(this)\">
      </div>
      <div id=\"send-btn\" onclick=\"sendMsg()\">Send</div>
    </div>
    <div id=\"chat-statusbar\">
      <span>🔒 End-to-end encrypted</span>
      <span id=\"typing-ind\" style=\"font-style:italic;color:#5a8aaa;\"></span>
      <span id=\"chat-char-counter\" style=\"display:none;\"></span>
      <span>"

def chatPanel : CodeUnits := js
    "</span>
    </div>
  </div>
  <div id=\"dp-panel\">
    <div id=\"dp-resize-handle\"></div>
    <div class=\"dp-them-wrap\">"

/-- `myName.slice(0,2).toUpperCase()||'ME'` -/
def myInitials (U : Unicode) (me : Own) : CodeUnits :=
  if initials U me.name = [] then js "ME" else initials U me.name

def buildChat (U : Unicode) (me : Own) (c : Contact) : List Piece :=
  let avatar := avatarOr c.avatarSrc
    [.own (js "<img src=\""), .raw .value c.avatarSrc,
      .own (js "\" style=\"width:100%;height:100%;object-fit:cover;border-radius:4px;\">")]
    [.raw .text c.initials]
  [.own (js "\n<div id=\"offline-toast\" class=\""),
    .raw .value (if me.onLine then [] else js "visible"), .own chatTop, .raw .value c.color.text,
    .own (js ","), .raw .value (dk c.color), .own (js ");\">")] ++ avatar ++
  [.own (js "</div>
        <div class=\"ch-info-mobile\"><div class=\"ch-name\">"),
    .raw .text c.name, .own (js "</div><div class=\"ch-status\" style=\"color:"),
    .raw .value c.status.color.text, .own (js ";\">● "), .raw .text c.status.label,
    .own chatControls, .raw .text c.name, .own (js " is "), .raw .text c.status.text,
    .own chatPanel] ++
  dpHTML U c.initials c.color.text (dk c.color) c.name (some c.status) c.mood c.avatarSrc ++
  [.own (js "</div>
    <div class=\"dp-mine-wrap\">")] ++
  dpHTML U (myInitials U me) me.avColor.text (dk me.avColor) me.name none [] me.avatarSrc ++
  [.own (js "</div>
  </div>\n</div>")]

def inboundRequest (req : InboundRequest) : List Piece :=
  let rid := req.requestId.filter (· ≠ unit '\'')
  [.own (js "<div style=\"font-weight:600;color:#5a3800;margin-bottom:3px;\">📨 Contact request</div><div style=\"color:#7a5010;margin-bottom:6px;\"><strong>"),
    .raw .text req.fromDisplayName, .own (js "</strong> <span style=\"opacity:0.7;\">("),
    .raw .text req.fromWinkdId,
    .own (js ")</span></div><div style=\"display:flex;gap:5px;\"><div onclick=\"acceptInboundRequest('"), .raw .value rid,
    .own (js "')\" style=\"background:linear-gradient(to bottom,#5090e8,#2060c0);color:#fff;border-radius:3px;padding:3px 10px;cursor:pointer;font-size:11px;font-weight:600;box-shadow:inset 0 1px 0 rgba(255,255,255,0.3);\">Accept</div><div onclick=\"rejectInboundRequest('"), .raw .value rid,
    .own (js "')\" style=\"background:rgba(200,150,60,0.22);border:1px solid rgba(255,210,120,0.55);border-radius:3px;padding:3px 8px;cursor:pointer;font-size:11px;color:#ffe8c0;font-weight:700;\">Deny</div><div onclick=\"blockInboundRequest('"), .raw .value rid,
    .own (js "')\" style=\"background:rgba(180,65,65,0.28);border:1px solid rgba(255,110,110,0.6);border-radius:3px;padding:3px 8px;cursor:pointer;font-size:11px;color:#ffd0d0;font-weight:700;\">Block</div></div>")]

def blockedUser (user : BlockedUser) : List Piece :=
  [.own (js "<div style=\"font-size:12px;font-weight:700;color:#1a2a40;white-space:nowrap;overflow:hidden;text-overflow:ellipsis;\">"),
    .raw .text (if user.displayName = [] then js "Unknown" else user.displayName),
    .own (js "</div><div style=\"font-size:10px;color:#5a7a9a;\">"), .raw .text user.winkdId,
    .own (js "</div>")]

/-- What is assigned. -/
def Shown.pieces (U : Unicode) (me : Own) : Shown → List Piece
  | .group key count => groupLabel key count
  | .contact c => contactItem U c
  | .chat c => buildChat U me c
  | .request req => inboundRequest req
  | .blocked user => blockedUser user

end Winkd.Web
