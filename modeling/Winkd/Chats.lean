import Winkd.MessageRow
import Mathlib.Logic.Function.Basic

/-!
# Conversations on the page

The lists of messages that the web client keeps, and what changes them: a message is rendered
when it is sent (`locallyRenderOutgoing`), the relay forwards and echoes messages
(`handleRelayedMessage`), and contacts are requested, accepted and blocked.

The id of a conversation is a Winkd ID, with a `#`, so it is no name that every object has a
property of.  Of a contact its id, its name and the number of unread messages are kept here;
what is shown of contacts is in `Winkd.Profiles`.
-/

namespace Winkd.Web
open UnicodeText Winkd.Server

/-- The Winkd ID of the one who is signed in. -/
structure Identity where
  winkdId : Text
  ne_nil : winkdId ≠ []

/-- What is read here of a contact. -/
structure Buddy where
  id : Text
  name : Text
  unread : ℕ

/-! ## Lists of messages -/

/-- `convos` -/
abbrev Convos := Text → Option (List UiMessage)

namespace Convos

def messages (convos : Convos) (k : Text) : List UiMessage := (convos k).getD []

/-- `if(!convos[k])convos[k]=[]` -/
def ensure (convos : Convos) (k : Text) : Convos :=
  if (convos k).isSome then convos else Function.update convos k (some [])

/-- `convos[k].push(message)` -/
def push (convos : Convos) (k : Text) (message : UiMessage) : Convos :=
  Function.update convos k (some (convos.messages k ++ [message]))

end Convos

/-- `v===w`, of values that were parsed one by one: an object is the same as itself only. -/
def strictEq (numberText : Text → CodeUnits) : Json → Json → Bool
  | .null, .null => true
  | .bool a, .bool b => a = b
  | .num a, .num b => numberText a = numberText b
  | .str s, .str t => s = t
  | _, _ => false

/-- `msgId&&messages.some(m=>m&&m.id===msgId)` -/
def hasMessage (numberText : Text → CodeUnits) (messages : List UiMessage) (msgId : Option Json) :
    Bool :=
  msgId.any fun id => messages.any fun m => m.id.any fun id' => strictEq numberText id' id

/-! ## The page -/

structure Chats where
  contacts : List Buddy
  convos : Convos
  activeContact : Option Text

namespace Chats

/-- No conversations yet. -/
def empty : Chats := ⟨[], fun _ => none, none⟩

/-- `s.split('#')[0]` -/
def beforeHash (id : Text) : Text := (Text.splitOnce '#' id).1

/-- `name||…` -/
def nameOr (name id : Text) : Text := if name = [] then beforeHash id else name

/-- `msg.conversationId||msg.conversation_id` -/
def conversationOf (payload : Json) : Option Json :=
  payload.firstTruthy ["conversationId", "conversation_id"]

/-- The first of the contacts with an id is changed. -/
def modifyContact (contacts : List Buddy) (id : Text) (f : Buddy → Buddy) : List Buddy :=
  contacts.modify (contacts.findIdx (·.id = id)) f

section Handlers
variable (numberText : Text → CodeUnits) (toLowerCase : Text → Text) (me : Identity)

/-- The id of the conversation is a string, as the client makes it. -/
def locallyRenderOutgoing (s : Chats) (payload : Json) (ts : Text) : Chats :=
  match conversationOf payload with
  | some (.str conversationId) =>
    let convos := s.convos.ensure conversationId
    if hasMessage numberText (convos.messages conversationId) (payload.firstTruthy ["id"]) then
      { s with convos := convos }
    else
      let contact := s.contacts.find? (·.id = conversationId)
      let message := payloadToUiMessage payload (contact.map Buddy.name) true ts
      { s with convos := convos.push conversationId message }
  | _ => s

/-- A conversation whose id is no string makes it throw. -/
def handleRelayedMessage (s : Chats) (payload : Json) (ts : Text) : Chats :=
  match conversationOf payload, payload.firstTruthy ["senderId", "sender_id"] with
  | some (.str conversationId), some senderId =>
    let fallbackName :=
      if beforeHash conversationId = [] then "Unknown".toList else beforeHash conversationId
    let contacts := if s.contacts.any (·.id = conversationId) then s.contacts
      else s.contacts ++ [⟨conversationId, fallbackName, 0⟩]
    let convos := s.convos.ensure conversationId
    if hasMessage numberText (convos.messages conversationId) (payload.firstTruthy ["id"]) then
      { s with contacts := contacts, convos := convos }
    else
      let fromMe : Bool := senderId.asStr = some me.winkdId
      let contact := contacts.find? (·.id = conversationId)
      let message := payloadToUiMessage payload (contact.map Buddy.name) fromMe ts
      let contacts := if s.activeContact = some conversationId ∨ fromMe then contacts
        else modifyContact contacts conversationId fun c => { c with unread := c.unread + 1 }
      { s with contacts := contacts, convos := convos.push conversationId message }
  | _, _ => s

/-! ## Contacts -/

/-- Of every contact that has one, the Winkd ID and the display name. -/
def handleContactsSnapshot (s : Chats) (items : List (Text × Text)) : Chats :=
  let items := items.filter fun item => item.1 ≠ []
  { s with
    contacts := items.map fun item => ⟨item.1, nameOr item.2 item.1, 0⟩
    convos := items.foldl (fun convos item => convos.ensure item.1) s.convos }

/-- `String(id||'').trim().toLowerCase()`: what JavaScript trims, and Rust does not, is the mark
of the byte order, and the other way round the next line. -/
def normalizeWinkdId (id : Text) : Text :=
  let isSpace := fun c : Char => (Text.isWhitespace c && c.toNat ≠ 0x85) || c.toNat = 0xFEFF
  toLowerCase ((id.dropWhile isSpace).reverse.dropWhile isSpace).reverse

def hasContactByWinkdId (s : Chats) (id : Text) : Bool :=
  normalizeWinkdId toLowerCase id ≠ [] &&
    s.contacts.any fun c => normalizeWinkdId toLowerCase c.id = normalizeWinkdId toLowerCase id

/-- A line of the client's own. -/
def systemMessage (text : Text) : UiMessage := ⟨.system text, none⟩

def handleContactRequestSent (s : Chats) (toWinkdId toDisplayName : Text) : Chats :=
  if toWinkdId = [] || s.hasContactByWinkdId toLowerCase toWinkdId then s
  else
    let text := "Contact request sent to ".toList ++ toWinkdId ++
      ". Waiting for them to accept.".toList
    { s with
      contacts := s.contacts ++ [⟨toWinkdId, nameOr toDisplayName toWinkdId, 0⟩]
      convos := Function.update s.convos toWinkdId (some [systemMessage text]) }

def handleContactAccepted (s : Chats) (winkdId displayName : Text) : Chats :=
  let name := nameOr displayName winkdId
  let same := fun c : Buddy => normalizeWinkdId toLowerCase c.id = normalizeWinkdId toLowerCase winkdId
  if s.contacts.any same then
    let text := name ++ " accepted your contact request!".toList
    { s with
      contacts := s.contacts.modify (s.contacts.findIdx same) fun c => { c with name := name }
      convos := if (s.convos winkdId).isSome then s.convos.push winkdId (systemMessage text) else s.convos }
  else if s.hasContactByWinkdId toLowerCase winkdId then s
  else
    let text := "You are now connected with ".toList ++ name ++ "!".toList
    { s with
      contacts := s.contacts ++ [⟨winkdId, name, 0⟩]
      convos := Function.update s.convos winkdId (some [systemMessage text]) }

def handleContactBlocked (s : Chats) (winkdId : Text) : Chats :=
  if winkdId = [] then s
  else
    { s with
      contacts := s.contacts.eraseIdx (s.contacts.findIdx (·.id = winkdId))
      convos := Function.update s.convos winkdId none
      activeContact := if s.activeContact = some winkdId then none else s.activeContact }

/-- With the Winkd ID and the display name of the one who is unblocked. -/
def handleContactUnblocked (s : Chats) (winkdId displayName : Text) : Chats :=
  if winkdId = [] || s.contacts.any (·.id = winkdId) then s
  else { s with contacts := s.contacts ++ [⟨winkdId, nameOr displayName winkdId, 0⟩] }

def selectContact (s : Chats) (id : Text) : Chats :=
  { s with
    contacts := modifyContact s.contacts id fun c => { c with unread := 0 }
    activeContact := some id }

/-! ## Runs -/

/-- What happens on the page. -/
inductive Event where
  | rendered (payload : Json) (ts : Text)
  | relayed (payload : Json) (ts : Text)
  | contactsSnapshot (items : List (Text × Text))
  | contactRequestSent (toWinkdId toDisplayName : Text)
  | contactAccepted (winkdId displayName : Text)
  | contactBlocked (winkdId : Text)
  | contactUnblocked (winkdId displayName : Text)
  | selectContact (id : Text)
  /-- `goBack` and `endChat`. -/
  | leave

def next (s : Chats) : Event → Chats
  | .rendered payload ts => s.locallyRenderOutgoing numberText payload ts
  | .relayed payload ts => s.handleRelayedMessage numberText me payload ts
  | .contactsSnapshot items => s.handleContactsSnapshot items
  | .contactRequestSent toWinkdId toDisplayName =>
      s.handleContactRequestSent toLowerCase toWinkdId toDisplayName
  | .contactAccepted winkdId displayName => s.handleContactAccepted toLowerCase winkdId displayName
  | .contactBlocked winkdId => s.handleContactBlocked winkdId
  | .contactUnblocked winkdId displayName => s.handleContactUnblocked winkdId displayName
  | .selectContact id => s.selectContact id
  | .leave => { s with activeContact := none }

def run (events : List Event) : Chats := events.foldl (next numberText toLowerCase me) empty

end Handlers
end Chats
end Winkd.Web
