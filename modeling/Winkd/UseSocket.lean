import Winkd.ChatStore

/-!
# The React client

`contactsStore.ts`, and the handlers of `useSocket.ts`, which act on both stores.  A message that they
cannot read throws, and changes nothing.  The texts of a contact are those that the server sends; a
field that is no text is read as a missing one.
-/

namespace Winkd.React
open UnicodeText Winkd.Web Winkd.Server

structure Contact where
  id : Option Text
  displayName : Option Text
  moodMessage : Text
  status : Option Text
  avatarData : Option Text
  requestStatus : Option Text
  deriving DecidableEq

structure PendingInvitation where
  requestId : Option Text
  fromWinkdId : Option Text
  fromDisplayName : Option Text
  fromAvatarData : Option Text
  deriving DecidableEq

structure BlockedUser where
  userId : Option Text
  winkdId : Option Text
  displayName : Option Text
  avatarData : Option Text
  blockedAt : Option Text
  deriving DecidableEq

structure ContactsState where
  contacts : List Contact
  unreadCounts : CodeUnits → ℕ
  pendingInvitations : List PendingInvitation
  blockedUsers : List BlockedUser

namespace ContactsState

def empty : ContactsState := ⟨[], fun _ => 0, [], []⟩

def setContacts (s : ContactsState) (contacts : List Contact) : ContactsState :=
  { s with contacts := contacts }

def removeContact (s : ContactsState) (id : Option Text) : ContactsState :=
  { s with contacts := s.contacts.filter fun c => c.id ≠ id }

def updateContactStatus (s : ContactsState) (id status : Option Text) : ContactsState :=
  { s with contacts := s.contacts.map fun c => if c.id = id then { c with status := status } else c }

/-- `{...c,...contact}`: `contact` has every field. -/
def addAcceptedContact (s : ContactsState) (contact : Contact) : ContactsState :=
  if s.contacts.any fun c => c.id = contact.id then
    { s with contacts := s.contacts.map fun c => if c.id = contact.id then contact else c }
  else { s with contacts := s.contacts ++ [contact] }

def incrementUnread (s : ContactsState) (id : CodeUnits) : ContactsState :=
  { s with unreadCounts := Function.update s.unreadCounts id (s.unreadCounts id + 1) }

def upsertPendingInvitation (s : ContactsState) (invitation : PendingInvitation) : ContactsState :=
  { s with
    pendingInvitations :=
      (s.pendingInvitations.filter fun i => i.requestId ≠ invitation.requestId) ++ [invitation] }

def removePendingInvitation (s : ContactsState) (requestId : Option Text) : ContactsState :=
  { s with pendingInvitations := s.pendingInvitations.filter fun i => i.requestId ≠ requestId }

def clearPendingFromUser (s : ContactsState) (winkdId : Option Text) : ContactsState :=
  { s with pendingInvitations := s.pendingInvitations.filter fun i => i.fromWinkdId ≠ winkdId }

def setBlockedUsers (s : ContactsState) (blockedUsers : List BlockedUser) : ContactsState :=
  { s with blockedUsers := blockedUsers }

def upsertBlockedUser (s : ContactsState) (blocked : BlockedUser) : ContactsState :=
  { s with blockedUsers := (s.blockedUsers.filter fun u => u.userId ≠ blocked.userId) ++ [blocked] }

def removeBlockedUser (s : ContactsState) (userId : Option Text) : ContactsState :=
  { s with blockedUsers := s.blockedUsers.filter fun u => u.userId ≠ userId }

end ContactsState

/-! ## Messages, as the handler reads them -/

section Read
variable (numberText : Text → CodeUnits)

/-- `a??b` -/
def nullish (a b : Option Json) : Option Json :=
  match a with
  | some .null => b
  | none => b
  | some v => some v

/-- `String(v??otherwise)` -/
def stringOf (v : Option Json) (otherwise : CodeUnits) : Option CodeUnits :=
  match nullish v none with
  | some v => toJsString numberText v
  | none => some otherwise

/-- The string in the first of two fields that has one. -/
def stringIn (raw : Json) (key key' : String) : Option CodeUnits :=
  (raw.getStr key <|> raw.getStr key').map units

def numberIn (raw : Json) (key : String) : Option Text :=
  match raw.get key with
  | some (.num literal) => some literal
  | _ => none

/-- `now` is what `new Date().toISOString()` returns.  It throws where a value has no string. -/
def readMessage (raw : Json) (now : CodeUnits) : Option Message := do
  let id ← stringOf numberText (raw.get "id") []
  let conversationId ←
    stringOf numberText (nullish (raw.get "conversationId") (raw.get "conversation_id")) []
  let senderId ← stringOf numberText (nullish (raw.get "senderId") (raw.get "sender_id")) []
  let type ← stringOf numberText (raw.get "type") []
  let sentAt ← stringOf numberText (nullish (raw.get "sentAt") (raw.get "sent_at")) now
  some
    { id := id
      conversationId := conversationId
      senderId := senderId
      type := type
      body := (raw.getStr "body").map units
      mediaData := stringIn raw "mediaData" "media_data"
      mediaUrl := stringIn raw "mediaUrl" "media_url"
      mediaName := stringIn raw "mediaName" "media_name"
      mediaMime := stringIn raw "mediaMime" "media_mime"
      mediaSize := numberIn raw "mediaSize" <|> numberIn raw "media_size"
      sentAt := sentAt
      delivered := raw.isSet "delivered"
      read := raw.isSet "read" }

end Read

/-! ## Handlers -/

structure Client where
  chat : ChatStore
  contacts : ContactsState

namespace Client

def empty : Client := ⟨.empty, .empty⟩

section Handlers
variable (numberText : Text → CodeUnits) (winkdId : CodeUnits)

def onMessage (s : Client) (raw : Json) (now : CodeUnits) : Client :=
  match readMessage numberText raw now with
  | none => s
  | some msg =>
    if msg.id = [] ∨ msg.conversationId = [] ∨ msg.senderId = [] then s
    else
      let contacts :=
        if msg.senderId ≠ winkdId ∧ s.chat.activeConversationId ≠ some msg.conversationId then
          s.contacts.incrementUnread msg.senderId
        else s.contacts
      ⟨s.chat.receiveMessage msg, contacts⟩

def onPresence (s : Client) (payload : Json) : Client :=
  { s with contacts := s.contacts.updateContactStatus (payload.getStr "userId") (payload.getStr "status") }

def onContactRequest (s : Client) (payload : Json) : Client :=
  { s with
    contacts := s.contacts.upsertPendingInvitation
      ⟨payload.getStr "request_id", payload.getStr "from_winkd_id", payload.getStr "from_display_name",
        payload.getStr "from_avatar_data"⟩ }

def onContactAccepted (s : Client) (payload : Json) : Client :=
  { s with
    contacts := (s.contacts.clearPendingFromUser (payload.getStr "winkd_id")).addAcceptedContact
      { id := payload.getStr "winkd_id"
        displayName := payload.getStr "display_name"
        moodMessage := (payload.getStr "mood_message").getD []
        status := some "online".toList
        avatarData := payload.getStr "avatar_data"
        requestStatus := some "accepted".toList } }

def snapshotContact (contact : Json) : Contact where
  id := contact.getStr "winkd_id"
  displayName := contact.getStr "display_name"
  moodMessage := (contact.getStr "mood_message").getD []
  status :=
    if contact.getStr "request_status" = some "accepted".toList then some "online".toList
    else some "invisible".toList
  avatarData := contact.getStr "avatar_data"
  requestStatus := contact.getStr "request_status"

def onContactsSnapshot (s : Client) (payload : Json) : Client :=
  match payload.get "contacts" with
  | some (.arr contacts) => { s with contacts := s.contacts.setContacts (contacts.map snapshotContact) }
  | _ => s

def onContactRequestRejected (s : Client) (payload : Json) : Client :=
  { s with contacts := s.contacts.removePendingInvitation (payload.getStr "request_id") }

def blockedUser (u : Json) : BlockedUser :=
  ⟨u.getStr "user_id", u.getStr "winkd_id", u.getStr "display_name", u.getStr "avatar_data",
    u.getStr "blocked_at"⟩

def onBlockedList (s : Client) (payload : Json) : Client :=
  match payload.get "users" with
  | some (.arr users) => { s with contacts := s.contacts.setBlockedUsers (users.map blockedUser) }
  | _ => s

def onContactBlocked (s : Client) (payload : Json) : Client :=
  let contacts :=
    if payload.isSet "request_id" then
      s.contacts.removePendingInvitation (payload.getStr "request_id")
    else s.contacts
  let contacts := contacts.upsertBlockedUser (blockedUser payload)
  let winkdId := payload.getStr "winkd_id"
  { chat :=
      if s.chat.activeConversationId.isSome ∧ s.chat.activeConversationId = winkdId.map units then
        s.chat.closeConversation
      else s.chat
    contacts := contacts.removeContact winkdId }

def onContactUnblocked (s : Client) (payload : Json) : Client :=
  { s with contacts := s.contacts.removeBlockedUser (payload.getStr "user_id") }

def onContactRequestSent (s : Client) (payload : Json) : Client :=
  { s with
    contacts := s.contacts.addAcceptedContact
      { id := payload.getStr "to_winkd_id"
        displayName := payload.getStr "to_display_name"
        moodMessage := []
        status := some "invisible".toList
        avatarData := payload.getStr "to_avatar_data"
        requestStatus := some "pending_outbound".toList } }

def onDeliveryReceipt (s : Client) (payload : Json) : Client :=
  match (payload.getStr "message_id").filter (· ≠ []),
      (payload.getStr "conversation_id").filter (· ≠ []) with
  | some messageId, some conversationId =>
    { s with chat := s.chat.markMessageDelivered (units conversationId) (units messageId) }
  | _, _ => s

/-- The events that `useSocket` knows. -/
inductive ServerEvent where
  | message
  | presence
  | contactRequest
  | contactAccepted
  | contactsSnapshot
  | contactRequestRejected
  | blockedList
  | contactBlocked
  | contactUnblocked
  | contactRequestSent
  | deliveryReceipt
  deriving DecidableEq

def ServerEvent.names : List (String × ServerEvent) :=
  [("message", .message), ("presence", .presence), ("contact_request", .contactRequest),
    ("contact_accepted", .contactAccepted), ("contacts_snapshot", .contactsSnapshot),
    ("contact_request_rejected", .contactRequestRejected), ("blocked_list", .blockedList),
    ("contact_blocked", .contactBlocked), ("contact_unblocked", .contactUnblocked),
    ("contact_request_sent", .contactRequestSent), ("delivery_receipt", .deliveryReceipt)]

def ServerEvent.ofText (t : Text) : Option ServerEvent :=
  (names.find? fun p => p.1.toList = t).map Prod.snd

/-- A message of the server after `auth_ok`.  A payload that has to be read throws if there is none. -/
def onEvent (s : Client) (event : Option ServerEvent) (payload : Option Json) (now : CodeUnits) :
    Client :=
  match event, payload with
  | some .message, payload => s.onMessage numberText winkdId (payload.getD .null) now
  | some .presence, some payload => s.onPresence payload
  | some .contactRequest, some payload => s.onContactRequest payload
  | some .contactAccepted, some payload => s.onContactAccepted payload
  | some .contactsSnapshot, some payload => s.onContactsSnapshot payload
  | some .contactRequestRejected, some payload => s.onContactRequestRejected payload
  | some .blockedList, some payload => s.onBlockedList payload
  | some .contactBlocked, some payload => s.onContactBlocked payload
  | some .contactUnblocked, some payload => s.onContactUnblocked payload
  | some .contactRequestSent, some payload => s.onContactRequestSent payload
  | some .deliveryReceipt, some payload => s.onDeliveryReceipt payload
  | _, _ => s

def onEnvelope (s : Client) (envelope : Json) (now : CodeUnits) : Client :=
  s.onEvent numberText winkdId ((envelope.getStr "event").bind ServerEvent.ofText)
    (nullish (envelope.get "payload") none) now

end Handlers
end Client
end Winkd.React
