import Winkd.MessageRow

/-!
# The chat store

`chatStore.ts` of the React client: the conversations by their ids, in the order they were made.
Strings are those of JavaScript; `undefined` is `none`.
-/

namespace Winkd.React
open UnicodeText Winkd.Web Winkd.Server

/-- The fields of every kind of message that the store keeps. -/
structure Message where
  id : CodeUnits
  conversationId : CodeUnits
  senderId : CodeUnits
  type : CodeUnits
  body : Option CodeUnits
  mediaData : Option CodeUnits
  mediaUrl : Option CodeUnits
  mediaName : Option CodeUnits
  mediaMime : Option CodeUnits
  /-- A number, as its literal. -/
  mediaSize : Option Text
  sentAt : CodeUnits
  delivered : Bool
  read : Bool

structure Conversation where
  id : Option CodeUnits
  contactId : Option CodeUnits
  messages : List Message
  isShaking : Bool

structure ChatStore where
  conversations : List (CodeUnits × Conversation)
  activeConversationId : Option CodeUnits

namespace ChatStore

def empty : ChatStore := ⟨[], none⟩

/-! ## Conversations by their ids -/

/-- `conversations[id]` -/
def conversation (s : ChatStore) (id : CodeUnits) : Option Conversation :=
  (s.conversations.find? fun c => c.1 = id).map Prod.snd

/-- `conversation?.messages??[]` -/
def messages (s : ChatStore) (id : CodeUnits) : List Message :=
  ((s.conversation id).map Conversation.messages).getD []

/-- `{...conversations,[id]:conversation}` -/
def withConversation (id : CodeUnits) (c : Conversation) :
    List (CodeUnits × Conversation) → List (CodeUnits × Conversation)
  | [] => [(id, c)]
  | entry :: entries =>
    if entry.1 = id then (id, c) :: entries else entry :: withConversation id c entries

def put (s : ChatStore) (id : CodeUnits) (c : Conversation) : ChatStore :=
  { s with conversations := withConversation id c s.conversations }

/-! ## Actions -/

def openConversation (s : ChatStore) (contactId : CodeUnits) : ChatStore :=
  match s.conversations.find? fun c => c.2.contactId = some contactId with
  | some existing => { s with activeConversationId := existing.2.id }
  | none =>
    { s.put contactId ⟨some contactId, some contactId, [], false⟩ with
      activeConversationId := some contactId }

def closeConversation (s : ChatStore) : ChatStore := { s with activeConversationId := none }

/-- A message of the user's own comes to the end of its conversation. -/
def append (s : ChatStore) (msg : Message) : ChatStore :=
  match s.conversation msg.conversationId with
  | some c => s.put msg.conversationId { c with messages := c.messages ++ [msg] }
  | none => s.put msg.conversationId ⟨none, none, [msg], false⟩

section Send
variable (s : ChatStore) (conversationId senderId : CodeUnits)

/-- `id` and `sentAt` are what `mkId` and `nowIso` return. -/
def ownMessage (type : CodeUnits) (body : Option CodeUnits) (id sentAt : CodeUnits) : Message where
  id := id
  conversationId := conversationId
  senderId := senderId
  type := type
  body := body
  mediaData := none
  mediaUrl := none
  mediaName := none
  mediaMime := none
  mediaSize := none
  sentAt := sentAt
  delivered := false
  read := false

def sendText (body id sentAt : CodeUnits) : ChatStore :=
  s.append (ownMessage conversationId senderId (js "text") (some body) id sentAt)

structure Attachment where
  mediaData : CodeUnits
  mediaName : CodeUnits
  mediaMime : CodeUnits
  mediaSize : Text
  body : Option CodeUnits

def sendAttachment (attachment : Attachment) (id sentAt : CodeUnits) : ChatStore :=
  let body := attachment.body.getD (units "📎 ".toList ++ attachment.mediaName)
  s.append { ownMessage conversationId senderId (js "text") (some body) id sentAt with
    mediaData := some attachment.mediaData
    mediaName := some attachment.mediaName
    mediaMime := some attachment.mediaMime
    mediaSize := some attachment.mediaSize }

def sendWinkd (id sentAt : CodeUnits) : ChatStore :=
  s.append (ownMessage conversationId senderId (js "winkd") none id sentAt)

def sendNudge (id sentAt : CodeUnits) : ChatStore :=
  s.append (ownMessage conversationId senderId (js "nudge") none id sentAt)

end Send

/-- `{...m,...message}`: `message` has every field, so nothing of `m` is left. -/
def merge (_m message : Message) : Message := message

def receiveMessage (s : ChatStore) (message : Message) : ChatStore :=
  let conv := s.conversation message.conversationId
  let existingMessages := s.messages message.conversationId
  let existingIndex := existingMessages.findIdx fun m => m.id = message.id
  let nextMessages :=
    if existingIndex < existingMessages.length then
      existingMessages.modify existingIndex fun m => merge m message
    else existingMessages ++ [message]
  s.put message.conversationId
    { id := some message.conversationId
      contactId := some ((conv.bind Conversation.contactId).getD message.senderId)
      messages := nextMessages
      isShaking := message.type = js "winkd" }

def markMessageDelivered (s : ChatStore) (conversationId messageId : CodeUnits) : ChatStore :=
  match s.conversation conversationId with
  | none => s
  | some conv =>
    s.put conversationId { conv with
      messages := conv.messages.map fun m => if m.id = messageId then { m with delivered := true } else m }

/-- It is called of a conversation that is there. -/
def clearShaking (s : ChatStore) (conversationId : CodeUnits) : ChatStore :=
  match s.conversation conversationId with
  | none => s
  | some conv => s.put conversationId { conv with isShaking := false }

/-! ## What the actions leave -/

theorem find?_withConversation (id id' : CodeUnits) (c : Conversation)
    (entries : List (CodeUnits × Conversation)) :
    ((withConversation id c entries).find? fun e => e.1 = id').map Prod.snd =
      if id' = id then some c else (entries.find? fun e => e.1 = id').map Prod.snd := by
  induction entries with
  | nil => by_cases h : id = id' <;> simp [withConversation, h, eq_comm]
  | cons entry entries ih =>
    unfold withConversation
    by_cases hentry : entry.1 = id
    · rw [if_pos hentry]
      by_cases h : id = id'
      · simp [h]
      · simp [hentry, h, eq_comm]
    · rw [if_neg hentry, List.find?_cons, List.find?_cons]
      by_cases h : entry.1 = id'
      · have hne : id' ≠ id := fun h' => hentry (h.trans h')
        simp [h, hne]
      · simp [h, ih]

theorem conversation_put (s : ChatStore) (id id' : CodeUnits) (c : Conversation) :
    (s.put id c).conversation id' = if id' = id then some c else s.conversation id' :=
  find?_withConversation id id' c s.conversations

theorem messages_put (s : ChatStore) (id id' : CodeUnits) (c : Conversation) :
    (s.put id c).messages id' = if id' = id then c.messages else s.messages id' := by
  unfold messages
  rw [conversation_put]
  split <;> rfl

end ChatStore
end Winkd.React
