import Winkd.Chats

/-!
# The page between its events

The core of `app.html`: the contacts with their unread messages, the conversations, the requests,
the blocked users and the buddy counter, and what the events of the server and the user do to them.
What is shown of it is in `Winkd.Profiles`; the conversations alone are in `Winkd.Chats`.

An event of the server is read as JSON.  Its fields are texts, or null, where the server puts
nothing else there, and a field that is no text is read as a missing one.
-/

namespace Winkd.Web
open UnicodeText Winkd.Server

/-- `payload.key||''` -/
def textOf (payload : Json) (key : String) : Text := (payload.getStr key).getD []

/-- `payload.key||null` -/
def someTextOf (payload : Json) (key : String) : Option Text :=
  (payload.getStr key).filter fun t => t ≠ []

/-- `Array.isArray(payload.key)?payload.key:[]` -/
def itemsOf (payload : Json) (key : String) : List Json :=
  match payload.get key with
  | some (.arr items) => items
  | _ => []

/-- The events that `handleServerEvent` knows. -/
inductive ServerEvent where
  | contactsSnapshot
  | presence
  | contactRequestSent
  | contactRequest
  | contactAccepted
  | contactRequestRejected
  | contactBlocked
  | blockedList
  | contactUnblocked
  | message
  | error
  deriving DecidableEq

def ServerEvent.names : List (String × ServerEvent) :=
  [("contacts_snapshot", .contactsSnapshot), ("presence", .presence),
    ("contact_request_sent", .contactRequestSent), ("contact_request", .contactRequest),
    ("contact_accepted", .contactAccepted), ("contact_request_rejected", .contactRequestRejected),
    ("contact_blocked", .contactBlocked), ("blocked_list", .blockedList),
    ("contact_unblocked", .contactUnblocked), ("message", .message), ("error", .error)]

def ServerEvent.ofText (t : Text) : Option ServerEvent :=
  (names.find? fun p => p.1.toList = t).map Prod.snd

namespace AppCore

structure Contact where
  id : Text
  name : Text
  mood : Text
  status : Text
  avatarSrc : Option Text
  unread : ℕ
  /-- Only a snapshot and a message make contacts that have one. -/
  requestStatus : Option Text
  deriving DecidableEq

end AppCore

structure AppCore where
  contacts : List AppCore.Contact
  convos : Convos
  inboundRequests : List Json
  blockedUsers : List Json
  activeContact : Option Text
  buddyUsed : ℕ

namespace AppCore
open Chats (beforeHash nameOr systemMessage)

/-- The page when it is loaded, with the conversations that were stored. -/
def load (convos : Convos) : AppCore := ⟨[], convos, [], [], none, 0⟩

/-- `contacts.find(c=>c.id===id)` -/
def contact? (s : AppCore) (id : Text) : Option Contact := s.contacts.find? fun c => c.id = id

def hasContact (s : AppCore) (id : Text) : Bool := s.contacts.any fun c => c.id = id

/-- The first of the contacts of which it is true is changed. -/
def modifyFirst (p : Contact → Bool) (f : Contact → Contact) (contacts : List Contact) :
    List Contact :=
  contacts.modify (contacts.findIdx p) f

/-- The statuses that are not the server's: who is invisible looks offline. -/
def shownAs (status : Text) : Text :=
  if status = "invisible".toList then "offline".toList else status

/-! ## Handlers -/

section Handlers
variable (numberText : Text → CodeUnits) (toLowerCase : Text → Text) (me : Identity)

/-- Only the counter of what `auth_ok` sets is kept here. -/
def applyServerLimits (s : AppCore) (envelope : Json) : AppCore :=
  { s with
    buddyUsed := (((envelope.get "buddy_used").bind Json.asI64).map Int.toNat).getD s.buddyUsed }

/-- The id of the conversation is a string, as the client makes it. -/
def locallyRenderOutgoing (s : AppCore) (payload : Json) (ts : Text) : AppCore :=
  match Chats.conversationOf payload with
  | some (.str conversationId) =>
    let convos := s.convos.ensure conversationId
    if hasMessage numberText (convos.messages conversationId) (payload.firstTruthy ["id"]) then
      { s with convos := convos }
    else
      let contact := s.contact? conversationId
      let message := payloadToUiMessage payload (contact.map Contact.name) true ts
      { s with convos := convos.push conversationId message }
  | _ => s

/-- Who sends a message and is no contact. -/
def fallbackContact (conversationId : Text) : Contact where
  id := conversationId
  name :=
    if beforeHash conversationId = [] then "Unknown".toList else beforeHash conversationId
  mood := []
  status := "online".toList
  avatarSrc := none
  unread := 0
  requestStatus := some "accepted".toList

/-- A conversation whose id is no string makes it throw. -/
def handleRelayedMessage (s : AppCore) (payload : Json) (ts : Text) : AppCore :=
  match Chats.conversationOf payload, payload.firstTruthy ["senderId", "sender_id"] with
  | some (.str conversationId), some senderId =>
    let contacts := if s.hasContact conversationId then s.contacts
      else s.contacts ++ [fallbackContact conversationId]
    let convos := s.convos.ensure conversationId
    if hasMessage numberText (convos.messages conversationId) (payload.firstTruthy ["id"]) then
      { s with contacts := contacts, convos := convos }
    else
      let fromMe : Bool := senderId.asStr = some me.winkdId
      let contact := contacts.find? fun c => c.id = conversationId
      let message := payloadToUiMessage payload (contact.map Contact.name) fromMe ts
      let contacts := if s.activeContact = some conversationId ∨ fromMe then contacts
        else modifyFirst (fun c => c.id = conversationId) (fun c => { c with unread := c.unread + 1 })
          contacts
      { s with contacts := contacts, convos := convos.push conversationId message }
  | _, _ => s

def snapshotContact (item : Json) : Contact where
  id := textOf item "winkd_id"
  name := nameOr (textOf item "display_name") (textOf item "winkd_id")
  mood := textOf item "mood_message"
  status := if textOf item "status" = [] then "offline".toList else shownAs (textOf item "status")
  avatarSrc := someTextOf item "avatar_data"
  unread := 0
  requestStatus := some ((someTextOf item "request_status").getD "accepted".toList)

/-- The contacts that a snapshot lists. -/
def snapshotContacts (payload : Json) : List Contact :=
  ((itemsOf payload "contacts").filter fun item => textOf item "winkd_id" ≠ []).map snapshotContact

/-- The statuses of a request that `handleContactsSnapshot` counts. -/
def Contact.counts (c : Contact) : Bool :=
  c.requestStatus = some "accepted".toList || c.requestStatus = some "pending".toList

def handleContactsSnapshot (s : AppCore) (payload : Json) : AppCore :=
  let contacts := snapshotContacts payload
  { s with
    contacts := contacts
    convos := contacts.foldl (fun convos c => convos.ensure c.id) s.convos
    buddyUsed := (contacts.filter Contact.counts).length }

def handlePresence (s : AppCore) (payload : Json) : AppCore :=
  match (payload.firstTruthy ["userId", "user_id"]).bind Json.asStr, someTextOf payload "status" with
  | some wid, some status =>
    { s with
      contacts := modifyFirst (fun c => c.id = wid) (fun c => { c with status := shownAs status })
        s.contacts }
  | _, _ => s

def hasContactByWinkdId (s : AppCore) (id : Text) : Bool :=
  Chats.normalizeWinkdId toLowerCase id ≠ [] &&
    s.contacts.any fun c => Chats.normalizeWinkdId toLowerCase c.id = Chats.normalizeWinkdId toLowerCase id

/-- A contact that is made by an event of its own. -/
def newContact (id name mood status : Text) (avatarSrc : Option Text) : Contact :=
  ⟨id, name, mood, status, avatarSrc, 0, none⟩

def requestSentLine (wid : Text) : UiMessage :=
  systemMessage ("Contact request sent to ".toList ++ wid ++
    ". Waiting for them to accept.".toList)

def handleContactRequestSent (s : AppCore) (payload : Json) : AppCore :=
  let wid := textOf payload "to_winkd_id"
  if wid = [] || s.hasContactByWinkdId toLowerCase wid then s
  else
    { s with
      contacts := s.contacts ++ [newContact wid (nameOr (textOf payload "to_display_name") wid)
        "Pending acceptance…".toList "offline".toList (someTextOf payload "to_avatar_data")]
      buddyUsed := s.buddyUsed + 1
      convos := Function.update s.convos wid (some [requestSentLine wid]) }

def handleInboundContactRequest (s : AppCore) (payload : Json) : AppCore :=
  let rid := textOf payload "request_id"
  if rid = [] || s.inboundRequests.any fun r => textOf r "request_id" = rid then s
  else { s with inboundRequests := s.inboundRequests ++ [payload] }

def acceptedLine (name : Text) : UiMessage :=
  systemMessage (name ++ " accepted your contact request!".toList)

def connectedLine (name : Text) : UiMessage :=
  systemMessage ("You are now connected with ".toList ++ name ++ "!".toList)

/-- The contact has the same Winkd ID, but for the case of its letters. -/
def sameId (wid : Text) (c : Contact) : Bool :=
  Chats.normalizeWinkdId toLowerCase c.id = Chats.normalizeWinkdId toLowerCase wid

/-- Case A is that of a contact that is there, case B that of a request to the user. -/
def handleContactAccepted (s : AppCore) (payload : Json) : AppCore :=
  match payload.getStr "winkd_id" with
  | none => s
  | some wid =>
    let name := nameOr (textOf payload "display_name") wid
    let avatarSrc := someTextOf payload "avatar_data"
    let mood := textOf payload "mood_message"
    if s.contacts.any (sameId toLowerCase wid) then
      { s with
        contacts := modifyFirst (sameId toLowerCase wid)
          (fun c => { c with name := name, mood := mood, status := "online".toList, avatarSrc := avatarSrc })
          s.contacts
        convos := if (s.convos wid).isSome then s.convos.push wid (acceptedLine name) else s.convos }
    else
      let inboundRequests := s.inboundRequests.eraseP fun r => r.getStr "from_winkd_id" = some wid
      if s.hasContactByWinkdId toLowerCase wid then { s with inboundRequests := inboundRequests }
      else
        { s with
          inboundRequests := inboundRequests
          contacts := s.contacts ++ [newContact wid name mood "online".toList avatarSrc]
          convos := Function.update s.convos wid (some [connectedLine name]) }

/-- The requests but those with an id. -/
def dropRequest (rid : Text) (requests : List Json) : List Json :=
  requests.filter fun r => textOf r "request_id" ≠ rid

def handleContactRequestRejected (s : AppCore) (payload : Json) : AppCore :=
  let rid := textOf payload "request_id"
  if rid = [] then s else { s with inboundRequests := dropRequest rid s.inboundRequests }

def handleContactBlocked (s : AppCore) (payload : Json) : AppCore :=
  let rid := textOf payload "request_id"
  let wid := textOf payload "winkd_id"
  let inboundRequests := if rid = [] then s.inboundRequests else dropRequest rid s.inboundRequests
  if wid = [] then { s with inboundRequests := inboundRequests }
  else
    { s with
      inboundRequests := inboundRequests.filter fun r => r.getStr "from_winkd_id" ≠ some wid
      contacts := s.contacts.eraseP fun c => c.id = wid
      buddyUsed := if s.hasContact wid then s.buddyUsed - 1 else s.buddyUsed
      convos := Function.update s.convos wid none
      activeContact := if s.activeContact = some wid then none else s.activeContact }

def handleBlockedList (s : AppCore) (payload : Json) : AppCore :=
  { s with blockedUsers := itemsOf payload "users" }

def handleContactUnblocked (s : AppCore) (payload : Json) : AppCore :=
  let uid := textOf payload "user_id"
  if uid = [] then s
  else
    let unblocked := s.blockedUsers.find? fun u => textOf u "user_id" = uid
    let s := { s with blockedUsers := s.blockedUsers.filter fun u => textOf u "user_id" ≠ uid }
    match unblocked with
    | none => s
    | some user =>
      let wid := textOf user "winkd_id"
      if wid = [] || s.hasContact wid then s
      else
        { s with
          contacts := s.contacts ++ [newContact wid (nameOr (textOf user "display_name") wid) []
            "offline".toList (someTextOf user "avatar_data")]
          buddyUsed := s.buddyUsed + 1 }

/-- `error` and the events that are not known show at most a message. -/
def handleServerEvent (s : AppCore) (event : Option ServerEvent) (payload : Json) (ts : Text) :
    AppCore :=
  match event with
  | some .contactsSnapshot => s.handleContactsSnapshot payload
  | some .presence => s.handlePresence payload
  | some .contactRequestSent => s.handleContactRequestSent toLowerCase payload
  | some .contactRequest => s.handleInboundContactRequest payload
  | some .contactAccepted => s.handleContactAccepted toLowerCase payload
  | some .contactRequestRejected => s.handleContactRequestRejected payload
  | some .contactBlocked => s.handleContactBlocked payload
  | some .blockedList => s.handleBlockedList payload
  | some .contactUnblocked => s.handleContactUnblocked payload
  | some .message => s.handleRelayedMessage numberText me payload ts
  | some .error => s
  | none => s

/-- Where the contact is not there, it is the active one all the same. -/
def selectContact (s : AppCore) (id : Text) : AppCore :=
  { s with
    contacts := modifyFirst (fun c => c.id = id) (fun c => { c with unread := 0 }) s.contacts
    activeContact := some id }

/-! ## Runs -/

/-- The event of an envelope, and its payload. -/
def eventOf (envelope : Json) : Option ServerEvent :=
  (envelope.getStr "event").bind ServerEvent.ofText

def payloadOf (envelope : Json) : Json := (envelope.get "payload").getD .null

/-- What happens on the page. -/
inductive Event where
  /-- The first message of a socket that counts. -/
  | authOk (envelope : Json)
  /-- A message after it. -/
  | received (envelope : Json) (ts : Text)
  /-- The user's own message is rendered. -/
  | rendered (payload : Json) (ts : Text)
  | selectContact (id : Text)
  /-- `goBack` and `endChat`. -/
  | leave

def next (s : AppCore) : Event → AppCore
  | .authOk envelope => s.applyServerLimits envelope
  | .received envelope ts =>
      s.handleServerEvent numberText toLowerCase me (eventOf envelope) (payloadOf envelope) ts
  | .rendered payload ts => s.locallyRenderOutgoing numberText payload ts
  | .selectContact id => s.selectContact id
  | .leave => { s with activeContact := none }

end Handlers

/-! ## The first contact of which it is true -/

/-- The list without the first element of which it is true still has one of which it is true. -/
theorem exists_mem_eraseP_iff {α : Type} {p : α → Bool} {l : List α} :
    (∃ a ∈ l.eraseP p, p a = true) ↔ 2 ≤ l.countP p := by
  induction l with
  | nil => exact iff_of_false (fun ⟨_, ha, _⟩ => List.not_mem_nil ha) (Nat.not_succ_le_zero 1)
  | cons b l ih =>
    cases hb : p b with
    | true =>
      rw [List.eraseP_cons_of_pos hb, List.countP_cons_of_pos hb, ← List.countP_pos_iff]
      omega
    | false =>
      have hneg : ¬ p b = true := Bool.eq_false_iff.mp hb
      rw [List.eraseP_cons_of_neg hneg, List.countP_cons_of_neg hneg, ← ih]
      simp [hb]

section ModifyFirst
variable {p : Contact → Bool} {f : Contact → Contact} {contacts : List Contact}

theorem modifyFirst_cons_pos {c : Contact} (h : p c = true) :
    modifyFirst p f (c :: contacts) = f c :: contacts := by
  rw [modifyFirst, List.findIdx_cons, h]
  rfl

theorem modifyFirst_cons_neg {c : Contact} (h : p c = false) :
    modifyFirst p f (c :: contacts) = c :: modifyFirst p f contacts := by
  rw [modifyFirst, List.findIdx_cons, h]
  rfl

theorem modifyFirst_of_any (f : Contact → Contact) (h : contacts.any p = true) :
    ∃ before c after, contacts = before ++ c :: after ∧ p c = true ∧
      modifyFirst p f contacts = before ++ f c :: after := by
  induction contacts with
  | nil => cases h
  | cons c contacts ih =>
    cases hc : p c with
    | true => exact ⟨[], c, contacts, rfl, hc, modifyFirst_cons_pos hc⟩
    | false =>
      rw [List.any_cons, hc, Bool.false_or] at h
      obtain ⟨before, c', after, rfl, hc', heq⟩ := ih h
      exact ⟨c :: before, c', after, rfl, hc', (modifyFirst_cons_neg hc).trans (congrArg (c :: ·) heq)⟩

theorem modifyFirst_append {c : Contact} (h : contacts.any p = false) (hc : p c = true) :
    modifyFirst p f (contacts ++ [c]) = contacts ++ [f c] := by
  induction contacts with
  | nil => exact modifyFirst_cons_pos hc
  | cons c' contacts ih =>
    rw [List.any_cons, Bool.or_eq_false_iff] at h
    rw [List.cons_append, modifyFirst_cons_neg h.1, ih h.2, List.cons_append]

/-- What the change leaves of a contact is the same of all contacts. -/
theorem map_modifyFirst {α : Type} {g : Contact → α} (h : ∀ c, g (f c) = g c) :
    (modifyFirst p f contacts).map g = contacts.map g := by
  induction contacts with
  | nil => rfl
  | cons c contacts ih =>
    cases hc : p c with
    | true => rw [modifyFirst_cons_pos hc, List.map_cons, h, List.map_cons]
    | false => rw [modifyFirst_cons_neg hc, List.map_cons, ih, List.map_cons]

/-- The contacts of which it is not true stay. -/
theorem mem_modifyFirst_iff (hf : ∀ c, p c = true → p (f c) = true) {c : Contact} (hc : p c = false) :
    c ∈ modifyFirst p f contacts ↔ c ∈ contacts := by
  induction contacts with
  | nil => exact Iff.rfl
  | cons c' contacts ih =>
    cases hc' : p c' with
    | true =>
      have hne : ∀ d : Contact, p d = true → c ≠ d := fun d hd h => by
        rw [h, hd] at hc
        cases hc
      rw [modifyFirst_cons_pos hc', List.mem_cons, List.mem_cons, or_iff_right (hne _ (hf c' hc')),
        or_iff_right (hne c' hc')]
    | false => rw [modifyFirst_cons_neg hc', List.mem_cons, List.mem_cons, ih]

end ModifyFirst
end AppCore
end Winkd.Web
