import Winkd.Relay

/-!
# The connections

`router.rs`: `handle_socket` with the commands of `handle_command`, as programs over the
points of `Relay`.  A connection is given the frames that it will receive; that it waits
for each of them is a point of its own.

A command that returns early here ends its branch; what it has sent and written stays.
-/

namespace Winkd.Server

/-- A connection, up to the point where it returns. -/
abbrev RelayProg (α : Type) : Type := Prog RelayOp RelayOp.Reply Empty α

/-- One point of a connection. -/
abbrev await (r : RelayOp) : RelayProg r.Reply := Prog.ask r

/-- What the router uses of the crates `uuid` and `chrono`. -/
structure Formats where
  /-- A UUID in its hyphenated form. -/
  uuid : Id → Text
  /-- `Uuid::parse_str`. -/
  parseUuid : Text → Option Id
  /-- An instant, as `serde_json` writes it. -/
  rfc3339 : ℤ → Text

/-! ## Commands -/

inductive ClientCommandType where
  | sendMessage
  | setStatus
  | setMood
  | setDisplayName
  | setAvatar
  | setProfileStyle
  | addContact
  | acceptContact
  | rejectContact
  | blockContact
  | blockUser
  | unblockContact
  | listBlocked
  | sendWinkd
  | sendNudge
  | sendWink
  | typingStart
  | typingStop
  deriving DecidableEq

/-- The variants by their names in JSON. -/
def ClientCommandType.names : List (String × ClientCommandType) :=
  [("send_message", .sendMessage), ("set_status", .setStatus), ("set_mood", .setMood),
    ("set_display_name", .setDisplayName), ("set_avatar", .setAvatar),
    ("set_profile_style", .setProfileStyle), ("add_contact", .addContact),
    ("accept_contact", .acceptContact), ("reject_contact", .rejectContact),
    ("block_contact", .blockContact), ("block_user", .blockUser),
    ("unblock_contact", .unblockContact), ("list_blocked", .listBlocked),
    ("send_winkd", .sendWinkd), ("send_nudge", .sendNudge), ("send_wink", .sendWink),
    ("typing_start", .typingStart), ("typing_stop", .typingStop)]

def ClientCommandType.ofText (t : Text) : Option ClientCommandType :=
  (names.find? fun p => p.1.toList = t).map Prod.snd

/-- A variant is read from its name, or from an object that has the name for its field. -/
def ClientCommandType.ofJson : Json → Option ClientCommandType
  | .str t => ofText t
  | .obj [(name, .null)] => ofText name.toList
  | _ => none

structure ClientCommand where
  command : ClientCommandType
  payload : Json

/-- A structure is read from an object, or from the array of its fields. -/
def ClientCommand.ofJson : Json → Option ClientCommand
  | .arr [command, payload] => (ClientCommandType.ofJson command).map fun c => ⟨c, payload⟩
  | j => do
    let command ← (j.get "command").bind ClientCommandType.ofJson
    let payload ← j.get "payload"
    pure ⟨command, payload⟩

structure WsAuthMessage where
  msgType : Text
  token : Text

def WsAuthMessage.ofJson : Json → Option WsAuthMessage
  | .arr [.str msgType, .str token] => some ⟨msgType, token⟩
  | j => do
    let msgType ← j.getStr "type"
    let token ← j.getStr "token"
    pure ⟨msgType, token⟩

/-- A frame that comes in. -/
inductive Frame where
  /-- A text, parsed; `none` where it is not JSON. -/
  | text (json : Option Json)
  | close
  | other

/-- A socket: the frames that it will receive, and whether the write that confirms the
authentication succeeds. -/
structure Socket where
  frames : List Frame
  confirms : Bool

/-! ## Sending events -/

/-- An event, as the client gets it. -/
def Json.event (name : String) (payload : List (String × Json)) : Json :=
  .obj [("event", .ofString name), ("payload", .obj payload)]

/-- `let _ = tx.send(…)`. -/
def push (tx : ℕ) (text : Json) : RelayProg Unit := do
  let _ ← await (.send tx ⟨text, .other⟩)
  pure ()

def sendErr (tx : ℕ) (message : Text) : RelayProg Unit :=
  push tx (.event "error" [("message", .str message)])

/-- Sends an event to a user who has a registered session. -/
def notify (userId : Id) (text : Json) : RelayProg Unit := do
  let session ← await (.clientsGet userId)
  match session with
  | some session => push session.sender text
  | none => pure ()

def broadcastPresenceToContacts (user : Member) (status : Text) : RelayProg Unit := do
  let contactIds ← await (.listAcceptedContactUserIds user.id)
  match contactIds with
  | .error _ => pure ()
  | .ok contactIds =>
    if contactIds.isEmpty then pure ()
    else
      await (.sendToAll contactIds
        ⟨.event "presence" [("user_id", .str user.winkdId), ("status", .str status)], .other⟩)

/-! ## Contacts -/

/-- What both sides are told of the other when a request is accepted. -/
def contactAccepted (u : Member) : Json :=
  .event "contact_accepted" [("winkd_id", .str u.winkdId), ("display_name", .str u.displayName),
    ("avatar_data", .ofText u.avatarData), ("mood_message", .str u.moodMessage)]

section Handlers
variable (F : Formats)

/-- The event of a contact request from a user. -/
def contactRequestEvent (requestId : Id) (winkdId displayName : Text) (avatarData : Option Text) :
    Json :=
  .event "contact_request" [("request_id", .str (F.uuid requestId)), ("from_winkd_id", .str winkdId),
    ("from_display_name", .str displayName), ("from_avatar_data", .ofText avatarData)]

/-- `add_contact`, once the target is known and the cap has been checked. -/
def requestContact (user : Member) (tx : ℕ) (targetId : Text) (target : Member) :
    RelayProg Unit := do
  let req ← await (.createContactRequest user.id target.id)
  match req with
  | .ok req =>
    push tx (.event "contact_request_sent" [("request_id", .str (F.uuid req.id)),
      ("to_winkd_id", .str targetId), ("to_display_name", .str target.displayName),
      ("to_avatar_data", .ofText target.avatarData)])
    notify target.id (contactRequestEvent F req.id user.winkdId user.displayName user.avatarData)
  | .error _ =>
    sendErr tx "Could not send contact request. You may have already sent one.".toList

def addTarget (user : Member) (tx : ℕ) (targetId : Text) : RelayProg Unit := do
  let target ← await (.findUserByWinkdId targetId)
  match target with
  | .ok (some target) =>
    let blocked ← await (.isBlockedBetween user.id target.id)
    match blocked with
    | .ok true => sendErr tx "Contact request could not be sent.".toList
    | .ok false => requestContact F user tx targetId target
    | .error _ => sendErr tx "Server error. Please try again.".toList
  | .ok none => sendErr tx "No user found with that Winkd ID.".toList
  | .error _ => sendErr tx "Server error. Please try again.".toList

/-- What a user with a full roster is told; only the free tier gets the hint. -/
def rosterFull (tier : Text) (n : ℕ) (cap : ℤ) : Text :=
  let hint :=
    if tier = supporterFree then
      " Your limit is ".toList ++ Text.ofInt cap ++
        ". Grab a buddy-slot pack or Winkd Plus! to add more.".toList
    else []
  "Buddy list is full (".toList ++ Nat.toDigits 10 n ++ '/' :: Text.ofInt cap ++ ").".toList ++ hint

/-- The user that `add_contact` names. -/
def addTargetId (payload : Json) : Option Text :=
  (((payload.getAny ["winkd_id", "winkdId", "target_winkd_id"]).bind Json.asStr).map Text.trim).filter
    fun id => !id.isEmpty

def addContact (user : Member) (tx : ℕ) (payload : Json) : RelayProg Unit :=
  match addTargetId payload with
  | none =>
    sendErr tx "Missing Winkd ID. Please enter an ID like friend#1234 and try again.".toList
  | some targetId =>
    if targetId = user.winkdId then sendErr tx "You can't add yourself.".toList
    else do
      let now ← await .utcNow
      match user.buddyCap now with
      | none => addTarget F user tx targetId
      | some cap =>
        let n ← await (.countRoster user.id)
        match n with
        | .ok n =>
          if cap ≤ n then do
            let now ← await .utcNow
            sendErr tx (rosterFull (user.effectiveTier now) n cap)
          else addTarget F user tx targetId
        | .error _ => sendErr tx "Server error. Please try again.".toList

/-- The id in a field of the payload.  A field that is no string ends the command, a
string that is no id is an error. -/
def withId (tx : ℕ) (payload : Json) (field message : String) (k : Id → RelayProg Unit) :
    RelayProg Unit :=
  match payload.getStr field with
  | none => pure ()
  | some t =>
    match F.parseUuid t with
    | none => sendErr tx message.toList
    | some id => k id

def acceptContact (user : Member) (tx : ℕ) (payload : Json) : RelayProg Unit :=
  withId F tx payload "request_id" "Invalid request ID." fun requestId => do
    let req ← await (.acceptContactRequest requestId user.id)
    match req with
    | .ok req =>
      let requester ← await (.findUserById req.fromId)
      match requester with
      | .ok (some requester) =>
        push tx (contactAccepted requester)
        notify requester.id (contactAccepted user)
      | _ => pure ()
    | .error _ => sendErr tx "Could not accept contact request.".toList

def rejectContact (user : Member) (tx : ℕ) (payload : Json) : RelayProg Unit :=
  withId F tx payload "request_id" "Invalid request ID." fun requestId => do
    let req ← await (.rejectContactRequest requestId user.id)
    match req with
    | .ok req =>
      push tx (.event "contact_request_rejected" [("request_id", .str (F.uuid req.id))])
    | .error _ => sendErr tx "Could not reject contact request.".toList

/-- Blocks a user, clears the pending requests between the two, and shows the block.  The
event begins with `fields`. -/
def block (user : Member) (tx : ℕ) (fields : List (String × Json)) (blockedId : Id)
    (winkdId displayName : Text) (avatarData : Option Text) : RelayProg Unit := do
  let created ← await (.createBlock user.id blockedId)
  match created with
  | .error _ => sendErr tx "Could not block user.".toList
  | .ok () =>
    let _ ← await (.clearPendingContactRequestsBetween user.id blockedId)
    let now ← await .utcNow
    push tx (.event "contact_blocked" (fields ++ [("user_id", .str (F.uuid blockedId)),
      ("winkd_id", .str winkdId), ("display_name", .str displayName),
      ("avatar_data", .ofText avatarData), ("blocked_at", .str (F.rfc3339 now))]))

def blockContact (user : Member) (tx : ℕ) (payload : Json) : RelayProg Unit :=
  withId F tx payload "request_id" "Invalid request ID." fun requestId => do
    let pending ← await (.listPendingInbound user.id)
    match pending with
    | .error _ => sendErr tx "Could not block user.".toList
    | .ok pending =>
      match pending.find? fun r => r.requestId = requestId with
      | none => sendErr tx "Contact request not found.".toList
      | some req =>
        block F user tx [("request_id", .str (F.uuid requestId))] req.fromUserId req.fromWinkdId
          req.fromDisplayName req.fromAvatarData

def blockUser (user : Member) (tx : ℕ) (payload : Json) : RelayProg Unit :=
  match (payload.getStr "winkd_id").map Text.trim with
  | none => pure ()
  | some targetWinkdId =>
    if targetWinkdId = user.winkdId then sendErr tx "You cannot block yourself.".toList
    else do
      let target ← await (.findUserByWinkdId targetWinkdId)
      match target with
      | .ok (some target) =>
        block F user tx [] target.id target.winkdId target.displayName target.avatarData
      | .ok none => sendErr tx "User not found.".toList
      | .error _ => sendErr tx "Could not block user.".toList

def unblockContact (user : Member) (tx : ℕ) (payload : Json) : RelayProg Unit :=
  withId F tx payload "user_id" "Invalid user ID." fun blockedId => do
    let removed ← await (.removeBlock user.id blockedId)
    match removed with
    | .ok () => push tx (.event "contact_unblocked" [("user_id", .str (F.uuid blockedId))])
    | .error _ => sendErr tx "Could not unblock user.".toList

def listBlocked (user : Member) (tx : ℕ) : RelayProg Unit := do
  let users ← await (.listBlockedUsers user.id)
  match users with
  | .ok users =>
    push tx (.event "blocked_list" [("users", .arr (users.map fun u =>
      .obj [("user_id", .str (F.uuid u.userId)), ("winkd_id", .str u.winkdId),
        ("display_name", .str u.displayName), ("avatar_data", .ofText u.avatarData),
        ("blocked_at", .str (F.rfc3339 u.blockedAt))]))])
  | .error _ => sendErr tx "Could not list blocked users.".toList

/-! ## The profile -/

/-- Changes the entry of a user in the presence store, if there is one. -/
def updatePresence (user : Member) (f : PresenceEntry → PresenceEntry) : RelayProg Unit := do
  let entry ← await (.presenceGet user.id)
  match entry with
  | some entry => await (.presenceSet user.id (f entry))
  | none => pure ()

def setMood (user : Member) (payload : Json) : RelayProg Unit :=
  match payload.getStr "mood" with
  | none => pure ()
  | some mood => do
    let mood := mood.take 100
    let _ ← await (.updateUserMood user.id mood)
    updatePresence user fun entry => { entry with mood := mood }

def setDisplayName (user : Member) (payload : Json) : RelayProg Unit :=
  match ((payload.getStr "display_name").map Text.trim).filter fun n => !n.isEmpty with
  | none => pure ()
  | some name => do
    let _ ← await (.updateUserDisplayName user.id (name.take 64) (payload.getStr "name_color")
      (payload.getStr "av_color"))
    pure ()

def setAvatar (user : Member) (payload : Json) : RelayProg Unit := do
  let _ ← await (.updateUserAvatar user.id (payload.getStr "avatar_data"))
  pure ()

def setProfileStyle (user : Member) (payload : Json) : RelayProg Unit := do
  let _ ← await (.updateUserProfileStyle user.id (payload.getStr "name_color")
    (payload.getStr "av_color"))
  pure ()

/-- Every status that is none of the three others counts as online. -/
def UserStatus.ofText (t : Text) : UserStatus :=
  if t = "away".toList then .away
  else if t = "busy".toList then .busy
  else if t = "invisible".toList then .invisible
  else .online

def setStatus (user : Member) (payload : Json) : RelayProg Unit :=
  match payload.getStr "status" with
  | none => pure ()
  | some statusStr => do
    updatePresence user fun entry => { entry with status := .ofText statusStr }
    broadcastPresenceToContacts user
      (if statusStr = "invisible".toList then "offline".toList else statusStr)

/-! ## Messages -/

/-- What the recipient gets: the same live and from the queue. -/
def forwardedPayload (user : Member) (payload : Json) : Json :=
  ((payload.set "conversationId" (.str user.winkdId)).set "senderId" (.str user.winkdId)).set
    "delivered" (.bool true)

/-- What the sender is shown. -/
def senderPayload (user : Member) (recipientWinkdId : Text) (payload : Json) (delivered : Bool) :
    Json :=
  ((payload.set "conversationId" (.str recipientWinkdId)).set "senderId" (.str user.winkdId)).set
    "delivered" (.bool delivered)

/-- A message, as an event. -/
def messageEvent (payload : Json) : Json :=
  .obj [("event", .ofString "message"), ("payload", payload)]

/-- The send to the session that was found, if one was. -/
def sendLive (session : Option ClientSession) (item : Item) : RelayProg Bool :=
  match session with
  | some session => await (.send session.sender item)
  | none => pure false

/-- Queues a message that was not delivered live. -/
def queueUnless (deliveredLive : Bool) (m : Relayed) (clientMsgId : Option Text) (forwarded : Json) :
    RelayProg Unit :=
  if deliveredLive then pure ()
  else do
    let _ ← await (.queuePendingMessage m clientMsgId forwarded)
    pure ()

/-- A message that has been accepted is delivered or queued, and shown to its sender. -/
def deliver (user : Member) (tx : ℕ) (recipientWinkdId : Text) (m : Relayed) (payload : Json) :
    RelayProg Unit := do
  let forwarded := forwardedPayload user payload
  let liveSession ← await (.clientsGet m.recipientId)
  let deliveredLive ← sendLive liveSession ⟨messageEvent forwarded, .live m⟩
  queueUnless deliveredLive m (payload.getStr "id") forwarded
  let _ ← await (.send tx
    ⟨messageEvent (senderPayload user recipientWinkdId payload deliveredLive), .echo m⟩)
  pure ()

/-- The message relay: text, winkd, nudge and wink.  `serial` is the frame's. -/
def relayMessage (user : Member) (tx serial : ℕ) (payload : Json) : RelayProg Unit := do
  let now ← await .utcNow
  let tier := user.effectiveTier now
  match validateSendPayload payload (limitsFor tier) with
  | .error violation => sendErr tx (violation.userMessage tier)
  | .ok () =>
    match (payload.getAny ["conversationId", "conversation_id", "recipient_winkd_id", "recipientId",
        "recipient_id"]).bind Json.asStr with
    | none => pure ()
    | some recipientWinkdId =>
      let recipient ← await (.findUserByWinkdId recipientWinkdId)
      match recipient with
      | .ok (some recipient) =>
        let blocked ← await (.isBlockedBetween user.id recipient.id)
        match blocked with
        | .ok true => sendErr tx "You can't message this user.".toList
        | .ok false => deliver user tx recipientWinkdId ⟨serial, user.id, recipient.id⟩ payload
        | .error _ => sendErr tx "Server error. Please try again.".toList
      | .ok none =>
        sendErr tx "That buddy couldn't be found. They may have deleted their account.".toList
      | .error _ => sendErr tx "Server error — message not sent. Please try again.".toList

def handleCommand (user : Member) (tx serial : ℕ) (cmd : ClientCommand) : RelayProg Unit :=
  match cmd.command with
  | .addContact => addContact F user tx cmd.payload
  | .acceptContact => acceptContact F user tx cmd.payload
  | .rejectContact => rejectContact F user tx cmd.payload
  | .blockContact => blockContact F user tx cmd.payload
  | .blockUser => blockUser F user tx cmd.payload
  | .unblockContact => unblockContact F user tx cmd.payload
  | .listBlocked => listBlocked F user tx
  | .setMood => setMood user cmd.payload
  | .setDisplayName => setDisplayName user cmd.payload
  | .setAvatar => setAvatar user cmd.payload
  | .setProfileStyle => setProfileStyle user cmd.payload
  | .setStatus => setStatus user cmd.payload
  | .sendMessage => relayMessage user tx serial cmd.payload
  | .sendWinkd => relayMessage user tx serial cmd.payload
  | .sendNudge => relayMessage user tx serial cmd.payload
  | .sendWink => relayMessage user tx serial cmd.payload
  | .typingStart => pure ()
  | .typingStop => pure ()

/-! ## A connection -/

/-- The status of a contact in the roster.  Who is invisible looks offline. -/
def shownStatus : Option PresenceEntry → String
  | some ⟨.online, _⟩ => "online"
  | some ⟨.away, _⟩ => "away"
  | some ⟨.busy, _⟩ => "busy"
  | some ⟨.invisible, _⟩ => "offline"
  | none => "offline"

/-- The entries of the roster, each with the contact's presence at this moment. -/
def rosterPayload : List ContactRosterEntry → RelayProg (List Json)
  | [] => pure []
  | c :: contacts => do
    let entry ← await (.presenceGet c.userId)
    let rest ← rosterPayload contacts
    pure (.obj [("winkd_id", .str c.winkdId), ("display_name", .str c.displayName),
      ("avatar_data", .ofText c.avatarData), ("mood_message", .str c.moodMessage),
      ("request_status", .ofString (if c.accepted then "accepted" else "pending_outbound")),
      ("status", .ofString (shownStatus entry))] :: rest)

/-- Flushes the roster snapshot. -/
def flushRoster (user : Member) (tx : ℕ) : RelayProg Unit := do
  let contacts ← await (.listContactRoster user.id)
  match contacts with
  | .ok contacts =>
    let payload ← rosterPayload contacts
    push tx (.event "contacts_snapshot" [("contacts", .arr payload)])
  | .error _ => pure ()

def pushRequests (tx : ℕ) : List PendingContactRequest → RelayProg Unit
  | [] => pure ()
  | req :: pending => do
    push tx (contactRequestEvent F req.requestId req.fromWinkdId req.fromDisplayName
      req.fromAvatarData)
    pushRequests tx pending

/-- Flushes the contact requests that arrived while the user was offline. -/
def flushPendingInbound (user : Member) (tx : ℕ) : RelayProg Unit := do
  let pending ← await (.listPendingInbound user.id)
  match pending with
  | .ok pending => pushRequests F tx pending
  | .error _ => pure ()

/-- Tells the sender of a queued message that it has reached a live recipient. -/
def sendReceipt (user : Member) (senderId : Id) (payload : Json) : RelayProg Unit :=
  match payload.getStr "id" with
  | some messageId =>
    notify senderId (.event "delivery_receipt" [("message_id", .str messageId),
      ("conversation_id", .str user.winkdId)])
  | none => pure ()

/-- Pushes what was drained, in its order. -/
def pushQueued (user : Member) (tx : ℕ) : List PendingMessageDelivery → RelayProg Unit
  | [] => pure ()
  | msg :: queued => do
    let _ ← await (.send tx
      ⟨messageEvent msg.payload, .queued ⟨msg.serial, msg.senderId, user.id⟩⟩)
    sendReceipt user msg.senderId msg.payload
    pushQueued user tx queued

/-- Flushes the messages that were queued while the user was offline. -/
def flushQueued (user : Member) (tx : ℕ) : RelayProg Unit := do
  let queued ← await (.drainPendingMessages user.id)
  match queued with
  | .ok queued => pushQueued user tx queued
  | .error _ => pure ()

/-- The main receive loop. -/
def receiveLoop (user : Member) (tx : ℕ) : List Frame → RelayProg Unit
  | [] => do
    let _ ← await .nextFrame
    pure ()
  | .text json :: frames => do
    let serial ← await .nextFrame
    match json.bind ClientCommand.ofJson with
    | some cmd =>
      handleCommand F user tx serial cmd
      receiveLoop user tx frames
    | none => receiveLoop user tx frames
  | .close :: _ => do
    let _ ← await .nextFrame
    pure ()
  | .other :: frames => do
    let _ ← await .nextFrame
    receiveLoop user tx frames

/-- Cleanup on disconnect: only the session that is still registered goes offline. -/
def disconnect (user : Member) (sessionId : Id) : RelayProg Unit := do
  let wasActiveSession ← await (.clientsRemove user.id sessionId)
  if wasActiveSession then do
    await (.presenceRemove user.id)
    broadcastPresenceToContacts user "offline".toList
  else pure ()

/-- A connection that has been confirmed. -/
def serveSession (user : Member) (frames : List Frame) : RelayProg Unit := do
  let tx ← await (.unboundedChannel user.id)
  let sessionId ← await .newSessionId
  await (.clientsInsert user.id ⟨sessionId, tx⟩)
  await (.presenceSet user.id ⟨.online, user.moodMessage⟩)
  broadcastPresenceToContacts user "online".toList
  flushRoster user tx
  flushPendingInbound F user tx
  flushQueued user tx
  await (.spawnSendTask tx)
  receiveLoop F user tx frames
  disconnect user sessionId
  await (.abortSendTask tx)

/-- The confirmation of the authentication. -/
def authOk (user : Member) (tier : Text) (buddyCap : Option ℤ) (buddyUsed : ℕ) : Json :=
  let limits := limitsFor tier
  .obj [("type", .ofString "auth_ok"), ("tier", .str tier),
    ("limits", .obj [("max_text_chars", .ofNat limits.maxTextChars),
      ("max_media_bytes", .ofNat limits.maxMediaBytes),
      ("max_media_url_chars", .ofNat limits.maxMediaUrlChars)]),
    ("purchased_extras", .arr (user.purchasedExtras.map Json.str)),
    ("buddy_cap", (buddyCap.map Json.ofInt).getD .null), ("buddy_used", .ofNat buddyUsed),
    ("group_chat_unlocked", .bool user.groupChatUnlocked),
    ("supporter_expires_at", .ofText (user.supporterExpiresAt.map F.rfc3339))]

/-- A connection whose user is known. -/
def confirmAndServe (user : Member) (socket : Socket) : RelayProg Unit := do
  let now ← await .utcNow
  let effectiveTier := user.effectiveTier now
  let now ← await .utcNow
  let buddyCap := user.buddyCap now
  let buddyUsed ← await (.countRoster user.id)
  let sent ← await (.write
    (.text (authOk F user effectiveTier buddyCap (buddyUsed.toOption.getD 0))) socket.confirms)
  -- the first of the frames was the one that authenticates
  if sent then serveSession F user socket.frames.tail else pure ()

/-- Closes the socket with code 4001. -/
def refuse (reason : String) : RelayProg Unit := do
  let _ ← await (.write (.close 4001 reason) true)
  pure ()

/-- The first frame must be a text that authenticates; one that does not come in time is
no frame. -/
def handleSocket (socket : Socket) : RelayProg Unit :=
  match socket.frames with
  | .text json :: _ =>
    match (json.bind WsAuthMessage.ofJson).filter fun a => a.msgType = "auth".toList with
    | some auth => do
      let user ← await (.findUserBySession auth.token)
      match user with
      | .ok (some user) => confirmAndServe F user socket
      | _ => refuse "Unauthorized"
    | none => refuse "Expected auth message"
  | _ => refuse "Auth timeout"

end Handlers
end Winkd.Server
