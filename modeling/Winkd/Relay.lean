import Winkd.Limits
import Mathlib.Data.List.Sort

/-!
# What the connections share

`AppState` of `router.rs`: the tables of the messenger (`db.rs` and the migrations), the
map of the registered sessions, the presence store (`presence.rs`), and the channels, each
with the forwarding task that writes it to a socket.  Each `RelayOp` is one point at which
a connection touches them: a statement, a look at one of the maps under its lock, a send
on a channel.  It is carried out at once.

What is put on a channel carries a ghost (`Label`) that says which command it comes from;
a frame gets a serial number when it is received, and the label is made of that.  No
handler reads either.
-/

namespace Winkd.Server

/-! ## Tables -/

/-- The values of `contact_requests.status`. -/
inductive RequestStatus where
  | pending
  | accepted
  | rejected
  deriving DecidableEq

structure ContactRequest where
  id : Id
  fromId : Id
  toId : Id
  status : RequestStatus
  createdAt : ℕ
  deriving DecidableEq

/-- A row of `blocks`. -/
structure Block where
  blockerId : Id
  blockedId : Id
  createdAt : ℕ
  deriving DecidableEq

/-- A row of `pending_messages`. -/
structure PendingMessage where
  id : Id
  recipientId : Id
  senderId : Id
  clientMsgId : Option Text
  payload : Json
  createdAt : ℕ
  /-- Ghost: the frame it came in. -/
  serial : ℕ

/-- What draining the queue gives of a row. -/
structure PendingMessageDelivery where
  senderId : Id
  payload : Json
  /-- Ghost: the frame it came in. -/
  serial : ℕ

structure PendingContactRequest where
  requestId : Id
  fromUserId : Id
  fromWinkdId : Text
  fromDisplayName : Text
  fromAvatarData : Option Text

structure BlockedUser where
  userId : Id
  winkdId : Text
  displayName : Text
  avatarData : Option Text
  blockedAt : ℕ

structure ContactRosterEntry where
  userId : Id
  winkdId : Text
  displayName : Text
  avatarData : Option Text
  moodMessage : Text
  /-- Whether `request_status` is `accepted`; it is `pending_outbound` otherwise. -/
  accepted : Bool

/-! ## Sessions, presence and channels -/

/-- A live session: its id, and its channel. -/
structure ClientSession where
  sessionId : Id
  sender : ℕ
  deriving DecidableEq

inductive UserStatus where
  | online
  | away
  | busy
  | invisible
  deriving DecidableEq

structure PresenceEntry where
  status : UserStatus
  mood : Text
  deriving DecidableEq

/-- Which message: the frame that asked for it, and between whom. -/
structure Relayed where
  serial : ℕ
  senderId : Id
  recipientId : Id
  deriving DecidableEq

/-- Ghost: what an event on a channel is. -/
inductive Label where
  /-- A message, forwarded to a recipient who is connected. -/
  | live (m : Relayed)
  /-- A message, forwarded from the queue. -/
  | queued (m : Relayed)
  /-- A message, shown to its sender once it has been handled. -/
  | echo (m : Relayed)
  | other
  deriving DecidableEq

/-- The message that is forwarded. -/
def Label.forwarded : Label → Option Relayed
  | .live m => some m
  | .queued m => some m
  | _ => none

/-- An event on a channel. -/
structure Item where
  text : Json
  label : Label

/-- What has become of the task that forwards a channel to its socket. -/
inductive Forwarding where
  | notSpawned
  | running
  /-- Told to stop; it runs until it is dropped. -/
  | aborted
  | ended
  deriving DecidableEq

/-- The task has been spawned and has not ended. -/
def Forwarding.isRunning : Forwarding → Bool
  | .running => true
  | .aborted => true
  | _ => false

/-- The channel of a connection, and its socket. -/
structure Channel where
  user : Id
  queue : List Item
  forwarding : Forwarding
  /-- What has been written to the socket. -/
  written : List Item

structure AppState where
  db : Backend
  supporters : Id → Supporter
  contactRequests : List ContactRequest
  blocks : List Block
  pendingMessages : List PendingMessage
  clients : Id → Option ClientSession
  presence : Id → Option PresenceEntry
  channels : List Channel
  /-- Whether the UNIQUE index of `pending_messages` takes a client message id: an entry has 2704 bytes
  at most, once PostgreSQL has compressed it. -/
  indexes : Text → Bool
  /-- Ghost: how many frames have been received. -/
  received : ℕ

/-- What a connection writes to its socket itself. -/
inductive Message where
  | text (json : Json)
  | close (code : ℕ) (reason : String)

/-- The points at which a connection touches what it shares with others. -/
inductive RelayOp where
  | findUserBySession (token : Text)
  | findUserById (id : Id)
  | findUserByWinkdId (winkdId : Text)
  | countRoster (userId : Id)
  | listContactRoster (userId : Id)
  | listAcceptedContactUserIds (userId : Id)
  | listPendingInbound (toId : Id)
  | createContactRequest (fromId toId : Id)
  | acceptContactRequest (requestId toId : Id)
  | rejectContactRequest (requestId toId : Id)
  | isBlockedBetween (userA userB : Id)
  | createBlock (blockerId blockedId : Id)
  | removeBlock (blockerId blockedId : Id)
  | clearPendingContactRequestsBetween (userA userB : Id)
  | listBlockedUsers (blockerId : Id)
  | updateUserMood (userId : Id) (mood : Text)
  | updateUserDisplayName (userId : Id) (displayName : Text) (nameColor avColor : Option Text)
  | updateUserAvatar (userId : Id) (avatarData : Option Text)
  | updateUserProfileStyle (userId : Id) (nameColor avColor : Option Text)
  | queuePendingMessage (m : Relayed) (clientMsgId : Option Text) (payload : Json)
  | drainPendingMessages (recipientId : Id)
  | clientsInsert (userId : Id) (session : ClientSession)
  | clientsGet (userId : Id)
  /-- Removes the entry if it is of this session. -/
  | clientsRemove (userId sessionId : Id)
  | presenceSet (userId : Id) (entry : PresenceEntry)
  | presenceGet (userId : Id)
  | presenceRemove (userId : Id)
  | newSessionId
  | unboundedChannel (userId : Id)
  | send (channel : ℕ) (item : Item)
  /-- Sends to the registered sessions of several users, under one lock of the map. -/
  | sendToAll (userIds : List Id) (item : Item)
  | spawnSendTask (channel : ℕ)
  | abortSendTask (channel : ℕ)
  /-- Waits for the next frame, or the end of the stream. -/
  | nextFrame
  /-- Writes to the socket; whether that succeeds is up to the socket. -/
  | write (message : Message) (succeeds : Bool)
  | utcNow

/-- The type of each reply. -/
@[reducible] def RelayOp.Reply : RelayOp → Type
  | .findUserBySession _ => Except DbError (Option Member)
  | .findUserById _ => Except DbError (Option Member)
  | .findUserByWinkdId _ => Except DbError (Option Member)
  | .countRoster _ => Except DbError ℕ
  | .listContactRoster _ => Except DbError (List ContactRosterEntry)
  | .listAcceptedContactUserIds _ => Except DbError (List Id)
  | .listPendingInbound _ => Except DbError (List PendingContactRequest)
  | .createContactRequest _ _ => Except DbError ContactRequest
  | .acceptContactRequest _ _ => Except DbError ContactRequest
  | .rejectContactRequest _ _ => Except DbError ContactRequest
  | .isBlockedBetween _ _ => Except DbError Bool
  | .createBlock _ _ => Except DbError Unit
  | .removeBlock _ _ => Except DbError Unit
  | .clearPendingContactRequestsBetween _ _ => Except DbError Unit
  | .listBlockedUsers _ => Except DbError (List BlockedUser)
  | .updateUserMood _ _ => Except DbError Unit
  | .updateUserDisplayName _ _ _ _ => Except DbError Unit
  | .updateUserAvatar _ _ => Except DbError Unit
  | .updateUserProfileStyle _ _ _ => Except DbError Unit
  | .queuePendingMessage _ _ _ => Except DbError Unit
  | .drainPendingMessages _ => Except DbError (List PendingMessageDelivery)
  | .clientsInsert _ _ => Unit
  | .clientsGet _ => Option ClientSession
  | .clientsRemove _ _ => Bool
  | .presenceSet _ _ => Unit
  | .presenceGet _ => Option PresenceEntry
  | .presenceRemove _ => Unit
  | .newSessionId => Id
  | .unboundedChannel _ => ℕ
  | .send _ _ => Bool
  | .sendToAll _ _ => Unit
  | .spawnSendTask _ => Unit
  | .abortSendTask _ => Unit
  | .nextFrame => ℕ
  | .write _ _ => Bool
  | .utcNow => ℕ

/-- The other side of a contact request. -/
def ContactRequest.peer (cr : ContactRequest) (userId : Id) : Id :=
  if cr.fromId = userId then cr.toId else cr.fromId

/-- `fetch_one` without a row. -/
def DbError.rowNotFound : DbError :=
  ⟨"no rows returned by a query that expected to return at least one row"⟩

namespace AppState

/-! ## Statements -/

/-- The row of a user, with all its columns. -/
def member (s : AppState) (u : User) : Member := { toUser := u, toSupporter := s.supporters u.id }

def findUserByWinkdId (s : AppState) (winkdId : Text) : Option Member :=
  (s.db.users.find? fun u => u.winkdId = winkdId).map s.member

/-- Whether either of two users has blocked the other. -/
def isBlockedBetween (s : AppState) (userA userB : Id) : Bool :=
  s.blocks.any fun b =>
    (b.blockerId = userA ∧ b.blockedId = userB) ∨ (b.blockerId = userB ∧ b.blockedId = userA)

/-- The users a roster slot is taken by: `UNION` drops duplicates. -/
def countRoster (s : AppState) (userId : Id) : ℕ :=
  (((s.contactRequests.filter fun cr => cr.fromId = userId ∧ cr.status ≠ .rejected).map
      ContactRequest.toId) ++
    ((s.contactRequests.filter fun cr => cr.toId = userId ∧ cr.status = .accepted).map
      ContactRequest.fromId)).dedup.length

/-- The accepted requests, and the pending ones that the user sent, latest first. -/
def listContactRoster (s : AppState) (userId : Id) : List ContactRosterEntry :=
  ((s.contactRequests.filter fun cr =>
      (cr.fromId = userId ∨ cr.toId = userId) ∧
        (cr.status = .accepted ∨ (cr.status = .pending ∧ cr.fromId = userId)) ∧
        s.isBlockedBetween userId (cr.peer userId) = false).insertionSort
      fun a b => b.createdAt ≤ a.createdAt).filterMap
    fun cr => (s.db.findUserById (cr.peer userId)).map fun u =>
      ⟨u.id, u.winkdId, u.displayName, u.avatarData, u.moodMessage, cr.status = .accepted⟩

def listAcceptedContactUserIds (s : AppState) (userId : Id) : List Id :=
  (s.contactRequests.filter fun cr =>
      (cr.fromId = userId ∨ cr.toId = userId) ∧ cr.status = .accepted ∧
        s.isBlockedBetween userId (cr.peer userId) = false).map fun cr => cr.peer userId

/-- The pending requests to a user, oldest first. -/
def listPendingInbound (s : AppState) (toId : Id) : List PendingContactRequest :=
  ((s.contactRequests.filter fun cr => cr.toId = toId ∧ cr.status = .pending).insertionSort
      fun a b => a.createdAt ≤ b.createdAt).filterMap
    fun cr => (s.db.findUserById cr.fromId).map fun u =>
      ⟨cr.id, u.id, u.winkdId, u.displayName, u.avatarData⟩

/-- `ON CONFLICT (from_id, to_id) DO UPDATE SET status = 'pending'`. -/
def createContactRequest (s : AppState) (fromId toId : Id) : ContactRequest × AppState :=
  match s.contactRequests.find? fun cr => cr.fromId = fromId ∧ cr.toId = toId with
  | some cr =>
      ({ cr with status := .pending },
        { s with contactRequests := s.contactRequests.map fun c =>
            if c.fromId = fromId ∧ c.toId = toId then { c with status := .pending } else c })
  | none =>
      let cr : ContactRequest := ⟨s.db.drawn, fromId, toId, .pending, s.db.now⟩
      (cr, { s with
        contactRequests := s.contactRequests ++ [cr]
        db := { s.db with drawn := s.db.drawn + 1 } })

/-- The rows that an answer to a request updates. -/
def Answerable (requestId toId : Id) (cr : ContactRequest) : Bool :=
  cr.id = requestId ∧ cr.toId = toId ∧ cr.status = .pending

/-- `accept_contact_request` and `reject_contact_request`. -/
def answerContactRequest (s : AppState) (requestId toId : Id) (status : RequestStatus) :
    Except DbError ContactRequest × AppState :=
  match s.contactRequests.find? (Answerable requestId toId) with
  | some cr =>
      (.ok { cr with status := status },
        { s with contactRequests := s.contactRequests.map fun c =>
            if Answerable requestId toId c then { c with status := status } else c })
  | none => (.error .rowNotFound, s)

/-- `ON CONFLICT (blocker_id, blocked_id) DO NOTHING`. -/
def createBlock (s : AppState) (blockerId blockedId : Id) : Except DbError Unit × AppState :=
  if blockerId = blockedId then
    (.error ⟨"error returned from database: new row for relation \"blocks\" violates check " ++
      "constraint \"blocks_check\""⟩, s)
  else if s.blocks.any fun b => b.blockerId = blockerId ∧ b.blockedId = blockedId then (.ok (), s)
  else (.ok (), { s with blocks := s.blocks ++ [⟨blockerId, blockedId, s.db.now⟩] })

def removeBlock (s : AppState) (blockerId blockedId : Id) : AppState :=
  { s with blocks := s.blocks.filter fun b => ¬(b.blockerId = blockerId ∧ b.blockedId = blockedId) }

def clearPendingContactRequestsBetween (s : AppState) (userA userB : Id) : AppState :=
  { s with contactRequests := s.contactRequests.map fun cr =>
      if cr.status = .pending ∧ ((cr.fromId = userA ∧ cr.toId = userB) ∨
          (cr.fromId = userB ∧ cr.toId = userA)) then { cr with status := .rejected } else cr }

/-- The latest block first. -/
def listBlockedUsers (s : AppState) (blockerId : Id) : List BlockedUser :=
  ((s.blocks.filter fun b => b.blockerId = blockerId).insertionSort
      fun a b => b.createdAt ≤ a.createdAt).filterMap
    fun b => (s.db.findUserById b.blockedId).map fun u =>
      ⟨u.id, u.winkdId, u.displayName, u.avatarData, b.createdAt⟩

/-- `UPDATE users … WHERE id = $1`, unless a value is too long for its column. -/
def updateUser (s : AppState) (userId : Id) (max : ℕ) (values : List (Option Text))
    (f : User → User) : Except DbError Unit × AppState :=
  if values.any fun v => max < (v.getD []).length then (.error (.tooLong max), s)
  else (.ok (), { s with db := s.db.updateUser userId f })

/-- Whether the UNIQUE index on (recipient_id, client_msg_id) keeps a row out. -/
def queueConflict (s : AppState) (recipientId : Id) (clientMsgId : Option Text) : Bool :=
  clientMsgId.isSome &&
    s.pendingMessages.any fun r => r.recipientId = recipientId ∧ r.clientMsgId = clientMsgId

/-- TEXT and JSONB take no U+0000. -/
def queueBindError (clientMsgId : Option Text) (payload : Json) : Option DbError :=
  if clientMsgId.any fun id => id.contains (Char.ofNat 0) then
    some ⟨"error returned from database: invalid byte sequence for encoding \"UTF8\": 0x00"⟩
  else if payload.hasNul then
    some ⟨"error returned from database: unsupported Unicode escape sequence"⟩
  else none

/-- Whether there is a row of the user. -/
def hasUser (s : AppState) (id : Id) : Bool := s.db.users.any fun u => u.id = id

/-- What is wrong with a row that is not in conflict: an id that the index does not take, or a user
there is not. -/
def queueRowError (s : AppState) (m : Relayed) (clientMsgId : Option Text) : Option DbError :=
  if clientMsgId.any fun id => !s.indexes id then
    some ⟨"error returned from database: index row size exceeds btree version 4 maximum 2704 for " ++
      "index \"ux_pending_messages_recipient_client\""⟩
  else if !s.hasUser m.recipientId then
    some ⟨"error returned from database: insert or update on table \"pending_messages\" violates " ++
      "foreign key constraint \"pending_messages_recipient_id_fkey\""⟩
  else if !s.hasUser m.senderId then
    some ⟨"error returned from database: insert or update on table \"pending_messages\" violates " ++
      "foreign key constraint \"pending_messages_sender_id_fkey\""⟩
  else none

/-- `ON CONFLICT DO NOTHING`. -/
def queuePendingMessage (s : AppState) (m : Relayed) (clientMsgId : Option Text) (payload : Json) :
    Except DbError Unit × AppState :=
  match queueBindError clientMsgId payload with
  | some e => (.error e, s)
  | none =>
    if s.queueConflict m.recipientId clientMsgId then (.ok (), s)
    else
      match s.queueRowError m clientMsgId with
      | some e => (.error e, s)
      | none => (.ok (), { s with
          pendingMessages := s.pendingMessages ++
            [⟨s.db.drawn, m.recipientId, m.senderId, clientMsgId, payload, s.db.now, m.serial⟩]
          db := { s.db with drawn := s.db.drawn + 1 } })

/-- The row cannot be stored. -/
def queueRefuses (s : AppState) (m : Relayed) (clientMsgId : Option Text) (payload : Json) : Bool :=
  (queueBindError clientMsgId payload).isSome || (s.queueRowError m clientMsgId).isSome

/-- The message does not get into the queue. -/
def keepsOut (s : AppState) (m : Relayed) (clientMsgId : Option Text) (payload : Json) : Bool :=
  s.queueRefuses m clientMsgId payload || s.queueConflict m.recipientId clientMsgId

/-- The state with the row. -/
def withQueued (s : AppState) (m : Relayed) (clientMsgId : Option Text) (payload : Json) : AppState :=
  { s with
    pendingMessages := s.pendingMessages ++
      [⟨s.db.drawn, m.recipientId, m.senderId, clientMsgId, payload, s.db.now, m.serial⟩]
    db := { s.db with drawn := s.db.drawn + 1 } }

theorem queuePendingMessage_state (s : AppState) (m : Relayed) (clientMsgId : Option Text)
    (payload : Json) : (s.queuePendingMessage m clientMsgId payload).2 =
      if s.keepsOut m clientMsgId payload then s else s.withQueued m clientMsgId payload := by
  rw [queuePendingMessage, keepsOut, queueRefuses]
  cases queueBindError clientMsgId payload with
  | some e => rfl
  | none =>
    cases s.queueConflict m.recipientId clientMsgId with
    | true => rw [Bool.or_true]; rfl
    | false => cases s.queueRowError m clientMsgId <;> rfl

/-- What is queued for a user, oldest first. -/
def queuedFor (s : AppState) (recipientId : Id) : List PendingMessage :=
  (s.pendingMessages.filter fun r => r.recipientId = recipientId).insertionSort
    fun a b => a.createdAt ≤ b.createdAt

def drainPendingMessages (s : AppState) (recipientId : Id) :
    List PendingMessageDelivery × AppState :=
  ((s.queuedFor recipientId).map fun r => ⟨r.senderId, r.payload, r.serial⟩,
    { s with pendingMessages := s.pendingMessages.filter fun r => r.recipientId ≠ recipientId })

/-! ## Sessions and channels -/

/-- Removes the entry of a user if it is of this session. -/
def clientsRemove (s : AppState) (userId sessionId : Id) : Bool × AppState :=
  if (s.clients userId).any fun c => c.sessionId = sessionId then
    (true, { s with clients := Function.update s.clients userId none })
  else (false, s)

def updateChannel (s : AppState) (channel : ℕ) (f : Channel → Channel) : AppState :=
  { s with channels := s.channels.modify channel f }

/-- A channel is open until its receiver is dropped. -/
def isOpen (s : AppState) (channel : ℕ) : Bool :=
  s.channels[channel]?.any fun c => c.forwarding ≠ .ended

/-- `UnboundedSender::send`. -/
def send (s : AppState) (channel : ℕ) (item : Item) : Bool × AppState :=
  if s.isOpen channel then
    (true, s.updateChannel channel fun c => { c with queue := c.queue ++ [item] })
  else (false, s)

def sendToAll (s : AppState) (userIds : List Id) (item : Item) : AppState :=
  userIds.foldl (fun t userId =>
    match t.clients userId with
    | some session => (t.send session.sender item).2
    | none => t) s

end AppState

/-- How each of them is answered when the database does not fail. -/
def serve : Prog.Handler RelayOp RelayOp.Reply AppState
  | .findUserBySession token, s => (.ok ((s.db.findUserBySession token).map s.member), s)
  | .findUserById id, s => (.ok ((s.db.findUserById id).map s.member), s)
  | .findUserByWinkdId winkdId, s => (.ok (s.findUserByWinkdId winkdId), s)
  | .countRoster userId, s => (.ok (s.countRoster userId), s)
  | .listContactRoster userId, s => (.ok (s.listContactRoster userId), s)
  | .listAcceptedContactUserIds userId, s => (.ok (s.listAcceptedContactUserIds userId), s)
  | .listPendingInbound toId, s => (.ok (s.listPendingInbound toId), s)
  | .createContactRequest fromId toId, s =>
      (.ok (s.createContactRequest fromId toId).1, (s.createContactRequest fromId toId).2)
  | .acceptContactRequest requestId toId, s => s.answerContactRequest requestId toId .accepted
  | .rejectContactRequest requestId toId, s => s.answerContactRequest requestId toId .rejected
  | .isBlockedBetween userA userB, s => (.ok (s.isBlockedBetween userA userB), s)
  | .createBlock blockerId blockedId, s => s.createBlock blockerId blockedId
  | .removeBlock blockerId blockedId, s => (.ok (), s.removeBlock blockerId blockedId)
  | .clearPendingContactRequestsBetween userA userB, s =>
      (.ok (), s.clearPendingContactRequestsBetween userA userB)
  | .listBlockedUsers blockerId, s => (.ok (s.listBlockedUsers blockerId), s)
  | .updateUserMood userId mood, s =>
      s.updateUser userId 100 [some mood] fun u => { u with moodMessage := mood }
  | .updateUserDisplayName userId displayName nameColor avColor, s =>
      if 64 < displayName.length then (.error (.tooLong 64), s)
      else s.updateUser userId 32 [nameColor, avColor] fun u =>
        { u with
          displayName := displayName
          displayNameColor := nameColor <|> u.displayNameColor
          avColor := avColor <|> u.avColor }
  | .updateUserAvatar userId avatarData, s =>
      (.ok (), { s with db := s.db.updateUser userId fun u => { u with avatarData := avatarData } })
  | .updateUserProfileStyle userId nameColor avColor, s =>
      s.updateUser userId 32 [nameColor, avColor] fun u =>
        { u with displayNameColor := nameColor, avColor := avColor }
  | .queuePendingMessage m clientMsgId payload, s => s.queuePendingMessage m clientMsgId payload
  | .drainPendingMessages recipientId, s =>
      (.ok (s.drainPendingMessages recipientId).1, (s.drainPendingMessages recipientId).2)
  | .clientsInsert userId session, s =>
      ((), { s with clients := Function.update s.clients userId (some session) })
  | .clientsGet userId, s => (s.clients userId, s)
  | .clientsRemove userId sessionId, s => s.clientsRemove userId sessionId
  | .presenceSet userId entry, s =>
      ((), { s with presence := Function.update s.presence userId (some entry) })
  | .presenceGet userId, s => (s.presence userId, s)
  | .presenceRemove userId, s =>
      ((), { s with presence := Function.update s.presence userId none })
  | .newSessionId, s => (s.db.drawn, { s with db := { s.db with drawn := s.db.drawn + 1 } })
  | .unboundedChannel userId, s =>
      (s.channels.length, { s with channels := s.channels ++ [⟨userId, [], .notSpawned, []⟩] })
  | .send channel item, s => s.send channel item
  | .sendToAll userIds item, s => ((), s.sendToAll userIds item)
  | .spawnSendTask channel, s =>
      ((), s.updateChannel channel fun c => { c with forwarding := .running })
  | .abortSendTask channel, s =>
      ((), s.updateChannel channel fun c =>
        { c with forwarding := if c.forwarding = .running then .aborted else c.forwarding })
  | .nextFrame, s => (s.received, { s with received := s.received + 1 })
  | .write _ succeeds, s => (succeeds, s)
  | .utcNow, s => (s.db.now, s)

/-! ## What the points leave alone -/

/-- The point touches at most the accounts, the contacts and the blocks. -/
def RelayOp.onlyTables : RelayOp → Bool
  | .queuePendingMessage _ _ _ => false
  | .drainPendingMessages _ => false
  | .clientsInsert _ _ => false
  | .clientsRemove _ _ => false
  | .presenceSet _ _ => false
  | .presenceRemove _ => false
  | .unboundedChannel _ => false
  | .send _ _ => false
  | .sendToAll _ _ => false
  | .spawnSendTask _ => false
  | .abortSendTask _ => false
  | .nextFrame => false
  | _ => true

theorem serve_onlyTables {r : RelayOp} (hr : r.onlyTables = true) (s : AppState) :
    ∃ db contactRequests blocks, (serve r s).2 =
      { s with db := db, contactRequests := contactRequests, blocks := blocks } := by
  cases r with
  | createContactRequest f t =>
    simp only [serve, AppState.createContactRequest]
    split <;> exact ⟨_, _, _, rfl⟩
  | acceptContactRequest id t =>
    simp only [serve, AppState.answerContactRequest]
    split <;> exact ⟨_, _, _, rfl⟩
  | rejectContactRequest id t =>
    simp only [serve, AppState.answerContactRequest]
    split <;> exact ⟨_, _, _, rfl⟩
  | createBlock a b =>
    simp only [serve, AppState.createBlock]
    split
    · exact ⟨_, _, _, rfl⟩
    · split <;> exact ⟨_, _, _, rfl⟩
  | updateUserMood u mood =>
    simp only [serve, AppState.updateUser]
    split <;> exact ⟨_, _, _, rfl⟩
  | updateUserDisplayName u name nameColor avColor =>
    simp only [serve, AppState.updateUser]
    split
    · exact ⟨_, _, _, rfl⟩
    · split <;> exact ⟨_, _, _, rfl⟩
  | updateUserProfileStyle u nameColor avColor =>
    simp only [serve, AppState.updateUser]
    split <;> exact ⟨_, _, _, rfl⟩
  | queuePendingMessage m clientMsgId payload => cases hr
  | drainPendingMessages u => cases hr
  | clientsInsert u session => cases hr
  | clientsRemove u sessionId => cases hr
  | presenceSet u entry => cases hr
  | presenceRemove u => cases hr
  | unboundedChannel u => cases hr
  | send c item => cases hr
  | sendToAll ids item => cases hr
  | spawnSendTask c => cases hr
  | abortSendTask c => cases hr
  | nextFrame => cases hr
  | _ => exact ⟨_, _, _, rfl⟩

/-- A send touches only the channels. -/
theorem send_state (s : AppState) (c : ℕ) (item : Item) :
    ∃ channels, (s.send c item).2 = { s with channels := channels } := by
  rw [AppState.send]
  split <;> exact ⟨_, rfl⟩

theorem sendToAll_state (s : AppState) (ids : List Id) (item : Item) :
    ∃ channels, s.sendToAll ids item = { s with channels := channels } := by
  unfold AppState.sendToAll
  induction ids generalizing s with
  | nil => exact ⟨s.channels, rfl⟩
  | cons id ids ih =>
    rw [List.foldl_cons]
    split
    · rename_i session _
      obtain ⟨l, hl⟩ := send_state s session.sender item
      rw [hl]
      obtain ⟨l', hl'⟩ := ih { s with channels := l }
      exact ⟨l', hl'⟩
    · exact ih s

/-- The points that write to the map of the sessions. -/
def RelayOp.writesClients : RelayOp → Bool
  | .clientsInsert _ _ => true
  | .clientsRemove _ _ => true
  | _ => false

def RelayOp.writesPresence : RelayOp → Bool
  | .presenceSet _ _ => true
  | .presenceRemove _ => true
  | _ => false

def RelayOp.writesQueue : RelayOp → Bool
  | .queuePendingMessage _ _ _ => true
  | .drainPendingMessages _ => true
  | _ => false

def RelayOp.writesRequests : RelayOp → Bool
  | .createContactRequest _ _ => true
  | .acceptContactRequest _ _ => true
  | .rejectContactRequest _ _ => true
  | .clearPendingContactRequestsBetween _ _ => true
  | _ => false

def RelayOp.writesBlocks : RelayOp → Bool
  | .createBlock _ _ => true
  | .removeBlock _ _ => true
  | _ => false

/-- What is not written stays as it is. -/
structure Unwritten (r : RelayOp) (s t : AppState) : Prop where
  clients : r.writesClients = false → t.clients = s.clients
  presence : r.writesPresence = false → t.presence = s.presence
  pendingMessages : r.writesQueue = false → t.pendingMessages = s.pendingMessages
  contactRequests : r.writesRequests = false → t.contactRequests = s.contactRequests
  blocks : r.writesBlocks = false → t.blocks = s.blocks

theorem Unwritten.refl (r : RelayOp) (s : AppState) : Unwritten r s s :=
  ⟨fun _ => rfl, fun _ => rfl, fun _ => rfl, fun _ => rfl, fun _ => rfl⟩

theorem unwritten_updateUser (r : RelayOp) (s : AppState) (u : Id) (max : ℕ)
    (values : List (Option Text)) (f : User → User) :
    Unwritten r s (s.updateUser u max values f).2 := by
  rw [AppState.updateUser]
  split
  · exact .refl r s
  · exact ⟨fun _ => rfl, fun _ => rfl, fun _ => rfl, fun _ => rfl, fun _ => rfl⟩

theorem unwritten_answer (r : RelayOp) (s : AppState) (id t : Id) (status : RequestStatus)
    (hr : r.writesRequests = true) : Unwritten r s (s.answerContactRequest id t status).2 := by
  rw [AppState.answerContactRequest]
  split
  · exact ⟨fun _ => rfl, fun _ => rfl, fun _ => rfl, fun h => (nomatch hr.symm.trans h), fun _ => rfl⟩
  · exact .refl r s

/-- **A point changes only what it writes.** -/
theorem serve_unwritten (r : RelayOp) (s : AppState) : Unwritten r s (serve r s).2 := by
  cases r with
  | send c item =>
    obtain ⟨channels, h⟩ := send_state s c item
    simp only [serve, h]
    exact ⟨fun _ => rfl, fun _ => rfl, fun _ => rfl, fun _ => rfl, fun _ => rfl⟩
  | sendToAll ids item =>
    obtain ⟨channels, h⟩ := sendToAll_state s ids item
    simp only [serve, h]
    exact ⟨fun _ => rfl, fun _ => rfl, fun _ => rfl, fun _ => rfl, fun _ => rfl⟩
  | createContactRequest f t =>
    simp only [serve, AppState.createContactRequest]
    split <;> exact ⟨fun _ => rfl, fun _ => rfl, fun _ => rfl, fun h => (nomatch h), fun _ => rfl⟩
  | acceptContactRequest id t => exact unwritten_answer _ s id t .accepted rfl
  | rejectContactRequest id t => exact unwritten_answer _ s id t .rejected rfl
  | createBlock a b =>
    simp only [serve, AppState.createBlock]
    split
    · exact .refl _ s
    · split
      · exact .refl _ s
      · exact ⟨fun _ => rfl, fun _ => rfl, fun _ => rfl, fun _ => rfl, fun h => nomatch h⟩
  | updateUserMood u mood => exact unwritten_updateUser _ s u _ _ _
  | updateUserDisplayName u name nameColor avColor =>
    simp only [serve]
    split
    · exact .refl _ s
    · exact unwritten_updateUser _ s u _ _ _
  | updateUserProfileStyle u nameColor avColor => exact unwritten_updateUser _ s u _ _ _
  | queuePendingMessage m clientMsgId payload =>
    simp only [serve, AppState.queuePendingMessage_state]
    split
    · exact .refl _ s
    · exact ⟨fun _ => rfl, fun _ => rfl, fun h => (nomatch h), fun _ => rfl, fun _ => rfl⟩
  | clientsRemove u sessionId =>
    simp only [serve, AppState.clientsRemove]
    split
    · exact ⟨fun h => (nomatch h), fun _ => rfl, fun _ => rfl, fun _ => rfl, fun _ => rfl⟩
    · exact .refl _ s
  | _ => constructor <;> intro h <;> first | rfl | exact nomatch h

/-- No point changes which ids the index takes. -/
theorem serve_indexes (r : RelayOp) (s : AppState) : (serve r s).2.indexes = s.indexes := by
  by_cases ht : r.onlyTables = true
  · obtain ⟨db, contactRequests, blocks, hs⟩ := serve_onlyTables ht s
    rw [hs]
  cases r with
  | send c item =>
    obtain ⟨channels, h⟩ := send_state s c item
    simp only [serve, h]
  | sendToAll ids item =>
    obtain ⟨channels, h⟩ := sendToAll_state s ids item
    simp only [serve, h]
  | queuePendingMessage m clientMsgId payload =>
    simp only [serve, AppState.queuePendingMessage_state]
    split <;> rfl
  | clientsRemove u sessionId =>
    simp only [serve, AppState.clientsRemove]
    split <;> rfl
  | _ => first | rfl | exact absurd rfl ht

end Winkd.Server
