import Winkd.Histories
import Winkd.Router
import Winkd.RelayRuns

/-!
# What a connection may do by what it has been told

A connection acts for one user, whose session token its first frame has.  `May` is the rule for
its points: it reads and writes for nobody else, and to the session of another user it sends a
message that came in for this user while there was no block, a request or an acceptance of its
user's, or a receipt for a message of this user's that was queued (`Tells`).  What it shows its
own user comes out of the tables (`Shows`).

Every connection obeys it (`handleSocket_obeys`).
-/

namespace Winkd.Server
open Threads

/-- What a connection has asked and been answered. -/
abbrev Heard : Type := History RelayOp RelayOp.Reply

/-- The token in the frame that authenticates. -/
def Socket.token (socket : Socket) : Option Text :=
  match socket.frames with
  | .text json :: _ =>
      ((json.bind WsAuthMessage.ofJson).filter fun a => a.msgType = "auth".toList).map
        WsAuthMessage.token
  | _ => none

/-- A command that comes in after it. -/
def Socket.Commands (socket : Socket) (cmd : ClientCommand) : Prop :=
  ∃ json, Frame.text json ∈ socket.frames.tail ∧ json.bind ClientCommand.ofJson = some cmd

/-- To whom a message is addressed. -/
def Json.recipient (payload : Json) : Option Text :=
  (payload.getAny ["conversationId", "conversation_id", "recipient_winkd_id", "recipientId",
    "recipient_id"]).bind Json.asStr

/-- The events that clients take for another user's doing. -/
def peerEvents : List String :=
  ["message", "contact_request", "contact_accepted", "delivery_receipt", "presence"]

namespace Heard
variable (F : Formats) (socket : Socket) (past : Heard)

/-- The user whose session the token is of. -/
def ActsAs (user : Member) : Prop :=
  ∃ token, socket.token = some token ∧ past.Told (.findUserBySession token) (.ok (some user))

def ActsFor (u : Id) : Prop := ∃ user, past.ActsAs socket user ∧ user.id = u

/-- The payload is that of a message which the connection's user sends to the recipient; there is
no block between the two, and it is within the limits. -/
def Relays (m : Relayed) (payload : Json) : Prop :=
  ∃ user cmd winkdId recipient now, past.ActsAs socket user ∧ m.senderId = user.id ∧
    socket.Commands cmd ∧ cmd.command.sends = true ∧ cmd.payload.recipient = some winkdId ∧
    past.Told (.findUserByWinkdId winkdId) (.ok (some recipient)) ∧ m.recipientId = recipient.id ∧
    past.Told (.isBlockedBetween user.id recipient.id) (.ok false) ∧ past.Told .utcNow now ∧
    validateSendPayload cmd.payload (limitsFor (user.effectiveTier now)) = .ok () ∧
    payload = forwardedPayload user cmd.payload

/-- What the connection may send to the session of user `v`. -/
inductive Tells (v : Id) : Item → Prop
  | message (m : Relayed) (payload : Json) (relays : past.Relays socket m payload)
      (addressed : m.recipientId = v) : Tells v ⟨messageEvent payload, .live m⟩
  | request (user : Member) (acts : past.ActsAs socket user) (req : ContactRequest)
      (asked : past.Told (.createContactRequest user.id v) (.ok req)) :
      Tells v ⟨contactRequestEvent F req.id user.winkdId user.displayName user.avatarData, .other⟩
  | accepted (user : Member) (acts : past.ActsAs socket user) (id : Id) (req : ContactRequest)
      (accepted : past.Told (.acceptContactRequest id user.id) (.ok req)) (requester : Member)
      (found : past.Told (.findUserById req.fromId) (.ok (some requester))) (addressed : requester.id = v) :
      Tells v ⟨contactAccepted user, .other⟩
  | receipt (user : Member) (acts : past.ActsAs socket user) (rows : List PendingMessageDelivery)
      (drained : past.Told (.drainPendingMessages user.id) (.ok rows)) (msg : PendingMessageDelivery)
      (mem : msg ∈ rows) (addressed : msg.senderId = v) (id : Text) (named : msg.payload.getStr "id" = some id) :
      Tells v ⟨.event "delivery_receipt" [("message_id", .str id), ("conversation_id", .str user.winkdId)],
        .other⟩

/-- What the connection may send to its own session, of user `u`. -/
inductive Shows (u : Id) : Item → Prop
  | echo (user : Member) (acts : past.ActsAs socket user) (id : user.id = u) (m : Relayed)
      (cmd : ClientCommand) (received : socket.Commands cmd) (sends : cmd.command.sends = true)
      (winkdId : Text) (addressed : cmd.payload.recipient = some winkdId) (delivered : Bool) :
      Shows u ⟨messageEvent (senderPayload user winkdId cmd.payload delivered), .echo m⟩
  | queued (rows : List PendingMessageDelivery)
      (drained : past.Told (.drainPendingMessages u) (.ok rows)) (msg : PendingMessageDelivery)
      (mem : msg ∈ rows) : Shows u ⟨messageEvent msg.payload, .queued ⟨msg.serial, msg.senderId, u⟩⟩
  | request (rows : List PendingContactRequest)
      (listed : past.Told (.listPendingInbound u) (.ok rows)) (req : PendingContactRequest)
      (mem : req ∈ rows) : Shows u ⟨contactRequestEvent F req.requestId req.fromWinkdId
        req.fromDisplayName req.fromAvatarData, .other⟩
  | accepted (id : Id) (req : ContactRequest)
      (accepted : past.Told (.acceptContactRequest id u) (.ok req)) (requester : Member)
      (found : past.Told (.findUserById req.fromId) (.ok (some requester))) :
      Shows u ⟨contactAccepted requester, .other⟩
  | other (name : String) (payload : List (String × Json)) (h : name ∉ peerEvents) :
      Shows u ⟨.event name payload, .other⟩

/-- **The rule for the points of a connection.** -/
def May : RelayOp → Prop
  | .countRoster u => past.ActsFor socket u
  | .listContactRoster u => past.ActsFor socket u
  | .listAcceptedContactUserIds u => past.ActsFor socket u
  | .listPendingInbound u => past.ActsFor socket u
  | .listBlockedUsers u => past.ActsFor socket u
  | .createContactRequest u v =>
      past.ActsFor socket u ∧ past.Told (.isBlockedBetween u v) (.ok false)
  | .acceptContactRequest _ u => past.ActsFor socket u
  | .rejectContactRequest _ u => past.ActsFor socket u
  | .isBlockedBetween u _ => past.ActsFor socket u
  | .createBlock u _ => past.ActsFor socket u
  | .removeBlock u _ => past.ActsFor socket u
  | .clearPendingContactRequestsBetween u _ => past.ActsFor socket u
  | .updateUserMood u _ => past.ActsFor socket u
  | .updateUserDisplayName u _ _ _ => past.ActsFor socket u
  | .updateUserAvatar u _ => past.ActsFor socket u
  | .updateUserProfileStyle u _ _ => past.ActsFor socket u
  | .queuePendingMessage m _ payload => past.Relays socket m payload
  | .drainPendingMessages u => past.ActsFor socket u
  | .clientsInsert u session =>
      past.ActsFor socket u ∧ past.Told (.unboundedChannel u) session.sender
  | .clientsRemove u _ => past.ActsFor socket u
  | .presenceSet u _ => past.ActsFor socket u
  | .presenceRemove u => past.ActsFor socket u
  | .unboundedChannel u => past.ActsFor socket u
  | .send c item =>
      (∃ u, past.ActsFor socket u ∧ past.Told (.unboundedChannel u) c ∧ past.Shows F socket u item) ∨
        ∃ v session, past.Told (.clientsGet v) (some session) ∧ session.sender = c ∧
          past.Tells F socket v item
  | .sendToAll ids item =>
      ∃ user status, past.ActsAs socket user ∧
        past.Told (.listAcceptedContactUserIds user.id) (.ok ids) ∧
        item = ⟨.event "presence" [("user_id", .str user.winkdId), ("status", .str status)], .other⟩
  | .spawnSendTask c => ∃ u, past.ActsFor socket u ∧ past.Told (.unboundedChannel u) c
  | .abortSendTask c => ∃ u, past.ActsFor socket u ∧ past.Told (.unboundedChannel u) c
  | _ => True

end Heard

/-! ## What stays so -/

section Kept
variable {F : Formats} {socket : Socket} {past later : Heard}

theorem Heard.ActsAs.mono {user : Member} (h : past.ActsAs socket user) (hsub : past ⊆ later) :
    later.ActsAs socket user := by
  obtain ⟨token, htoken, htold⟩ := h
  exact ⟨token, htoken, htold.mono hsub⟩

theorem Heard.Relays.mono {m : Relayed} {payload : Json} (h : past.Relays socket m payload)
    (hsub : past ⊆ later) : later.Relays socket m payload := by
  obtain ⟨user, cmd, winkdId, recipient, now, hacts, hsender, hcmd, hrelays, hto, hfound, hrecipient,
    hunblocked, hnow, hvalid, hpayload⟩ := h
  exact ⟨user, cmd, winkdId, recipient, now, hacts.mono hsub, hsender, hcmd, hrelays, hto,
    hfound.mono hsub, hrecipient, hunblocked.mono hsub, hnow.mono hsub, hvalid, hpayload⟩

theorem Heard.Tells.mono {v : Id} {item : Item} (h : past.Tells F socket v item)
    (hsub : past ⊆ later) : later.Tells F socket v item := by
  cases h with
  | message m payload hrelays hto => exact .message m payload (hrelays.mono hsub) hto
  | request user hacts req hasked => exact .request user (hacts.mono hsub) req (hasked.mono hsub)
  | accepted user hacts id req haccepted requester hfound hto =>
    exact .accepted user (hacts.mono hsub) id req (haccepted.mono hsub) requester (hfound.mono hsub) hto
  | receipt user hacts rows hdrained msg hmem hto id hnamed =>
    exact .receipt user (hacts.mono hsub) rows (hdrained.mono hsub) msg hmem hto id hnamed

/-- The connection acts as the user, and `tx` is its channel. -/
structure Heard.Ready (socket : Socket) (user : Member) (tx : ℕ) (past : Heard) : Prop where
  acts : past.ActsAs socket user
  channel : past.Told (.unboundedChannel user.id) tx

theorem Heard.Ready.mono {user : Member} {tx : ℕ} (h : past.Ready socket user tx)
    (hsub : past ⊆ later) : later.Ready socket user tx :=
  ⟨h.acts.mono hsub, h.channel.mono hsub⟩

theorem Heard.Ready.seen {user : Member} {tx : ℕ} (h : past.Ready socket user tx) {r : RelayOp}
    {x : r.Reply} : Heard.Ready socket user tx (past.seen r x) := h.mono (past.subset_seen r x)

theorem Heard.ActsAs.seen {user : Member} (h : past.ActsAs socket user) {r : RelayOp} {x : r.Reply} :
    Heard.ActsAs socket (past.seen r x) user := h.mono (past.subset_seen r x)

theorem Heard.Ready.actsFor {user : Member} {tx : ℕ} (h : past.Ready socket user tx) :
    past.ActsFor socket user.id := ⟨user, h.acts, rfl⟩

end Kept

/-! ## The handlers -/

section Handlers
variable {F : Formats} {socket : Socket} {past : Heard} {α β : Type}

/-- The program obeys the rule, and what it returns satisfies `Q`. -/
abbrev Obeys (F : Formats) (socket : Socket) (past : Heard) (p : RelayProg α)
    (Q : Heard → α → Prop) : Prop := p.Abides (Heard.May F socket) Q (fun _ _ => True) past

/-- It does, and nothing is said of what it returns. -/
abbrev Obedient (F : Formats) (socket : Socket) (past : Heard) (p : RelayProg α) : Prop :=
  Obeys F socket past p fun _ _ => True

variable {user : Member} {tx : ℕ}

/-- A point, and what follows. -/
theorem obedient_await {r : RelayOp} {f : r.Reply → RelayProg α} (hr : past.May F socket r)
    (hf : ∀ x, Obedient F socket (past.seen r x) (f x)) : Obedient F socket past (await r >>= f) :=
  ⟨hr, hf⟩

theorem obedient_shown (hready : past.Ready socket user tx) {text : Json}
    (hshows : past.Shows F socket user.id ⟨text, .other⟩) : Obedient F socket past (push tx text) :=
  ⟨.inl ⟨user.id, hready.actsFor, hready.channel, hshows⟩, fun _ => trivial⟩

theorem obedient_push (hready : past.Ready socket user tx) {name : String}
    (hname : name ∉ peerEvents) (payload : List (String × Json)) :
    Obedient F socket past (push tx (.event name payload)) :=
  obedient_shown hready (.other name payload hname)

theorem obedient_sendErr (hready : past.Ready socket user tx) (message : Text) :
    Obedient F socket past (sendErr tx message) := obedient_push hready (by decide) _

theorem obedient_notify {v : Id} {text : Json} (htells : past.Tells F socket v ⟨text, .other⟩) :
    Obedient F socket past (notify v text) := by
  refine ⟨trivial, fun session => ?_⟩
  cases session with
  | none => exact trivial
  | some session =>
    refine ⟨.inr ⟨v, session, past.told_seen _ _, rfl, htells.mono (past.subset_seen _ _)⟩, ?_⟩
    exact fun _ => trivial

theorem obedient_broadcastPresence (hacts : past.ActsAs socket user) (status : Text) :
    Obedient F socket past (broadcastPresenceToContacts user status) := by
  refine ⟨⟨user, hacts, rfl⟩, fun contactIds => ?_⟩
  cases contactIds with
  | error e => exact trivial
  | ok contactIds =>
    cases contactIds with
    | nil => exact trivial
    | cons id ids =>
      refine ⟨⟨user, status, hacts.seen, past.told_seen _ _, rfl⟩, ?_⟩
      exact fun _ => trivial

/-! ### Contacts -/

theorem obedient_requestContact (hready : past.Ready socket user tx) (targetId : Text)
    {target : Member} (hunblocked : past.Told (.isBlockedBetween user.id target.id) (.ok false)) :
    Obedient F socket past (requestContact F user tx targetId target) := by
  refine ⟨⟨hready.actsFor, hunblocked⟩, fun req => ?_⟩
  have hready₁ := hready.seen (r := .createContactRequest user.id target.id) (x := req)
  cases req with
  | error e => exact obedient_sendErr hready₁ _
  | ok req =>
    refine (obedient_push hready₁ (by decide) _).bind fun later _ hsub _ => ?_
    refine obedient_notify ?_
    exact .request user (hready₁.acts.mono hsub) req ((past.told_seen _ _).mono hsub)

theorem obedient_addTarget (hready : past.Ready socket user tx) (targetId : Text) :
    Obedient F socket past (addTarget F user tx targetId) := by
  refine ⟨trivial, fun target => ?_⟩
  have hready₁ := hready.seen (r := .findUserByWinkdId targetId) (x := target)
  rcases target with e | target | target
  · exact obedient_sendErr hready₁ _
  · exact obedient_sendErr hready₁ _
  · refine ⟨hready₁.actsFor, fun blocked => ?_⟩
    have hready₂ := hready₁.seen (r := .isBlockedBetween user.id target.id) (x := blocked)
    rcases blocked with e | blocked | blocked
    · exact obedient_sendErr hready₂ _
    · exact obedient_requestContact hready₂ targetId (History.told_seen _ _ _)
    · exact obedient_sendErr hready₂ _

theorem obedient_addContact (hready : past.Ready socket user tx) (payload : Json) :
    Obedient F socket past (addContact F user tx payload) := by
  unfold addContact
  split
  · exact obedient_sendErr hready _
  · split
    · exact obedient_sendErr hready _
    · refine obedient_await trivial fun now => ?_
      have hready₁ := hready.seen (r := .utcNow) (x := now)
      split
      · exact obedient_addTarget hready₁ _
      · refine obedient_await hready₁.actsFor fun n => ?_
        have hready₂ := hready₁.seen (r := .countRoster user.id) (x := n)
        cases n with
        | error e => exact obedient_sendErr hready₂ _
        | ok n =>
          dsimp only
          split
          · refine ⟨trivial, fun now => ?_⟩
            exact obedient_sendErr hready₂.seen _
          · exact obedient_addTarget hready₂ _

theorem obedient_withId (hready : past.Ready socket user tx) (payload : Json) (field message : String)
    {k : Id → RelayProg Unit} (hk : ∀ id, Obedient F socket past (k id)) :
    Obedient F socket past (withId F tx payload field message k) := by
  unfold withId
  split
  · exact trivial
  · split
    · exact obedient_sendErr hready _
    · exact hk _

theorem obedient_acceptContact (hready : past.Ready socket user tx) (payload : Json) :
    Obedient F socket past (acceptContact F user tx payload) := by
  refine obedient_withId hready payload _ _ fun requestId => ⟨hready.actsFor, fun req => ?_⟩
  have hready₁ := hready.seen (r := .acceptContactRequest requestId user.id) (x := req)
  cases req with
  | error e => exact obedient_sendErr hready₁ _
  | ok req =>
    have haccepted := past.told_seen (.acceptContactRequest requestId user.id) (.ok req)
    refine ⟨trivial, fun requester => ?_⟩
    have hsub := History.subset_seen (past.seen (.acceptContactRequest requestId user.id) (.ok req))
      (.findUserById req.fromId) requester
    have hready₂ := hready₁.mono hsub
    rcases requester with e | requester | requester
    · exact trivial
    · exact trivial
    · have hfound := History.told_seen (past.seen (.acceptContactRequest requestId user.id) (.ok req))
        (.findUserById req.fromId) (.ok (some requester))
      have hshown : Obedient F socket _ (push tx (contactAccepted requester)) :=
        obedient_shown hready₂ (.accepted requestId req (haccepted.mono hsub) requester hfound)
      refine hshown.bind fun later _ hlater _ => ?_
      exact obedient_notify (.accepted user (hready₂.acts.mono hlater) requestId req
        ((haccepted.mono hsub).mono hlater) requester (hfound.mono hlater) rfl)

theorem obedient_rejectContact (hready : past.Ready socket user tx) (payload : Json) :
    Obedient F socket past (rejectContact F user tx payload) := by
  refine obedient_withId hready payload _ _ fun requestId => ⟨hready.actsFor, fun req => ?_⟩
  have hready₁ := hready.seen (r := .rejectContactRequest requestId user.id) (x := req)
  cases req with
  | error e => exact obedient_sendErr hready₁ _
  | ok req => exact obedient_push hready₁ (by decide) _

theorem obedient_block (hready : past.Ready socket user tx) (fields : List (String × Json))
    (blockedId : Id) (winkdId displayName : Text) (avatarData : Option Text) :
    Obedient F socket past (block F user tx fields blockedId winkdId displayName avatarData) := by
  refine ⟨hready.actsFor, fun created => ?_⟩
  have hready₁ := hready.seen (r := .createBlock user.id blockedId) (x := created)
  cases created with
  | error e => exact obedient_sendErr hready₁ _
  | ok _ =>
    refine ⟨hready₁.actsFor, fun _ => ⟨trivial, fun _ => ?_⟩⟩
    exact obedient_push hready₁.seen.seen (by decide) _

theorem obedient_blockContact (hready : past.Ready socket user tx) (payload : Json) :
    Obedient F socket past (blockContact F user tx payload) := by
  refine obedient_withId hready payload _ _ fun requestId => ?_
  refine obedient_await hready.actsFor fun pending => ?_
  have hready₁ := hready.seen (r := .listPendingInbound user.id) (x := pending)
  cases pending with
  | error e => exact obedient_sendErr hready₁ _
  | ok pending =>
    dsimp only
    split
    · exact obedient_sendErr hready₁ _
    · exact obedient_block hready₁ _ _ _ _ _

theorem obedient_blockUser (hready : past.Ready socket user tx) (payload : Json) :
    Obedient F socket past (blockUser F user tx payload) := by
  unfold blockUser
  split
  · exact trivial
  · split
    · exact obedient_sendErr hready _
    · refine ⟨trivial, fun target => ?_⟩
      have hready₁ := hready.seen (r := .findUserByWinkdId _) (x := target)
      rcases target with e | target | target
      · exact obedient_sendErr hready₁ _
      · exact obedient_sendErr hready₁ _
      · exact obedient_block hready₁ _ _ _ _ _

theorem obedient_unblockContact (hready : past.Ready socket user tx) (payload : Json) :
    Obedient F socket past (unblockContact F user tx payload) := by
  refine obedient_withId hready payload _ _ fun blockedId => ⟨hready.actsFor, fun removed => ?_⟩
  have hready₁ := hready.seen (r := .removeBlock user.id blockedId) (x := removed)
  cases removed with
  | error e => exact obedient_sendErr hready₁ _
  | ok _ => exact obedient_push hready₁ (by decide) _

theorem obedient_listBlocked (hready : past.Ready socket user tx) :
    Obedient F socket past (listBlocked F user tx) := by
  refine ⟨hready.actsFor, fun users => ?_⟩
  have hready₁ := hready.seen (r := .listBlockedUsers user.id) (x := users)
  cases users with
  | error e => exact obedient_sendErr hready₁ _
  | ok users => exact obedient_push hready₁ (by decide) _

/-! ### The profile -/

theorem obedient_updatePresence (hacts : past.ActsAs socket user) (f : PresenceEntry → PresenceEntry) :
    Obedient F socket past (updatePresence user f) := by
  refine ⟨trivial, fun entry => ?_⟩
  cases entry with
  | none => exact trivial
  | some entry => exact ⟨⟨user, hacts.seen, rfl⟩, fun _ => trivial⟩

theorem obedient_setMood (hacts : past.ActsAs socket user) (payload : Json) :
    Obedient F socket past (setMood user payload) := by
  unfold setMood
  split
  · exact trivial
  · refine ⟨⟨user, hacts, rfl⟩, fun _ => ?_⟩
    exact obedient_updatePresence (hacts.seen) _

theorem obedient_setDisplayName (hacts : past.ActsAs socket user) (payload : Json) :
    Obedient F socket past (setDisplayName user payload) := by
  unfold setDisplayName
  split
  · exact trivial
  · exact ⟨⟨user, hacts, rfl⟩, fun _ => trivial⟩

theorem obedient_setStatus (hacts : past.ActsAs socket user) (payload : Json) :
    Obedient F socket past (setStatus user payload) := by
  unfold setStatus
  split
  · exact trivial
  · refine (obedient_updatePresence hacts _).bind fun later _ hsub _ => ?_
    exact obedient_broadcastPresence (hacts.mono hsub) _

/-! ### Messages -/

theorem obedient_deliver (hready : past.Ready socket user tx) {winkdId : Text} {m : Relayed}
    {cmd : ClientCommand} (hcmd : socket.Commands cmd) (hsends : cmd.command.sends = true)
    (hto : cmd.payload.recipient = some winkdId)
    (hrelays : past.Relays socket m (forwardedPayload user cmd.payload)) :
    Obedient F socket past (deliver user tx winkdId m cmd.payload) := by
  refine ⟨trivial, fun session => ?_⟩
  have hsub := past.subset_seen (.clientsGet m.recipientId) session
  have hlive : Obedient F socket (past.seen (.clientsGet m.recipientId) session)
      (sendLive session ⟨messageEvent (forwardedPayload user cmd.payload), .live m⟩) := by
    cases session with
    | none => exact trivial
    | some session =>
      refine ⟨.inr ⟨m.recipientId, session, past.told_seen _ _, rfl, ?_⟩, fun _ => trivial⟩
      exact .message m _ (hrelays.mono hsub) rfl
  refine hlive.bind fun past₁ delivered hsub₁ _ => ?_
  have hqueue : Obedient F socket past₁ (queueUnless delivered m (cmd.payload.getStr "id")
      (forwardedPayload user cmd.payload)) := by
    cases delivered with
    | true => exact trivial
    | false => exact ⟨(hrelays.mono hsub).mono hsub₁, fun _ => trivial⟩
  refine hqueue.bind fun past₂ _ hsub₂ _ => ?_
  have hready₂ := ((hready.mono hsub).mono hsub₁).mono hsub₂
  refine ⟨.inl ⟨user.id, hready₂.actsFor, hready₂.channel, ?_⟩, fun _ => trivial⟩
  exact .echo user hready₂.acts rfl m cmd hcmd hsends winkdId hto delivered

theorem obedient_relayMessage (hready : past.Ready socket user tx) (serial : ℕ) {cmd : ClientCommand}
    (hcmd : socket.Commands cmd) (hsends : cmd.command.sends = true) :
    Obedient F socket past (relayMessage user tx serial cmd.payload) := by
  refine obedient_await trivial fun now => ?_
  have hready₁ := hready.seen (r := .utcNow) (x := now)
  have hnow := past.told_seen .utcNow now
  dsimp only
  split
  · exact obedient_sendErr hready₁ _
  · rename_i hvalid
    split
    · exact trivial
    · rename_i winkdId hto
      refine ⟨trivial, fun recipient => ?_⟩
      have hsub₁ := History.subset_seen (past.seen .utcNow now) (.findUserByWinkdId winkdId) recipient
      have hready₂ := hready₁.mono hsub₁
      rcases recipient with e | recipient | recipient
      · exact obedient_sendErr hready₂ _
      · exact obedient_sendErr hready₂ _
      · have hfound := History.told_seen (past.seen .utcNow now) (.findUserByWinkdId winkdId)
          (.ok (some recipient))
        refine ⟨hready₂.actsFor, fun blocked => ?_⟩
        have hsub₂ := History.subset_seen ((past.seen .utcNow now).seen (.findUserByWinkdId winkdId)
          (.ok (some recipient))) (.isBlockedBetween user.id recipient.id) blocked
        have hready₃ := hready₂.mono hsub₂
        rcases blocked with e | blocked | blocked
        · exact obedient_sendErr hready₃ _
        · refine obedient_deliver hready₃ hcmd hsends hto ?_
          exact ⟨user, cmd, winkdId, recipient, now, hready₃.acts, rfl, hcmd, hsends, hto,
            hfound.mono hsub₂, rfl, History.told_seen _ _ _, (hnow.mono hsub₁).mono hsub₂, hvalid, rfl⟩
        · exact obedient_sendErr hready₃ _

theorem obedient_handleCommand (hready : past.Ready socket user tx) (serial : ℕ) {cmd : ClientCommand}
    (hcmd : socket.Commands cmd) : Obedient F socket past (handleCommand F user tx serial cmd) := by
  have hrelay := fun h => obedient_relayMessage (F := F) hready serial hcmd h
  obtain ⟨command, payload⟩ := cmd
  cases command with
  | addContact => exact obedient_addContact hready payload
  | acceptContact => exact obedient_acceptContact hready payload
  | rejectContact => exact obedient_rejectContact hready payload
  | blockContact => exact obedient_blockContact hready payload
  | blockUser => exact obedient_blockUser hready payload
  | unblockContact => exact obedient_unblockContact hready payload
  | listBlocked => exact obedient_listBlocked hready
  | setMood => exact obedient_setMood hready.acts payload
  | setDisplayName => exact obedient_setDisplayName hready.acts payload
  | setAvatar => exact ⟨hready.actsFor, fun _ => trivial⟩
  | setProfileStyle => exact ⟨hready.actsFor, fun _ => trivial⟩
  | setStatus => exact obedient_setStatus hready.acts payload
  | sendMessage => exact hrelay rfl
  | sendWinkd => exact hrelay rfl
  | sendNudge => exact hrelay rfl
  | sendWink => exact hrelay rfl
  | typingStart => exact trivial
  | typingStop => exact trivial

/-! ### A connection -/

theorem obedient_flushRoster (hready : past.Ready socket user tx) :
    Obedient F socket past (flushRoster user tx) := by
  have hpayload : ∀ (contacts : List ContactRosterEntry) (past : Heard),
      Obedient F socket past (rosterPayload contacts) := by
    intro contacts
    induction contacts with
    | nil => exact fun _ => trivial
    | cons c contacts ih =>
      exact fun past => ⟨trivial, fun _ => (ih _).bind fun _ _ _ _ => trivial⟩
  refine ⟨hready.actsFor, fun contacts => ?_⟩
  have hready₁ := hready.seen (r := .listContactRoster user.id) (x := contacts)
  cases contacts with
  | error e => exact trivial
  | ok contacts =>
    refine (hpayload contacts _).bind fun later _ hsub _ => ?_
    exact obedient_push (hready₁.mono hsub) (by decide) _

theorem obedient_flushPendingInbound (hready : past.Ready socket user tx) :
    Obedient F socket past (flushPendingInbound F user tx) := by
  refine ⟨hready.actsFor, fun pending => ?_⟩
  have hsub := past.subset_seen (.listPendingInbound user.id) pending
  cases pending with
  | error e => exact trivial
  | ok pending =>
    have hlisted := past.told_seen (.listPendingInbound user.id) (.ok pending)
    have hpush : ∀ (l : List PendingContactRequest) (later : Heard), l ⊆ pending →
        past.seen (.listPendingInbound user.id) (.ok pending) ⊆ later →
          Obedient F socket later (pushRequests F tx l) := by
      intro l
      induction l with
      | nil => exact fun _ _ _ => trivial
      | cons req l ih =>
        intro later hl hlater
        obtain ⟨hreq, hrest⟩ := List.cons_subset.mp hl
        have hshown : Obedient F socket later (push tx (contactRequestEvent F req.requestId
            req.fromWinkdId req.fromDisplayName req.fromAvatarData)) :=
          obedient_shown ((hready.mono hsub).mono hlater)
            (.request pending (hlisted.mono hlater) req hreq)
        exact hshown.bind fun later₁ _ hsub₁ _ => ih later₁ hrest (List.Subset.trans hlater hsub₁)
    exact hpush pending _ (List.Subset.refl _) (List.Subset.refl _)

theorem obedient_flushQueued (hready : past.Ready socket user tx) :
    Obedient F socket past (flushQueued user tx) := by
  refine ⟨hready.actsFor, fun queued => ?_⟩
  have hsub := past.subset_seen (.drainPendingMessages user.id) queued
  cases queued with
  | error e => exact trivial
  | ok queued =>
    have hdrained := past.told_seen (.drainPendingMessages user.id) (.ok queued)
    have hpush : ∀ (l : List PendingMessageDelivery) (later : Heard), l ⊆ queued →
        past.seen (.drainPendingMessages user.id) (.ok queued) ⊆ later →
          Obedient F socket later (pushQueued user tx l) := by
      intro l
      induction l with
      | nil => exact fun _ _ _ => trivial
      | cons msg l ih =>
        intro later hl hlater
        obtain ⟨hmsg, hrest⟩ := List.cons_subset.mp hl
        have hready₁ := (hready.mono hsub).mono hlater
        refine ⟨.inl ⟨user.id, hready₁.actsFor, hready₁.channel,
          .queued queued (hdrained.mono hlater) msg hmsg⟩, fun sent => ?_⟩
        have hsub₁ := later.subset_seen
          (.send tx ⟨messageEvent msg.payload, .queued ⟨msg.serial, msg.senderId, user.id⟩⟩) sent
        have hreceipt : Obedient F socket (later.seen _ sent)
            (sendReceipt user msg.senderId msg.payload) := by
          unfold sendReceipt
          split
          · rename_i id hid
            exact obedient_notify (.receipt user (hready₁.acts.mono hsub₁) queued
              ((hdrained.mono hlater).mono hsub₁) msg hmsg rfl id hid)
          · exact trivial
        refine hreceipt.bind fun later₂ _ hsub₂ _ => ih later₂ hrest ?_
        exact List.Subset.trans hlater (List.Subset.trans hsub₁ hsub₂)
    exact hpush queued _ (List.Subset.refl _) (List.Subset.refl _)

theorem obedient_receiveLoop (frames : List Frame) :
    ∀ past : Heard, past.Ready socket user tx → frames ⊆ socket.frames.tail →
      Obedient F socket past (receiveLoop F user tx frames) := by
  induction frames with
  | nil => exact fun _ _ _ => ⟨trivial, fun _ => trivial⟩
  | cons frame frames ih =>
    intro past hready hframes
    obtain ⟨hframe, hrest⟩ := List.cons_subset.mp hframes
    cases frame with
    | close => exact ⟨trivial, fun _ => trivial⟩
    | other => exact ⟨trivial, fun _ => ih _ hready.seen hrest⟩
    | text json =>
      refine obedient_await trivial fun serial => ?_
      have hready₁ := hready.seen (r := .nextFrame) (x := serial)
      split
      · rename_i cmd hcmd
        refine (obedient_handleCommand hready₁ serial ⟨json, hframe, hcmd⟩).bind ?_
        exact fun later _ hsub _ => ih later (hready₁.mono hsub) hrest
      · exact ih _ hready₁ hrest

theorem obedient_disconnect (hacts : past.ActsAs socket user) (sessionId : Id) :
    Obedient F socket past (disconnect user sessionId) := by
  refine ⟨⟨user, hacts, rfl⟩, fun active => ?_⟩
  cases active with
  | false => exact trivial
  | true =>
    refine ⟨⟨user, hacts.seen, rfl⟩, fun _ => ?_⟩
    exact obedient_broadcastPresence hacts.seen.seen _

theorem obedient_serveSession (hacts : past.ActsAs socket user) :
    Obedient F socket past (serveSession F user socket.frames.tail) := by
  refine ⟨⟨user, hacts, rfl⟩, fun tx => ?_⟩
  have hready : Heard.Ready socket user tx (past.seen (.unboundedChannel user.id) tx) :=
    ⟨hacts.seen, past.told_seen _ _⟩
  refine ⟨trivial, fun sessionId => ?_⟩
  have hready₁ := hready.seen (r := .newSessionId) (x := sessionId)
  refine ⟨⟨hready₁.actsFor, hready₁.channel⟩, fun _ => ?_⟩
  have hready₂ := hready₁.seen (r := .clientsInsert user.id ⟨sessionId, tx⟩) (x := ())
  refine ⟨hready₂.actsFor, fun _ => ?_⟩
  have hready₃ := hready₂.seen (r := .presenceSet user.id ⟨.online, user.moodMessage⟩) (x := ())
  refine (obedient_broadcastPresence hready₃.acts _).bind fun past₄ _ h₄ _ => ?_
  have hready₄ := hready₃.mono h₄
  refine (obedient_flushRoster hready₄).bind fun past₅ _ h₅ _ => ?_
  have hready₅ := hready₄.mono h₅
  refine (obedient_flushPendingInbound hready₅).bind fun past₆ _ h₆ _ => ?_
  have hready₆ := hready₅.mono h₆
  refine (obedient_flushQueued hready₆).bind fun past₇ _ h₇ _ => ?_
  have hready₇ := hready₆.mono h₇
  refine ⟨⟨user.id, hready₇.actsFor, hready₇.channel⟩, fun _ => ?_⟩
  have hready₈ := hready₇.seen (r := .spawnSendTask tx) (x := ())
  refine (obedient_receiveLoop _ _ hready₈ (List.Subset.refl _)).bind fun past₉ _ h₉ _ => ?_
  have hready₉ := hready₈.mono h₉
  refine (obedient_disconnect hready₉.acts sessionId).bind fun later _ hsub _ => ?_
  have hreadyₑ := hready₉.mono hsub
  exact ⟨⟨user.id, hreadyₑ.actsFor, hreadyₑ.channel⟩, fun _ => trivial⟩

/-- **Every connection obeys the rule.** -/
theorem handleSocket_obeys (F : Formats) (socket : Socket) :
    Obedient F socket [] (handleSocket F socket) := by
  have hrefuse : ∀ (past : Heard) reason, Obedient F socket past (refuse reason) :=
    fun _ _ => ⟨trivial, fun _ => trivial⟩
  unfold handleSocket
  split
  · rename_i json frames hframes
    split
    · rename_i auth hauth
      refine ⟨trivial, fun user => ?_⟩
      rcases user with e | user | user
      · exact hrefuse _ _
      · exact hrefuse _ _
      · have htoken : socket.token = some auth.token := by
          rw [Socket.token, hframes]
          exact congrArg (Option.map WsAuthMessage.token) hauth
        have hacts : Heard.ActsAs socket
            (History.seen [] (.findUserBySession auth.token) (.ok (some user))) user :=
          ⟨auth.token, htoken, History.told_seen _ _ _⟩
        refine ⟨trivial, fun _ => ⟨trivial, fun _ => ⟨⟨user, ?_, rfl⟩, fun used => ⟨trivial, ?_⟩⟩⟩⟩
        · exact hacts.seen.seen
        · intro sent
          cases sent with
          | false => exact trivial
          | true => exact obedient_serveSession hacts.seen.seen.seen.seen
    · exact hrefuse _ _
  · exact hrefuse _ _

end Handlers
end Winkd.Server
