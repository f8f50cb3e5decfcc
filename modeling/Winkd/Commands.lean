import Winkd.Router

/-!
# What the handlers come to

Most points of a command are commonplace: it looks something up, it changes a row of its
own user, it sends an event that shows nobody's presence (`RelayOp.Common`).  The others
are few: a request is created, an answer is given, a user is blocked, presence is
broadcast, a message is forwarded.  Each handler comes to commonplace points and to its
own (`asks_…`, for any predicate on the points that these satisfy).
-/

namespace Winkd.Server

/-! ## What an event shows -/

/-- The Winkd IDs of those whose presence an event shows: of the user of a `presence`
event, of the contacts of a `contacts_snapshot` that do not look offline. -/
def Json.shows (j : Json) : List Text :=
  if j.getStr "event" = some "presence".toList then
    ((j.get "payload").bind (Json.getStr "user_id")).toList
  else if j.getStr "event" = some "contacts_snapshot".toList then
    match (j.get "payload").bind (Json.get "contacts") with
    | some (.arr contacts) => contacts.filterMap fun c =>
        if c.getStr "status" = some "offline".toList then none else c.getStr "winkd_id"
    | _ => []
  else []

/-- Only two events show presence. -/
theorem shows_eq_nil {j : Json} {name : String} (hj : j.getStr "event" = some name.toList)
    (hp : name ≠ "presence") (hs : name ≠ "contacts_snapshot") : j.shows = [] := by
  have hne : ∀ other : String, name ≠ other → j.getStr "event" ≠ some other.toList := by
    intro other ho h
    exact ho (String.toList_injective (Option.some.inj (hj.symm.trans h)))
  rw [Json.shows, if_neg (hne _ hp), if_neg (hne _ hs)]

theorem getStr_event (name : String) (payload : List (String × Json)) :
    (Json.event name payload).getStr "event" = some name.toList := rfl

theorem shows_event {name : String} (hp : name ≠ "presence") (hs : name ≠ "contacts_snapshot")
    (payload : List (String × Json)) : (Json.event name payload).shows = [] :=
  shows_eq_nil (getStr_event name payload) hp hs

theorem shows_message (payload : Json) : (messageEvent payload).shows = [] := by
  have hevent : (messageEvent payload).getStr "event" = some "message".toList := rfl
  exact shows_eq_nil hevent (by decide) (by decide)

/-! ## Commonplace points -/

/-- The points that are nothing special in a command of user `u`. -/
def RelayOp.Common (u : Id) : RelayOp → Prop
  | .utcNow => True
  | .clientsGet _ => True
  | .findUserByWinkdId _ => True
  | .findUserById _ => True
  | .countRoster a => a = u
  | .isBlockedBetween a _ => a = u
  | .listPendingInbound a => a = u
  | .listBlockedUsers a => a = u
  | .updateUserMood a _ => a = u
  | .updateUserDisplayName a _ _ _ => a = u
  | .updateUserAvatar a _ => a = u
  | .updateUserProfileStyle a _ _ => a = u
  | .presenceGet a => a = u
  | .send _ item => item.label = .other ∧ item.text.shows = []
  | _ => False

/-- A property of programs that goes through the handlers of user `u`. -/
structure Compositional (u : Id) (W : (α : Type) → RelayProg α → Prop) : Prop where
  pure : ∀ {α : Type} (a : α), W α (pure a)
  bind : ∀ {α β : Type} {p : RelayProg α} {f : α → RelayProg β},
    W α p → (∀ a, W β (f a)) → W β (p >>= f)
  common : ∀ r : RelayOp, r.Common u → W r.Reply (await r)

/-- Coming only to certain points is compositional, when the commonplace are among them. -/
theorem asks_compositional {u : Id} {P : RelayOp → Prop} (hP : ∀ r, r.Common u → P r) :
    Compositional u fun _ p => p.Asks P where
  pure a := Prog.asks_pure a
  bind hp hf := Prog.asks_bind hp hf
  common r hr := Prog.asks_ask (hP r hr)

section Handlers
variable {F : Formats} {W : (α : Type) → RelayProg α → Prop} {user : Member}
variable (hW : Compositional user.id W)
include hW

theorem through_push (tx : ℕ) {text : Json} (ht : text.shows = []) : W Unit (push tx text) :=
  hW.bind (hW.common (.send tx ⟨text, .other⟩) ⟨rfl, ht⟩) fun _ => hW.pure ()

theorem through_sendErr (tx : ℕ) (message : Text) : W Unit (sendErr tx message) :=
  through_push hW tx (shows_event (by decide) (by decide) _)

theorem through_notify (userId : Id) {text : Json} (ht : text.shows = []) :
    W Unit (notify userId text) := by
  refine hW.bind (hW.common (.clientsGet userId) trivial) fun session => ?_
  cases session with
  | none => exact hW.pure ()
  | some session => exact through_push hW session.sender ht

/-- Whom a broadcast tells, and what. -/
theorem through_broadcastPresence (status : Text)
    (hlist : W _ (await (.listAcceptedContactUserIds user.id)))
    (hsend : ∀ ids, W _ (await (.sendToAll ids ⟨.event "presence"
      [("user_id", .str user.winkdId), ("status", .str status)], .other⟩))) :
    W Unit (broadcastPresenceToContacts user status) := by
  refine hW.bind hlist fun contactIds => ?_
  cases contactIds with
  | error e => exact hW.pure ()
  | ok contactIds =>
    cases contactIds with
    | nil => exact hW.pure ()
    | cons c contactIds => exact hsend _

/-! ## Contacts -/

theorem through_requestContact (tx : ℕ) (targetId : Text) (target : Member)
    (hcreate : W _ (await (.createContactRequest user.id target.id))) :
    W Unit (requestContact F user tx targetId target) := by
  refine hW.bind hcreate fun req => ?_
  cases req with
  | error e => exact through_sendErr hW tx _
  | ok req =>
    refine hW.bind (through_push hW tx (shows_event (by decide) (by decide) _)) fun _ => ?_
    exact through_notify hW target.id (shows_event (by decide) (by decide) _)

theorem through_addTarget (tx : ℕ) (targetId : Text)
    (hcreate : ∀ t, W _ (await (.createContactRequest user.id t))) :
    W Unit (addTarget F user tx targetId) := by
  refine hW.bind (hW.common (.findUserByWinkdId targetId) trivial) fun target => ?_
  rcases target with e | target | target
  · exact through_sendErr hW tx _
  · exact through_sendErr hW tx _
  · refine hW.bind (hW.common (.isBlockedBetween user.id target.id) rfl) fun blocked => ?_
    rcases blocked with e | blocked | blocked
    · exact through_sendErr hW tx _
    · exact through_requestContact hW tx targetId target (hcreate target.id)
    · exact through_sendErr hW tx _

/-- What comes before the target is looked up is commonplace. -/
theorem through_addContact (tx : ℕ) (payload : Json)
    (htarget : ∀ targetId, W Unit (addTarget F user tx targetId)) :
    W Unit (addContact F user tx payload) := by
  unfold addContact
  split
  · exact through_sendErr hW tx _
  · split
    · exact through_sendErr hW tx _
    · refine hW.bind (hW.common .utcNow trivial) fun now => ?_
      split
      · exact htarget _
      · refine hW.bind (hW.common (.countRoster user.id) rfl) fun n => ?_
        cases n with
        | error e => exact through_sendErr hW tx _
        | ok n =>
          dsimp only
          split
          · exact hW.bind (hW.common .utcNow trivial) fun _ => through_sendErr hW tx _
          · exact htarget _

theorem through_withId (tx : ℕ) (payload : Json) (field message : String) {k : Id → RelayProg Unit}
    (hk : ∀ id, (payload.getStr field).bind F.parseUuid = some id → W Unit (k id)) :
    W Unit (withId F tx payload field message k) := by
  unfold withId
  split
  · exact hW.pure ()
  · rename_i t ht
    split
    · exact through_sendErr hW tx _
    · rename_i id hid
      exact hk id (by rw [ht]; exact hid)

theorem through_acceptContact (tx : ℕ) (payload : Json)
    (haccept : ∀ id, (payload.getStr "request_id").bind F.parseUuid = some id →
      W _ (await (.acceptContactRequest id user.id))) :
    W Unit (acceptContact F user tx payload) := by
  refine through_withId hW tx payload _ _ fun requestId hid => ?_
  refine hW.bind (haccept requestId hid) fun req => ?_
  cases req with
  | error e => exact through_sendErr hW tx _
  | ok req =>
    refine hW.bind (hW.common (.findUserById req.fromId) trivial) fun requester => ?_
    rcases requester with e | requester | requester
    · exact hW.pure ()
    · exact hW.pure ()
    · refine hW.bind (through_push hW tx (shows_event (by decide) (by decide) _)) fun _ => ?_
      exact through_notify hW requester.id (shows_event (by decide) (by decide) _)

theorem through_rejectContact (tx : ℕ) (payload : Json)
    (hreject : ∀ id, W _ (await (.rejectContactRequest id user.id))) :
    W Unit (rejectContact F user tx payload) := by
  refine through_withId hW tx payload _ _ fun requestId _ => ?_
  refine hW.bind (hreject requestId) fun req => ?_
  cases req with
  | error e => exact through_sendErr hW tx _
  | ok req => exact through_push hW tx (shows_event (by decide) (by decide) _)

/-- A block is created, and then the requests between the two are cleared. -/
theorem through_block (tx : ℕ) (fields : List (String × Json)) (blockedId : Id)
    (winkdId displayName : Text) (avatarData : Option Text)
    (hcreate : W _ (await (.createBlock user.id blockedId)))
    (hclear : W _ (await (.clearPendingContactRequestsBetween user.id blockedId))) :
    W Unit (block F user tx fields blockedId winkdId displayName avatarData) := by
  refine hW.bind hcreate fun created => ?_
  cases created with
  | error e => exact through_sendErr hW tx _
  | ok _ =>
    refine hW.bind hclear fun _ => hW.bind (hW.common .utcNow trivial) fun _ => ?_
    exact through_push hW tx (shows_event (by decide) (by decide) _)

/-- What comes before the block is commonplace. -/
theorem through_blockContact (tx : ℕ) (payload : Json)
    (hblock : ∀ fields id winkdId displayName avatarData,
      W Unit (block F user tx fields id winkdId displayName avatarData)) :
    W Unit (blockContact F user tx payload) := by
  refine through_withId hW tx payload _ _ fun requestId _ => ?_
  refine hW.bind (hW.common (.listPendingInbound user.id) rfl) fun pending => ?_
  cases pending with
  | error e => exact through_sendErr hW tx _
  | ok pending =>
    dsimp only
    split
    · exact through_sendErr hW tx _
    · exact hblock _ _ _ _ _

theorem through_blockUser (tx : ℕ) (payload : Json)
    (hblock : ∀ fields id winkdId displayName avatarData,
      W Unit (block F user tx fields id winkdId displayName avatarData)) :
    W Unit (blockUser F user tx payload) := by
  unfold blockUser
  split
  · exact hW.pure ()
  · split
    · exact through_sendErr hW tx _
    · refine hW.bind (hW.common (.findUserByWinkdId _) trivial) fun target => ?_
      rcases target with e | target | target
      · exact through_sendErr hW tx _
      · exact through_sendErr hW tx _
      · exact hblock _ _ _ _ _

theorem through_unblockContact (tx : ℕ) (payload : Json)
    (hremove : ∀ id, W _ (await (.removeBlock user.id id))) :
    W Unit (unblockContact F user tx payload) := by
  refine through_withId hW tx payload _ _ fun blockedId _ => ?_
  refine hW.bind (hremove blockedId) fun removed => ?_
  cases removed with
  | error e => exact through_sendErr hW tx _
  | ok _ => exact through_push hW tx (shows_event (by decide) (by decide) _)

theorem through_listBlocked (tx : ℕ) : W Unit (listBlocked F user tx) := by
  refine hW.bind (hW.common (.listBlockedUsers user.id) rfl) fun users => ?_
  cases users with
  | error e => exact through_sendErr hW tx _
  | ok users => exact through_push hW tx (shows_event (by decide) (by decide) _)

/-! ## The profile -/

theorem through_updatePresence (f : PresenceEntry → PresenceEntry)
    (hset : ∀ entry, W _ (await (.presenceSet user.id entry))) : W Unit (updatePresence user f) := by
  refine hW.bind (hW.common (.presenceGet user.id) rfl) fun entry => ?_
  cases entry with
  | none => exact hW.pure ()
  | some entry => exact hset _

theorem through_setMood (payload : Json) (hset : ∀ entry, W _ (await (.presenceSet user.id entry))) :
    W Unit (setMood user payload) := by
  unfold setMood
  split
  · exact hW.pure ()
  · exact hW.bind (hW.common (.updateUserMood user.id _) rfl) fun _ => through_updatePresence hW _ hset

theorem through_setDisplayName (payload : Json) : W Unit (setDisplayName user payload) := by
  unfold setDisplayName
  split
  · exact hW.pure ()
  · exact hW.bind (hW.common (.updateUserDisplayName user.id _ _ _) rfl) fun _ => hW.pure ()

theorem through_setAvatar (payload : Json) : W Unit (setAvatar user payload) :=
  hW.bind (hW.common (.updateUserAvatar user.id _) rfl) fun _ => hW.pure ()

theorem through_setProfileStyle (payload : Json) : W Unit (setProfileStyle user payload) :=
  hW.bind (hW.common (.updateUserProfileStyle user.id _ _) rfl) fun _ => hW.pure ()

theorem through_setStatus (payload : Json) (hset : ∀ entry, W _ (await (.presenceSet user.id entry)))
    (hbroadcast : ∀ status, W Unit (broadcastPresenceToContacts user status)) :
    W Unit (setStatus user payload) := by
  unfold setStatus
  split
  · exact hW.pure ()
  · exact hW.bind (through_updatePresence hW _ hset) fun _ => hbroadcast _

/-! ## Messages -/

theorem through_deliver (tx : ℕ) (w : Text) (m : Relayed) (payload : Json)
    (hsend : ∀ c p l, l = .live m ∨ l = .echo m → W _ (await (.send c ⟨messageEvent p, l⟩)))
    (hqueue : ∀ id p, W _ (await (.queuePendingMessage m id p))) : W Unit (deliver user tx w m payload) := by
  have hecho : ∀ b : Bool, W Unit (do
      let _ ← await (.send tx ⟨messageEvent (senderPayload user w payload b), .echo m⟩)
      pure ()) := fun b => hW.bind (hsend _ _ _ (.inr rfl)) fun _ => hW.pure ()
  have hlive : ∀ b : Bool, W Unit (do
      queueUnless b m (payload.getStr "id") (forwardedPayload user payload)
      let _ ← await (.send tx ⟨messageEvent (senderPayload user w payload b), .echo m⟩)
      pure ()) := by
    intro b
    refine hW.bind ?_ fun _ => hecho b
    cases b with
    | true => exact hW.pure ()
    | false => exact hW.bind (hqueue _ _) fun _ => hW.pure ()
  refine hW.bind (hW.common (.clientsGet m.recipientId) trivial) fun session => ?_
  refine hW.bind ?_ hlive
  cases session with
  | none => exact hW.pure false
  | some session => exact hsend _ _ _ (.inl rfl)

/-- What comes before the message is accepted is commonplace. -/
theorem through_relayMessage (tx serial : ℕ) (payload : Json)
    (hdeliver : ∀ w id, W Unit (deliver user tx w ⟨serial, user.id, id⟩ payload)) :
    W Unit (relayMessage user tx serial payload) := by
  refine hW.bind (hW.common .utcNow trivial) fun now => ?_
  dsimp only
  split
  · exact through_sendErr hW tx _
  · split
    · exact hW.pure ()
    · refine hW.bind (hW.common (.findUserByWinkdId _) trivial) fun recipient => ?_
      rcases recipient with e | recipient | recipient
      · exact through_sendErr hW tx _
      · exact through_sendErr hW tx _
      · refine hW.bind (hW.common (.isBlockedBetween user.id recipient.id) rfl) fun blocked => ?_
        rcases blocked with e | blocked | blocked
        · exact through_sendErr hW tx _
        · exact hdeliver _ _
        · exact through_sendErr hW tx _

/-- What goes through the special points of the commands and through adding a contact goes
through every command. -/
theorem through_command (tx serial : ℕ) (cmd : ClientCommand)
    (hadd : ∀ payload, W Unit (addContact F user tx payload))
    (haccept : ∀ id, cmd.command = .acceptContact →
      (cmd.payload.getStr "request_id").bind F.parseUuid = some id →
      W _ (await (.acceptContactRequest id user.id)))
    (hreject : ∀ id, W _ (await (.rejectContactRequest id user.id)))
    (hblock : ∀ fields id winkdId displayName avatarData,
      W Unit (block F user tx fields id winkdId displayName avatarData))
    (hunblock : ∀ id, W _ (await (.removeBlock user.id id)))
    (hset : ∀ entry, W _ (await (.presenceSet user.id entry)))
    (hbroadcast : ∀ status, W Unit (broadcastPresenceToContacts user status))
    (hrelay : ∀ payload, W Unit (relayMessage user tx serial payload)) :
    W Unit (handleCommand F user tx serial cmd) := by
  obtain ⟨command, payload⟩ := cmd
  cases command with
  | addContact => exact hadd payload
  | acceptContact => exact through_acceptContact hW tx payload fun id hid => haccept id rfl hid
  | rejectContact => exact through_rejectContact hW tx payload hreject
  | blockContact => exact through_blockContact hW tx payload hblock
  | blockUser => exact through_blockUser hW tx payload hblock
  | unblockContact => exact through_unblockContact hW tx payload hunblock
  | listBlocked => exact through_listBlocked hW tx
  | setMood => exact through_setMood hW payload hset
  | setDisplayName => exact through_setDisplayName hW payload
  | setAvatar => exact through_setAvatar hW payload
  | setProfileStyle => exact through_setProfileStyle hW payload
  | setStatus => exact through_setStatus hW payload hset hbroadcast
  | sendMessage => exact hrelay payload
  | sendWinkd => exact hrelay payload
  | sendNudge => exact hrelay payload
  | sendWink => exact hrelay payload
  | typingStart => exact hW.pure ()
  | typingStop => exact hW.pure ()

/-- **What goes through the special points of the commands goes through every command.** -/
theorem through_handleCommand (tx serial : ℕ) (cmd : ClientCommand)
    (hadd : ∀ targetId, W Unit (addTarget F user tx targetId))
    (haccept : ∀ id, cmd.command = .acceptContact →
      (cmd.payload.getStr "request_id").bind F.parseUuid = some id →
      W _ (await (.acceptContactRequest id user.id)))
    (hreject : ∀ id, W _ (await (.rejectContactRequest id user.id)))
    (hblock : ∀ fields id winkdId displayName avatarData,
      W Unit (block F user tx fields id winkdId displayName avatarData))
    (hunblock : ∀ id, W _ (await (.removeBlock user.id id)))
    (hset : ∀ entry, W _ (await (.presenceSet user.id entry)))
    (hbroadcast : ∀ status, W Unit (broadcastPresenceToContacts user status))
    (hrelay : ∀ payload, W Unit (relayMessage user tx serial payload)) :
    W Unit (handleCommand F user tx serial cmd) :=
  through_command hW tx serial cmd (fun payload => through_addContact hW tx payload hadd) haccept
    hreject hblock hunblock hset hbroadcast hrelay

/-! ## Setting up -/

theorem through_rosterPayload (contacts : List ContactRosterEntry)
    (hget : ∀ id, W _ (await (.presenceGet id))) : W _ (rosterPayload contacts) := by
  induction contacts with
  | nil => exact hW.pure []
  | cons c contacts ih => exact hW.bind (hget c.userId) fun _ => hW.bind ih fun _ => hW.pure _

theorem through_flushRoster (tx : ℕ) (hlist : W _ (await (.listContactRoster user.id)))
    (hget : ∀ id, W _ (await (.presenceGet id)))
    (hpush : ∀ payload, W Unit (push tx (.event "contacts_snapshot" [("contacts", .arr payload)]))) :
    W Unit (flushRoster user tx) := by
  refine hW.bind hlist fun contacts => ?_
  cases contacts with
  | error e => exact hW.pure ()
  | ok contacts => exact hW.bind (through_rosterPayload hW contacts hget) hpush

theorem through_pushRequests (tx : ℕ) (pending : List PendingContactRequest) :
    W Unit (pushRequests F tx pending) := by
  induction pending with
  | nil => exact hW.pure ()
  | cons req pending ih =>
    exact hW.bind (through_push hW tx (shows_event (by decide) (by decide) _)) fun _ => ih

theorem through_flushPendingInbound (tx : ℕ) : W Unit (flushPendingInbound F user tx) := by
  refine hW.bind (hW.common (.listPendingInbound user.id) rfl) fun pending => ?_
  cases pending with
  | error e => exact hW.pure ()
  | ok pending => exact through_pushRequests hW tx pending

theorem through_sendReceipt (senderId : Id) (payload : Json) :
    W Unit (sendReceipt user senderId payload) := by
  unfold sendReceipt
  split
  · exact through_notify hW senderId (shows_event (by decide) (by decide) _)
  · exact hW.pure ()

theorem through_pushQueued (tx : ℕ) (hsend : ∀ msg : PendingMessageDelivery, W _ (await (.send tx
      ⟨messageEvent msg.payload, .queued ⟨msg.serial, msg.senderId, user.id⟩⟩)))
    (queued : List PendingMessageDelivery) : W Unit (pushQueued user tx queued) := by
  induction queued with
  | nil => exact hW.pure ()
  | cons msg queued ih =>
    refine hW.bind (hsend msg) fun _ => ?_
    exact hW.bind (through_sendReceipt hW msg.senderId msg.payload) fun _ => ih

theorem through_flushQueued (tx : ℕ) (hdrain : W _ (await (.drainPendingMessages user.id)))
    (hsend : ∀ msg : PendingMessageDelivery, W _ (await (.send tx
      ⟨messageEvent msg.payload, .queued ⟨msg.serial, msg.senderId, user.id⟩⟩))) :
    W Unit (flushQueued user tx) := by
  refine hW.bind hdrain fun queued => ?_
  cases queued with
  | error e => exact hW.pure ()
  | ok queued => exact through_pushQueued hW tx hsend queued

theorem through_receiveLoop (tx : ℕ) (hnext : W _ (await .nextFrame)) (frames : List Frame)
    (hcommand : ∀ json, Frame.text json ∈ frames → ∀ cmd ∈ json.bind ClientCommand.ofJson, ∀ serial,
      W Unit (handleCommand F user tx serial cmd)) : W Unit (receiveLoop F user tx frames) := by
  induction frames with
  | nil => exact hW.bind hnext fun _ => hW.pure ()
  | cons frame frames ih =>
    have hrest := ih fun json hmem => hcommand json (List.mem_cons_of_mem _ hmem)
    cases frame with
    | close => exact hW.bind hnext fun _ => hW.pure ()
    | other => exact hW.bind hnext fun _ => hrest
    | text json =>
      refine hW.bind hnext fun serial => ?_
      split
      · rename_i cmd hcmd
        exact hW.bind (hcommand json List.mem_cons_self cmd hcmd serial) fun _ => hrest
      · exact hrest

theorem through_disconnect (sessionId : Id) (hremove : W _ (await (.clientsRemove user.id sessionId)))
    (hpresence : W _ (await (.presenceRemove user.id)))
    (hbroadcast : W Unit (broadcastPresenceToContacts user "offline".toList)) :
    W Unit (disconnect user sessionId) := by
  refine hW.bind hremove fun active => ?_
  cases active with
  | false => exact hW.pure ()
  | true => exact hW.bind hpresence fun _ => hbroadcast

end Handlers

end Winkd.Server
