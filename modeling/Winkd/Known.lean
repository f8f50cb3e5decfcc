import Winkd.Custody
import Winkd.Contacts

/-!
# What a connection has been told

A handler acts on what it was told: that there is no block, who the accepted contacts are,
what the roster is and who in it does not look offline, what was queued.  `Known` is read
off the replies.  A connection forgets what it was told of the contacts when it changes
them, and when it waits for a frame; who its user is it keeps in mind
(`handleSocket_minds`).
-/

namespace Winkd.Server

/-- What a connection has been told. -/
structure Known where
  /-- Its user, with the Winkd ID. -/
  user : Option (Id × Text)
  channel : Option ℕ
  /-- Two users between whom there is no block. -/
  unblocked : Option (Id × Id)
  /-- The drained messages that it has not pushed yet. -/
  held : List Relayed
  /-- The accepted contacts of its user. -/
  contacts : List Id
  roster : List ContactRosterEntry
  /-- Those who did not look offline, since it got the roster. -/
  live : List Id

/-- Whose session a lookup has found. -/
def authenticates : (r : RelayOp) → r.Reply → Option Member
  | .findUserBySession _ => fun user => (user.toOption.getD none)
  | _ => fun _ => none

namespace Known

/-- What a connection starts with. -/
def none : Known := ⟨.none, .none, .none, [], [], [], []⟩

/-- It has only its user in mind, and its channel. -/
def forget (d : Known) : Known :=
  { d with unblocked := .none, held := [], contacts := [], roster := [], live := [] }

/-- It acts for this user. -/
def ActsFor (d : Known) (u : Id) : Prop := ∃ w, d.user = some (u, w)

/-- What a connection may do. -/
def may (d : Known) : RelayOp → Prop
  | .findUserBySession _ => d.user = .none
  | .unboundedChannel u => d.ActsFor u
  | .listAcceptedContactUserIds u => d.ActsFor u
  | .listContactRoster u => d.ActsFor u
  | .acceptContactRequest _ t => d.ActsFor t
  | .createContactRequest f t => d.unblocked = some (f, t)
  | .send c item =>
      (match item.label with
        | .live m => d.unblocked = some (m.senderId, m.recipientId)
        | .queued m => d.held.head? = some m
        | _ => True) ∧
      ∀ w ∈ item.text.shows, d.channel = some c ∧ ∃ e ∈ d.roster, e.winkdId = w ∧ e.userId ∈ d.live
  | .sendToAll ids item =>
      item.label = .other ∧ ids = d.contacts ∧ ∀ w ∈ item.text.shows, ∃ u, d.user = some (u, w)
  | _ => True

/-- What a reply makes of it. -/
def seen (d : Known) : (r : RelayOp) → r.Reply → Known
  | .findUserBySession _ => fun user =>
      { none with user := (user.toOption.getD .none).map fun m => (m.id, m.winkdId) }
  | .unboundedChannel _ => fun c => { d with channel := some c }
  | .isBlockedBetween a b => fun blocked =>
      { d with unblocked := if blocked.toOption = some false then some (a, b) else .none }
  | .drainPendingMessages u => fun rows =>
      { d with held := (rows.toOption.getD []).map (PendingMessageDelivery.relayed u) }
  | .send _ item => fun _ =>
      match item.label with
      | .queued _ => { d with held := d.held.tail }
      | _ => d
  | .listAcceptedContactUserIds _ => fun ids => { d with contacts := ids.toOption.getD [] }
  | .listContactRoster _ => fun roster => { d with roster := roster.toOption.getD [], live := [] }
  | .presenceGet u => fun entry =>
      if shownStatus entry = "offline" then d else { d with live := u :: d.live }
  | .nextFrame => fun _ => d.forget
  | .presenceSet _ _ => fun _ => d.forget
  | .presenceRemove _ => fun _ => d.forget
  | .createContactRequest _ _ => fun _ => d.forget
  | .acceptContactRequest _ _ => fun _ => d.forget
  | .rejectContactRequest _ _ => fun _ => d.forget
  | .clearPendingContactRequestsBetween _ _ => fun _ => d.forget
  | .createBlock _ _ => fun _ => d.forget
  | .removeBlock _ _ => fun _ => d.forget
  | _ => fun _ => d

/-- The same user and channel. -/
structure Same (d d' : Known) : Prop where
  user : d'.user = d.user
  channel : d'.channel = d.channel

theorem Same.refl (d : Known) : Same d d := ⟨rfl, rfl⟩

theorem Same.trans {a b c : Known} (h : Same a b) (h' : Same b c) : Same a c :=
  ⟨h'.user.trans h.user, h'.channel.trans h.channel⟩

/-- The same messages to push, too. -/
structure SameHeld (d d' : Known) : Prop extends Same d d' where
  held : d'.held = d.held

theorem SameHeld.refl (d : Known) : SameHeld d d := ⟨.refl d, rfl⟩

theorem SameHeld.trans {a b c : Known} (h : SameHeld a b) (h' : SameHeld b c) : SameHeld a c :=
  ⟨h.toSame.trans h'.toSame, h'.held.trans h.held⟩

/-- A commonplace point may always be come to. -/
theorem common_step (d : Known) {u : Id} {r : RelayOp} (hr : r.Common u) :
    d.may r ∧ ∀ x, SameHeld d (d.seen r x) := by
  cases r with
  | isBlockedBetween a b => exact ⟨trivial, fun _ => ⟨⟨rfl, rfl⟩, rfl⟩⟩
  | presenceGet u =>
    refine ⟨trivial, fun entry => ?_⟩
    simp only [seen]
    split <;> exact ⟨⟨rfl, rfl⟩, rfl⟩
  | send c item =>
    obtain ⟨text, label⟩ := item
    obtain ⟨rfl, hshows⟩ := hr
    exact ⟨⟨trivial, fun w hw => absurd (hshows ▸ hw) List.not_mem_nil⟩, fun _ => .refl d⟩
  | _ => first | exact False.elim hr | exact ⟨trivial, fun _ => .refl d⟩

end Known

/-! ## The connections keep to it -/

/-- The connection goes along, from `d`, to a point where `Q` holds. -/
abbrev Minds {α : Type} (d : Known) (Q : Known → α → Prop) (p : RelayProg α) : Prop :=
  p.Along Known.may Known.seen Q d

theorem minds_bind {α β : Type} {d : Known} {M : Known → α → Prop} {Q : Known → β → Prop}
    {p : RelayProg α} {f : α → RelayProg β} (hp : Minds d M p)
    (hf : ∀ d' a, M d' a → Minds d' Q (f a)) : Minds d Q (p >>= f) :=
  (Prog.along_bind p f).mpr (hp.mono (fun _ _ h => h) hf)

/-- What it comes back to, counted from an earlier point. -/
theorem minds_from {α : Type} {d d₁ : Known} {p : RelayProg α} (h : d.Same d₁)
    (hp : Minds d₁ (fun d' _ => d₁.Same d') p) : Minds d₁ (fun d' _ => d.Same d') p :=
  hp.mono (fun _ _ h => h) fun _ _ h' => h.trans h'

/-- From where its user is known, a program comes back to that. -/
theorem minds_compositional (user : Member) : Compositional user.id fun _ p =>
    ∀ d : Known, d.user = some (user.id, user.winkdId) → Minds d (fun d' _ => d.Same d') p where
  pure _ d _ := .refl d
  bind hp hf d hd := minds_bind (hp d hd) fun d' a h =>
    (hf a d' (h.user.trans hd)).mono (fun _ _ h => h) fun _ _ h' => h.trans h'
  common _ hr d _ := ⟨(Known.common_step d hr).1, fun x => ((Known.common_step d hr).2 x).toSame⟩

section Handlers
variable {F : Formats} {user : Member}

theorem shows_presence (w status : Text) :
    (Json.event "presence" [("user_id", .str w), ("status", .str status)]).shows = [w] := rfl

theorem minds_broadcastPresence (status : Text) {d : Known}
    (hd : d.user = some (user.id, user.winkdId)) :
    Minds d (fun d' _ => d.Same d') (broadcastPresenceToContacts user status) := by
  refine ⟨⟨user.winkdId, hd⟩, ?_⟩
  intro ids
  rcases ids with e | ⟨_ | ⟨id, ids⟩⟩
  · exact ⟨rfl, rfl⟩
  · exact ⟨rfl, rfl⟩
  · refine ⟨⟨rfl, rfl, fun w hw => ⟨user.id, ?_⟩⟩, fun _ => ⟨rfl, rfl⟩⟩
    rw [shows_presence, List.mem_singleton] at hw
    rw [hw]
    exact hd

/-- A request is created where there is no block. -/
theorem minds_addTarget (tx : ℕ) (targetId : Text) {d : Known}
    (hd : d.user = some (user.id, user.winkdId)) :
    Minds d (fun d' _ => d.Same d') (addTarget F user tx targetId) := by
  have hW := minds_compositional user
  refine ⟨trivial, ?_⟩
  intro target
  rcases target with e | target | target
  · exact through_sendErr hW tx _ d hd
  · exact through_sendErr hW tx _ d hd
  · refine ⟨trivial, ?_⟩
    intro blocked
    rcases blocked with e | blocked | blocked
    · exact minds_from ⟨rfl, rfl⟩ (through_sendErr hW tx _ _ hd)
    · refine ⟨rfl, ?_⟩
      intro req
      cases req with
      | error e => exact minds_from ⟨rfl, rfl⟩ (through_sendErr hW tx _ _ hd)
      | ok req =>
        refine minds_from ⟨rfl, rfl⟩ (hW.bind (through_push hW tx ?_) (fun _ => ?_) _ hd)
        · exact shows_event (by decide) (by decide) _
        · exact through_notify hW target.id (shows_event (by decide) (by decide) _)
    · exact minds_from ⟨rfl, rfl⟩ (through_sendErr hW tx _ _ hd)

/-- A message is forwarded live where there is no block. -/
theorem minds_deliver (tx : ℕ) (w : Text) (m : Relayed) (payload : Json) {d : Known}
    (hd : d.unblocked = some (m.senderId, m.recipientId)) :
    Minds d (fun d' _ => d.Same d') (deliver user tx w m payload) := by
  have hshows : ∀ p, ∀ v ∈ (messageEvent p).shows, False := by
    intro p v hv
    rw [shows_message] at hv
    cases hv
  have hecho : ∀ b : Bool, Minds d (fun d' _ => d.Same d') (do
      let _ ← await (.send tx ⟨messageEvent (senderPayload user w payload b), .echo m⟩)
      pure ()) := fun b => ⟨⟨trivial, fun v hv => (hshows _ v hv).elim⟩, fun _ => .refl d⟩
  have hqueue : ∀ b : Bool, Minds d (fun d' _ => d.Same d') (do
      queueUnless b m (payload.getStr "id") (forwardedPayload user payload)
      let _ ← await (.send tx ⟨messageEvent (senderPayload user w payload b), .echo m⟩)
      pure ()) := by
    intro b
    cases b with
    | true => exact hecho true
    | false => exact ⟨trivial, fun _ => hecho false⟩
  refine ⟨trivial, ?_⟩
  intro session
  cases session with
  | none => exact hqueue false
  | some session => exact ⟨⟨hd, fun v hv => (hshows _ v hv).elim⟩, hqueue⟩

theorem minds_relayMessage (tx serial : ℕ) (payload : Json) {d : Known}
    (hd : d.user = some (user.id, user.winkdId)) :
    Minds d (fun d' _ => d.Same d') (relayMessage user tx serial payload) := by
  have hW := minds_compositional user
  refine ⟨trivial, ?_⟩
  intro now
  dsimp only [Prog.bind]
  split
  · exact through_sendErr hW tx _ d hd
  · split
    · exact .refl d
    · refine ⟨trivial, ?_⟩
      intro recipient
      rcases recipient with e | recipient | recipient
      · exact through_sendErr hW tx _ d hd
      · exact through_sendErr hW tx _ d hd
      · refine ⟨trivial, ?_⟩
        intro blocked
        rcases blocked with e | blocked | blocked
        · exact minds_from ⟨rfl, rfl⟩ (through_sendErr hW tx _ _ hd)
        · exact minds_from ⟨rfl, rfl⟩ (minds_deliver tx _ _ payload rfl)
        · exact minds_from ⟨rfl, rfl⟩ (through_sendErr hW tx _ _ hd)

theorem minds_handleCommand (tx serial : ℕ) (cmd : ClientCommand) {d : Known}
    (hd : d.user = some (user.id, user.winkdId)) :
    Minds d (fun d' _ => d.Same d') (handleCommand F user tx serial cmd) := by
  have hW := minds_compositional user
  refine through_handleCommand hW tx serial cmd ?_ ?_ ?_ ?_ ?_ ?_ ?_ ?_ d hd
  · exact fun targetId d hd => minds_addTarget tx targetId hd
  · exact fun _ _ _ d hd => ⟨⟨_, hd⟩, fun _ => ⟨rfl, rfl⟩⟩
  · exact fun _ d _ => ⟨trivial, fun _ => ⟨rfl, rfl⟩⟩
  · intro fields id winkdId displayName avatarData
    refine through_block hW tx fields id winkdId displayName avatarData ?_ ?_
    · exact fun d _ => ⟨trivial, fun _ => ⟨rfl, rfl⟩⟩
    · exact fun d _ => ⟨trivial, fun _ => ⟨rfl, rfl⟩⟩
  · exact fun _ d _ => ⟨trivial, fun _ => ⟨rfl, rfl⟩⟩
  · exact fun _ d _ => ⟨trivial, fun _ => ⟨rfl, rfl⟩⟩
  · exact fun status d hd => minds_broadcastPresence status hd
  · exact fun payload d hd => minds_relayMessage tx serial payload hd

theorem minds_receiveLoop (tx : ℕ) (frames : List Frame) {d : Known}
    (hd : d.user = some (user.id, user.winkdId)) :
    Minds d (fun d' _ => d'.user = d.user) (receiveLoop F user tx frames) := by
  induction frames generalizing d with
  | nil => exact ⟨trivial, fun _ => rfl⟩
  | cons frame frames ih =>
    have hrest : ∀ d' : Known, d'.user = d.user →
        Minds d' (fun d' _ => d'.user = d.user) (receiveLoop F user tx frames) := fun d' h =>
      (ih (h.trans hd)).mono (fun _ _ h => h) fun _ _ h' => h'.trans h
    cases frame with
    | close => exact ⟨trivial, fun _ => rfl⟩
    | other => exact ⟨trivial, fun _ => hrest _ rfl⟩
    | text json =>
      refine ⟨trivial, ?_⟩
      intro serial
      dsimp only [Prog.bind]
      split
      · exact minds_bind (minds_handleCommand tx serial _ hd) fun d' _ h => hrest d' h.user
      · exact hrest _ rfl

/-! ## Setting up -/

/-- Whose presence a snapshot shows. -/
def shownIn (contacts : List Json) : List Text :=
  contacts.filterMap fun c =>
    if c.getStr "status" = some "offline".toList then none else c.getStr "winkd_id"

/-- The entry of the roster shows its contact, unless he looks offline. -/
theorem shownIn_cons (c : ContactRosterEntry) (entry : Option PresenceEntry) (rest : List Json) :
    shownIn (.obj [("winkd_id", .str c.winkdId), ("display_name", .str c.displayName),
        ("avatar_data", .ofText c.avatarData), ("mood_message", .str c.moodMessage),
        ("request_status", .ofString (if c.accepted then "accepted" else "pending_outbound")),
        ("status", .ofString (shownStatus entry))] :: rest) =
      (if shownStatus entry = "offline" then [] else [c.winkdId]) ++ shownIn rest := by
  have hstatus : some (shownStatus entry).toList = some "offline".toList ↔
      shownStatus entry = "offline" := by
    rw [Option.some_inj, String.toList_inj]
  by_cases h : shownStatus entry = "offline"
  · rw [if_pos h]
    exact List.filterMap_cons_none (if_pos (hstatus.mpr h))
  · rw [if_neg h]
    exact List.filterMap_cons_some (if_neg fun h' => h (hstatus.mp h'))

/-- What is shown of the roster is of those who did not look offline. -/
theorem minds_rosterPayload (contacts : List ContactRosterEntry) (d : Known) :
    Minds d (fun d' payload => d.Same d' ∧ d'.roster = d.roster ∧ (∀ u ∈ d.live, u ∈ d'.live) ∧
      ∀ w ∈ shownIn payload, ∃ e ∈ contacts, e.winkdId = w ∧ e.userId ∈ d'.live)
      (rosterPayload contacts) := by
  induction contacts generalizing d with
  | nil => exact ⟨.refl d, rfl, fun _ h => h, fun w hw => nomatch hw⟩
  | cons c contacts ih =>
    refine ⟨trivial, ?_⟩
    intro entry
    have hsame : d.Same (d.seen (.presenceGet c.userId) entry) :=
      (d.common_step (u := c.userId) (r := .presenceGet c.userId) rfl).2 entry |>.toSame
    show Minds (d.seen (.presenceGet c.userId) entry) _
      (rosterPayload contacts >>= fun rest => pure (_ :: rest))
    refine minds_bind (ih _) ?_
    rintro d' payload ⟨hsame', hroster, hlive, hshown⟩
    by_cases h : shownStatus entry = "offline"
    · have hseen : d.seen (.presenceGet c.userId) entry = d := if_pos h
      rw [hseen] at hsame' hroster hlive
      refine ⟨hsame', hroster, hlive, fun w hw => ?_⟩
      rw [shownIn_cons, if_pos h, List.nil_append] at hw
      obtain ⟨e, he, hew⟩ := hshown w hw
      exact ⟨e, List.mem_cons_of_mem _ he, hew⟩
    · have hseen : d.seen (.presenceGet c.userId) entry = { d with live := c.userId :: d.live } :=
        if_neg h
      rw [hseen] at hroster hlive
      refine ⟨hsame.trans hsame', hroster, fun u hu => hlive u (List.mem_cons_of_mem _ hu),
        fun w hw => ?_⟩
      rw [shownIn_cons, if_neg h, List.singleton_append] at hw
      rcases List.mem_cons.mp hw with rfl | hw
      · exact ⟨c, List.mem_cons_self, rfl, hlive c.userId List.mem_cons_self⟩
      · obtain ⟨e, he, hew⟩ := hshown w hw
        exact ⟨e, List.mem_cons_of_mem _ he, hew⟩

theorem minds_flushRoster (tx : ℕ) {d : Known} (hd : d.user = some (user.id, user.winkdId))
    (hc : d.channel = some tx) : Minds d (fun d' _ => d.Same d') (flushRoster user tx) := by
  refine ⟨⟨_, hd⟩, ?_⟩
  intro contacts
  cases contacts with
  | error e => exact ⟨rfl, rfl⟩
  | ok contacts =>
    show Minds { d with roster := contacts, live := [] } _ (rosterPayload contacts >>= fun payload =>
      push tx (.event "contacts_snapshot" [("contacts", .arr payload)]))
    refine minds_bind (minds_rosterPayload contacts _) ?_
    rintro d' payload ⟨hsame, hroster, -, hshown⟩
    have hsame : d.Same d' := ⟨hsame.user, hsame.channel⟩
    refine ⟨⟨trivial, fun w hw => ⟨hsame.channel.trans hc, ?_⟩⟩, fun _ => hsame⟩
    obtain ⟨e, he, hew⟩ := hshown w hw
    exact ⟨e, hroster.symm ▸ he, hew⟩

/-- A receipt is sent to the sender of a message, and the next is pushed. -/
theorem minds_sendReceipt (senderId : Id) (payload : Json) (d : Known) :
    Minds d (fun d' _ => d.SameHeld d') (sendReceipt user senderId payload) :=
  (through_sendReceipt (asks_compositional fun _ h => h) senderId payload).along Known.SameHeld.refl
    (fun _ _ _ => .trans) (fun d _ hr => d.common_step hr) d

/-- What was drained is pushed in its order. -/
theorem minds_pushQueued (tx : ℕ) (queued : List PendingMessageDelivery) {d : Known}
    (hd : d.user = some (user.id, user.winkdId))
    (hheld : d.held = queued.map (PendingMessageDelivery.relayed user.id)) :
    Minds d (fun d' _ => d'.user = d.user) (pushQueued user tx queued) := by
  induction queued generalizing d with
  | nil => rfl
  | cons msg queued ih =>
    refine ⟨⟨?_, fun w hw => ?_⟩, fun sent => ?_⟩
    · show d.held.head? = _
      rw [hheld]
      rfl
    · exact absurd hw (by rw [shows_message]; exact List.not_mem_nil)
    · show Minds { d with held := d.held.tail } _
        (sendReceipt user msg.senderId msg.payload >>= fun _ => pushQueued user tx queued)
      refine minds_bind (minds_sendReceipt _ _ _) fun d' _ h => ?_
      refine (ih (h.user.trans hd) ?_).mono (fun _ _ h => h) fun _ _ h' => h'.trans h.user
      rw [h.held]
      show d.held.tail = _
      rw [hheld]
      rfl

theorem minds_flushQueued (tx : ℕ) {d : Known} (hd : d.user = some (user.id, user.winkdId)) :
    Minds d (fun d' _ => d'.user = d.user) (flushQueued user tx) := by
  refine ⟨trivial, ?_⟩
  intro queued
  cases queued with
  | error e => rfl
  | ok queued =>
    let d' : Known := { d with held := queued.map (PendingMessageDelivery.relayed user.id) }
    exact minds_pushQueued tx queued (d := d') hd rfl

theorem minds_disconnect (sessionId : Id) {d : Known} (hd : d.user = some (user.id, user.winkdId)) :
    Minds d (fun _ _ => True) (disconnect user sessionId) := by
  refine ⟨trivial, ?_⟩
  intro active
  cases active with
  | false => trivial
  | true =>
    refine ⟨trivial, fun _ => ?_⟩
    exact (minds_broadcastPresence "offline".toList (d := d.forget) hd).mono (fun _ _ h => h)
      fun _ _ _ => trivial

/-- From its registration to its receive loop. -/
theorem minds_setUp (tx : ℕ) {d : Known} (hd : d.user = some (user.id, user.winkdId))
    (hc : d.channel = some tx) {α : Type} {Q : Known → α → Prop} {k : RelayProg α}
    (hk : ∀ d : Known, d.user = some (user.id, user.winkdId) → Minds d Q k) :
    Minds d Q (do
      broadcastPresenceToContacts user "online".toList
      flushRoster user tx
      flushPendingInbound F user tx
      flushQueued user tx
      await (.spawnSendTask tx)
      k) := by
  have hW := minds_compositional user
  refine minds_bind (minds_broadcastPresence "online".toList hd) fun d₁ _ h₁ => ?_
  have hd₁ := h₁.user.trans hd
  refine minds_bind (minds_flushRoster tx hd₁ (h₁.channel.trans hc)) fun d₂ _ h₂ => ?_
  have hd₂ := h₂.user.trans hd₁
  refine minds_bind (through_flushPendingInbound hW tx d₂ hd₂) fun d₃ _ h₃ => ?_
  have hd₃ := h₃.user.trans hd₂
  refine minds_bind (minds_flushQueued tx hd₃) fun d₄ _ h₄ => ?_
  exact ⟨trivial, fun _ => hk d₄ (h₄.trans hd₃)⟩

theorem minds_serveSession (frames : List Frame) {d : Known}
    (hd : d.user = some (user.id, user.winkdId)) :
    Minds d (fun _ _ => True) (serveSession F user frames) := by
  refine ⟨⟨_, hd⟩, fun tx => ⟨trivial, fun sessionId => ⟨trivial, fun _ => ⟨trivial, fun _ => ?_⟩⟩⟩⟩
  refine minds_setUp tx (d := ({ d with channel := some tx } : Known).forget) hd rfl fun d hd => ?_
  refine minds_bind (minds_receiveLoop tx frames hd) fun d' _ h => ?_
  refine minds_bind (minds_disconnect sessionId (h.trans hd)) fun _ _ _ => ?_
  exact ⟨trivial, fun _ => trivial⟩

/-- **A connection does what it does by what it has been told.** -/
theorem handleSocket_minds (socket : Socket) :
    Minds .none (fun _ _ => True) (handleSocket F socket) := by
  have hrefuse : ∀ (d : Known) reason, Minds d (fun _ _ => True) (refuse reason) :=
    fun _ _ => ⟨trivial, fun _ => trivial⟩
  unfold handleSocket
  split
  · split
    · refine ⟨rfl, ?_⟩
      intro user
      rcases user with e | user | user
      · exact hrefuse _ _
      · exact hrefuse _ _
      · refine ⟨trivial, fun _ => ⟨trivial, fun _ => ⟨trivial, fun _ => ⟨trivial, ?_⟩⟩⟩⟩
        intro sent
        cases sent with
        | false => trivial
        | true => exact minds_serveSession _ rfl
    · exact hrefuse _ _
  · exact hrefuse _ _

end Handlers

/-! ## In a run -/

namespace Relay

/-- What connection `i` has been told. -/
def known (s : Relay) (i : ℕ) : Known := Threads.Pool.learned Known.seen .none i s.trace

theorem known_own (s : Relay) (i : ℕ) (r : RelayOp) (k : r.Reply → RelayProg Unit) :
    (s.answered i r k).known i = (s.known i).seen r (serve r s.state).1 :=
  Threads.Pool.learned_own rfl _

theorem known_other (s : Relay) {i j : ℕ} (hij : i ≠ j) (r : RelayOp)
    (k : r.Reply → RelayProg Unit) : (s.answered i r k).known j = s.known j :=
  Threads.Pool.learned_other hij _

/-- The connection has authenticated with a session of the user. -/
def AuthenticatedAs (l : List RelayEntry) (i : ℕ) (u : Id) : Prop :=
  ∃ e ∈ l, e.task = i ∧ ∃ m, authenticates e.request e.reply = some m ∧ m.id = u

end Relay

theorem Known.seen_user (d : Known) (r : RelayOp) (x : r.Reply) :
    (d.seen r x).user = d.user ∨
      (d.seen r x).user = (authenticates r x).map fun m => (m.id, m.winkdId) := by
  cases r with
  | findUserBySession token => exact .inr rfl
  | send c item =>
    obtain ⟨text, label⟩ := item
    cases label <;> exact .inl rfl
  | presenceGet u =>
    simp only [seen]
    split <;> exact .inl rfl
  | _ => exact .inl rfl

namespace Relay
variable {F : Formats} {allowed : Relay → RelayEvent → Prop} {s₀ : AppState} {s : Relay}

/-- For whom a connection acts, it has authenticated. -/
theorem authenticated_of_known {i : ℕ} {l : List RelayEntry} {u : Id}
    (h : (Threads.Pool.learned Known.seen .none i l).ActsFor u) : AuthenticatedAs l i u := by
  obtain ⟨w, h⟩ := h
  induction l with
  | nil => cases h
  | cons e l ih =>
    have hrest : (Threads.Pool.learned Known.seen .none i l).user = some (u, w) →
        AuthenticatedAs (e :: l) i u := by
      intro h
      obtain ⟨e', he', hi⟩ := ih h
      exact ⟨e', List.mem_cons_of_mem _ he', hi⟩
    by_cases he : e.task = i
    · rw [Threads.Pool.learned_own he] at h
      rcases Known.seen_user _ e.request e.reply with heq | heq
      · exact hrest (heq.symm.trans h)
      · obtain ⟨m, hm, hmu⟩ := Option.map_eq_some_iff.mp (heq.symm.trans h)
        exact ⟨e, List.mem_cons_self, he, m, hm, (Prod.mk.inj hmu).1⟩
    · rw [Threads.Pool.learned_other he] at h
      exact hrest h

/-- The connections of a run act by what they have been told. -/
theorem minds (h : Transitions.Reaches (next F) allowed (Threads.Pool.idle s₀) s) :
    s.Follows Known.may Known.seen .none fun _ => True :=
  follows (fun socket => handleSocket_minds socket) h

/-- What handlers know that move alone: what each reply makes known is true, and what was
true the next step of the handler leaves so. -/
theorem knows {K : Known → AppState → Prop}
    (h : Transitions.Reaches (next F) allowed (Threads.Pool.idle s₀) s)
    (hturn : ∀ s e, allowed s e → s.InTurn e) (hnone : ∀ t, K .none t)
    (houtside : ∀ d t e, K d t → K d (t.outside e))
    (hstep : ∀ (s : Relay) i r, allowed s (.step i) → s.waiting i = some r → (s.known i).may r →
      (r.isNextFrame = false → K (s.known i) s.state) →
        K ((s.known i).seen r (serve r s.state).1) (serve r s.state).2) :
    Threads.Pool.Knows K RelayOp.isNextFrame Known.seen .none s := by
  refine run_invariant (fun socket => handleSocket_minds socket) h ?_ ?_ ?_ ?_
  · intro i p hp
    cases hp
  · intro s p hf hs
    exact hs.start hf hnone p
  · intro s e hs _
    exact hs.outside fun d hd => houtside d s.state e hd
  · intro s i r k _ hs hallowed hp hr
    exact hs.answered hp (hturn s _ hallowed) (hstep s i r hallowed (Threads.Pool.waiting_eq hp) hr)

end Relay

/-! ## What is true while a handler moves alone -/

/-- What the connection has been told of the contacts is true. -/
structure Known.IsTrue (d : Known) (s : AppState) : Prop where
  unblocked : ∀ a b, d.unblocked = some (a, b) → s.isBlockedBetween a b = false
  contacts : ∀ u, d.ActsFor u → ∀ v ∈ d.contacts,
    s.AcceptedBetween u v = true ∧ s.isBlockedBetween u v = false
  roster : ∀ u, d.ActsFor u → ∀ e ∈ d.roster,
    (e.accepted = true → s.AcceptedBetween u e.userId = true) ∧ s.isBlockedBetween u e.userId = false
  live : ∀ u ∈ d.live, shownStatus (s.presence u) ≠ "offline"

namespace Known

theorem IsTrue.forget (d : Known) (s : AppState) : d.forget.IsTrue s :=
  ⟨fun _ _ h => (nomatch h), fun _ _ _ h => (nomatch h), fun _ _ _ h => (nomatch h),
    fun _ h => nomatch h⟩

theorem IsTrue.congr {d : Known} {s t : AppState} (hd : d.IsTrue s)
    (hrequests : t.contactRequests = s.contactRequests) (hblocks : t.blocks = s.blocks)
    (hpresence : t.presence = s.presence) : d.IsTrue t := by
  have hb := AppState.isBlockedBetween_congr hblocks
  have ha := AppState.acceptedBetween_congr hrequests
  refine ⟨?_, ?_, ?_, ?_⟩
  · intro a b h
    rw [hb]
    exact hd.unblocked a b h
  · intro u hu v hv
    rw [ha, hb]
    exact hd.contacts u hu v hv
  · intro u hu e he
    rw [ha, hb]
    exact hd.roster u hu e he
  · intro u hu
    rw [hpresence]
    exact hd.live u hu

/-- The points after which a connection forgets what it was told of the contacts. -/
def forgetsAfter (r : RelayOp) : Bool :=
  r.writesRequests || r.writesBlocks || r.writesPresence || r.isNextFrame

theorem ActsFor.unique {d : Known} {u v : Id} (hu : d.ActsFor u) (hv : d.ActsFor v) : u = v := by
  obtain ⟨w, hw⟩ := hu
  obtain ⟨w', hw'⟩ := hv
  exact (Prod.mk.inj (Option.some.inj (hw.symm.trans hw'))).1

theorem IsTrue.kept {d : Known} {r : RelayOp} {s : AppState} (hd : d.IsTrue s)
    (hr : forgetsAfter r = false) : d.IsTrue (serve r s).2 := by
  simp only [forgetsAfter, Bool.or_eq_false_iff] at hr
  have h := serve_unwritten r s
  exact hd.congr (h.contactRequests hr.1.1.1) (h.blocks hr.1.1.2) (h.presence hr.1.2)

/-- **What a handler has been told is true**, when only it moves. -/
theorem IsTrue.step {d : Known} {r : RelayOp} {s : AppState} (hr : d.may r)
    (hd : r.isNextFrame = false → d.IsTrue s) :
    (d.seen r (serve r s).1).IsTrue (serve r s).2 := by
  -- while the handler moves alone, what it knows is forgotten only by its own writes
  have hkept : r.isNextFrame = false → forgetsAfter r = false → d.IsTrue (serve r s).2 :=
    fun hn hf => (hd hn).kept hf
  cases r with
  | nextFrame => exact .forget d _
  | presenceSet u entry => exact .forget d _
  | presenceRemove u => exact .forget d _
  | createContactRequest f t => exact .forget d _
  | acceptContactRequest id t => exact .forget d _
  | rejectContactRequest id t => exact .forget d _
  | clearPendingContactRequestsBetween a b => exact .forget d _
  | createBlock a b => exact .forget d _
  | removeBlock a b => exact .forget d _
  | findUserBySession token =>
    exact ⟨fun _ _ h => (by cases h), fun _ _ _ h => (by cases h), fun _ _ _ h => (by cases h),
      fun _ h => by cases h⟩
  | isBlockedBetween a b =>
    have h := hkept rfl rfl
    refine ⟨?_, h.contacts, h.roster, h.live⟩
    intro a' b' hab
    -- the answer is remembered just if it was no
    by_cases hb : s.isBlockedBetween a b = false
    · simp only [seen, serve, hb] at hab
      cases hab
      exact hb
    · simp [seen, serve, Except.toOption, hb] at hab
  | listAcceptedContactUserIds u =>
    have h := hkept rfl rfl
    refine ⟨h.unblocked, ?_, h.roster, h.live⟩
    intro u' hu' v hv
    rw [show u' = u from hu'.unique hr]
    exact AppState.of_mem_listAccepted hv
  | listContactRoster u =>
    have h := hkept rfl rfl
    refine ⟨h.unblocked, h.contacts, ?_, fun _ h => by cases h⟩
    intro u' hu' e he
    rw [show u' = u from hu'.unique hr]
    exact (AppState.of_mem_listContactRoster he).2
  | presenceGet u =>
    have h := hkept rfl rfl
    simp only [seen]
    split
    · exact h
    · rename_i hlive
      refine ⟨h.unblocked, h.contacts, h.roster, ?_⟩
      intro v hv
      rcases List.mem_cons.mp hv with rfl | hv
      · exact hlive
      · exact h.live v hv
  | send c item =>
    have h := hkept rfl rfl
    obtain ⟨text, label⟩ := item
    cases label with
    | queued m => exact ⟨h.unblocked, h.contacts, h.roster, h.live⟩
    | _ => exact h
  | unboundedChannel u =>
    have h := hkept rfl rfl
    exact ⟨h.unblocked, h.contacts, h.roster, h.live⟩
  | drainPendingMessages u =>
    have h := hkept rfl rfl
    exact ⟨h.unblocked, h.contacts, h.roster, h.live⟩
  | _ => exact hkept rfl rfl

end Known

/-- The tables of the contacts are not changed from outside. -/
theorem outside_contacts (s : AppState) (e : RelayEvent) :
    (s.outside e).contactRequests = s.contactRequests ∧ (s.outside e).blocks = s.blocks ∧
      (s.outside e).presence = s.presence := by
  cases e <;> exact ⟨rfl, rfl, rfl⟩

/-- **Handlers that are carried out one after the other know what is true.** -/
theorem Relay.ReachedInTurn.isTrue {F : Formats} {s : Relay} (hs : s.ReachedInTurn F) :
    Threads.Pool.Knows Known.IsTrue RelayOp.isNextFrame Known.seen .none s := by
  obtain ⟨start, hreach⟩ := hs
  refine Relay.knows hreach (fun _ _ h => h.2) ?_ ?_ fun _ _ _ _ _ => Known.IsTrue.step
  · exact fun t => .forget .none t
  · intro d t e hd
    obtain ⟨hrequests, hblocks, hpresence⟩ := outside_contacts t e
    exact hd.congr hrequests hblocks hpresence

end Winkd.Server
