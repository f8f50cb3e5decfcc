import Winkd.Adding
import Winkd.Invisible

/-!
# Presence events and snapshots

A presence event carries the text that the client has sent, or `online` or `offline`.  A
snapshot shows what is in the presence store.  The event that a contact was pushed last is
as a snapshot would show it, where no handler is mid-way, if each event that is broadcast
is so at that moment, or another connection of the user has still to broadcast
(`presence_events_agree`).

The runs are those of connections that are set up and closed, and of commands that set a
status.
-/

namespace Winkd.Server

/-! ## Events and snapshots -/

/-- Whom a presence event is about. -/
def Json.presenceUser (j : Json) : Option Text :=
  if j.getStr "event" = some "presence".toList then (j.get "payload").bind (Json.getStr "user_id") else none

/-- The presence event of a user. -/
def presenceEvent (winkdId status : Text) : Json :=
  .event "presence" [("user_id", .str winkdId), ("status", .str status)]

theorem presenceUser_presenceEvent (w status : Text) : (presenceEvent w status).presenceUser = some w := rfl

theorem presenceStatus_presenceEvent (w status : Text) :
    (presenceEvent w status).presenceStatus = some status := rfl

/-- An event that shows nobody's presence is no presence event. -/
theorem presenceUser_of_shows {j : Json} (h : j.shows = []) : j.presenceUser = none := by
  unfold Json.presenceUser
  split
  · rename_i hevent
    rw [Json.shows, if_pos hevent] at h
    exact Option.toList_eq_nil_iff.mp h
  · rfl

/-- The statuses of the presence events about a user that a step sends to a channel. -/
def statusesSent (c : ℕ) (w : Text) (e : RelayEntry) : List Text :=
  (e.request.sends e.before).filterMap fun p =>
    if p.1 = c ∧ p.2.text.presenceUser = some w then p.2.text.presenceStatus else none

/-- Those that were sent to it in a run, latest first. -/
def told (c : ℕ) (w : Text) : List RelayEntry → List Text
  | [] => []
  | e :: l => statusesSent c w e ++ told c w l

/-- The entries of a snapshot that is built for a user in this state. -/
def AppState.snapshot (s : AppState) (v : Id) : List Json :=
  match ((rosterPayload (s.listContactRoster v)).run serve s).1 with
  | .ok contacts => contacts
  | .error e => e.elim

/-- An entry of a snapshot. -/
def snapshotEntry (s : AppState) (c : ContactRosterEntry) : Json :=
  .obj [("winkd_id", .str c.winkdId), ("display_name", .str c.displayName),
    ("avatar_data", .ofText c.avatarData), ("mood_message", .str c.moodMessage),
    ("request_status", .ofString (if c.accepted then "accepted" else "pending_outbound")),
    ("status", .ofString (shownStatus (s.presence c.userId)))]

theorem run_rosterPayload (contacts : List ContactRosterEntry) (s : AppState) :
    (rosterPayload contacts).run serve s = (.ok (contacts.map (snapshotEntry s)), s) := by
  induction contacts with
  | nil => rfl
  | cons c contacts ih =>
    have hget : (await (.presenceGet c.userId)).run serve s = (.ok (s.presence c.userId), s) := rfl
    rw [rosterPayload, Prog.run_bind_ok serve hget, Prog.run_bind_ok serve ih]
    rfl

theorem snapshot_eq (s : AppState) (v : Id) :
    s.snapshot v = (s.listContactRoster v).map (snapshotEntry s) := by
  rw [AppState.snapshot, run_rosterPayload]

/-- A snapshot for `v` has an entry of the user with this Winkd ID, and shows him with this status. -/
structure SnapshotShows (s : AppState) (v : Id) (w status : Text) : Prop where
  listed : ∃ c ∈ s.snapshot v, c.getStr "winkd_id" = some w
  shown : ∀ c ∈ s.snapshot v, c.getStr "winkd_id" = some w → c.getStr "status" = some status

theorem peer_peer {cr : ContactRequest} {u : Id} (hu : cr.fromId = u ∨ cr.toId = u) :
    (cr.fromId = cr.peer u ∨ cr.toId = cr.peer u) ∧ cr.peer (cr.peer u) = u := by
  unfold ContactRequest.peer
  grind

/-- Who has the user for an accepted contact, without a block, has him in the roster. -/
theorem mem_roster_of_accepted {s : AppState} {u v : Id} {x : User} (hx : s.db.findUserById u = some x)
    (h : v ∈ s.listAcceptedContactUserIds u) :
    ∃ c ∈ s.listContactRoster v, c.userId = x.id ∧ c.winkdId = x.winkdId := by
  obtain ⟨cr, hcr, rfl⟩ := List.mem_map.mp h
  obtain ⟨hmem, hcond⟩ := List.mem_filter.mp hcr
  obtain ⟨hu, hstatus, hblock⟩ := of_decide_eq_true hcond
  obtain ⟨hends, hpeer⟩ := peer_peer hu
  refine ⟨⟨x.id, x.winkdId, x.displayName, x.avatarData, x.moodMessage, cr.status = .accepted⟩, ?_, rfl, rfl⟩
  refine List.mem_filterMap.mpr ⟨cr, (List.mem_insertionSort _).mpr (List.mem_filter.mpr ⟨hmem, ?_⟩), ?_⟩
  · refine decide_eq_true ⟨hends, .inl hstatus, ?_⟩
    rw [hpeer, AppState.isBlockedBetween_comm]
    exact hblock
  · rw [hpeer, hx]
    rfl

/-- **What a snapshot shows of a contact** is in the presence store. -/
theorem snapshotShows {s : AppState} (haccounts : Accounts s.db) (hunique : s.db.NamesUnique) {u v : Id}
    {w : Text} (hname : s.db.HasName u w) (h : v ∈ s.listAcceptedContactUserIds u) :
    SnapshotShows s v w (shownStatus (s.presence u)).toList := by
  have hget : ∀ c, (snapshotEntry s c).getStr "winkd_id" = some c.winkdId := fun _ => rfl
  constructor
  · obtain ⟨x, hx, hxu, rfl⟩ := id hname
    have hfind : s.db.findUserById u = some x := by
      cases hfind : s.db.findUserById u with
      | none => exact absurd (decide_eq_true hxu) (List.find?_eq_none.mp hfind x hx)
      | some y =>
        have hy : y.id = u := by simpa using List.find?_some hfind
        rw [haccounts.eq_of_id hx (List.mem_of_find?_eq_some hfind) (hxu.trans hy.symm)]
    obtain ⟨c, hc, -, hcw⟩ := mem_roster_of_accepted hfind h
    rw [snapshot_eq]
    exact ⟨_, List.mem_map_of_mem hc, (hget c).trans (congrArg some hcw)⟩
  · rw [snapshot_eq]
    intro e he hew
    obtain ⟨c, hc, rfl⟩ := List.mem_map.mp he
    obtain rfl := Option.some.inj ((hget c).symm.trans hew)
    rw [← name_unique hunique hname (hasName_roster hc)]
    rfl

/-- **Which statuses agree**, where the user has an entry and nobody comes in between: those that
the relay knows. -/
theorem setStatus_agrees_iff (statusStr mood : Text) :
    (if statusStr = "invisible".toList then "offline".toList else statusStr) =
        (shownStatus (some ⟨.ofText statusStr, mood⟩)).toList ↔
      statusStr ∈ ["online", "away", "busy", "invisible"].map String.toList := by
  constructor
  · intro h
    by_contra hmem
    obtain ⟨honline, haway, hbusy, hinvisible⟩ : statusStr ≠ "online".toList ∧ statusStr ≠ "away".toList ∧
        statusStr ≠ "busy".toList ∧ statusStr ≠ "invisible".toList := by
      simpa using hmem
    -- it counts as online
    rw [if_neg hinvisible, UserStatus.ofText, if_neg haway, if_neg hbusy, if_neg hinvisible] at h
    exact honline h
  · intro h
    obtain ⟨status, hstatus, rfl⟩ := List.mem_map.mp h
    rcases List.mem_cons.mp hstatus with rfl | hstatus
    · rfl
    rcases List.mem_cons.mp hstatus with rfl | hstatus
    · rfl
    rcases List.mem_cons.mp hstatus with rfl | hstatus
    · rfl
    · rw [List.mem_singleton.mp hstatus]
      rfl

/-! ## What a connection has to announce -/

/-- What a connection goes by when it announces its user. -/
structure Announcer where
  /-- Its user, with the Winkd ID. -/
  user : Option (Id × Text)
  /-- It has written the presence, and has to announce it. -/
  owes : Bool
  /-- Whom it has to tell. -/
  contacts : List Id

namespace Announcer

/-- What a connection starts with. -/
def none : Announcer := ⟨.none, false, []⟩

/-- It is a connection of this user. -/
def Of (d : Announcer) (u : Id) : Prop := d.user.map Prod.fst = some u

/-- It has to announce the presence of this user. -/
def Owes (u : Id) (d : Announcer) : Prop := d.Of u ∧ d.owes = true

/-- What a connection may do. -/
def may (d : Announcer) : RelayOp → Prop
  | .findUserBySession _ => d = none
  | .presenceSet u _ => d.Of u
  | .presenceRemove u => d.Of u
  | .listAcceptedContactUserIds u => d.Of u
  | .send _ item => item.text.presenceUser = .none
  | .sendToAll ids item => ids ≠ [] ∧ ids = d.contacts ∧
      ∃ u w status, d.user = some (u, w) ∧ item.text = presenceEvent w status
  | .nextFrame => d.owes = false
  | r => r.KeepsContacts

/-- What a reply makes of it. -/
def seen (d : Announcer) : (r : RelayOp) → r.Reply → Announcer
  | .findUserBySession _ => fun user =>
      { none with user := (user.toOption.getD .none).map fun m => (m.id, m.winkdId) }
  | .presenceSet _ _ => fun _ => { d with owes := true }
  | .presenceRemove _ => fun _ => { d with owes := true }
  | .listAcceptedContactUserIds _ => fun ids =>
      { d with contacts := ids.toOption.getD [], owes := d.owes && !(ids.toOption.getD []).isEmpty }
  | .sendToAll _ _ => fun _ => { d with owes := false }
  | _ => fun _ => d

/-- The points that change nothing of that. -/
def Idles (r : RelayOp) : Prop := ∀ d : Announcer, d.owes = false → d.may r ∧ ∀ x, d.seen r x = d

theorem common_idles (u : Id) (r : RelayOp) (hr : r.Common u) : Idles r := by
  intro d _
  cases r with
  | send c item => exact ⟨presenceUser_of_shows hr.2, fun _ => rfl⟩
  | _ => first | exact ⟨⟨rfl, rfl⟩, fun _ => rfl⟩ | exact False.elim hr

end Announcer

/-- The connection goes along, from `d`, to a point where `Q` holds. -/
abbrev Announces {α : Type} (d : Announcer) (Q : Announcer → Prop) (p : RelayProg α) : Prop :=
  p.Along Announcer.may Announcer.seen (fun d _ => Q d) d

/-- The connection is one of the user, and has nothing to announce. -/
def Announcer.Ready (user : Member) (d : Announcer) : Prop :=
  d.user = some (user.id, user.winkdId) ∧ d.owes = false

/-- From where it has nothing to announce, a program comes back to that. -/
abbrev StaysReady (user : Member) (α : Type) (p : RelayProg α) : Prop :=
  ∀ d : Announcer, d.Ready user → Announces d (Announcer.Ready user) p

theorem announces_bind {α β : Type} {d : Announcer} {M Q : Announcer → Prop} {p : RelayProg α}
    {f : α → RelayProg β} (hp : Announces d M p) (hf : ∀ d' a, M d' → Announces d' Q (f a)) :
    Announces d Q (p >>= f) := (Prog.along_bind p f).mpr (hp.mono (fun _ _ h => h) hf)

theorem staysReady_await {user : Member} {r : RelayOp} (hr : Announcer.Idles r) :
    StaysReady user _ (await r) := by
  intro d hd
  obtain ⟨hmay, hseen⟩ := hr d hd.2
  exact ⟨hmay, fun x => (hseen x).symm ▸ hd⟩

theorem staysReady_compositional (user : Member) : Compositional user.id (StaysReady user) where
  pure _ _ hd := hd
  bind hp hf d hd := announces_bind (hp d hd) fun d' a h => hf a d' h
  common r hr := staysReady_await (Announcer.common_idles user.id r hr)

section Handlers
variable {F : Formats} {user : Member}

/-- After a broadcast there is nothing to announce. -/
theorem announces_broadcast (status : Text) {d : Announcer} (hd : d.user = some (user.id, user.winkdId)) :
    Announces d (Announcer.Ready user) (broadcastPresenceToContacts user status) := by
  have hof : d.Of user.id := congrArg (Option.map Prod.fst) hd
  refine ⟨hof, ?_⟩
  intro ids
  rcases ids with e | ⟨_ | ⟨id, ids⟩⟩
  · exact ⟨hd, Bool.and_false _⟩
  · exact ⟨hd, Bool.and_false _⟩
  · exact ⟨⟨List.cons_ne_nil _ _, rfl, user.id, user.winkdId, status, hd, rfl⟩, fun _ => ⟨hd, rfl⟩⟩

theorem announces_setStatus (payload : Json) : StaysReady user Unit (setStatus user payload) := by
  intro d hd
  have hof : d.Of user.id := congrArg (Option.map Prod.fst) hd.1
  unfold setStatus
  split
  · exact hd
  · rename_i status _
    refine ⟨⟨rfl, rfl⟩, fun entry => ?_⟩
    cases entry with
    | none => exact announces_broadcast _ hd.1
    | some entry => exact ⟨hof, fun _ => announces_broadcast _ hd.1⟩

theorem announces_disconnect (sessionId : Id) : StaysReady user Unit (disconnect user sessionId) := by
  intro d hd
  have hof : d.Of user.id := congrArg (Option.map Prod.fst) hd.1
  refine ⟨⟨rfl, rfl⟩, fun active => ?_⟩
  cases active with
  | false => exact hd
  | true => exact ⟨hof, fun _ => announces_broadcast _ hd.1⟩

theorem announces_flushQueued (tx : ℕ) : StaysReady user Unit (flushQueued user tx) := by
  refine through_flushQueued (staysReady_compositional user) tx ?_ fun msg => ?_
  · exact staysReady_await fun d _ => ⟨⟨rfl, rfl⟩, fun _ => rfl⟩
  · exact staysReady_await fun d _ => ⟨presenceUser_of_shows (shows_message _), fun _ => rfl⟩

end Handlers

/-! ## Connections that set statuses only -/

/-- The frame is a command that sets a status, or no command. -/
def Frame.StatusOnly : Frame → Prop
  | .text json => ∀ cmd ∈ json.bind ClientCommand.ofJson, cmd.command = .setStatus
  | _ => True

/-- The frames after the first, which authenticates, are commands that set a status, or no
commands. -/
def Socket.StatusOnly (socket : Socket) : Prop := ∀ frame ∈ socket.frames.tail, frame.StatusOnly

def RelayEvent.StatusOnly : RelayEvent → Prop
  | .connect socket => socket.StatusOnly
  | _ => True

section Handlers
variable {F : Formats} {user : Member}

theorem announces_receiveLoop (tx : ℕ) (frames : List Frame) (hframes : ∀ frame ∈ frames, frame.StatusOnly) :
    StaysReady user Unit (receiveLoop F user tx frames) := by
  have hnext : StaysReady user _ (await .nextFrame) := fun d hd => ⟨hd.2, fun _ => hd⟩
  refine through_receiveLoop (staysReady_compositional user) tx hnext frames ?_
  intro json hmem cmd hcmd serial
  rw [handleCommand, hframes _ hmem cmd hcmd]
  exact announces_setStatus cmd.payload

theorem announces_serveSession {frames : List Frame} (hframes : ∀ frame ∈ frames, frame.StatusOnly) :
    StaysReady user Unit (serveSession F user frames) := by
  have hW := staysReady_compositional user
  have hidle : ∀ {r : RelayOp}, Announcer.Idles r → StaysReady user _ (await r) := staysReady_await
  refine hW.bind (hidle fun d _ => ⟨⟨rfl, rfl⟩, fun _ => rfl⟩) fun tx => ?_
  refine hW.bind (hidle fun d _ => ⟨⟨rfl, rfl⟩, fun _ => rfl⟩) fun sessionId => ?_
  refine hW.bind (hidle fun d _ => ⟨⟨rfl, rfl⟩, fun _ => rfl⟩) fun _ => ?_
  -- the presence is written, and announced
  intro d hd
  refine announces_bind (M := fun d => d.user = some (user.id, user.winkdId)) ?_ fun d _ hd => ?_
  · exact ⟨congrArg (Option.map Prod.fst) hd.1, fun _ => hd.1⟩
  refine announces_bind (announces_broadcast "online".toList hd) fun d _ hd => ?_
  revert d
  refine hW.bind (through_flushRoster hW tx (hidle fun d _ => ⟨⟨rfl, rfl⟩, fun _ => rfl⟩)
    (fun _ => hidle fun d _ => ⟨⟨rfl, rfl⟩, fun _ => rfl⟩) fun payload => ?_) fun _ => ?_
  · exact hW.bind (hidle fun d _ => ⟨rfl, fun _ => rfl⟩) fun _ => hW.pure ()
  refine hW.bind (through_flushPendingInbound hW tx) fun _ => ?_
  refine hW.bind (announces_flushQueued tx) fun _ => ?_
  refine hW.bind (hidle fun d _ => ⟨⟨rfl, rfl⟩, fun _ => rfl⟩) fun _ => ?_
  refine hW.bind (announces_receiveLoop tx frames hframes) fun _ => ?_
  refine hW.bind (announces_disconnect sessionId) fun _ => ?_
  exact hidle fun d _ => ⟨⟨rfl, rfl⟩, fun _ => rfl⟩

/-- **A connection that sets statuses only announces what it writes** before it waits for a frame. -/
theorem handleSocket_announces {socket : Socket} (hsocket : socket.StatusOnly) :
    Announces .none (fun d => d.owes = false) (handleSocket F socket) := by
  have hrefuse : ∀ (d : Announcer) reason, d.owes = false →
      Announces d (fun d => d.owes = false) (refuse reason) := fun _ _ hd => ⟨⟨rfl, rfl⟩, fun _ => hd⟩
  unfold handleSocket
  split
  · split
    · refine ⟨rfl, ?_⟩
      intro user
      rcases user with e | user | user
      · exact hrefuse _ _ rfl
      · exact hrefuse _ _ rfl
      · refine ⟨⟨rfl, rfl⟩, fun _ => ⟨⟨rfl, rfl⟩, fun _ => ⟨⟨rfl, rfl⟩, fun _ => ⟨⟨rfl, rfl⟩, ?_⟩⟩⟩⟩
        intro sent
        cases sent with
        | false => exact rfl
        | true =>
          refine (announces_serveSession hsocket _ ⟨rfl, rfl⟩).mono (fun _ _ h => h) ?_
          exact fun d _ hd => hd.2
    · exact hrefuse _ _ rfl
  · exact hrefuse _ _ rfl

end Handlers

/-! ## In a run -/

/-- Since the presence of `u` was written last, `v` has been connected by this session. -/
def Since (u v : Id) (session : ClientSession) : List RelayEntry → Prop
  | [] => False
  | e :: l => e.before.clients v = some session ∧ (e.request.WritesPresenceOf u ∨ Since u v session l)

theorem exists_write_of_since {u v : Id} {session : ClientSession} {l : List RelayEntry}
    (h : Since u v session l) : ∃ e ∈ l, e.request.WritesPresenceOf u := by
  induction l with
  | nil => exact h.elim
  | cons e l ih =>
    rcases h.2 with hwrites | h
    · exact ⟨e, List.mem_cons_self, hwrites⟩
    · obtain ⟨e', he', hwrites⟩ := ih h
      exact ⟨e', List.mem_cons_of_mem _ he', hwrites⟩

theorem Announcer.may_keepsContacts {d : Announcer} {r : RelayOp} (hr : d.may r) : r.KeepsContacts := by
  cases r <;> first | exact ⟨rfl, rfl⟩ | exact hr

/-- Only a write of it changes the presence of a user. -/
theorem presence_step {r : RelayOp} {u : Id} (hr : ¬ r.WritesPresenceOf u) (s : AppState) :
    (serve r s).2.presence u = s.presence u := by
  by_cases hw : r.writesPresence = true
  · cases r with
    | presenceSet v entry => exact Function.update_of_ne (fun h : u = v => hr h.symm) _ _
    | presenceRemove v => exact Function.update_of_ne (fun h : u = v => hr h.symm) _ _
    | _ => cases hw
  · rw [(serve_unwritten r s).presence (Bool.eq_false_iff.mpr hw)]

namespace Relay
variable {F : Formats}

/-- What connection `i` has to announce. -/
def announcer (s : Relay) (i : ℕ) : Announcer :=
  Threads.Pool.learned Announcer.seen .none i s.trace

theorem announcer_own (s : Relay) (i : ℕ) (r : RelayOp) (k : r.Reply → RelayProg Unit) :
    (s.answered i r k).announcer i = (s.announcer i).seen r (serve r s.state).1 :=
  Threads.Pool.learned_own rfl _

theorem announcer_other (s : Relay) {i j : ℕ} (hij : i ≠ j) (r : RelayOp)
    (k : r.Reply → RelayProg Unit) : (s.answered i r k).announcer j = s.announcer j :=
  Threads.Pool.learned_other hij _

/-- A presence event that is broadcast shows the user as a snapshot does, or another connection of
the user has still to broadcast. -/
def EventsAgree (s : Relay) : RelayEvent → Prop
  | .step i =>
    match s.waiting i with
    | some (.sendToAll _ item) => ∀ u ∈ (s.announcer i).user.map Prod.fst,
        item.text.presenceStatus = some (shownStatus (s.state.presence u)).toList ∨
          ∃ j < s.tasks.length, j ≠ i ∧ (s.announcer j).Owes u
    | _ => True
  | _ => True

/-- The states that a relay comes to, once it is started anew, as connections are set up and closed
and set statuses. -/
def ReachedStatus (F : Formats) (s : Relay) : Prop :=
  ∃ s₀ : Relay, s₀.Reached F ∧ Transitions.Reaches (next F) (fun _ e => e.StatusOnly)
    (Threads.Pool.idle s₀.state.restarted) s

/-- The states that it comes to by steps that agree. -/
def ReachedAnnouncing (F : Formats) (s : Relay) : Prop :=
  ∃ s₀ : Relay, s₀.Reached F ∧ Transitions.Reaches (next F) (fun s e => e.StatusOnly ∧ s.EventsAgree e)
    (Threads.Pool.idle s₀.state.restarted) s

/-- User `v` is connected, and was before the last change of the presence of `u`. -/
structure ConnectedSince (s : Relay) (u v : Id) (session : ClientSession) : Prop where
  now : s.state.clients v = some session
  since : Since u v session s.trace

/-! ## What the connections go by -/

/-- What the connections go by is so. -/
structure Announcing (s : Relay) : Prop where
  accounts : Accounts s.state.db
  unique : s.state.db.NamesUnique
  user : ∀ i u w, (s.announcer i).user = some (u, w) → s.state.db.HasName u w
  contacts : ∀ i u, (s.announcer i).Of u →
    (s.announcer i).contacts = [] ∨ (s.announcer i).contacts = s.state.listAcceptedContactUserIds u
  written : ∀ e ∈ s.trace, ∀ u, e.request.WritesPresenceOf u → s.state.IsUser u

theorem Announcing.isUser {s : Relay} (hs : s.Announcing) {i : ℕ} {u : Id} (h : (s.announcer i).Of u) :
    s.state.IsUser u := by
  obtain ⟨⟨u, w⟩, huser, rfl⟩ := Option.map_eq_some_iff.mp h
  exact ⟨w, hs.user i u w huser⟩

/-- Whom a connection is of, the database has told it. -/
theorem seen_user {d : Announcer} {r : RelayOp} {s : AppState} {u : Id} {w : Text}
    (h : (d.seen r (serve r s).1).user = some (u, w)) : d.user = some (u, w) ∨ s.db.HasName u w := by
  cases r with
  | findUserBySession token =>
    obtain ⟨m, hm, heq⟩ := Option.map_eq_some_iff.mp h
    obtain ⟨x, hx, rfl⟩ := Option.map_eq_some_iff.mp hm
    obtain ⟨row, -, hrow⟩ := Option.bind_eq_some_iff.mp hx
    cases heq
    exact .inr ⟨x, List.mem_of_find?_eq_some hrow, rfl, rfl⟩
  | _ => exact .inl h

/-- Whom a connection has to tell, the database has told it. -/
theorem seen_contacts {d : Announcer} {r : RelayOp} (hr : d.may r) {s : AppState} {u : Id}
    (h : (d.seen r (serve r s).1).Of u) :
    (d.Of u ∧ (d.seen r (serve r s).1).contacts = d.contacts) ∨
      (d.seen r (serve r s).1).contacts = [] ∨
        (d.seen r (serve r s).1).contacts = s.listAcceptedContactUserIds u := by
  cases r with
  | findUserBySession token => exact .inr (.inl rfl)
  | listAcceptedContactUserIds v =>
    obtain rfl := Option.some.inj (Eq.trans (Eq.symm hr) h)
    exact .inr (.inr rfl)
  | _ => exact .inl ⟨h, rfl⟩

/-- A connection that writes a presence is of that user. -/
theorem of_writes {d : Announcer} {r : RelayOp} (hr : d.may r) {u : Id} (h : r.WritesPresenceOf u) :
    d.Of u := by
  cases r with
  | presenceSet v entry => exact h ▸ hr
  | presenceRemove v => exact h ▸ hr
  | _ => exact h.elim

theorem Announcing.answered {s : Relay} (hs : s.Announcing) {i : ℕ} {r : RelayOp}
    {k : r.Reply → RelayProg Unit} (hr : (s.announcer i).may r) : (s.answered i r k).Announcing := by
  have hnames := serve_names r s.state
  refine ⟨hs.accounts.serve r, hnames.unique hs.unique, ?_, ?_, ?_⟩
  · intro j u w h
    refine hnames.kept u w ?_
    by_cases hij : i = j
    · subst hij
      rw [announcer_own] at h
      exact (seen_user h).elim (hs.user i u w) id
    · rw [announcer_other s hij] at h
      exact hs.user j u w h
  · intro j u h
    rw [answered_state, (Announcer.may_keepsContacts hr).contacts]
    by_cases hij : i = j
    · subst hij
      rw [announcer_own] at h ⊢
      rcases seen_contacts hr h with ⟨hof, hsame⟩ | hcontacts
      · rw [hsame]
        exact hs.contacts i u hof
      · exact hcontacts
    · rw [announcer_other s hij] at h ⊢
      exact hs.contacts j u h
  · intro e he u hwrites
    refine AppState.IsUser.serve ?_ r
    rcases List.mem_cons.mp he with rfl | he
    · exact hs.isUser (of_writes hr hwrites)
    · exact hs.written e he u hwrites

theorem Announcing.outside {s : Relay} (hs : s.Announcing) (e : RelayEvent) :
    Announcing { s with state := s.state.outside e } := by
  refine ⟨hs.accounts.outside e, outside_namesUnique _ e hs.unique, ?_, ?_, ?_⟩
  · exact fun i u w h => outside_hasName _ e (hs.user i u w h)
  · intro i u h
    show _ ∨ _ = (s.state.outside e).listAcceptedContactUserIds u
    rw [AppState.outside_contacts]
    exact hs.contacts i u h
  · exact fun e' he u hwrites => (hs.written e' he u hwrites).outside e

theorem Announcing.restarted {s : AppState} (haccounts : Accounts s.db) (hunique : s.db.NamesUnique) :
    Announcing (Threads.Pool.idle s.restarted) :=
  ⟨haccounts, hunique, fun _ _ _ h => (nomatch h), fun _ _ h => (nomatch h), fun _ h => (nomatch h)⟩

/-- The ids of the accounts are distinct, whatever the relay has done. -/
theorem accounts_reached {s : Relay} (hs : s.Reached F) : Accounts s.state.db := by
  obtain ⟨start, hreach⟩ := hs
  refine run_invariant (fun socket => handleSocket_standing socket) hreach
    (I := fun s : Relay => Accounts s.state.db) (.init start.now) (fun _ _ _ hs => hs) ?_ ?_
  · exact fun s e hs _ => hs.outside e
  · exact fun s i r k _ hs _ _ _ => hs.serve r

/-! ## What has been pushed -/

/-- A step that broadcasts no event of the user pushes none. -/
theorem statusesSent_other {s : Relay} (hs : s.Announcing) {i : ℕ} {r : RelayOp}
    (hr : (s.announcer i).may r) {u : Id} {w : Text} (hname : s.state.db.HasName u w)
    (hsend : ∀ ids item, r = .sendToAll ids item → ¬ (s.announcer i).Of u) (c : ℕ) :
    statusesSent c w (s.entry serve i r) = [] := by
  have hquiet : ∀ item : Item, item.text.presenceUser ≠ some w →
      ∀ p : ℕ × Item, p.2 = item →
        (if p.1 = c ∧ p.2.text.presenceUser = some w then p.2.text.presenceStatus else none) = none := by
    rintro item hitem p rfl
    exact if_neg fun h => hitem h.2
  refine List.filterMap_eq_nil_iff.mpr fun p hp => ?_
  cases r with
  | send c' item =>
    rw [List.mem_singleton.mp hp]
    refine hquiet item ?_ _ rfl
    rw [show item.text.presenceUser = none from hr]
    exact (Option.some_ne_none w).symm
  | sendToAll ids item =>
    obtain ⟨v, -, hv⟩ := List.mem_filterMap.mp hp
    obtain ⟨session, -, rfl⟩ := Option.map_eq_some_iff.mp hv
    obtain ⟨-, -, u', w', status, huser, hitem⟩ := hr
    refine hquiet item (fun h => ?_) _ rfl
    -- it would be of another user with this Winkd ID
    rw [hitem, presenceUser_presenceEvent] at h
    obtain rfl := Option.some.inj h
    obtain rfl := name_unique hs.unique hname (hs.user i _ _ huser)
    exact hsend ids item rfl (congrArg (Option.map Prod.fst) huser)
  | _ => cases hp

/-- A broadcast pushes its status to every contact who is connected. -/
theorem told_sendToAll {s : Relay} {ids : List Id} {v : Id} (hv : v ∈ ids) {session : ClientSession}
    (hclient : s.state.clients v = some session) (w status : Text) (item : Item)
    (hitem : item.text = presenceEvent w status) (i : ℕ) (k : Unit → RelayProg Unit) :
    (told session.sender w (s.answered i (.sendToAll ids item) k).trace).head? = some status := by
  have hsent : ∀ x ∈ statusesSent session.sender w (s.entry serve i (.sendToAll ids item)),
      x = status := by
    intro x hx
    obtain ⟨p, hp, hpx⟩ := List.mem_filterMap.mp hx
    obtain ⟨v', -, hv'⟩ := List.mem_filterMap.mp hp
    obtain ⟨session', -, rfl⟩ := Option.map_eq_some_iff.mp hv'
    split at hpx
    · rw [hitem] at hpx
      exact (Option.some.inj hpx).symm
    · cases hpx
  have hmem : status ∈ statusesSent session.sender w (s.entry serve i (.sendToAll ids item)) := by
    refine List.mem_filterMap.mpr ⟨(session.sender, item), List.mem_filterMap.mpr ⟨v, hv, ?_⟩, ?_⟩
    · exact congrArg (Option.map _) hclient
    · rw [if_pos ⟨rfl, by rw [hitem]; rfl⟩, hitem]
      rfl
  show (statusesSent session.sender w (s.entry serve i (.sendToAll ids item)) ++ _).head? = some status
  cases hlist : statusesSent session.sender w (s.entry serve i (.sendToAll ids item)) with
  | nil =>
    rw [hlist] at hmem
    cases hmem
  | cons x l =>
    rw [hsent x (hlist ▸ List.mem_cons_self)]
    rfl

/-! ## Debts -/

/-- A contact who has been connected since the last change was pushed something else than a
snapshot would show. -/
structure PushDiffers (u v : Id) (w : Text) (session : ClientSession) (t : AppState)
    (l : List RelayEntry) : Prop where
  now : t.clients v = some session
  since : Since u v session l
  contact : v ∈ t.listAcceptedContactUserIds u
  differs : (told session.sender w l).head? ≠ some (shownStatus (t.presence u)).toList

/-- What a connection has to announce, only a broadcast pays for, or the news that there is nobody
to hear it. -/
theorem owes_step {d : Announcer} {r : RelayOp} (hr : d.may r) {s : AppState} {u : Id}
    (hlist : s.listAcceptedContactUserIds u ≠ [])
    (hsend : ∀ ids item, r = .sendToAll ids item → ¬ d.Of u) (hd : d.Owes u) :
    (d.seen r (serve r s).1).Owes u := by
  obtain ⟨hof, howes⟩ := hd
  cases r with
  | findUserBySession token =>
    rw [show d = Announcer.none from hr] at howes
    cases howes
  | presenceSet v entry => exact ⟨hof, rfl⟩
  | presenceRemove v => exact ⟨hof, rfl⟩
  | listAcceptedContactUserIds v =>
    obtain rfl := Option.some.inj (Eq.trans (Eq.symm hr) hof)
    refine ⟨hof, ?_⟩
    have hne : (s.listAcceptedContactUserIds v).isEmpty = false := by simpa using hlist
    show (d.owes && !(s.listAcceptedContactUserIds v).isEmpty) = true
    rw [howes, hne]
    rfl
  | sendToAll ids item => exact absurd hof (hsend ids item rfl)
  | _ => exact ⟨hof, howes⟩

/-- Whose presence was written had his name before. -/
theorem Announcing.name_before {s : Relay} (hs : s.Announcing) {u v : Id} {session : ClientSession}
    (hsince : Since u v session s.trace) {t : AppState} (ht : Accounts t.db)
    (hkept : ∀ w, s.state.db.HasName u w → t.db.HasName u w) {w : Text} (hname : t.db.HasName u w) :
    s.state.db.HasName u w := by
  obtain ⟨e, he, hwrites⟩ := exists_write_of_since hsince
  obtain ⟨w', hw'⟩ := hs.written e he u hwrites
  rw [ht.name_eq (hkept w' hw') hname]
  exact hw'

/-- An answer that makes a push differ leaves a connection of the user with something to announce. -/
theorem events_step {s : Relay} (hs : s.Announcing) {i : ℕ} {r : RelayOp} {k : r.Reply → RelayProg Unit}
    (hp : s.tasks[i]? = some (.request r k)) (hr : (s.announcer i).may r)
    (hagree : s.EventsAgree (.step i)) {u v : Id} {w : Text} {session : ClientSession}
    (hnamed : (s.answered i r k).state.db.HasName u w)
    (howed : s.state.db.HasName u w → Threads.Pool.Owed (Announcer.Owes u) (PushDiffers u v w session)
      Announcer.seen .none s) :
    (s.answered i r k).Owed (Announcer.Owes u) (PushDiffers u v w session) Announcer.seen .none := by
  intro hbad
  by_cases hwrites : r.WritesPresenceOf u
  · -- who writes the presence has to announce it
    refine ⟨i, ?_⟩
    show ((s.answered i r k).announcer i).Owes u
    rw [announcer_own]
    have hof := of_writes hr hwrites
    cases r with
    | presenceSet v entry => exact ⟨hof, rfl⟩
    | presenceRemove v => exact ⟨hof, rfl⟩
    | _ => exact hwrites.elim
  obtain ⟨hclient, hlater⟩ := hbad.since
  have hsince : Since u v session s.trace := hlater.resolve_left hwrites
  have hname : s.state.db.HasName u w := hs.name_before hsince (hs.accounts.serve r)
    (fun w => (serve_names r s.state).kept u w) hnamed
  have hpresence := presence_step hwrites s.state
  have hlist := (Announcer.may_keepsContacts hr).contacts s.state u
  have hcontact : v ∈ s.state.listAcceptedContactUserIds u := hlist ▸ hbad.contact
  by_cases hsend : ∃ ids item, r = .sendToAll ids item ∧ (s.announcer i).Of u
  · obtain ⟨ids, item, rfl, hof⟩ := hsend
    simp only [EventsAgree, Threads.Pool.waiting_eq hp] at hagree
    rcases hagree u hof with hstatus | ⟨j, -, hji, hj⟩
    · -- what is broadcast now is what a snapshot would show
      obtain ⟨hne, hids, u', w', status, huser, hitem⟩ := hr
      obtain rfl : u' = u := Option.some.inj ((congrArg (Option.map Prod.fst) huser).symm.trans hof)
      obtain rfl := hs.accounts.name_eq hname (hs.user i _ _ huser)
      have hv : v ∈ ids := by
        rcases hs.contacts i u' hof with hnil | hlist
        · exact absurd (hids.trans hnil) hne
        · rw [hids, hlist]
          exact hcontact
      refine absurd ?_ hbad.differs
      rw [told_sendToAll hv hclient w' status item hitem, answered_state, hpresence]
      rw [hitem, presenceStatus_presenceEvent] at hstatus
      exact hstatus
    · exact Threads.Pool.owed_other (Ne.symm hji) hj hbad
  · have hquiet : ∀ ids item, r = .sendToAll ids item → ¬ (s.announcer i).Of u :=
      fun ids item h hof => hsend ⟨ids, item, h, hof⟩
    refine (howed hname).answered (fun hbad => .inr ⟨.inl ?_, fun hd => ?_⟩) hbad
    · refine ⟨hclient, hsince, hcontact, fun h => hbad.differs ?_⟩
      show (statusesSent session.sender w (s.entry serve i r) ++ told session.sender w s.trace).head? =
        some (shownStatus ((serve r s.state).2.presence u)).toList
      rw [statusesSent_other hs hr hname hquiet, hpresence]
      exact h
    · exact owes_step hr (List.ne_nil_of_mem hcontact) hquiet hd

theorem events_owed {s₀ : AppState} (haccounts : Accounts s₀.db) (hunique : s₀.db.NamesUnique) {s : Relay}
    (hs : Transitions.Reaches (next F) (fun s e => e.StatusOnly ∧ s.EventsAgree e)
      (Threads.Pool.idle s₀.restarted) s) (u v : Id) (w : Text) (session : ClientSession) :
    s.Announcing ∧ (s.state.db.HasName u w →
      Threads.Pool.Owed (Announcer.Owes u) (PushDiffers u v w session) Announcer.seen .none s) := by
  refine run_invariant_of (fun _ _ he => handleSocket_announces he.1) hs
    (I := fun s : Relay => s.Announcing ∧ (s.state.db.HasName u w →
      Threads.Pool.Owed (Announcer.Owes u) (PushDiffers u v w session) Announcer.seen .none s)) ?_ ?_ ?_ ?_
  · exact ⟨.restarted haccounts hunique, fun _ hbad => hbad.since.elim⟩
  · rintro s p - ⟨hs, howed⟩
    exact ⟨⟨hs.accounts, hs.unique, hs.user, hs.contacts, hs.written⟩, howed⟩
  · rintro s e ⟨hs, howed⟩ -
    refine ⟨hs.outside e, fun hname hbad => ?_⟩
    refine howed (hs.name_before hbad.since (hs.accounts.outside e)
      (fun _ h => outside_hasName s.state e h) hname) ⟨?_, hbad.since, ?_, ?_⟩
    · have h := hbad.now
      cases e <;> exact h
    · have h := hbad.contact
      rw [AppState.outside_contacts] at h
      exact h
    · have h := hbad.differs
      cases e <;> exact h
  · rintro s i r k - ⟨hs, howed⟩ he hp hr
    exact ⟨hs.answered hr, fun hname => events_step hs hp hr he.2 hname howed⟩

/-- **Presence events and snapshots agree** in every state where no handler is mid-way, if what is
broadcast is what a snapshot shows, or another connection of the user has still to broadcast. -/
theorem presence_events_agree {s : Relay} (hs : s.ReachedAnnouncing F) (hrest : s.AtRest) {u v : Id}
    {w : Text} (hname : s.state.db.HasName u w) (hcontact : v ∈ s.state.listAcceptedContactUserIds u)
    {session : ClientSession} (hsince : s.ConnectedSince u v session) :
    ∃ status, (told session.sender w s.trace).head? = some status ∧ SnapshotShows s.state v w status := by
  obtain ⟨s₀, hreached, hreach⟩ := hs
  have hunique : s₀.state.db.NamesUnique := by
    obtain ⟨start, hreach⟩ := hreached
    exact (named hreach).unique
  obtain ⟨hannouncing, howed⟩ := events_owed (accounts_reached hreached) hunique hreach u v w session
  have hnone : ∀ i, ¬ (s.announcer i).Owes u := by
    intro i hi
    have hfollows := follows_of (fun _ _ he => handleSocket_announces he.1) hreach
    have hidle : (s.announcer i).owes = false := by
      refine hfollows.of_resting (I := fun d : Announcer => d.owes = false) rfl (fun _ h => h) ?_
        fun p hp => hrest p (List.mem_of_getElem? hp)
      intro d r hr hmay
      cases r with
      | nextFrame => exact hmay
      | _ => cases hr
    exact absurd (hi.2.symm.trans hidle) Bool.noConfusion
  have hagrees := (howed hname).settled hnone
  refine ⟨_, not_not.mp fun h => hagrees ⟨hsince.now, hsince.since, hcontact, h⟩, ?_⟩
  exact snapshotShows hannouncing.accounts hannouncing.unique hname hcontact

namespace Sample

instance (frame : Frame) : Decidable frame.StatusOnly := by
  unfold Frame.StatusOnly
  split <;> infer_instance

instance : ∀ e : RelayEvent, Decidable e.StatusOnly
  | .connect socket => inferInstanceAs (Decidable (∀ frame ∈ socket.frames.tail, frame.StatusOnly))
  | .step _ => isTrue trivial
  | .forward _ => isTrue trivial
  | .fail _ => isTrue trivial
  | .drop _ => isTrue trivial
  | .account _ => isTrue trivial
  | .supporter _ _ => isTrue trivial
  | .clock _ => isTrue trivial

instance (u : Id) (d : Announcer) : Decidable (d.Owes u) :=
  inferInstanceAs (Decidable (d.user.map Prod.fst = some u ∧ d.owes = true))

instance (s : Relay) : ∀ e, Decidable (s.EventsAgree e)
  | .step i => by
    unfold EventsAgree
    dsimp only
    induction s.waiting i using Option.casesOn with
    | none => exact isTrue trivial
    | some r => induction r using RelayOp.casesOn <;> dsimp only <;> infer_instance
  | .connect _ => isTrue trivial
  | .forward _ => isTrue trivial
  | .fail _ => isTrue trivial
  | .drop _ => isTrue trivial
  | .account _ => isTrue trivial
  | .supporter _ _ => isTrue trivial
  | .clock _ => isTrue trivial

instance (u : Id) (r : RelayOp) : Decidable (r.WritesPresenceOf u) := by
  unfold RelayOp.WritesPresenceOf
  split <;> infer_instance

instance decideSince (u v : Id) (session : ClientSession) : ∀ l, Decidable (Since u v session l)
  | [] => isFalse id
  | e :: l =>
    have := decideSince u v session l
    inferInstanceAs (Decidable (e.before.clients v = some session ∧ (e.request.WritesPresenceOf u ∨ _)))

/-- Ada connects; Bob connects, and sets this status. -/
def setsStatus (status : String) : List RelayEvent :=
  connected 0 17 "ada's token" [] ++ connected 1 22 "bob's token" [statusFrame status]

/-- The session that Ada is connected by. -/
def adasSession : ClientSession := ⟨5, 0⟩

theorem setsStatus_start : (after addedAndAccepted).Reached formats := after_reached (by decide)

/-- Bob is away: Ada was told so, and a snapshot for her shows it. -/
theorem presence_events_agree_away :
    (told adasSession.sender "bob#0002".toList (sinceRestart (setsStatus "away")).trace).head? =
        some "away".toList ∧
      ∃ status, (told adasSession.sender "bob#0002".toList
          (sinceRestart (setsStatus "away")).trace).head? = some status ∧
        SnapshotShows (sinceRestart (setsStatus "away")).state 0 "bob#0002".toList status := by
  have hreach : (sinceRestart (setsStatus "away")).ReachedAnnouncing formats :=
    ⟨after addedAndAccepted, setsStatus_start, Transitions.Admits.reaches (by decide +kernel)⟩
  have hname : (sinceRestart (setsStatus "away")).state.db.HasName 1 "bob#0002".toList := by
    unfold Backend.HasName
    decide +kernel
  have hsince : (sinceRestart (setsStatus "away")).ConnectedSince 1 0 adasSession :=
    ⟨by decide +kernel, by decide +kernel⟩
  have hrest : (sinceRestart (setsStatus "away")).AtRest := by decide +kernel
  have hcontact : 0 ∈ (sinceRestart (setsStatus "away")).state.listAcceptedContactUserIds 1 := by
    decide +kernel
  exact ⟨by decide +kernel, presence_events_agree hreach hrest hname hcontact hsince⟩

/-- Bob sets a status that the relay does not know: Ada is pushed it, and a snapshot for her shows
him online. -/
theorem pushed_unlike_snapshot :
    ¬ ∀ (s : Relay) (u v : Id) (w : Text) (session : ClientSession), s.ReachedStatus formats →
      s.AtRest → s.state.db.HasName u w → v ∈ s.state.listAcceptedContactUserIds u →
      s.ConnectedSince u v session →
      ∃ status, (told session.sender w s.trace).head? = some status ∧ SnapshotShows s.state v w status := by
  intro h
  have hreach : (sinceRestart (setsStatus "brb")).ReachedStatus formats :=
    ⟨after addedAndAccepted, setsStatus_start, Transitions.Admits.reaches (by decide)⟩
  have hname : (sinceRestart (setsStatus "brb")).state.db.HasName 1 "bob#0002".toList := by
    unfold Backend.HasName
    decide +kernel
  have hsince : (sinceRestart (setsStatus "brb")).ConnectedSince 1 0 adasSession :=
    ⟨by decide +kernel, by decide +kernel⟩
  obtain ⟨status, htold, ⟨c, hc, hcw⟩, hshown⟩ :=
    h _ 1 0 _ adasSession hreach (by decide +kernel) hname (by decide +kernel) hsince
  have hpushed : (told adasSession.sender "bob#0002".toList (sinceRestart (setsStatus "brb")).trace).head? =
      some "brb".toList := by
    decide +kernel
  have honline : ∀ c ∈ (sinceRestart (setsStatus "brb")).state.snapshot 0,
      c.getStr "status" = some "online".toList := by
    decide +kernel
  have hstatus : some status = some "brb".toList := htold.symm.trans hpushed
  have hdiffers := (honline c hc).symm.trans ((hshown c hc hcw).trans hstatus)
  revert hdiffers
  decide

end Sample

end Relay

end Winkd.Server
