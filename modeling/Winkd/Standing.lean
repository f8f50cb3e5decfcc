import Winkd.RelayRuns

/-!
# What a connection has still to do

Between two steps that belong together a connection stands under an obligation: once it
has registered it has to write its presence, to announce it and to drain the queue; once
it has created a block it has to clear the requests.  `Standing` is read off its replies.
A connection owes nothing while it waits for a frame, and is then registered; when it has
ended, it is not (`handleSocket_standing`).
-/

namespace Winkd.Server

/-- How a connection stands. -/
structure Standing where
  /-- Its channel, with its user. -/
  channel : Option (Id × ℕ)
  /-- The session that it has registered for its user, until it comes to remove it. -/
  registered : Option (Id × ClientSession)
  /-- Whose presence it has still to write. -/
  presence : Option Id
  /-- Whose presence it has still to announce. -/
  announcement : Option Id
  /-- Whose queue it has still to drain. -/
  drain : Option Id
  /-- Between whom it has still to clear the requests. -/
  clearing : Option (Id × Id)
  /-- Who had contacts, when it last asked. -/
  heard : Option Id

namespace Standing

/-- What a connection starts with. -/
def none : Standing := ⟨.none, .none, .none, .none, .none, .none, .none⟩

/-- It owes nothing. -/
structure Idle (d : Standing) : Prop where
  presence : d.presence = .none
  announcement : d.announcement = .none
  drain : d.drain = .none
  clearing : d.clearing = .none

/-- What a connection may do. -/
def may (d : Standing) : RelayOp → Prop
  | .unboundedChannel _ => d = none
  | .clientsInsert u session =>
      d.Idle ∧ d.registered = .none ∧ d.channel = some (u, session.sender)
  | .clientsRemove u sessionId =>
      d.Idle ∧ ∃ session, d.registered = some (u, session) ∧ session.sessionId = sessionId
  | .sendToAll _ _ => ∃ u c, d.channel = some (u, c) ∧ d.heard = some u
  | .createBlock _ _ => d.clearing = .none
  | .acceptContactRequest _ _ => d.clearing = .none
  | .nextFrame =>
      d.Idle ∧ ∃ u session, d.channel = some (u, session.sender) ∧ d.registered = some (u, session)
  | _ => True

/-- What a reply makes of it. -/
def seen (d : Standing) : (r : RelayOp) → r.Reply → Standing
  | .unboundedChannel u => fun c => { d with channel := some (u, c) }
  | .clientsInsert u session => fun _ =>
      { d with
        registered := some (u, session), presence := some u, announcement := some u
        drain := some u }
  | .clientsRemove u _ => fun removed =>
      if removed then
        { d with registered := .none, presence := some u, announcement := some u }
      else { d with registered := .none }
  | .presenceSet u _ => fun _ => { d with presence := d.presence.filter (· ≠ u) }
  | .presenceRemove u => fun _ => { d with presence := d.presence.filter (· ≠ u) }
  | .listAcceptedContactUserIds u => fun ids =>
      if (ids.toOption.getD []).isEmpty then
        { d with announcement := d.announcement.filter (· ≠ u), heard := .none }
      else { d with heard := some u }
  | .sendToAll _ _ => fun _ =>
      { d with announcement := d.announcement.filter fun u => d.channel.map Prod.fst ≠ some u }
  | .drainPendingMessages u => fun _ => { d with drain := d.drain.filter (· ≠ u) }
  | .createBlock a b => fun created =>
      if created.toBool then { d with clearing := some (a, b) } else d
  | .clearPendingContactRequestsBetween a b => fun _ =>
      { d with clearing := d.clearing.filter (· ≠ (a, b)) }
  | _ => fun _ => d

/-! ## Owing less -/

/-- What is owed is the same, or is owed no more. -/
structure Eased (d d' : Standing) : Prop where
  channel : d'.channel = d.channel
  registered : d'.registered = d.registered
  presence : d'.presence = d.presence ∨ d'.presence = .none
  announcement : d'.announcement = d.announcement ∨ d'.announcement = .none
  drain : d'.drain = d.drain ∨ d'.drain = .none
  clearing : d'.clearing = d.clearing ∨ d'.clearing = .none

theorem Eased.refl (d : Standing) : Eased d d :=
  ⟨rfl, rfl, .inl rfl, .inl rfl, .inl rfl, .inl rfl⟩

theorem eased_trans {α : Type} {a b c : Option α} (h : b = a ∨ b = .none) (h' : c = b ∨ c = .none) :
    c = a ∨ c = .none := by
  rcases h' with rfl | h'
  · exact h
  · exact .inr h'

theorem Eased.trans {a b c : Standing} (h : Eased a b) (h' : Eased b c) : Eased a c where
  channel := h'.channel.trans h.channel
  registered := h'.registered.trans h.registered
  presence := eased_trans h.presence h'.presence
  announcement := eased_trans h.announcement h'.announcement
  drain := eased_trans h.drain h'.drain
  clearing := eased_trans h.clearing h'.clearing

theorem eased_none {α : Type} {a b : Option α} (h : b = a ∨ b = .none) (ha : a = .none) :
    b = .none := h.elim (fun h => h.trans ha) fun h => h

theorem Idle.eased {d d' : Standing} (hd : d.Idle) (h : Eased d d') : d'.Idle :=
  ⟨eased_none h.presence hd.presence, eased_none h.announcement hd.announcement,
    eased_none h.drain hd.drain, eased_none h.clearing hd.clearing⟩

theorem filter_eased {α : Type} (p : α → Bool) (o : Option α) :
    o.filter p = o ∨ o.filter p = .none := by
  cases o with
  | none => exact .inr rfl
  | some a =>
    rw [Option.filter_some]
    split
    · exact .inl rfl
    · exact .inr rfl

/-- The points that need nothing and add no obligation. -/
def Eases : RelayOp → Bool
  | .unboundedChannel _ => false
  | .clientsInsert _ _ => false
  | .clientsRemove _ _ => false
  | .sendToAll _ _ => false
  | .createBlock _ _ => false
  | .acceptContactRequest _ _ => false
  | .nextFrame => false
  | _ => true

theorem eases_step (d : Standing) (r : RelayOp) (hr : Eases r = true) :
    d.may r ∧ ∀ x, Eased d (d.seen r x) := by
  have h := Eased.refl d
  cases r with
  | presenceSet u entry => exact ⟨trivial, fun _ => { h with presence := filter_eased _ _ }⟩
  | presenceRemove u => exact ⟨trivial, fun _ => { h with presence := filter_eased _ _ }⟩
  | listAcceptedContactUserIds u =>
    refine ⟨trivial, fun ids => ?_⟩
    simp only [seen]
    split
    · exact { h with announcement := filter_eased _ _ }
    · exact ⟨rfl, rfl, .inl rfl, .inl rfl, .inl rfl, .inl rfl⟩
  | drainPendingMessages u => exact ⟨trivial, fun _ => { h with drain := filter_eased _ _ }⟩
  | clearPendingContactRequestsBetween a b =>
    exact ⟨trivial, fun _ => { h with clearing := filter_eased _ _ }⟩
  | unboundedChannel u => cases hr
  | clientsInsert u session => cases hr
  | clientsRemove u sessionId => cases hr
  | sendToAll ids item => cases hr
  | createBlock a b => cases hr
  | acceptContactRequest id t => cases hr
  | nextFrame => cases hr
  | _ => exact ⟨trivial, fun _ => h⟩

theorem common_eases (u : Id) (r : RelayOp) (hr : r.Common u) : Eases r = true := by
  cases r <;> first | rfl | exact False.elim hr

end Standing

/-! ## The connections stand so -/

/-- The connection goes along, from `d`, to a point where `Q` holds. -/
abbrev Stands {α : Type} (d : Standing) (Q : Standing → Prop) (p : RelayProg α) : Prop :=
  p.Along Standing.may Standing.seen (fun d _ => Q d) d

/-- The connection owes at the end what it owed, or less. -/
abbrev Easy (d : Standing) {α : Type} (p : RelayProg α) : Prop := Stands d d.Eased p

theorem stands_bind {α β : Type} {d : Standing} {M Q : Standing → Prop} {p : RelayProg α}
    {f : α → RelayProg β} (hp : Stands d M p) (hf : ∀ d' a, M d' → Stands d' Q (f a)) :
    Stands d Q (p >>= f) := (Prog.along_bind p f).mpr (hp.mono (fun _ _ h => h) hf)

/-- From each of some standings, a program comes back to them. -/
theorem easy_compositional (u : Id) (I : Standing → Prop)
    (hI : ∀ d d', I d → d.Eased d' → I d') :
    Compositional u fun _ p => ∀ d, I d → Easy d p where
  pure _ d _ := Standing.Eased.refl d
  bind hp hf d hd := stands_bind (hp d hd) fun d' a h =>
    (hf a d' (hI d d' hd h)).mono (fun _ _ h => h) fun _ _ h' => h.trans h'
  common r hr d _ := Standing.eases_step d r (Standing.common_eases u r hr)

/-- A broadcast, and then nothing is to be announced for the user. -/
theorem stands_broadcastPresence (user : Member) (status : Text) (d : Standing) {c : ℕ}
    (hc : d.channel = some (user.id, c)) :
    Stands d (fun d' => d.Eased d' ∧ d'.announcement ≠ some user.id)
      (broadcastPresenceToContacts user status) := by
  have hfilter : d.announcement.filter (· ≠ user.id) ≠ some user.id := by
    intro h
    have := (Option.filter_eq_some_iff.mp h).2
    simp at this
  refine ⟨trivial, ?_⟩
  intro ids
  have hpaid : (ids.toOption.getD []).isEmpty = true →
      d.Eased (d.seen (.listAcceptedContactUserIds user.id) ids) ∧
        (d.seen (.listAcceptedContactUserIds user.id) ids).announcement ≠ some user.id := by
    intro he
    refine ⟨(Standing.eases_step d _ rfl).2 ids, ?_⟩
    simp only [Standing.seen, he, if_true]
    exact hfilter
  cases ids with
  | error e => exact hpaid rfl
  | ok ids =>
    cases ids with
    | nil => exact hpaid rfl
    | cons id ids =>
      refine ⟨⟨user.id, c, hc, rfl⟩, ?_⟩
      intro _
      have hchannel : (d.seen (.listAcceptedContactUserIds user.id) (.ok (id :: ids))).channel =
          some (user.id, c) := hc
      refine ⟨⟨rfl, rfl, .inl rfl, Standing.filter_eased _ _, .inl rfl, .inl rfl⟩, ?_⟩
      intro h
      have hp := (Option.filter_eq_some_iff.mp h).2
      rw [hchannel] at hp
      simp at hp

/-- A point that needs nothing. -/
theorem easy_await (d : Standing) {r : RelayOp} (hr : Standing.Eases r = true) : Easy d (await r) :=
  Standing.eases_step d r hr

section Handlers
variable {F : Formats}

/-- Between a block and the clearing that follows nothing else is done. -/
theorem stands_block (user : Member) (tx : ℕ) (fields : List (String × Json)) (blockedId : Id)
    (winkdId displayName : Text) (avatarData : Option Text) {d : Standing} (hd : d.Idle) :
    Easy d (block F user tx fields blockedId winkdId displayName avatarData) := by
  refine ⟨hd.clearing, ?_⟩
  intro created
  cases created with
  | error e => exact ⟨trivial, fun _ => Standing.Eased.refl d⟩
  | ok _ =>
    have hcleared : d.Eased { d with
        clearing := (some (user.id, blockedId)).filter (· ≠ (user.id, blockedId)) } :=
      { Standing.Eased.refl d with clearing := .inr (by simp) }
    exact ⟨trivial, fun _ => ⟨trivial, fun _ => ⟨trivial, fun _ => hcleared⟩⟩⟩

/-- **A command leaves nothing to do.** -/
theorem stands_handleCommand (user : Member) (tx serial : ℕ) (cmd : ClientCommand) {d : Standing}
    (hd : d.Idle) {c : ℕ} (hc : d.channel = some (user.id, c)) :
    Easy d (handleCommand F user tx serial cmd) := by
  have hW := easy_compositional user.id (fun d => d.Idle ∧ d.channel = some (user.id, c))
    fun _ _ hd h => ⟨hd.1.eased h, h.channel.trans hd.2⟩
  refine through_handleCommand hW tx serial cmd ?_ ?_ ?_ ?_ ?_ ?_ ?_ ?_ d ⟨hd, hc⟩
  · exact fun _ => through_addTarget hW tx _ fun _ d _ => easy_await d rfl
  · exact fun _ _ _ d hd => ⟨hd.1.clearing, fun _ => .refl d⟩
  · exact fun _ d _ => easy_await d rfl
  · exact fun _ _ _ _ _ _ hd => stands_block user tx _ _ _ _ _ hd.1
  · exact fun _ d _ => easy_await d rfl
  · exact fun _ d _ => easy_await d rfl
  · intro status d hd
    exact (stands_broadcastPresence user status d hd.2).mono (fun _ _ h => h) fun _ _ h => h.1
  · exact fun payload => through_relayMessage hW tx serial payload fun w _ =>
      through_deliver hW tx w _ payload (fun _ _ _ _ d _ => easy_await d rfl)
        fun _ _ d _ => easy_await d rfl

/-- Waiting for frames: registered, and with nothing to do. -/
def Standing.Loops (u : Id) (session : ClientSession) (d : Standing) : Prop :=
  d.Idle ∧ d.channel = some (u, session.sender) ∧ d.registered = some (u, session)

theorem Standing.Loops.eased {u : Id} {session : ClientSession} {d d' : Standing}
    (hd : d.Loops u session) (h : d.Eased d') : d'.Loops u session :=
  ⟨hd.1.eased h, h.channel.trans hd.2.1, h.registered.trans hd.2.2⟩

theorem stands_receiveLoop (user : Member) (session : ClientSession) (frames : List Frame)
    {d : Standing} (hd : d.Loops user.id session) :
    Stands d (Standing.Loops user.id session) (receiveLoop F user session.sender frames) := by
  have hframe : d.may .nextFrame := ⟨hd.1, user.id, session, hd.2⟩
  induction frames generalizing d with
  | nil => exact ⟨hframe, fun _ => hd⟩
  | cons frame frames ih =>
    cases frame with
    | close => exact ⟨hframe, fun _ => hd⟩
    | other => exact ⟨hframe, fun _ => ih hd hframe⟩
    | text json =>
      refine ⟨hframe, ?_⟩
      intro serial
      dsimp only [Prog.bind]
      split
      · refine stands_bind (stands_handleCommand user session.sender serial _ hd.1 hd.2.1) ?_
        intro d' _ h
        have hd' := hd.eased h
        exact ih hd' ⟨hd'.1, user.id, session, hd'.2⟩
      · exact ih hd hframe

theorem easy_pushQueued (user : Member) (tx : ℕ) (queued : List PendingMessageDelivery)
    (d : Standing) : Easy d (pushQueued user tx queued) := by
  have hW := easy_compositional user.id (fun _ => True) fun _ _ _ _ => trivial
  exact through_pushQueued hW tx (fun _ d _ => easy_await d rfl) queued d trivial

/-- After its queue has been drained a connection has no queue to drain. -/
theorem stands_flushQueued (user : Member) (tx : ℕ) (d : Standing) :
    Stands d (fun d' => d.Eased d' ∧ d'.drain ≠ some user.id) (flushQueued user tx) := by
  have hdrained : d.drain.filter (· ≠ user.id) ≠ some user.id := by
    intro h
    have := (Option.filter_eq_some_iff.mp h).2
    simp at this
  have heased := (Standing.eases_step d (.drainPendingMessages user.id) rfl).2
  refine ⟨trivial, ?_⟩
  intro queued
  cases queued with
  | error e => exact ⟨heased (.error e), hdrained⟩
  | ok queued =>
    refine (easy_pushQueued user tx queued _).mono (fun _ _ h => h) fun d' _ h => ?_
    refine ⟨(heased (.ok queued)).trans h, ?_⟩
    rcases h.drain with h | h
    · rw [h]
      exact hdrained
    · rw [h]
      exact fun h => nomatch h

theorem eased_ne {α : Type} {a b : Option α} {x : α} (h : b = a ∨ b = none) (ha : a = some x)
    (hb : b ≠ some x) : b = none := h.resolve_left fun h => hb (h.trans ha)

theorem filter_ne_self (u : Id) : (some u).filter (· ≠ u) = none := by
  simp

/-- From its registration to its receive loop a connection does what it has to do. -/
theorem stands_setUp (user : Member) (session : ClientSession) {d : Standing}
    (hchannel : d.channel = some (user.id, session.sender))
    (hregistered : d.registered = some (user.id, session)) (hpresence : d.presence = none)
    (hannouncement : d.announcement = some user.id) (hdrain : d.drain = some user.id)
    (hclearing : d.clearing = none) {α : Type} {Q : Standing → Prop} {k : RelayProg α}
    (hk : ∀ d, Standing.Loops user.id session d → Stands d Q k) :
    Stands d Q (do
      broadcastPresenceToContacts user "online".toList
      flushRoster user session.sender
      flushPendingInbound F user session.sender
      flushQueued user session.sender
      await (.spawnSendTask session.sender)
      k) := by
  have hW := easy_compositional user.id (fun _ => True) fun _ _ _ _ => trivial
  refine stands_bind (stands_broadcastPresence user _ d hchannel) fun d₁ _ h₁ => ?_
  have hroster : Easy d₁ (flushRoster user session.sender) :=
    through_flushRoster hW session.sender (fun d _ => easy_await d rfl)
      (fun _ d _ => easy_await d rfl)
      (fun _ => hW.bind (fun d _ => easy_await d rfl) fun _ => hW.pure ()) d₁ trivial
  refine stands_bind hroster fun d₂ _ h₂ => ?_
  refine stands_bind (through_flushPendingInbound hW session.sender d₂ trivial) fun d₃ _ h₃ => ?_
  refine stands_bind (stands_flushQueued user session.sender d₃) fun d₄ _ h₄ => ?_
  refine ⟨trivial, fun _ => hk d₄ ?_⟩
  have hlate := (h₂.trans h₃).trans h₄.1
  have hall := h₁.1.trans hlate
  refine ⟨⟨?_, ?_, ?_, ?_⟩, hall.channel.trans hchannel, hall.registered.trans hregistered⟩
  · exact Standing.eased_none hall.presence hpresence
  · exact Standing.eased_none hlate.announcement (eased_ne h₁.1.announcement hannouncement h₁.2)
  · exact eased_ne hall.drain hdrain h₄.2
  · exact Standing.eased_none hall.clearing hclearing

theorem stands_disconnect (user : Member) (session : ClientSession) {d : Standing}
    (hd : d.Loops user.id session) :
    Stands d (fun d => d.Idle ∧ d.registered = none) (disconnect user session.sessionId) := by
  refine ⟨⟨hd.1, session, hd.2.2, rfl⟩, ?_⟩
  intro active
  cases active with
  | false => exact ⟨⟨hd.1.presence, hd.1.announcement, hd.1.drain, hd.1.clearing⟩, rfl⟩
  | true =>
    refine ⟨trivial, fun _ => ?_⟩
    have hbroadcast := stands_broadcastPresence user "offline".toList
      { d with
        registered := none, presence := (some user.id).filter (· ≠ user.id)
        announcement := some user.id } hd.2.1
    refine hbroadcast.mono (fun _ _ h => h) fun d' _ h => ?_
    refine ⟨⟨?_, ?_, ?_, ?_⟩, h.1.registered⟩
    · exact Standing.eased_none h.1.presence (filter_ne_self user.id)
    · exact eased_ne h.1.announcement rfl h.2
    · exact Standing.eased_none h.1.drain hd.1.drain
    · exact Standing.eased_none h.1.clearing hd.1.clearing

theorem stands_serveSession (user : Member) (frames : List Frame) :
    Stands .none (fun d => d.Idle ∧ d.registered = none) (serveSession F user frames) := by
  refine ⟨rfl, fun tx => ⟨trivial, fun sessionId => ?_⟩⟩
  refine ⟨⟨⟨rfl, rfl, rfl, rfl⟩, rfl, rfl⟩, fun _ => ⟨trivial, fun _ => ?_⟩⟩
  refine stands_setUp user ⟨sessionId, tx⟩ rfl rfl (filter_ne_self user.id) rfl rfl rfl fun d hd => ?_
  refine stands_bind (stands_receiveLoop user ⟨sessionId, tx⟩ frames hd) fun d' _ hd' => ?_
  refine stands_bind (stands_disconnect user ⟨sessionId, tx⟩ hd') fun d'' _ hd'' => ?_
  exact ⟨trivial, fun _ => hd''⟩

/-- **A connection owes nothing where it waits for a frame, and nothing once it has ended.** -/
theorem handleSocket_standing (socket : Socket) :
    Stands .none (fun d => d.Idle ∧ d.registered = none) (handleSocket F socket) := by
  have hnone : Standing.none.Idle ∧ Standing.none.registered = none := ⟨⟨rfl, rfl, rfl, rfl⟩, rfl⟩
  have hrefuse : ∀ reason, Stands .none (fun d => d.Idle ∧ d.registered = none) (refuse reason) :=
    fun _ => ⟨trivial, fun _ => hnone⟩
  unfold handleSocket
  split
  · split
    · refine ⟨trivial, ?_⟩
      intro user
      rcases user with e | user | user
      · exact hrefuse _
      · exact hrefuse _
      · refine ⟨trivial, fun _ => ⟨trivial, fun _ => ⟨trivial, fun _ => ⟨trivial, ?_⟩⟩⟩⟩
        intro sent
        cases sent with
        | false => exact hnone
        | true => exact stands_serveSession user _
    · exact hrefuse _
  · exact hrefuse _

end Handlers

/-! ## In a run -/

namespace Relay

/-- How connection `i` stands. -/
def standing (s : Relay) (i : ℕ) : Standing := Threads.Pool.learned Standing.seen .none i s.trace

theorem answered_state (s : Relay) (i : ℕ) (r : RelayOp) (k : r.Reply → RelayProg Unit) :
    (s.answered i r k).state = (serve r s.state).2 := rfl

theorem standing_own (s : Relay) (i : ℕ) (r : RelayOp) (k : r.Reply → RelayProg Unit) :
    (s.answered i r k).standing i = (s.standing i).seen r (serve r s.state).1 :=
  Threads.Pool.learned_own rfl _

theorem standing_other (s : Relay) {i j : ℕ} (hij : i ≠ j) (r : RelayOp)
    (k : r.Reply → RelayProg Unit) : (s.answered i r k).standing j = s.standing j :=
  Threads.Pool.learned_other hij _

variable {F : Formats} {allowed : Relay → RelayEvent → Prop} {s₀ : AppState} {s : Relay}

/-- The connections of a run stand so. -/
theorem stands (h : Transitions.Reaches (next F) allowed (Threads.Pool.idle s₀) s) :
    s.Follows Standing.may Standing.seen .none fun d => d.Idle ∧ d.registered = none :=
  follows (fun socket => handleSocket_standing socket) h

/-- A connection that rests owes nothing. -/
theorem idle_of_resting (h : Transitions.Reaches (next F) allowed (Threads.Pool.idle s₀) s) {i : ℕ}
    (hi : ∀ p, s.tasks[i]? = some p → Threads.Pool.resting RelayOp.isNextFrame p = true) :
    (s.standing i).Idle := by
  refine (stands h).of_resting (I := Standing.Idle) ⟨rfl, rfl, rfl, rfl⟩ (fun _ h => h.1) ?_ hi
  intro d r hr hmay
  cases r with
  | nextFrame => exact hmay.1
  | _ => cases hr

end Relay
end Winkd.Server
