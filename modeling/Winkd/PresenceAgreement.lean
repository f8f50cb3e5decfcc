import Winkd.Contacts
import Winkd.Custody
import Winkd.Standing

/-!
# Registration and presence

A connection that registers writes its user's presence and broadcasts it; one that removes
the registration does the same.  The map of the sessions and the presence store have locks
of their own, so these are separate steps, and the steps of several connections of one
user interleave.  The two agree, and so does the last broadcast, where no handler is
mid-way, if each connection that writes or broadcasts something that is not so any more
leaves another that has still to (`registration_presence_agree`).  The code does not see
to that: a connection that reconnects may come in between.

The runs are those of connections that are set up and closed: no frame is a command.
-/

namespace Winkd.Server

/-- The relay is started anew: the database is what it was. -/
def AppState.restarted (s : AppState) : AppState :=
  { s with clients := fun _ => none, presence := fun _ => none, channels := [], received := 0 }

def Frame.isCommand : Frame → Bool
  | .text json => (json.bind ClientCommand.ofJson).isSome
  | _ => false

/-- No frame after the first, which authenticates, is a command. -/
def Socket.Silent (socket : Socket) : Prop := ∀ frame ∈ socket.frames.tail, frame.isCommand = false

def RelayEvent.Silent : RelayEvent → Prop
  | .connect socket => socket.Silent
  | _ => True

/-- The status that a presence event shows. -/
def Json.presenceStatus (j : Json) : Option Text :=
  if j.getStr "event" = some "presence".toList then (j.get "payload").bind (Json.getStr "status")
  else none

/-- The statuses that connections of a user have broadcast to the contacts, latest first. -/
def announced (u : Id) : List RelayEntry → List Text
  | [] => []
  | e :: l =>
    match e.request with
    | .sendToAll _ item =>
        if (Threads.Pool.learned Standing.seen .none e.task l).channel.map Prod.fst = some u then
          item.text.presenceStatus.toList ++ announced u l
        else announced u l
    | _ => announced u l

def AppState.isRegistered (s : AppState) (u : Id) : Bool := (s.clients u).isSome

def AppState.isPresent (s : AppState) (u : Id) : Bool := (s.presence u).isSome

/-- The point writes the user's presence entry. -/
def RelayOp.WritesPresenceOf (u : Id) : RelayOp → Prop
  | .presenceSet v _ => v = u
  | .presenceRemove v => v = u
  | _ => False

/-- What the contacts of a user are to see. -/
def AppState.shownOnline (s : AppState) (u : Id) : Text :=
  if s.isRegistered u then "online".toList else "offline".toList

namespace Relay
variable {F : Formats}

/-- Another connection of the user has still to do so. -/
def DueFrom (s : Relay) (owed : Standing → Option Id) (i : ℕ) (u : Id) : Prop :=
  ∃ j < s.tasks.length, j ≠ i ∧ owed (s.standing j) = some u

/-- What a connection writes to the presence store, or broadcasts, is so, or another
connection of the user has still to write, or broadcast. -/
def WritesAgree (s : Relay) : RelayEvent → Prop
  | .step i =>
    match s.waiting i with
    | some (.presenceSet u _) => s.state.isRegistered u = true ∨ s.DueFrom Standing.presence i u
    | some (.presenceRemove u) => s.state.isRegistered u = false ∨ s.DueFrom Standing.presence i u
    | some (.sendToAll _ item) => ∀ u ∈ (s.standing i).channel.map Prod.fst,
        item.text.presenceStatus = some (s.state.shownOnline u) ∨
          s.DueFrom Standing.announcement i u
    | _ => True
  | _ => True

/-- The states that a relay comes to, from its start, as connections are set up and
closed. -/
def ReachedSilent (F : Formats) (s : Relay) : Prop :=
  ∃ s₀ : AppState, Transitions.Reaches (Relay.next F) (fun _ e => e.Silent)
    (Threads.Pool.idle s₀.restarted) s

/-- The states that it comes to by steps that agree. -/
def ReachedAgreeing (F : Formats) (s : Relay) : Prop :=
  ∃ s₀ : AppState, Transitions.Reaches (Relay.next F) (fun s e => e.Silent ∧ s.WritesAgree e)
    (Threads.Pool.idle s₀.restarted) s

end Relay

/-! ## The contacts stay as they are -/

/-- The point writes neither the requests nor the blocks. -/
def RelayOp.KeepsContacts (r : RelayOp) : Prop := r.writesRequests = false ∧ r.writesBlocks = false

theorem RelayOp.KeepsContacts.contacts {r : RelayOp} (hr : r.KeepsContacts) (s : AppState) (u : Id) :
    (serve r s).2.listAcceptedContactUserIds u = s.listAcceptedContactUserIds u := by
  have hunwritten := serve_unwritten r s
  simp only [AppState.listAcceptedContactUserIds, hunwritten.contactRequests hr.1,
    AppState.isBlockedBetween_congr (hunwritten.blocks hr.2)]

theorem AppState.outside_contacts (s : AppState) (e : RelayEvent) (u : Id) :
    (s.outside e).listAcceptedContactUserIds u = s.listAcceptedContactUserIds u := by
  cases e <;> rfl

theorem common_keepsContacts (u : Id) (r : RelayOp) (hr : r.Common u) : r.KeepsContacts := by
  cases r <;> first | exact ⟨rfl, rfl⟩ | exact False.elim hr

section Handlers
variable {F : Formats} (user : Member)

theorem keepsContacts_compositional :
    Compositional user.id fun _ p => p.Asks RelayOp.KeepsContacts :=
  asks_compositional (common_keepsContacts user.id)

theorem keepsContacts_await {r : RelayOp} (hr : r.KeepsContacts) :
    (await r).Asks RelayOp.KeepsContacts := Prog.asks_ask hr

theorem keepsContacts_broadcast (status : Text) :
    (broadcastPresenceToContacts user status).Asks RelayOp.KeepsContacts :=
  through_broadcastPresence (keepsContacts_compositional user) status
    (keepsContacts_await ⟨rfl, rfl⟩) fun _ => keepsContacts_await ⟨rfl, rfl⟩

theorem keepsContacts_flushQueued (tx : ℕ) :
    (flushQueued user tx).Asks RelayOp.KeepsContacts := by
  exact through_flushQueued (keepsContacts_compositional user) tx (keepsContacts_await ⟨rfl, rfl⟩)
    fun _ => keepsContacts_await ⟨rfl, rfl⟩

theorem keepsContacts_receiveLoop (tx : ℕ) (frames : List Frame)
    (hframes : ∀ frame ∈ frames, frame.isCommand = false) :
    (receiveLoop F user tx frames).Asks RelayOp.KeepsContacts := by
  refine through_receiveLoop (keepsContacts_compositional user) tx (keepsContacts_await ⟨rfl, rfl⟩) frames ?_
  intro json hmem cmd hcmd serial
  -- no frame is a command
  have hno := hframes _ hmem
  rw [Frame.isCommand, show json.bind ClientCommand.ofJson = some cmd from hcmd] at hno
  cases hno

theorem keepsContacts_disconnect (sessionId : Id) :
    (disconnect user sessionId).Asks RelayOp.KeepsContacts := by
  exact through_disconnect (keepsContacts_compositional user) sessionId (keepsContacts_await ⟨rfl, rfl⟩)
    (keepsContacts_await ⟨rfl, rfl⟩) (keepsContacts_broadcast user _)

theorem keepsContacts_serveSession {frames : List Frame}
    (hframes : ∀ frame ∈ frames, frame.isCommand = false) :
    (serveSession F user frames).Asks RelayOp.KeepsContacts := by
  have hW := keepsContacts_compositional user
  have hask : ∀ {r : RelayOp}, r.KeepsContacts → (await r).Asks RelayOp.KeepsContacts :=
    keepsContacts_await
  refine hW.bind (hask ⟨rfl, rfl⟩) fun tx => hW.bind (hask ⟨rfl, rfl⟩) fun sessionId => ?_
  refine hW.bind (hask ⟨rfl, rfl⟩) fun _ => hW.bind (hask ⟨rfl, rfl⟩) fun _ => ?_
  refine hW.bind (keepsContacts_broadcast user _) fun _ => ?_
  refine hW.bind (through_flushRoster hW tx (hask ⟨rfl, rfl⟩) (fun _ => hask ⟨rfl, rfl⟩)
    fun _ => hW.bind (hask ⟨rfl, rfl⟩) fun _ => hW.pure ()) fun _ => ?_
  refine hW.bind (through_flushPendingInbound hW tx) fun _ => ?_
  refine hW.bind (keepsContacts_flushQueued user tx) fun _ => hW.bind (hask ⟨rfl, rfl⟩) fun _ => ?_
  refine hW.bind (keepsContacts_receiveLoop user tx frames hframes) fun _ => ?_
  exact hW.bind (keepsContacts_disconnect user sessionId) fun _ => hask ⟨rfl, rfl⟩

/-- **A connection without commands changes no contacts.** -/
theorem keepsContacts_handleSocket {socket : Socket} (hs : socket.Silent) :
    (handleSocket F socket).Asks RelayOp.KeepsContacts := by
  have hask : ∀ {r : RelayOp}, r.KeepsContacts → (await r).Asks RelayOp.KeepsContacts :=
    keepsContacts_await
  have hrefuse : ∀ reason, (refuse reason).Asks RelayOp.KeepsContacts :=
    fun _ => ⟨⟨rfl, rfl⟩, fun _ => trivial⟩
  unfold handleSocket
  split
  · split
    · refine Prog.asks_bind (hask ⟨rfl, rfl⟩) fun user => ?_
      rcases user with e | user | user
      · exact hrefuse _
      · exact hrefuse _
      · refine Prog.asks_bind (hask ⟨rfl, rfl⟩) fun now => ?_
        refine Prog.asks_bind (hask ⟨rfl, rfl⟩) fun now => ?_
        refine Prog.asks_bind (hask ⟨rfl, rfl⟩) fun used => ?_
        refine Prog.asks_bind (hask ⟨rfl, rfl⟩) fun sent => ?_
        cases sent with
        | false => exact Prog.asks_pure ()
        | true => exact keepsContacts_serveSession user hs
    · exact hrefuse _
  · exact hrefuse _

end Handlers

namespace Relay
variable {F : Formats} {allowed : Relay → RelayEvent → Prop} {s₀ : AppState} {s : Relay}

theorem keepsContacts (h : Transitions.Reaches (Relay.next F) allowed (Threads.Pool.idle s₀) s)
    (hsilent : ∀ s e, allowed s e → e.Silent) : ∀ p ∈ s.tasks, p.Asks RelayOp.KeepsContacts := by
  refine h.invariant (I := fun s : Relay => ∀ p ∈ s.tasks, p.Asks RelayOp.KeepsContacts)
    (fun _ h => nomatch h) fun s e hs he => ?_
  cases e with
  | connect socket =>
    intro p hp
    rcases List.mem_append.mp hp with hp | hp
    · exact hs p hp
    · rw [List.mem_singleton.mp hp]
      exact keepsContacts_handleSocket (hsilent s _ he)
  | step i =>
    show ∀ p ∈ (Threads.Pool.next serve s (.answer i)).tasks, p.Asks RelayOp.KeepsContacts
    rcases Threads.Pool.next_answer_cases (h := serve) s i with heq | ⟨r, k, hp, heq⟩
    · rw [heq]
      exact hs
    · rw [heq]
      intro p hmem
      rcases List.mem_or_eq_of_mem_set hmem with hmem | rfl
      · exact hs p hmem
      · exact (hs _ (List.mem_of_getElem? hp)).2 _
  | _ => exact hs

/-- A connection leaves everybody's contacts as they are. -/
theorem contacts_step (h : Transitions.Reaches (Relay.next F) allowed (Threads.Pool.idle s₀) s)
    (hsilent : ∀ s e, allowed s e → e.Silent) {i : ℕ} {r : RelayOp} {k : r.Reply → RelayProg Unit}
    (hp : s.tasks[i]? = some (.request r k)) (u : Id) :
    (serve r s.state).2.listAcceptedContactUserIds u = s.state.listAcceptedContactUserIds u :=
  (keepsContacts h hsilent _ (List.mem_of_getElem? hp)).1.contacts s.state u

/-! ## What has been broadcast -/

theorem announced_sendToAll (s : Relay) (i : ℕ) (ids : List Id) (item : Item)
    (k : Unit → RelayProg Unit) (u : Id) :
    announced u (s.answered i (.sendToAll ids item) k).trace =
      if (s.standing i).channel.map Prod.fst = some u then
        item.text.presenceStatus.toList ++ announced u s.trace
      else announced u s.trace := rfl

theorem announced_other (s : Relay) (i : ℕ) {r : RelayOp} {u : Id}
    (hr : ∀ ids item, r = .sendToAll ids item → (s.standing i).channel.map Prod.fst ≠ some u)
    (k : r.Reply → RelayProg Unit) :
    announced u (s.answered i r k).trace = announced u s.trace := by
  cases r with
  | sendToAll ids item => exact if_neg (hr ids item rfl)
  | _ => rfl

/-- Who has been heard of, or has announced anything, has contacts. -/
structure Heard (s : Relay) : Prop where
  heard : ∀ i u, (s.standing i).heard = some u → s.state.listAcceptedContactUserIds u ≠ []
  announced : ∀ u, announced u s.trace ≠ [] → s.state.listAcceptedContactUserIds u ≠ []

/-- Whom a connection has heard of has contacts. -/
theorem heard_step {d : Standing} {r : RelayOp} {s : AppState} {u : Id}
    (h : (d.seen r (serve r s).1).heard = some u) :
    d.heard = some u ∨ s.listAcceptedContactUserIds u ≠ [] := by
  cases r with
  | listAcceptedContactUserIds v =>
    by_cases hempty : (s.listAcceptedContactUserIds v).isEmpty = true
    · have hseen : (d.seen (.listAcceptedContactUserIds v)
          (serve (.listAcceptedContactUserIds v) s).1).heard = none := congrArg _ (if_pos hempty)
      rw [hseen] at h
      cases h
    · have hseen : (d.seen (.listAcceptedContactUserIds v)
          (serve (.listAcceptedContactUserIds v) s).1).heard = some v := congrArg _ (if_neg hempty)
      rw [hseen] at h
      cases h
      exact .inr fun hnil => hempty (by rw [hnil]; rfl)
  | clientsRemove v sessionId =>
    simp only [Standing.seen] at h
    split at h <;> exact .inl h
  | createBlock a b =>
    simp only [Standing.seen] at h
    split at h <;> exact .inl h
  | _ => exact .inl h

theorem heard_reached (h : Transitions.Reaches (Relay.next F) allowed (Threads.Pool.idle s₀) s)
    (hsilent : ∀ s e, allowed s e → e.Silent) : s.Heard := by
  refine run_invariant (fun socket => handleSocket_standing socket) h ?_ ?_ ?_ ?_
  · exact ⟨fun _ _ h => (nomatch h), fun _ h => absurd rfl h⟩
  · exact fun s p _ hs => ⟨hs.heard, hs.announced⟩
  · intro s e hs _
    refine ⟨fun i u h => ?_, fun u h => ?_⟩
    · rw [AppState.outside_contacts]
      exact hs.heard i u h
    · rw [AppState.outside_contacts]
      exact hs.announced u h
  · intro s i r k hreach hs _ hp hr
    have hsame := contacts_step hreach hsilent hp
    constructor
    · intro j u h
      rw [answered_state, hsame]
      by_cases hij : i = j
      · subst hij
        rw [standing_own] at h
        exact (heard_step h).elim (hs.heard i u) id
      · rw [standing_other s hij] at h
        exact hs.heard j u h
    · intro u h
      rw [answered_state, hsame]
      by_cases hsend : ∃ ids item, r = .sendToAll ids item ∧
          (s.standing i).channel.map Prod.fst = some u
      · obtain ⟨ids, item, rfl, hu⟩ := hsend
        obtain ⟨v, c, hchannel, hheard⟩ := hr
        have hv : some v = some u := (congrArg (Option.map Prod.fst) hchannel).symm.trans hu
        cases hv
        exact hs.heard i u hheard
      · rw [announced_other s i fun ids item h hu => hsend ⟨ids, item, h, hu⟩] at h
        exact hs.announced u h

/-! ## What a step changes -/

/-- A connection that changes whether a user is registered has to write the presence, and
to broadcast it. -/
theorem registered_step (d : Standing) (r : RelayOp) (s : AppState) (u : Id) :
    (serve r s).2.isRegistered u = s.isRegistered u ∨
      (d.seen r (serve r s).1).presence = some u ∧
        (d.seen r (serve r s).1).announcement = some u := by
  by_cases hw : r.writesClients = true
  · cases r with
    | clientsInsert v session =>
      by_cases hv : u = v
      · subst hv
        exact .inr ⟨rfl, rfl⟩
      · left
        simp only [serve, AppState.isRegistered, Function.update_of_ne hv]
    | clientsRemove v sessionId =>
      simp only [serve, AppState.clientsRemove]
      split
      · by_cases hv : u = v
        · subst hv
          exact .inr ⟨rfl, rfl⟩
        · left
          simp only [AppState.isRegistered, Function.update_of_ne hv]
      · exact .inl rfl
    | _ => cases hw
  · left
    rw [AppState.isRegistered, (serve_unwritten r s).clients (Bool.eq_false_iff.mpr hw)]
    rfl

/-- Only a write of it changes whether a user has a presence entry. -/
theorem present_step {r : RelayOp} {u : Id} (hr : ¬ r.WritesPresenceOf u) (s : AppState) :
    (serve r s).2.isPresent u = s.isPresent u := by
  by_cases hw : r.writesPresence = true
  · cases r with
    | presenceSet v entry =>
      have hv : u ≠ v := fun h => hr h.symm
      simp only [serve, AppState.isPresent, Function.update_of_ne hv]
    | presenceRemove v =>
      have hv : u ≠ v := fun h => hr h.symm
      simp only [serve, AppState.isPresent, Function.update_of_ne hv]
    | _ => cases hw
  · rw [AppState.isPresent, (serve_unwritten r s).presence (Bool.eq_false_iff.mpr hw)]
    rfl

/-- A write that agrees leaves an entry exactly where the user is registered, or another
connection has still to write. -/
theorem present_written {s : Relay} {i : ℕ} {r : RelayOp} (hagree : s.WritesAgree (.step i))
    (hwaiting : s.waiting i = some r) {u : Id} (hr : r.WritesPresenceOf u) :
    (serve r s.state).2.isPresent u = s.state.isRegistered u ∨
      s.DueFrom Standing.presence i u := by
  simp only [WritesAgree, hwaiting] at hagree
  cases r with
  | presenceSet v entry =>
    cases hr
    refine hagree.imp_left fun hreg => ?_
    rw [hreg]
    simp [serve, AppState.isPresent]
  | presenceRemove v =>
    cases hr
    refine hagree.imp_left fun hreg => ?_
    rw [hreg]
    simp [serve, AppState.isPresent]
  | _ => cases hr

/-- A connection that changes a registration has nothing to do before. -/
theorem idle_of_writesClients {d : Standing} {r : RelayOp} (hr : d.may r)
    (hw : r.writesClients = true) : d.Idle := by
  cases r with
  | clientsInsert v session => exact hr.1
  | clientsRemove v sessionId => exact hr.1
  | _ => cases hw

/-- What is to be written, only a write pays for. -/
theorem seen_presence {d : Standing} {r : RelayOp} (hr : d.may r) {u : Id}
    (hwrites : ¬ r.WritesPresenceOf u) (hd : d.presence = some u) (x : r.Reply) :
    (d.seen r x).presence = some u := by
  by_cases hw : r.writesClients = true
  · rw [(idle_of_writesClients hr hw).presence] at hd
    cases hd
  · cases r with
    | clientsInsert v session => exact absurd rfl hw
    | clientsRemove v sessionId => exact absurd rfl hw
    | presenceSet v entry =>
      have hv : u ≠ v := fun h => hwrites h.symm
      simp [Standing.seen, hd, hv]
    | presenceRemove v =>
      have hv : u ≠ v := fun h => hwrites h.symm
      simp [Standing.seen, hd, hv]
    | listAcceptedContactUserIds v =>
      simp only [Standing.seen]
      split <;> exact hd
    | createBlock a b =>
      simp only [Standing.seen]
      split <;> exact hd
    | _ => exact hd

/-! ## Debts -/

/-- Registration and presence differ. -/
def EntriesDiffer (u : Id) (s : AppState) : Prop := s.isPresent u ≠ s.isRegistered u

theorem presence_owed {s : Relay} (hs : s.ReachedAgreeing F) (u : Id) :
    Threads.Pool.Owed (fun d : Standing => d.presence = some u) (fun t _ => EntriesDiffer u t)
      Standing.seen .none s := by
  obtain ⟨s₀, hreach⟩ := hs
  refine run_invariant (fun socket => handleSocket_standing socket) hreach ?_ ?_ ?_ ?_
  · exact fun h => absurd rfl h
  · exact fun _ _ _ h => h
  · intro s e hs _ hbad
    refine hs ?_
    cases e <;> exact hbad
  · intro s i r k _ hs hallowed hp hr
    rcases registered_step (s.standing i) r s.state u with hsame | ⟨howes, -⟩
    · by_cases hwrites : r.WritesPresenceOf u
      · -- the entry is right now, or another connection has still to write it
        rcases present_written hallowed.2 (Threads.Pool.waiting_eq hp) hwrites with
          hpresent | ⟨j, -, hji, hj⟩
        · exact hs.answered fun hbad => absurd (hpresent.trans hsame.symm) hbad
        · exact Threads.Pool.owed_other (Ne.symm hji) hj
      · refine hs.answered fun hbad => .inr ⟨.inl ?_, fun hd => seen_presence hr hwrites hd _⟩
        rw [EntriesDiffer, present_step hwrites, hsame] at hbad
        exact hbad
    · -- who changes the registration has to write the entry
      exact hs.answered fun _ => .inl howes

/-- What is to be broadcast, only a broadcast pays for, or the news that there is nobody to
hear it. -/
theorem announcement_step {d : Standing} {r : RelayOp} (hr : d.may r) {s : AppState} {u : Id}
    (hlist : r = .listAcceptedContactUserIds u → s.listAcceptedContactUserIds u ≠ [])
    (hsend : ∀ ids item, r = .sendToAll ids item → d.channel.map Prod.fst ≠ some u)
    (hd : d.announcement = some u) : (d.seen r (serve r s).1).announcement = some u := by
  by_cases hw : r.writesClients = true
  · rw [(idle_of_writesClients hr hw).announcement] at hd
    cases hd
  · cases r with
    | clientsInsert v session => exact absurd rfl hw
    | clientsRemove v sessionId => exact absurd rfl hw
    | sendToAll ids item =>
      have hu : d.channel.map Prod.fst ≠ some u := hsend ids item rfl
      simp [Standing.seen, hd, hu]
    | listAcceptedContactUserIds v =>
      by_cases hempty : (s.listAcceptedContactUserIds v).isEmpty = true
      · have hv : u ≠ v := by
          rintro rfl
          exact hlist rfl (List.isEmpty_iff.mp hempty)
        have hseen : (d.seen (.listAcceptedContactUserIds v)
            (serve (.listAcceptedContactUserIds v) s).1).announcement =
              d.announcement.filter (· ≠ v) := congrArg _ (if_pos hempty)
        rw [hseen, hd]
        simp [hv]
      · have hseen : (d.seen (.listAcceptedContactUserIds v)
            (serve (.listAcceptedContactUserIds v) s).1) = { d with heard := some v } :=
          if_neg hempty
        rw [hseen]
        exact hd
    | createBlock a b =>
      simp only [Standing.seen]
      split <;> exact hd
    | _ => exact hd

/-- The contacts of a user have not been told last what is so. -/
def BroadcastDiffers (u : Id) (s : AppState) (l : List RelayEntry) : Prop :=
  s.listAcceptedContactUserIds u ≠ [] ∧
    (announced u l).head?.getD "offline".toList ≠ s.shownOnline u

theorem announcement_owed {s : Relay} (hs : s.ReachedAgreeing F) (u : Id) :
    Threads.Pool.Owed (fun d : Standing => d.announcement = some u) (BroadcastDiffers u)
      Standing.seen .none s := by
  obtain ⟨s₀, hreach⟩ := hs
  refine run_invariant (fun socket => handleSocket_standing socket) hreach ?_ ?_ ?_ ?_
  · exact fun h => absurd rfl h.2
  · exact fun _ _ _ h => h
  · intro s e hs _ hbad
    refine hs ?_
    cases e <;> exact hbad
  · intro s i r k hreach hs hallowed hp hr
    have hagree := hallowed.2
    simp only [WritesAgree, Threads.Pool.waiting_eq hp] at hagree
    have hcontacts := contacts_step hreach (fun _ _ h => h.1) hp u
    rcases registered_step (s.standing i) r s.state u with hsame | ⟨-, howes⟩
    · have hshown : (serve r s.state).2.shownOnline u = s.state.shownOnline u := by
        rw [AppState.shownOnline, hsame]
        rfl
      by_cases hsend : ∃ ids item, r = .sendToAll ids item ∧
          (s.standing i).channel.map Prod.fst = some u
      · -- what is broadcast now is so, or another connection has still to broadcast
        obtain ⟨ids, item, rfl, hu⟩ := hsend
        rcases hagree u hu with hstatus | ⟨j, -, hji, hj⟩
        · refine hs.answered fun hbad => absurd ?_ hbad.2
          have hannounced := announced_sendToAll s i ids item k u
          rw [if_pos hu, hstatus] at hannounced
          rw [hshown]
          exact congrArg (fun l => (List.head? l).getD "offline".toList) hannounced
        · exact Threads.Pool.owed_other (Ne.symm hji) hj
      · have hquiet : ∀ ids item, r = .sendToAll ids item →
            (s.standing i).channel.map Prod.fst ≠ some u :=
          fun ids item h hu => hsend ⟨ids, item, h, hu⟩
        have hannounced := announced_other s i hquiet k
        refine hs.answered fun hbad => .inr ⟨.inl ?_, fun hd => announcement_step hr ?_ hquiet hd⟩
        · obtain ⟨hne, hbad⟩ := hbad
          rw [hshown] at hbad
          rw [hcontacts] at hne
          refine ⟨hne, fun h => hbad ?_⟩
          exact (congrArg (fun l => (List.head? l).getD "offline".toList) hannounced).trans h
        · rintro rfl
          exact hbad.1
    · -- who changes the registration has to broadcast it
      exact hs.answered fun _ => .inl howes

/-! ## The result -/

/-- A user is registered if and only if the user has a presence entry, and what the
contacts were told last is so. -/
structure PresenceAgrees (s : Relay) (u : Id) : Prop where
  entries : s.state.isRegistered u = s.state.isPresent u
  broadcast : ∀ status ∈ (announced u s.trace).head?, status = s.state.shownOnline u
  told : s.state.isRegistered u = true → s.state.listAcceptedContactUserIds u ≠ [] →
    announced u s.trace ≠ []

/-- **Registration and presence agree** in every state where no handler is mid-way, if what
is written and broadcast is so, or is still to be written and broadcast by another. -/
theorem registration_presence_agree {s : Relay} (hs : s.ReachedAgreeing F) (hrest : s.AtRest)
    (u : Id) : s.PresenceAgrees u := by
  have hidle : ∀ i, (s.standing i).Idle := by
    obtain ⟨s₀, hreach⟩ := hs
    exact fun i => idle_of_resting hreach fun p hp => hrest p (List.mem_of_getElem? hp)
  have hentries : ¬ EntriesDiffer u s.state := by
    refine (presence_owed hs u).settled fun i hi => ?_
    have hnone : (s.standing i).presence = none := (hidle i).presence
    exact absurd (hi.symm.trans hnone) (Option.some_ne_none u)
  have hbroadcast : ¬ BroadcastDiffers u s.state s.trace := by
    refine (announcement_owed hs u).settled fun i hi => ?_
    have hnone : (s.standing i).announcement = none := (hidle i).announcement
    exact absurd (hi.symm.trans hnone) (Option.some_ne_none u)
  refine ⟨(not_not.mp hentries).symm, ?_, ?_⟩
  · intro status hstatus
    by_contra hne
    obtain ⟨s₀, hreach⟩ := hs
    have hcontacts : s.state.listAcceptedContactUserIds u ≠ [] := by
      refine (heard_reached hreach fun _ _ h => h.1).announced u fun hnil => ?_
      rw [hnil] at hstatus
      cases hstatus
    refine hbroadcast ⟨hcontacts, ?_⟩
    rw [hstatus]
    exact hne
  · intro hreg hcontacts hnil
    refine hbroadcast ⟨hcontacts, ?_⟩
    rw [hnil, AppState.shownOnline, hreg]
    decide

namespace Sample

instance (socket : Socket) : Decidable socket.Silent :=
  inferInstanceAs (Decidable (∀ frame ∈ socket.frames.tail, frame.isCommand = false))

instance : ∀ e : RelayEvent, Decidable e.Silent
  | .connect socket => inferInstanceAs (Decidable socket.Silent)
  | .step _ => isTrue trivial
  | .forward _ => isTrue trivial
  | .fail _ => isTrue trivial
  | .drop _ => isTrue trivial
  | .account _ => isTrue trivial
  | .supporter _ _ => isTrue trivial
  | .clock _ => isTrue trivial

instance (s : Relay) (owed : Standing → Option Id) (i : ℕ) (u : Id) :
    Decidable (s.DueFrom owed i u) :=
  inferInstanceAs (Decidable (∃ j < s.tasks.length, j ≠ i ∧ owed (s.standing j) = some u))

instance (s : Relay) : ∀ e, Decidable (s.WritesAgree e)
  | .step i => by
    unfold WritesAgree
    dsimp only
    induction s.waiting i using Option.casesOn with
    | none => exact isTrue trivial
    | some r => induction r using RelayOp.casesOn <;> dsimp only <;> infer_instance
  | .connect _ => isTrue trivial
  | .forward _ => isTrue trivial
  | .fail _ => isTrue trivial
  | .drop _ => isTrue trivial
  | .account _ => isTrue trivial
  | .supporter _ _ => isTrue trivial
  | .clock _ => isTrue trivial

/-- The relay after `events`, from a start at which Ada and Bob are contacts. -/
def sinceRestart (events : List RelayEvent) : Relay :=
  events.foldl (Relay.next formats) (Threads.Pool.idle (after addedAndAccepted).state.restarted)

/-- Bob reconnects, and then his first connection closes. -/
def reconnected : List RelayEvent :=
  connected 0 17 "bob's token" [] ++ connected 1 17 "bob's token" [] ++ List.replicate 3 (.step 0)

theorem registration_presence_agree_reconnected :
    (sinceRestart reconnected).AtRest ∧ (sinceRestart reconnected).state.isRegistered 1 = true ∧
      announced 1 (sinceRestart reconnected).trace = ["online".toList, "online".toList] ∧
        (sinceRestart reconnected).PresenceAgrees 1 := by
  have hreach : (sinceRestart reconnected).ReachedAgreeing formats :=
    ⟨_, Transitions.Admits.reaches (by decide +kernel)⟩
  have hrest : (sinceRestart reconnected).AtRest := by decide +kernel
  exact ⟨hrest, by decide +kernel, by decide +kernel, registration_presence_agree hreach hrest 1⟩

/-- Bob's connection closes and removes its registration.  He reconnects; then the first
connection removes his presence, and tells Ada that he is offline. -/
def reconnectedInBetween : List RelayEvent :=
  connected 0 19 "bob's token" [] ++ connected 1 17 "bob's token" [] ++ List.replicate 4 (.step 0)

theorem registered_not_present :
    ¬ ∀ s : Relay, s.ReachedSilent formats → s.AtRest → ∀ u, s.PresenceAgrees u := by
  intro h
  have hreach : (sinceRestart reconnectedInBetween).ReachedSilent formats :=
    ⟨_, Transitions.Admits.reaches (by decide)⟩
  have hagrees := (h _ hreach (by decide +kernel) 1).entries
  revert hagrees
  decide +kernel

end Sample

end Relay

end Winkd.Server
