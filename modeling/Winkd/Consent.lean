import Winkd.Known
import Winkd.BlockedRequests
import Winkd.Histories

/-!
# Consent

When commands are carried out one after the other a request becomes accepted in one way:
a connection of the user it is addressed to is given an `accept_contact` with its id, while it is
pending, and no block is then between the two (`accepted_by_consent`).  A request that is created
anew is pending again, so the consent is later than that.

A connection handles the frame that it has taken last (`Heard.Handling`).  It accepts a request
only when that is a command to accept it (`handleSocket_heeds`).
-/

namespace Winkd.Server
open Threads

/-! ## Which command is handled -/

namespace Heard

/-- How many frames the connection has taken since it authenticated. -/
def taken (past : History RelayOp RelayOp.Reply) : ℕ :=
  past.countP fun x => x.request.isNextFrame

/-- The frame that the connection has taken last is the command. -/
def Handling (socket : Socket) (past : History RelayOp RelayOp.Reply) (cmd : ClientCommand) : Prop :=
  ∃ n json, taken past = n + 1 ∧ socket.frames.tail[n]? = some (.text json) ∧
    json.bind ClientCommand.ofJson = some cmd

/-- A request is accepted when the command that is handled is to accept it. -/
def Heeds (F : Formats) (socket : Socket) (past : History RelayOp RelayOp.Reply) : RelayOp → Prop
  | .acceptContactRequest id _ => ∃ payload, Handling socket past ⟨.acceptContact, payload⟩ ∧
      (payload.getStr "request_id").bind F.parseUuid = some id
  | _ => True

theorem taken_seen (past : History RelayOp RelayOp.Reply) (r : RelayOp) (x : r.Reply) :
    taken (past.seen r x) = taken past + if r.isNextFrame then 1 else 0 :=
  List.countP_cons

end Heard

section Handlers
variable {F : Formats} {socket : Socket} {user : Member} {n : ℕ}

/-- While `n` frames have been taken the program heeds the commands, and it takes no other. -/
def HeedsAt (F : Formats) (socket : Socket) (n : ℕ) (α : Type) (p : RelayProg α) : Prop :=
  ∀ past, Heard.taken past = n →
    p.Abides (Heard.Heeds F socket) (fun later _ => Heard.taken later = n) (fun _ _ => True) past

/-- A point that neither takes a frame nor accepts a request. -/
def RelayOp.apart : RelayOp → Bool
  | .nextFrame => false
  | .acceptContactRequest _ _ => false
  | _ => true

theorem heedsAt_await {r : RelayOp} (hr : r.apart = true) : HeedsAt F socket n _ (await r) := by
  intro past hpast
  constructor
  · cases r with
    | acceptContactRequest id u => cases hr
    | _ => trivial
  · intro x
    have hnext : r.isNextFrame = false := by cases r <;> first | rfl | cases hr
    rw [Prog.abides_pure', Heard.taken_seen, hnext, hpast]
    rfl

theorem heedsAt_compositional (u : Id) : Compositional u (HeedsAt F socket n) where
  pure a past hpast := hpast
  bind hp hf past hpast :=
    (Prog.abides_bind _ _).mpr ((hp past hpast).mono (fun _ _ h => h) (fun later a h => hf a later h)
      fun _ _ h => h)
  common r hr := heedsAt_await (by cases r <;> first | rfl | exact False.elim hr)

/-- The command that a handler carries out is the one that has been taken. -/
theorem heedsAt_handleCommand (tx serial : ℕ) {cmd : ClientCommand} {json : Option Json}
    (hframe : socket.frames.tail[n]? = some (.text json))
    (hcmd : json.bind ClientCommand.ofJson = some cmd) :
    HeedsAt F socket (n + 1) Unit (handleCommand F user tx serial cmd) := by
  have hW : Compositional user.id (HeedsAt F socket (n + 1)) := heedsAt_compositional user.id
  have hask : ∀ {r : RelayOp}, r.apart = true → HeedsAt F socket (n + 1) _ (await r) := heedsAt_await
  refine through_handleCommand hW tx serial cmd ?_ ?_ ?_ ?_ ?_ ?_ ?_ ?_
  · exact fun targetId => through_addTarget hW tx targetId fun _ => hask rfl
  · intro id haccept hid past hpast
    obtain ⟨command, payload⟩ := cmd
    obtain rfl : command = .acceptContact := haccept
    refine ⟨⟨payload, ⟨n, json, hpast, hframe, hcmd⟩, hid⟩, fun x => ?_⟩
    rw [Prog.abides_pure', Heard.taken_seen, hpast]
    rfl
  · exact fun _ => hask rfl
  · exact fun fields id winkdId displayName avatarData =>
      through_block hW tx fields id winkdId displayName avatarData (hask rfl) (hask rfl)
  · exact fun _ => hask rfl
  · exact fun _ => hask rfl
  · exact fun status => through_broadcastPresence hW status (hask rfl) fun _ => hask rfl
  · exact fun payload => through_relayMessage hW tx serial payload fun w _ =>
      through_deliver hW tx w _ payload (fun _ _ _ _ => hask rfl) fun _ _ => hask rfl

/-- Heeding the commands, with nothing said of how many frames have been taken in the end. -/
abbrev HeedsOn (F : Formats) (socket : Socket) (past : History RelayOp RelayOp.Reply) {α : Type}
    (p : RelayProg α) : Prop :=
  p.Abides (Heard.Heeds F socket) (fun _ _ => True) (fun _ _ => True) past

theorem HeedsAt.on {α : Type} {p : RelayProg α} {past : History RelayOp RelayOp.Reply}
    (hp : HeedsAt F socket (Heard.taken past) α p) : HeedsOn F socket past p :=
  (hp past rfl).mono (fun _ _ h => h) (fun _ _ _ => trivial) fun _ _ h => h

/-- A part that takes no frame, and what follows. -/
theorem heedsOn_then {α : Type} {p : RelayProg α} {f : α → RelayProg Unit}
    {past : History RelayOp RelayOp.Reply} (hpast : Heard.taken past = n)
    (hp : HeedsAt F socket n α p)
    (hf : ∀ later a, Heard.taken later = n → HeedsOn F socket later (f a)) :
    HeedsOn F socket past (p >>= f) :=
  (Prog.abides_bind _ _).mpr ((hp past hpast).mono (fun _ _ h => h) (fun later a h => hf later a h)
    fun _ _ h => h)

/-- The loop has taken as many frames as it has left behind. -/
theorem heedsOn_receiveLoop (tx : ℕ) {frames : List Frame} {past : History RelayOp RelayOp.Reply}
    (hframes : socket.frames.tail.drop (Heard.taken past) = frames) :
    HeedsOn F socket past (receiveLoop F user tx frames) := by
  induction frames generalizing past with
  | nil => exact ⟨trivial, fun _ => trivial⟩
  | cons frame frames ih =>
    have hframe : socket.frames.tail[Heard.taken past]? = some frame := by
      rw [← List.head?_drop, hframes]
      rfl
    have hrest : socket.frames.tail.drop (Heard.taken past + 1) = frames := by
      rw [← List.drop_drop, hframes]
      rfl
    -- this frame is taken
    have htaken : ∀ serial : ℕ, Heard.taken (past.seen .nextFrame serial) = Heard.taken past + 1 :=
      fun serial => Heard.taken_seen past .nextFrame serial
    cases frame with
    | close => exact ⟨trivial, fun _ => trivial⟩
    | other => exact ⟨trivial, fun serial => ih ((htaken serial).symm ▸ hrest)⟩
    | text json =>
      refine ⟨trivial, fun serial => ?_⟩
      split
      · rename_i cmd hcmd
        show HeedsOn F socket _ (handleCommand F user tx serial cmd >>= fun _ => receiveLoop F user tx frames)
        exact heedsOn_then (htaken serial) (heedsAt_handleCommand tx serial hframe hcmd)
          fun later _ hlater => ih (hlater.symm ▸ hrest)
      · exact ih ((htaken serial).symm ▸ hrest)

theorem heedsAt_disconnect (sessionId : Id) :
    HeedsAt F socket n Unit (disconnect user sessionId) := by
  have hW : Compositional user.id (HeedsAt F socket n) := heedsAt_compositional user.id
  refine through_disconnect hW sessionId (heedsAt_await rfl) (heedsAt_await rfl) ?_
  exact through_broadcastPresence hW _ (heedsAt_await rfl) fun _ => heedsAt_await rfl

theorem heedsOn_serveSession {past : History RelayOp RelayOp.Reply} (hpast : Heard.taken past = 0) :
    HeedsOn F socket past (serveSession F user socket.frames.tail) := by
  have hW : Compositional user.id (HeedsAt F socket 0) := heedsAt_compositional user.id
  have hask : ∀ {r : RelayOp}, r.apart = true → HeedsAt F socket 0 _ (await r) := heedsAt_await
  refine heedsOn_then hpast (hask rfl) fun past tx hpast => ?_
  refine heedsOn_then hpast (hask rfl) fun past sessionId hpast => ?_
  refine heedsOn_then hpast (hask rfl) fun past _ hpast => ?_
  refine heedsOn_then hpast (hask rfl) fun past _ hpast => ?_
  refine heedsOn_then hpast (through_broadcastPresence hW _ (hask rfl) fun _ => hask rfl)
    fun past _ hpast => ?_
  refine heedsOn_then hpast (through_flushRoster hW tx (hask rfl) (fun _ => hask rfl) fun _ =>
    hW.bind (hask rfl) fun _ => hW.pure ()) fun past _ hpast => ?_
  refine heedsOn_then hpast (through_flushPendingInbound hW tx) fun past _ hpast => ?_
  refine heedsOn_then hpast (through_flushQueued hW tx (hask rfl) fun _ => hask rfl)
    fun past _ hpast => ?_
  refine heedsOn_then hpast (hask rfl) fun past _ hpast => ?_
  have hloop : HeedsOn F socket past (receiveLoop F user tx socket.frames.tail) := by
    refine heedsOn_receiveLoop tx ?_
    rw [hpast]
    rfl
  refine (Prog.abides_bind _ _).mpr (hloop.mono (fun _ _ h => h) (fun later _ _ => ?_) fun _ _ h => h)
  refine heedsOn_then rfl (heedsAt_disconnect sessionId) fun past _ hpast => ?_
  exact (heedsAt_await rfl).on

/-- **A connection accepts a request only when it is told to accept it.** -/
theorem handleSocket_heeds (F : Formats) (socket : Socket) :
    HeedsOn F socket [] (handleSocket F socket) := by
  have hask : ∀ {r : RelayOp}, r.apart = true → HeedsAt F socket 0 _ (await r) := heedsAt_await
  have hrefuse : ∀ reason past, HeedsOn F socket past (refuse reason) := fun reason past =>
    ⟨trivial, fun _ => trivial⟩
  unfold handleSocket
  split
  · split
    · refine heedsOn_then rfl (hask rfl) fun past found hpast => ?_
      split
      · refine heedsOn_then hpast (hask rfl) fun past _ hpast => ?_
        refine heedsOn_then hpast (hask rfl) fun past _ hpast => ?_
        refine heedsOn_then hpast (hask rfl) fun past _ hpast => ?_
        refine heedsOn_then hpast (hask rfl) fun past sent hpast => ?_
        cases sent with
        | true => exact heedsOn_serveSession hpast
        | false => trivial
      · exact hrefuse _ _
    · exact hrefuse _ _
  · exact hrefuse _ _

end Handlers

namespace Relay
variable {F : Formats}

/-- Handlers that are carried out one after the other create requests only where there is no
block. -/
theorem ReachedInTurn.requesting {s : Relay} (hs : s.ReachedInTurn F) : s.ReachedRequesting F := by
  obtain ⟨start, hreach⟩ := hs
  refine ⟨start, ?_⟩
  suffices h : s.ReachedInTurn F ∧ Transitions.Reaches (Relay.next F)
      (fun s e => s.InTime e ∧ s.RequestsUnblocked e) (init start) s from h.2
  refine hreach.invariant (I := fun s : Relay => s.ReachedInTurn F ∧
    Transitions.Reaches (Relay.next F) (fun s e => s.InTime e ∧ s.RequestsUnblocked e) (init start) s)
    ⟨⟨start, .refl _⟩, .refl _⟩ ?_
  rintro s e ⟨⟨start', hs⟩, hrequesting⟩ he
  refine ⟨⟨start', hs.tail he⟩, hrequesting.tail ⟨he.1, ?_⟩⟩
  cases e with
  | step i =>
    cases hw : s.waiting i with
    | none => simp only [RequestsUnblocked, hw]
    | some r =>
      cases r with
      | createContactRequest f t =>
        obtain ⟨k, hp⟩ := Threads.Pool.of_waiting hw
        -- the handler has looked for a block
        have hmay := (minds hs).may_issue hp
        have htrue := ReachedInTurn.isTrue ⟨start', hs⟩ i _ hp rfl
        simp only [RequestsUnblocked, hw]
        exact .inl (htrue.unblocked f t hmay)
      | _ => simp only [RequestsUnblocked, hw]
  | _ => trivial

/-! ## Consent -/

/-- At this entry of the trace the recipient of the request accepts it: on a connection of the
recipient's, which has taken an `accept_contact` with the request's id, while the request is
pending and no block is between the two. -/
structure ConsentAt (F : Formats) (sockets : ℕ → Socket) (earlier : List RelayEntry) (e : RelayEntry)
    (cr : ContactRequest) : Prop where
  accepts : e.request = .acceptContactRequest cr.id cr.toId
  recipient : AuthenticatedAs earlier e.task cr.toId
  command : ∃ payload, Heard.Handling (sockets e.task) (Pool.history e.task earlier)
    ⟨.acceptContact, payload⟩ ∧ (payload.getStr "request_id").bind F.parseUuid = some cr.id
  pending : { cr with status := .pending } ∈ e.before.contactRequests
  unblocked : e.before.isBlockedBetween cr.fromId cr.toId = false

/-- In a run the recipient of a request has accepted it, since it was last created. -/
def Consented (F : Formats) (sockets : ℕ → Socket) (l : List RelayEntry) (cr : ContactRequest) : Prop :=
  ∃ later e earlier, l = later ++ e :: earlier ∧ ConsentAt F sockets earlier e cr ∧
    ∀ e' ∈ later, e'.request ≠ .createContactRequest cr.fromId cr.toId

/-- A step that does not create the request leaves the consent as it is. -/
theorem Consented.cons {sockets : ℕ → Socket} {l : List RelayEntry} {cr : ContactRequest}
    (h : Consented F sockets l cr) {e : RelayEntry}
    (he : e.request ≠ .createContactRequest cr.fromId cr.toId) : Consented F sockets (e :: l) cr := by
  obtain ⟨later, e₀, earlier, rfl, hconsent, hlater⟩ := h
  refine ⟨e :: later, e₀, earlier, rfl, hconsent, fun e' he' => ?_⟩
  rcases List.mem_cons.mp he' with rfl | he'
  · exact he
  · exact hlater e' he'

/-- A pending request that is accepted is between users without a block. -/
theorem ReachedInTurn.unblocked {s : Relay} (hs : s.ReachedInTurn F) {i : ℕ} {id t f : Id}
    {k : Except DbError ContactRequest → RelayProg Unit}
    (hp : s.tasks[i]? = some (.request (.acceptContactRequest id t) k))
    (hothers : Threads.Pool.OthersRest RelayOp.isNextFrame s i)
    (hpending : s.state.PendingBetween f t = true) : s.state.isBlockedBetween f t = false := by
  by_contra hblocked
  have hblocked : s.state.isBlockedBetween f t = true := Bool.not_eq_false _ ▸ hblocked
  obtain ⟨j, hj⟩ := clear_owed hs.requesting f t ⟨hblocked, hpending⟩
  -- whoever has still to clear the requests is mid-way
  have hnone : (s.standing j).clearing = none := by
    obtain ⟨start, hreach⟩ := hs
    by_cases hij : i = j
    · subst hij
      exact (stands hreach).may_issue hp
    · exact (idle_of_resting hreach fun p => hothers.resting hij).clearing
  rw [standing] at hnone
  rw [hnone] at hj
  rcases hj with h | h <;> cases h

theorem ReachedServingInTurn.reachedInTurn {sockets : ℕ → Socket} {s : Relay}
    (hs : s.ReachedServingInTurn F sockets) : s.ReachedInTurn F := by
  obtain ⟨start, hreach⟩ := hs
  refine ⟨start, hreach.mono ?_⟩
  rintro s e ⟨hserves, hturn⟩
  refine ⟨?_, hturn⟩
  cases e with
  | clock now => exact hserves
  | _ => trivial

/-- Every connection of a run heeds its commands. -/
theorem heeding {sockets : ℕ → Socket} {start : Start} {s : Relay}
    (hs : Transitions.Reaches (next F) (fun s e => s.Serves sockets e ∧ s.InTurn e) (init start) s) :
    s.Abiding (fun i => Heard.Heeds F (sockets i)) (fun _ _ _ => True) fun _ _ _ => True := by
  refine hs.invariant (Pool.Abiding.idle _) ?_
  intro s e hs he
  refine Pool.Abiding.next (h := serve) hs (a := s.act F e) fun p hp => ?_
  cases e with
  | connect socket =>
    cases hp
    have hsocket : sockets s.tasks.length = socket := he.1
    rw [hsocket]
    exact handleSocket_heeds F socket
  | _ => cases hp

/-- **An accepted request was accepted by its recipient**, in every state of a run whose
commands are carried out one after the other. -/
theorem accepted_by_consent {sockets : ℕ → Socket} {s : Relay} (hs : s.ReachedServingInTurn F sockets)
    {cr : ContactRequest} (hcr : cr ∈ s.state.contactRequests) (haccepted : cr.status = .accepted) :
    Consented F sockets s.trace cr := by
  obtain ⟨start, hreach⟩ := hs
  suffices h : ∀ cr ∈ s.state.contactRequests, cr.status = .accepted →
      Consented F sockets s.trace cr from h cr hcr haccepted
  refine run_invariant (fun socket => handleSocket_minds socket) hreach (I := fun s : Relay =>
    ∀ cr ∈ s.state.contactRequests, cr.status = .accepted → Consented F sockets s.trace cr) ?_ ?_ ?_ ?_
  · exact fun _ h => nomatch h
  · exact fun _ _ _ h => h
  · intro s e hs _ cr hcr
    exact hs cr ((outside_contacts s.state e).1 ▸ hcr)
  · intro s i r k hreach hs hallowed hp hr cr hcr hstatus
    cases serve_requests r s.state hcr with
    | kept hbefore hne _ => exact (hs cr hbefore hstatus).cons hne
    | requested _ hpending =>
      rw [hstatus] at hpending
      cases hpending
    | accepted hrequest _ hbefore =>
      -- this step is the consent
      subst hrequest
      have hturn : s.ReachedInTurn F := ReachedServingInTurn.reachedInTurn ⟨start, hreach⟩
      have hcommand := (heeding hreach).may_issue hp
      have hunblocked : s.state.isBlockedBetween cr.fromId cr.toId = false := by
        refine hturn.unblocked hp hallowed.2 ?_
        exact AppState.pendingBetween_iff.mpr ⟨_, hbefore, rfl, .inl ⟨rfl, rfl⟩⟩
      exact ⟨[], _, s.trace, rfl, ⟨rfl, authenticated_of_known hr, hcommand, hbefore, hunblocked⟩,
        fun _ h => nomatch h⟩
    | rejected hrejected =>
      rw [hstatus] at hrejected
      cases hrejected

namespace Sample

/-- The request of Ada that Bob has accepted. -/
def acceptedRequest : ContactRequest := ⟨3, 0, 1, .accepted, 0⟩

theorem accepted_by_consent_addedAndAccepted :
    acceptedRequest ∈ (after addedAndAccepted).state.contactRequests ∧
      Consented formats contactSockets (after addedAndAccepted).trace acceptedRequest := by
  have hturn : Transitions.Admits (Relay.next formats) InTurn (init start) addedAndAccepted := by
    decide
  have hreach : (after addedAndAccepted).ReachedServingInTurn formats contactSockets :=
    ⟨start, (serves_addedAndAccepted.and hturn).reaches⟩
  have hrow : acceptedRequest ∈ (after addedAndAccepted).state.contactRequests := by
    decide
  exact ⟨hrow, accepted_by_consent hreach hrow rfl⟩

end Sample

end Relay

end Winkd.Server
