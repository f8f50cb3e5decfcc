import Winkd.Adding
import Winkd.Continuations

/-!
# The receive loop of a connection

A connection that waits for a frame is in the receive loop of the user that it has
authenticated (`looping`).  So it can be told from the program which command it is about to
receive (`Receives`), and which it begins to handle (`Handles`).
-/

namespace Winkd.Server

/-- What a connection has still to do from its receive loop on. -/
def fromLoop (F : Formats) (user : Member) (tx : ℕ) (sessionId : Id) (frames : List Frame) :
    RelayProg Unit := do
  receiveLoop F user tx frames
  disconnect user sessionId
  await (.abortSendTask tx)

/-- Where it waits for a frame, a connection is in the receive loop of its user. -/
def LoopsThere (F : Formats) (d : LookedUp) (p : RelayProg Unit) : Prop :=
  ∀ k, p = .request .nextFrame k → ∃ user tx sessionId frames,
    d.user = some user ∧ p = fromLoop F user tx sessionId frames

theorem loopsThere_of {F : Formats} {d : LookedUp} {r : RelayOp} (hr : r.isNextFrame = false)
    (k : r.Reply → RelayProg Unit) : LoopsThere F d (.request r k) := by
  intro k' h
  obtain ⟨rfl, -⟩ := Prog.request.inj h
  cases hr

/-- A point within a handler. -/
def RelayOp.inHandler : RelayOp → Bool
  | .nextFrame => false
  | .findUserBySession _ => false
  | _ => true

/-- The program comes to points within handlers only. -/
abbrev InHandler (α : Type) (p : RelayProg α) : Prop := p.Asks fun r => r.inHandler = true

theorem inHandler_compositional (u : Id) : Compositional u InHandler := by
  refine asks_compositional fun r hr => ?_
  cases r <;> first | rfl | exact False.elim hr

theorem inHandler_await {r : RelayOp} (hr : r.inHandler = true) : InHandler _ (await r) :=
  Prog.asks_ask hr

/-- Such a program leaves alone whose the connection is. -/
theorem InHandler.keepsRow {α : Type} {p : RelayProg α} (hp : InHandler α p) (d : LookedUp) :
    p.Along (fun _ r => r.isNextFrame = false) LookedUp.seen (fun d' _ => d'.user = d.user) d := by
  refine hp.along (K := fun d d' => d'.user = d.user) (fun _ => rfl) ?_ ?_ d
  · exact fun _ _ _ h h' => h'.trans h
  intro d r hr
  constructor
  · cases r <;> first | rfl | cases hr
  · refine d.seen_user ?_
    rintro token rfl
    cases hr

/-- Wherever it waits for a frame, it is in the receive loop of its user. -/
abbrev Loops (F : Formats) (p : RelayProg Unit) (d : LookedUp) : Prop :=
  p.Visits (LoopsThere F) LookedUp.seen d

section Handlers
variable {F : Formats} {user : Member}

/-- A handler comes before. -/
theorem loops_then {α : Type} {p : RelayProg α} {f : α → RelayProg Unit} {d : LookedUp}
    (hp : InHandler α p) (hd : d.user = some user)
    (hf : ∀ d : LookedUp, d.user = some user → ∀ a, Loops F (f a) d) : Loops F (p >>= f) d := by
  refine Prog.visits_bind (hp.keepsRow d) (fun d r k hr => loopsThere_of hr k) ?_ ?_
  · exact fun _ e => e.elim
  · exact fun d' a h => hf d' (h.trans hd) a

theorem loops_of_handler {p : RelayProg Unit} (hp : InHandler Unit p) (d : LookedUp) : Loops F p d :=
  Prog.visits_of_along (hp.keepsRow d) (fun _ _ k hr => loopsThere_of hr k) (fun _ e => e.elim)
    fun _ _ _ _ h => nomatch h

theorem inHandler_handleCommand (tx serial : ℕ) (cmd : ClientCommand) :
    InHandler Unit (handleCommand F user tx serial cmd) := by
  have hW := inHandler_compositional user.id
  have hask : ∀ {r : RelayOp}, r.inHandler = true → InHandler _ (await r) := inHandler_await
  refine through_handleCommand hW tx serial cmd ?_ ?_ ?_ ?_ ?_ ?_ ?_ ?_
  · exact fun targetId => through_addTarget hW tx targetId fun _ => hask rfl
  · exact fun _ _ _ => hask rfl
  · exact fun _ => hask rfl
  · exact fun fields id winkdId displayName avatarData =>
      through_block hW tx fields id winkdId displayName avatarData (hask rfl) (hask rfl)
  · exact fun _ => hask rfl
  · exact fun _ => hask rfl
  · exact fun status => through_broadcastPresence hW status (hask rfl) fun _ => hask rfl
  · exact fun payload => through_relayMessage hW tx serial payload fun w _ =>
      through_deliver hW tx w _ payload (fun _ _ _ _ => hask rfl) fun _ _ => hask rfl

theorem inHandler_disconnect (sessionId : Id) : InHandler Unit (disconnect user sessionId) := by
  have hW := inHandler_compositional user.id
  refine through_disconnect hW sessionId (inHandler_await rfl) (inHandler_await rfl) ?_
  exact through_broadcastPresence hW _ (inHandler_await rfl) fun _ => inHandler_await rfl

theorem inHandler_flushQueued (tx : ℕ) : InHandler Unit (flushQueued user tx) := by
  exact through_flushQueued (inHandler_compositional user.id) tx (inHandler_await rfl) fun _ =>
    inHandler_await rfl

theorem loops_fromLoop (tx : ℕ) (sessionId : Id) (frames : List Frame) {d : LookedUp}
    (hd : d.user = some user) : Loops F (fromLoop F user tx sessionId frames) d := by
  have hend : ∀ d, Loops F (disconnect user sessionId >>= fun _ => await (.abortSendTask tx)) d := fun d =>
    loops_of_handler ((inHandler_compositional user.id).bind (inHandler_disconnect sessionId) fun _ =>
      inHandler_await rfl) d
  induction frames generalizing d with
  | nil => exact ⟨fun k _ => ⟨user, tx, sessionId, [], hd, rfl⟩, fun _ => hend d⟩
  | cons frame frames ih =>
    have hhere : LoopsThere F d (fromLoop F user tx sessionId (frame :: frames)) := fun k _ =>
      ⟨user, tx, sessionId, frame :: frames, hd, rfl⟩
    cases frame with
    | close => exact ⟨hhere, fun _ => hend d⟩
    | other => exact ⟨hhere, fun _ => ih hd⟩
    | text json =>
      refine ⟨hhere, fun serial => ?_⟩
      show Loops F (_ >>= fun _ => disconnect user sessionId >>= fun _ => await (.abortSendTask tx)) d
      split
      · rename_i cmd _
        show Loops F ((handleCommand F user tx serial cmd >>= fun _ => receiveLoop F user tx frames) >>=
          fun _ => _) d
        rw [Prog.bind_assoc]
        exact loops_then (inHandler_handleCommand tx serial _) hd fun d' hd' _ => ih hd'
      · exact ih hd

theorem loops_serveSession (frames : List Frame) {d : LookedUp} (hd : d.user = some user) :
    Loops F (serveSession F user frames) d := by
  have hW := inHandler_compositional user.id
  have hask : ∀ {r : RelayOp}, r.inHandler = true → InHandler _ (await r) := inHandler_await
  refine loops_then (hask rfl) hd fun d hd tx => ?_
  refine loops_then (hask rfl) hd fun d hd sessionId => ?_
  refine loops_then (hask rfl) hd fun d hd _ => ?_
  refine loops_then (hask rfl) hd fun d hd _ => ?_
  refine loops_then (through_broadcastPresence hW _ (hask rfl) fun _ => hask rfl) hd fun d hd _ => ?_
  refine loops_then (through_flushRoster hW tx (hask rfl) (fun _ => hask rfl) fun _ =>
    hW.bind (hask rfl) fun _ => hW.pure ()) hd fun d hd _ => ?_
  refine loops_then (through_flushPendingInbound hW tx) hd fun d hd _ => ?_
  refine loops_then (inHandler_flushQueued tx) hd fun d hd _ => ?_
  refine loops_then (hask rfl) hd fun d hd _ => ?_
  exact loops_fromLoop tx sessionId frames hd

/-- **Where a connection waits for a frame, it is in its receive loop.** -/
theorem handleSocket_loops (socket : Socket) : Loops F (handleSocket F socket) .none := by
  have hrefuse : ∀ (d : LookedUp) reason, Loops F (refuse reason) d := fun d reason =>
    loops_of_handler (Prog.asks_bind (inHandler_await rfl) fun _ => Prog.asks_pure ()) d
  unfold handleSocket
  split
  · split
    · refine ⟨loopsThere_of rfl _, ?_⟩
      intro user
      rcases user with e | user | user
      · exact hrefuse _ _
      · exact hrefuse _ _
      · have hask : ∀ {r : RelayOp}, r.inHandler = true → InHandler _ (await r) := inHandler_await
        show Loops F (confirmAndServe F user socket) { LookedUp.none with user := some user }
        refine loops_then (hask rfl) rfl fun d hd _ => ?_
        refine loops_then (hask rfl) hd fun d hd _ => ?_
        refine loops_then (hask rfl) hd fun d hd _ => ?_
        refine loops_then (hask rfl) hd fun d hd sent => ?_
        cases sent with
        | false => exact fun _ h => nomatch h
        | true => exact loops_serveSession _ hd
    · exact hrefuse _ _
  · exact hrefuse _ _

end Handlers

/-! ## In a run -/

namespace Relay
variable {F : Formats} {allowed : Relay → RelayEvent → Prop} {s₀ : AppState} {s : Relay}

theorem visiting (h : Transitions.Reaches (next F) allowed (Threads.Pool.idle s₀) s) :
    Threads.Pool.Visiting (LoopsThere F) LookedUp.seen .none s := by
  refine h.invariant (I := Threads.Pool.Visiting (LoopsThere F) LookedUp.seen .none) (.idle _) ?_
  intro s e hs _
  refine hs.next fun p hp => ?_
  cases e with
  | connect socket =>
    cases hp
    exact handleSocket_loops socket
  | _ => cases hp

/-- **A connection that waits for a frame is in the receive loop of its user**, of whose row it has a
copy. -/
theorem looping (h : Transitions.Reaches (next F) allowed (Threads.Pool.idle s₀) s) {i : ℕ}
    {k : ℕ → RelayProg Unit} (hp : s.tasks[i]? = some (.request .nextFrame k)) :
    ∃ user tx sessionId frames, (s.lookedUp i).user = some user ∧
      s.tasks[i]? = some (fromLoop F user tx sessionId frames) := by
  obtain ⟨user, tx, sessionId, frames, huser, heq⟩ := (visiting h).here hp k rfl
  exact ⟨user, tx, sessionId, frames, huser, heq ▸ hp⟩

/-- Connection `i` begins to handle a command.  `user` is its copy of the row. -/
structure Handles (F : Formats) (s : Relay) (i : ℕ) (user : Member) (tx serial : ℕ) (cmd : ClientCommand) :
    Prop where
  copy : (s.lookedUp i).user = some user
  program : ∃ sessionId frames, s.tasks[i]? = some (handleCommand F user tx serial cmd >>= fun _ =>
    fromLoop F user tx sessionId frames)

variable {i : ℕ} {user : Member} {tx : ℕ} {cmd : ClientCommand}

theorem next_answered {r : RelayOp} {k : r.Reply → RelayProg Unit} (hp : s.tasks[i]? = some (.request r k)) :
    s.next F (.step i) = s.answered i r k := Threads.Pool.next_answer hp

theorem next_tasks {r : RelayOp} {k : r.Reply → RelayProg Unit} (hp : s.tasks[i]? = some (.request r k)) :
    (s.next F (.step i)).tasks[i]? = some (k (serve r s.state).1) := by
  rw [next_answered hp, answered, Threads.Pool.answered]
  exact List.getElem?_set_self (List.getElem?_eq_some_iff.mp hp).1

/-- A connection in its receive loop waits for a frame. -/
theorem waiting_fromLoop {sessionId : Id} {frames : List Frame}
    (hp : s.tasks[i]? = some (fromLoop F user tx sessionId frames)) : s.waiting i = some .nextFrame := by
  cases frames with
  | nil => exact Threads.Pool.waiting_eq hp
  | cons frame frames => cases frame <;> exact Threads.Pool.waiting_eq hp

end Relay
end Winkd.Server
