import Winkd.RelayRuns
import Winkd.Quantities

/-!
# Who has a message

A frame that is received can become one message.  From then on the message is with the
connection that handles the frame, in a channel, in the queue, or with the connection
that has drained the queue; what a step does with it is a `Deed`.  What a connection has
is read off its replies (`Custody`), and a connection passes on only what it has
(`handleSocket_disciplined`).
-/

namespace Winkd.Server

/-! ## Deeds -/

/-- What a step does with messages. -/
inductive Deed where
  | received (serial : ℕ)
  /-- Pushed to the session of a recipient who is connected. -/
  | live (m : Relayed)
  /-- The channel of that session was closed. -/
  | undelivered (m : Relayed)
  | queued (m : Relayed)
  /-- Kept out of the queue, by its UNIQUE index or because the row cannot be stored. -/
  | keptOut (m : Relayed)
  | drained (ms : List Relayed)
  /-- Pushed to the connection that has drained it. -/
  | replayed (m : Relayed)
  /-- The channel of that connection was closed. -/
  | dropped (m : Relayed)
  | echoed (m : Relayed)
  | nothing
  deriving DecidableEq

/-- The message of a row that was drained. -/
def PendingMessageDelivery.relayed (recipientId : Id) (r : PendingMessageDelivery) : Relayed :=
  ⟨r.serial, r.senderId, recipientId⟩

/-- The message of a row. -/
def PendingMessage.relayed (r : PendingMessage) : Relayed := ⟨r.serial, r.senderId, r.recipientId⟩

/-- What the step that is answered so in `s` does. -/
def Deed.of (s : AppState) : (r : RelayOp) → r.Reply → Deed
  | .nextFrame => fun serial => .received serial
  | .queuePendingMessage m clientMsgId payload => fun _ =>
      if s.keepsOut m clientMsgId payload then .keptOut m else .queued m
  | .drainPendingMessages u => fun rows =>
      .drained ((rows.toOption.getD []).map (PendingMessageDelivery.relayed u))
  | .send _ item => fun sent =>
      match item.label with
      | .live m => if sent then .live m else .undelivered m
      | .queued m => if sent then .replayed m else .dropped m
      | .echo m => .echoed m
      | .other => .nothing
  | _ => fun _ => .nothing

/-- A step of a connection, as the trace has it. -/
abbrev RelayEntry : Type := Threads.Entry RelayOp RelayOp.Reply AppState

/-- What the step did. -/
def deedOf (e : RelayEntry) : Deed := Deed.of e.before e.request e.reply

namespace Deed

/-- The messages it pushes to their recipients. -/
def pushes : Deed → List Relayed
  | .live m => [m]
  | .replayed m => [m]
  | _ => []

/-- The messages it sends live. -/
def sendsLive : Deed → List Relayed
  | .live m => [m]
  | _ => []

/-- The messages it adds to the queue. -/
def queues : Deed → List Relayed
  | .queued m => [m]
  | _ => []

/-- The messages it takes from the queue. -/
def drains : Deed → List Relayed
  | .drained ms => ms
  | _ => []

/-- The messages that it passes on, or tries to add to the queue. -/
def settles : Deed → List Relayed
  | .live m => [m]
  | .queued m => [m]
  | .keptOut m => [m]
  | _ => []

/-- The messages that it loses on a closed channel. -/
def drops : Deed → List Relayed
  | .dropped m => [m]
  | _ => []

/-- The frame whose message a connection has, after the deed. -/
def current : Deed → Option ℕ → Option ℕ
  | .received serial, _ => some serial
  | .live _, _ => none
  | .queued _, _ => none
  | .keptOut _, _ => none
  | _, c => c

/-- The drained messages a connection has, after the deed. -/
def held : Deed → List Relayed → List Relayed
  | .drained ms, l => l ++ ms
  | .replayed m, l => l.erase m
  | .dropped m, l => l.erase m
  | _, l => l

/-- The number of frames received, and the messages in the queue, before the deed and
after it. -/
def Moves (n n' : ℕ) (q q' : List Relayed) : Deed → Prop
  | .received serial => serial = n ∧ n' = n + 1 ∧ q' = q
  | .queued m => n' = n ∧ q' = q ++ [m]
  | .drained ms => n' = n ∧ q.Perm (ms ++ q')
  | _ => n' = n ∧ q' = q

end Deed

/-- The messages in the queue. -/
def AppState.queue (s : AppState) : List Relayed := s.pendingMessages.map PendingMessage.relayed

theorem queue_withQueued (s : AppState) (m : Relayed) (clientMsgId : Option Text) (payload : Json) :
    (s.withQueued m clientMsgId payload).queue = s.queue ++ [m] := by
  rw [AppState.withQueued, AppState.queue, List.map_append]
  rfl

/-- What is drained and what stays make up the queue. -/
theorem queue_drainPendingMessages (s : AppState) (u : Id) :
    s.queue.Perm (((s.drainPendingMessages u).1.map (PendingMessageDelivery.relayed u)) ++
      (s.drainPendingMessages u).2.queue) := by
  have hdrained : ((s.drainPendingMessages u).1.map (PendingMessageDelivery.relayed u)).Perm
      ((s.pendingMessages.filter fun r => r.recipientId = u).map PendingMessage.relayed) := by
    rw [AppState.drainPendingMessages, List.map_map]
    have hsame : (s.queuedFor u).map
          (PendingMessageDelivery.relayed u ∘ fun r => ⟨r.senderId, r.payload, r.serial⟩) =
        (s.queuedFor u).map PendingMessage.relayed := by
      refine List.map_congr_left ?_
      intro r hr
      have hmem : r ∈ s.pendingMessages.filter fun r => r.recipientId = u :=
        (List.perm_insertionSort _ _).mem_iff.mp hr
      have hu : r.recipientId = u := by simpa using List.of_mem_filter hmem
      rw [Function.comp, PendingMessageDelivery.relayed, PendingMessage.relayed, hu]
    rw [hsame]
    exact (List.perm_insertionSort _ _).map _
  have hsplit : (s.pendingMessages.filter (fun r => r.recipientId = u) ++
      s.pendingMessages.filter (fun r => r.recipientId ≠ u)).Perm s.pendingMessages := by
    simpa using List.filter_append_perm (fun r : PendingMessage => decide (r.recipientId = u))
      s.pendingMessages
  calc s.queue.Perm _ := (hsplit.map PendingMessage.relayed).symm
    _ |>.Perm _ := by
        rw [List.map_append]
        exact hdrained.symm.append_right _

theorem deed_onlyTables {r : RelayOp} (hr : r.onlyTables = true) (s : AppState) (x : r.Reply) :
    Deed.of s r x = .nothing := by
  cases r <;> first | rfl | cases hr

/-- **Every step moves the queue as its deed says.** -/
theorem serve_moves (r : RelayOp) (s : AppState) :
    (Deed.of s r (serve r s).1).Moves s.received (serve r s).2.received s.queue
      (serve r s).2.queue := by
  by_cases ht : r.onlyTables = true
  · obtain ⟨db, contactRequests, blocks, hs⟩ := serve_onlyTables ht s
    rw [deed_onlyTables ht, hs]
    exact ⟨rfl, rfl⟩
  cases r with
  | nextFrame => exact ⟨rfl, rfl, rfl⟩
  | queuePendingMessage m clientMsgId payload =>
    simp only [Deed.of, serve, AppState.queuePendingMessage_state]
    split
    · exact ⟨rfl, rfl⟩
    · exact ⟨rfl, queue_withQueued s m clientMsgId payload⟩
  | drainPendingMessages u => exact ⟨rfl, queue_drainPendingMessages s u⟩
  | send c item =>
    have h : (s.send c item).2.received = s.received ∧ (s.send c item).2.queue = s.queue := by
      obtain ⟨channels, hs⟩ := send_state s c item
      rw [hs]
      exact ⟨rfl, rfl⟩
    obtain ⟨text, label⟩ := item
    cases label with
    | live m => simp only [Deed.of]; split <;> exact h
    | queued m => simp only [Deed.of]; split <;> exact h
    | echo m => exact h
    | other => exact h
  | sendToAll ids item =>
    obtain ⟨channels, hs⟩ := sendToAll_state s ids item
    simp only [serve, hs]
    exact ⟨rfl, rfl⟩
  | clientsRemove u sessionId =>
    simp only [serve, AppState.clientsRemove]
    split <;> exact ⟨rfl, rfl⟩
  | clientsInsert u session => exact ⟨rfl, rfl⟩
  | presenceSet u entry => exact ⟨rfl, rfl⟩
  | presenceRemove u => exact ⟨rfl, rfl⟩
  | unboundedChannel u => exact ⟨rfl, rfl⟩
  | spawnSendTask c => exact ⟨rfl, rfl⟩
  | abortSendTask c => exact ⟨rfl, rfl⟩
  | _ => exact absurd rfl ht

/-! ## Custody -/

/-- What a connection has and knows. -/
structure Custody where
  /-- The frame whose message it has. -/
  current : Option ℕ
  /-- The message of its latest frame, once it has been delivered or queued. -/
  settled : Option Relayed
  /-- The drained messages it has not pushed yet. -/
  held : List Relayed
  /-- Channels that it has seen, with their users. -/
  channels : List (Id × ℕ)
  /-- Its own channel, until the forwarding task is spawned. -/
  setUp : Option ℕ

namespace Custody

/-- What a connection starts with. -/
def none : Custody := ⟨.none, .none, [], [], .none⟩

/-- What a connection may do. -/
def may (d : Custody) : RelayOp → Prop
  | .queuePendingMessage m _ _ => d.current = some m.serial
  | .send c item =>
      match item.label with
      | .live m => d.current = some m.serial ∧ (m.recipientId, c) ∈ d.channels
      | .queued m => m ∈ d.held ∧ (m.recipientId, c) ∈ d.channels ∧ d.setUp = some c
      | .echo m => d.settled = some m
      | .other => True
  | .sendToAll _ item => item.label = .other
  | .clientsInsert u session => (u, session.sender) ∈ d.channels
  | .spawnSendTask c => d.setUp = some c
  | _ => True

/-- What a reply adds or takes. -/
def seen (d : Custody) : (r : RelayOp) → r.Reply → Custody
  | .nextFrame => fun serial => { d with current := some serial, settled := .none }
  | .queuePendingMessage m _ _ => fun _ => { d with current := .none, settled := some m }
  | .drainPendingMessages u => fun rows =>
      { d with held := d.held ++ (rows.toOption.getD []).map (PendingMessageDelivery.relayed u) }
  | .send _ item => fun sent =>
      match item.label with
      | .live m => if sent then { d with current := .none, settled := some m } else d
      | .queued m => { d with held := d.held.erase m }
      | .echo _ => d
      | .other => d
  | .clientsGet u => fun session =>
      match session with
      | some session => { d with channels := (u, session.sender) :: d.channels }
      | .none => d
  | .unboundedChannel u => fun c => { d with channels := (u, c) :: d.channels, setUp := some c }
  | .spawnSendTask _ => fun _ => { d with setUp := .none }
  | _ => fun _ => d

/-- Knowing more channels, and otherwise the same. -/
structure Grown (d d' : Custody) : Prop where
  current : d'.current = d.current
  settled : d'.settled = d.settled
  held : d'.held = d.held
  channels : ∀ p ∈ d.channels, p ∈ d'.channels
  setUp : d'.setUp = d.setUp

theorem Grown.refl (d : Custody) : Grown d d := ⟨rfl, rfl, rfl, fun _ h => h, rfl⟩

theorem Grown.trans {a b c : Custody} (h : Grown a b) (h' : Grown b c) : Grown a c where
  current := h'.current.trans h.current
  settled := h'.settled.trans h.settled
  held := h'.held.trans h.held
  channels p hp := h'.channels p (h.channels p hp)
  setUp := h'.setUp.trans h.setUp

/-- A plain point may always be come to, and changes nothing else. -/
theorem plain_step (d : Custody) (r : RelayOp) (hr : r.isPlain = true) :
    d.may r ∧ ∀ x, Grown d (d.seen r x) := by
  cases r with
  | send c item =>
    have hl : item.label = .other := of_decide_eq_true hr
    simp only [may, seen, hl]
    exact ⟨trivial, fun _ => .refl d⟩
  | sendToAll ids item =>
    have hl : item.label = .other := of_decide_eq_true hr
    exact ⟨hl, fun _ => .refl d⟩
  | clientsGet u =>
    refine ⟨trivial, ?_⟩
    intro session
    cases session with
    | none => exact .refl d
    | some session => exact ⟨rfl, rfl, rfl, fun _ h => List.mem_cons_of_mem _ h, rfl⟩
  | queuePendingMessage m clientMsgId payload => cases hr
  | drainPendingMessages u => cases hr
  | clientsInsert u session => cases hr
  | unboundedChannel u => cases hr
  | spawnSendTask c => cases hr
  | nextFrame => cases hr
  | _ => exact ⟨trivial, fun _ => .refl d⟩

/-- What a deed does to what the connection has. -/
theorem seen_current (s : AppState) (d : Custody) (r : RelayOp) (x : r.Reply) :
    (d.seen r x).current = (Deed.of s r x).current d.current := by
  cases r with
  | queuePendingMessage m clientMsgId payload =>
    simp only [seen, Deed.of]
    split <;> rfl
  | send c item =>
    obtain ⟨text, label⟩ := item
    cases label with
    | live m => simp only [seen, Deed.of]; split <;> rfl
    | queued m => simp only [seen, Deed.of]; split <;> rfl
    | echo m => rfl
    | other => rfl
  | clientsGet u => cases x <;> rfl
  | _ => rfl

theorem seen_held (s : AppState) (d : Custody) (r : RelayOp) (x : r.Reply) :
    (d.seen r x).held = (Deed.of s r x).held d.held := by
  cases r with
  | queuePendingMessage m clientMsgId payload =>
    simp only [seen, Deed.of]
    split <;> rfl
  | send c item =>
    obtain ⟨text, label⟩ := item
    cases label with
    | live m => simp only [seen, Deed.of]; split <;> rfl
    | queued m => simp only [seen, Deed.of]; split <;> rfl
    | echo m => rfl
    | other => rfl
  | clientsGet u => cases x <;> rfl
  | _ => rfl

theorem seen_settled (s : AppState) (d : Custody) (r : RelayOp) (x : r.Reply) {m : Relayed}
    (h : (d.seen r x).settled = some m) : m ∈ (Deed.of s r x).settles ∨ d.settled = some m := by
  cases r with
  | nextFrame => cases h
  | queuePendingMessage m' clientMsgId payload =>
    cases h
    refine .inl ?_
    simp only [Deed.of]
    split <;> exact List.mem_singleton_self _
  | send c item =>
    obtain ⟨text, label⟩ := item
    cases label with
    | live m' =>
      simp only [seen, Deed.of] at h ⊢
      split at h
      · rename_i hsent
        cases h
        rw [if_pos hsent]
        exact .inl (List.mem_singleton_self _)
      · exact .inr h
    | _ => exact .inr h
  | clientsGet u => cases x <;> exact .inr h
  | _ => exact .inr h

/-- A connection passes on only what it has. -/
def Has (d : Custody) : Deed → Prop
  | .live m => d.current = some m.serial
  | .queued m => d.current = some m.serial
  | .keptOut m => d.current = some m.serial
  | .replayed m => m ∈ d.held
  | .dropped m => m ∈ d.held
  | _ => True

theorem may_has (s : AppState) {d : Custody} {r : RelayOp} (hr : d.may r) (x : r.Reply) :
    d.Has (Deed.of s r x) := by
  cases r with
  | queuePendingMessage m clientMsgId payload =>
    simp only [Deed.of]
    split <;> exact hr
  | send c item =>
    obtain ⟨text, label⟩ := item
    cases label with
    | live m => simp only [Deed.of]; split; exacts [hr.1, trivial]
    | queued m => simp only [Deed.of]; split <;> exact hr.1
    | echo m => trivial
    | other => trivial
  | _ => trivial

end Custody

/-! ## The connections keep to it -/

/-- The connection goes along, from `d`, to a point of which `Q` holds. -/
abbrev Custodial {α : Type} (d : Custody) (Q : Custody → α → Prop) (p : RelayProg α) : Prop :=
  p.Along Custody.may Custody.seen Q d

/-- A plain program leaves everything as it was. -/
theorem Plain.custodial {α : Type} {p : RelayProg α} (hp : Plain p) (d : Custody) :
    Custodial d (fun d' _ => d.Grown d') p :=
  Prog.Asks.along hp Custody.Grown.refl (fun _ _ _ => .trans) Custody.plain_step d

theorem Plain.custodial_bind {α β : Type} {p : RelayProg α} (hp : Plain p) {d : Custody}
    {Q : Custody → β → Prop} {f : α → RelayProg β}
    (hf : ∀ d' a, d.Grown d' → Custodial d' Q (f a)) : Custodial d Q (p >>= f) :=
  (Prog.along_bind p f).mpr ((hp.custodial d).mono (fun _ _ h => h) fun d' a h => hf d' a h)

theorem Plain.custodial_true {α : Type} {p : RelayProg α} (hp : Plain p) (d : Custody) :
    Custodial d (fun _ _ => True) p := (hp.custodial d).mono (fun _ _ h => h) fun _ _ _ => trivial

/-- The rest of an accepted message, once its recipient has been looked up. -/
theorem custodial_deliver (user : Member) (tx : ℕ) (w : Text) (m : Relayed) (payload : Json)
    {d : Custody} (hd : d.current = some m.serial) :
    Custodial d (fun _ _ => True) (deliver user tx w m payload) := by
  have hecho : ∀ (d : Custody) (b : Bool), d.settled = some m → Custodial d (fun _ _ => True) (do
      let _ ← await (.send tx ⟨messageEvent (senderPayload user w payload b), .echo m⟩)
      pure ()) := fun _ _ h => ⟨h, fun _ => trivial⟩
  have hqueue : ∀ d : Custody, d.current = some m.serial → Custodial d (fun _ _ => True) (do
      queueUnless false m (payload.getStr "id") (forwardedPayload user payload)
      let _ ← await (.send tx ⟨messageEvent (senderPayload user w payload false), .echo m⟩)
      pure ()) := fun _ h => ⟨h, fun _ => hecho _ false rfl⟩
  refine ⟨trivial, ?_⟩
  intro session
  cases session with
  | none => exact hqueue d hd
  | some session =>
    refine ⟨⟨hd, List.mem_cons_self⟩, ?_⟩
    intro sent
    cases sent with
    | false => exact hqueue _ hd
    | true => exact hecho _ true rfl

theorem custodial_relayMessage (user : Member) (tx serial : ℕ) (payload : Json) {d : Custody}
    (hd : d.current = some serial) :
    Custodial d (fun _ _ => True) (relayMessage user tx serial payload) := by
  refine ⟨trivial, ?_⟩
  intro now
  dsimp only [Prog.bind]
  split
  · exact (plain_sendErr tx _).custodial_true _
  · split
    · trivial
    · refine ⟨trivial, ?_⟩
      intro recipient
      rcases recipient with e | recipient | recipient
      · exact (plain_sendErr tx _).custodial_true _
      · exact (plain_sendErr tx _).custodial_true _
      · refine ⟨trivial, ?_⟩
        intro blocked
        rcases blocked with e | blocked | blocked
        · exact (plain_sendErr tx _).custodial_true _
        · exact custodial_deliver user tx _ _ payload hd
        · exact (plain_sendErr tx _).custodial_true _

variable {F : Formats}

theorem custodial_handleCommand (user : Member) (tx serial : ℕ) (cmd : ClientCommand) {d : Custody}
    (hd : d.current = some serial) :
    Custodial d (fun _ _ => True) (handleCommand F user tx serial cmd) := by
  cases hc : cmd.command.sends with
  | false => exact (plain_handleCommand user tx serial cmd hc).custodial_true d
  | true =>
    obtain ⟨command, payload⟩ := cmd
    cases command with
    | sendMessage => exact custodial_relayMessage user tx serial payload hd
    | sendWinkd => exact custodial_relayMessage user tx serial payload hd
    | sendNudge => exact custodial_relayMessage user tx serial payload hd
    | sendWink => exact custodial_relayMessage user tx serial payload hd
    | _ => cases hc

theorem custodial_receiveLoop (user : Member) (tx : ℕ) (frames : List Frame) (d : Custody) :
    Custodial d (fun _ _ => True) (receiveLoop F user tx frames) := by
  induction frames generalizing d with
  | nil => exact ⟨trivial, fun _ => trivial⟩
  | cons frame frames ih =>
    cases frame with
    | close => exact ⟨trivial, fun _ => trivial⟩
    | other => exact ⟨trivial, fun _ => ih _⟩
    | text json =>
      refine ⟨trivial, ?_⟩
      intro serial
      dsimp only [Prog.bind]
      split
      · refine (Prog.along_bind _ _).mpr ?_
        exact (custodial_handleCommand user tx serial _ rfl).mono (fun _ _ h => h)
          fun d' _ _ => ih d'
      · exact ih _

/-- What was drained is pushed one by one. -/
theorem custodial_pushQueued (user : Member) (tx : ℕ) (queued : List PendingMessageDelivery)
    {d : Custody} (htx : (user.id, tx) ∈ d.channels) (hup : d.setUp = some tx)
    (hheld : (queued.map (PendingMessageDelivery.relayed user.id)).Subperm d.held) :
    Custodial d (fun d' _ => d'.setUp = some tx) (pushQueued user tx queued) := by
  induction queued generalizing d with
  | nil => exact hup
  | cons msg queued ih =>
    rw [List.map_cons] at hheld
    refine ⟨⟨hheld.subset List.mem_cons_self, htx, hup⟩, ?_⟩
    intro sent
    refine (plain_sendReceipt user msg.senderId msg.payload).custodial_bind ?_
    intro d' _ hgrown
    refine ih (hgrown.channels _ htx) (hgrown.setUp.trans hup) ?_
    rw [hgrown.held]
    show List.Subperm _ (d.held.erase (msg.relayed user.id))
    simpa using hheld.erase (msg.relayed user.id)

theorem custodial_flushQueued (user : Member) (tx : ℕ) {d : Custody}
    (htx : (user.id, tx) ∈ d.channels) (hup : d.setUp = some tx) :
    Custodial d (fun d' _ => d'.setUp = some tx) (flushQueued user tx) := by
  refine ⟨trivial, ?_⟩
  intro queued
  cases queued with
  | error e => exact hup
  | ok queued =>
    refine custodial_pushQueued user tx queued htx hup ?_
    exact (List.sublist_append_right _ _).subperm

theorem custodial_disconnect (user : Member) (sessionId : Id) (d : Custody) :
    Custodial d (fun _ _ => True) (disconnect user sessionId) := by
  refine ⟨trivial, ?_⟩
  intro active
  cases active with
  | false => trivial
  | true => exact ⟨trivial, fun _ => (plain_broadcastPresence user _).custodial_true _⟩

theorem custodial_serveSession (user : Member) (frames : List Frame) (d : Custody) :
    Custodial d (fun _ _ => True) (serveSession F user frames) := by
  refine ⟨trivial, ?_⟩
  intro tx
  refine ⟨trivial, ?_⟩
  intro sessionId
  refine ⟨List.mem_cons_self, ?_⟩
  intro _
  refine ⟨trivial, ?_⟩
  intro _
  refine (plain_broadcastPresence user _).custodial_bind fun d₁ _ h₁ => ?_
  refine (plain_flushRoster user tx).custodial_bind fun d₂ _ h₂ => ?_
  refine (plain_flushPendingInbound user tx).custodial_bind fun d₃ _ h₃ => ?_
  have hgrown := (h₁.trans h₂).trans h₃
  refine (Prog.along_bind _ _).mpr ?_
  refine (custodial_flushQueued user tx (hgrown.channels _ List.mem_cons_self)
    hgrown.setUp).mono (fun _ _ h => h) fun d₄ _ hup => ?_
  refine ⟨hup, ?_⟩
  intro _
  refine (Prog.along_bind (receiveLoop F user tx frames) _).mpr ?_
  refine (custodial_receiveLoop user tx frames _).mono (fun _ _ h => h) fun d₅ _ _ => ?_
  refine (Prog.along_bind _ _).mpr ?_
  refine (custodial_disconnect user sessionId d₅).mono (fun _ _ h => h) fun d₆ _ _ => ?_
  exact ⟨trivial, fun _ => trivial⟩

/-- **A connection passes on only what it has.** -/
theorem handleSocket_custodial (socket : Socket) (d : Custody) :
    Custodial d (fun _ _ => True) (handleSocket F socket) := by
  have hrefuse : ∀ (d : Custody) reason, Custodial d (fun _ _ => True) (refuse reason) :=
    fun _ _ => ⟨trivial, fun _ => trivial⟩
  unfold handleSocket
  split
  · split
    · refine ⟨trivial, ?_⟩
      intro user
      rcases user with e | user | user
      · exact hrefuse _ _
      · exact hrefuse _ _
      · refine ⟨trivial, fun _ => ⟨trivial, fun _ => ⟨trivial, fun _ => ⟨trivial, ?_⟩⟩⟩⟩
        intro sent
        cases sent with
        | false => trivial
        | true => exact custodial_serveSession user _ _
    · exact hrefuse _ _
  · exact hrefuse _ _

namespace Relay

/-- What connection `i` has and knows. -/
def custody (s : Relay) (i : ℕ) : Custody := Threads.Pool.learned Custody.seen .none i s.trace

/-- Every connection goes along, from what it has. -/
abbrev Disciplined (s : Relay) : Prop := Threads.Pool.Disciplined Custody.may Custody.seen .none s

theorem custody_answered_own (s : Relay) (i : ℕ) (r : RelayOp) (k : r.Reply → RelayProg Unit) :
    (s.answered i r k).custody i = (s.custody i).seen r (serve r s.state).1 :=
  Threads.Pool.learned_own rfl _

theorem custody_answered_other (s : Relay) {i j : ℕ} (hij : i ≠ j) (r : RelayOp)
    (k : r.Reply → RelayProg Unit) : (s.answered i r k).custody j = s.custody j :=
  Threads.Pool.learned_other hij _

/-- The connections of a run keep to what they have. -/
theorem disciplined {allowed : Relay → RelayEvent → Prop} {start : Start} {s : Relay}
    (h : Transitions.Reaches (Relay.next F) allowed (init start) s) : s.Disciplined :=
  Threads.Pool.disciplined_iff.mpr (follows (fun socket => handleSocket_custodial socket .none) h)

/-- A connection that has or knows something has started. -/
theorem started_of_custody {s : Relay} (hd : s.Disciplined) {i : ℕ} (hi : s.custody i ≠ .none) :
    i < s.tasks.length :=
  (Threads.Pool.disciplined_iff.mp hd).lt_length hi

/-- **Invariants of runs.**  It remains to look at a connection that starts, at what comes
from outside, and at the steps of connections. -/
theorem reaches_invariant {allowed : Relay → RelayEvent → Prop} {start : Start} {s : Relay}
    (h : Transitions.Reaches (Relay.next F) allowed (init start) s) {I : Relay → Prop}
    (hinit : I (init start))
    (hconnect : ∀ (s : Relay) p, s.Disciplined → I s → I { s with tasks := s.tasks ++ [p] })
    (houtside : ∀ (s : Relay) e, I s → allowed s e → I { s with state := s.state.outside e })
    (hstep : ∀ (s : Relay) i r k, Transitions.Reaches (Relay.next F) allowed (init start) s → I s →
      allowed s (.step i) → s.tasks[i]? = some (.request r k) → (s.custody i).may r →
      I (s.answered i r k)) : I s :=
  run_invariant (fun socket => handleSocket_custodial socket .none) h hinit
    (fun s p hf => hconnect s p (Threads.Pool.disciplined_iff.mpr hf)) houtside hstep

/-- What the connections have, together. -/
abbrev owned (own : Custody → ℤ) (s : Relay) : ℤ :=
  Threads.Pool.owned own Custody.seen .none s.tasks.length s.trace

section Owned
variable {own : Custody → ℤ} (hown : ∀ d, 0 ≤ own d)
include hown

theorem owned_nonneg (s : Relay) : 0 ≤ s.owned own := Threads.Pool.owned_nonneg hown _ _

/-- A connection that has something has a share. -/
theorem own_le_owned {s : Relay} {i : ℕ} (hi : i < s.tasks.length) :
    own (s.custody i) ≤ s.owned own := Threads.Pool.own_le_owned hown hi _

theorem own_add_own_le_owned {s : Relay} {i j : ℕ} (hi : i < s.tasks.length)
    (hj : j < s.tasks.length) (hij : i ≠ j) :
    own (s.custody i) + own (s.custody j) ≤ s.owned own :=
  Threads.Pool.own_add_own_le_owned hown hi hj hij _

end Owned

/-- If the connections have something, one of them has. -/
theorem exists_own {own : Custody → ℤ} {s : Relay} (hpos : 0 < s.owned own) :
    ∃ i, 0 < own (s.custody i) := by
  obtain ⟨i, -, hi⟩ := Threads.Pool.exists_own hpos
  exact ⟨i, hi⟩

end Relay
end Winkd.Server
