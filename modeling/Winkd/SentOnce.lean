import Winkd.SendQueue

/-!
# Every message is sent once

A page has one socket that is not closed, or one call of `wsConnect` that is due, and never
both: a new socket is made when a page is loaded, and after one has closed.  So `ws` is that
socket, and it is authenticated only after its own `auth_ok`, with which the queue is emptied.
While messages are handed to a socket directly the queue is empty, and what it holds is what is
stored.  Hence the messages that were passed to `wsSend` are those that were handed to sockets
and those in the queue, in order (`sent_once`).
-/

namespace Winkd.Web
open Winkd.Server

namespace Browser

/-! ## What the operations change -/

theorem stateOf_setState (b : Browser) (i j : ℕ) (state : ReadyState) :
    (b.setState i state).stateOf j =
      if i = j then (b.stateOf i).map fun _ => state else b.stateOf j := by
  unfold stateOf setState
  rw [List.getElem?_modify]
  split
  · rename_i hij
    subst hij
    cases b.sockets[i]? <;> rfl
  · rw [id_map']

theorem passed_note (b : Browser) (h : Happening) :
    (b.note h).passed = b.passed ++ h.passedMessage.toList := by
  rw [passed, note, List.filterMap_append]
  cases hpassed : h.passedMessage <;> simp [passed, hpassed]

theorem handed_note (b : Browser) (h : Happening) :
    (b.note h).handed = b.handed ++ h.handedMessage.toList := by
  rw [handed, note, List.filterMap_append]
  cases hhanded : h.handedMessage <;> simp [handed, hhanded]

theorem sentMessage_other {command : String} (h : command ≠ "send_message") (payload : Json) :
    sentMessage (commandFrame command payload) = none := by
  refine if_neg fun heq => h ?_
  have hlist : command.toList = "send_message".toList := Option.some.inj heq
  exact String.toList_inj.mp hlist

theorem canSend_iff {b : Browser} : b.canSend = true ↔
    b.wsAuthenticated = true ∧ ∃ i, b.ws = some i ∧ b.stateOf i = some .open := by
  rw [canSend, Bool.and_eq_true, decide_eq_true_eq, readyState, Option.bind_eq_some_iff, and_comm]

/-- On a socket that is open a frame is handed over. -/
theorem send_of_open {b : Browser} {i : ℕ} (hws : b.ws = some i) (hopen : b.stateOf i = some .open)
    (frame : Json) : b.send frame = some (b.note (.handed i frame)) := by
  unfold send
  rw [hws]
  dsimp only
  rw [hopen]

/-! ## The invariant -/

/-- The socket has received its `auth_ok`. -/
def Welcomed (log : List Happening) (i : ℕ) : Prop :=
  ∃ m, Happening.received i (some m) ∈ log ∧ isAuthOk m = true

/-- Not closed yet. -/
def Live (b : Browser) (i : ℕ) : Prop := b.stateOf i ≠ none ∧ b.stateOf i ≠ some .closed

/-- What holds also while the queue is emptied; `queued` is what it held when the first page was
loaded. -/
structure Kept (queued : List Json) (b : Browser) : Prop where
  kept : queued ++ b.passed = b.handed ++ b.offlineSendQueue
  /-- No message is handed to a socket before its `auth_ok`. -/
  ordered : ∀ before i frame after, b.log = before ++ .handed i frame :: after →
    (sentMessage frame).isSome → Welcomed before i
  welcomed : b.wsAuthenticated = true →
    ∃ i, b.ws = some i ∧ Welcomed b.log i ∧ b.stateOf i ≠ some .connecting
  alone : ∀ i, b.Live i → b.ws = some i ∧ b.timers = 0
  timers : b.timers ≤ 1

/-- What holds between the handlers. -/
structure Inv (queued : List Json) (b : Browser) : Prop extends Kept queued b where
  stored : queueOf b.storage = b.offlineSendQueue
  drained : b.canSend = true → b.offlineSendQueue = []

theorem Welcomed.append {log : List Happening} {i : ℕ} (h : Welcomed log i) (log' : List Happening) :
    Welcomed (log ++ log') i := by
  obtain ⟨m, hm, hok⟩ := h
  exact ⟨m, List.mem_append_left log' hm, hok⟩

variable {queued : List Json} {b : Browser}

theorem ordered_concat {log : List Happening} {h : Happening}
    (hlog : ∀ before i frame after, log = before ++ .handed i frame :: after →
      (sentMessage frame).isSome → Welcomed before i)
    (hlast : ∀ i frame, h = .handed i frame → (sentMessage frame).isSome → Welcomed log i) :
    ∀ before i frame after, log ++ [h] = before ++ .handed i frame :: after →
      (sentMessage frame).isSome → Welcomed before i := by
  intro before i frame after heq hsent
  rcases List.eq_nil_or_concat after with rfl | ⟨after, last, rfl⟩
  · obtain ⟨rfl, hh⟩ := List.append_inj' heq rfl
    exact hlast i frame (List.singleton_inj.mp hh) hsent
  · have hsplit : log ++ [h] = (before ++ .handed i frame :: after) ++ [last] := by
      rw [heq, List.concat_eq_append, List.append_assoc, List.cons_append]
    exact hlog before i frame after (List.append_inj' hsplit rfl).1 hsent

/-- One message is taken off the queue and handed over. -/
theorem Kept.hand (h : Kept queued b) {i : ℕ} (hws : b.ws = some i) (hauth : b.wsAuthenticated = true)
    {payload : Json} {rest : List Json} (hqueue : b.offlineSendQueue = payload :: rest) :
    Kept queued
      { b.note (.handed i (commandFrame "send_message" payload)) with offlineSendQueue := rest } := by
  obtain ⟨j, hj, hwelcomed, hstate⟩ := h.welcomed hauth
  obtain rfl : i = j := Option.some.inj (hws.symm.trans hj)
  refine ⟨?_, ordered_concat h.ordered ?_, fun _ => ⟨i, hws, hwelcomed.append _, hstate⟩, h.alone,
    h.timers⟩
  · show queued ++ (b.note (.handed i (commandFrame "send_message" payload))).passed =
      (b.note (.handed i (commandFrame "send_message" payload))).handed ++ rest
    have hhanded : (Happening.handed i (commandFrame "send_message" payload)).handedMessage =
        some payload := rfl
    calc queued ++ (b.note _).passed = queued ++ b.passed := by
          rw [passed_note]
          exact congrArg _ (List.append_nil _)
      _ = b.handed ++ payload :: rest := by rw [h.kept, hqueue]
      _ = (b.note (.handed i (commandFrame "send_message" payload))).handed ++ rest := by
          rw [handed_note, hhanded, List.append_assoc]
          rfl
  · rintro _ _ heq -
    cases heq
    exact hwelcomed

/-- The loop of `flushOfflineSendQueue` empties the queue. -/
theorem Kept.flushLoop (h : Kept queued b) (hcan : b.canSend = true) {ps : List Json}
    (hqueue : b.offlineSendQueue = ps) :
    Kept queued (flushLoop ps b) ∧ (flushLoop ps b).offlineSendQueue = [] := by
  induction ps generalizing b with
  | nil => exact ⟨h, hqueue⟩
  | cons payload rest ih =>
    obtain ⟨hauth, i, hws, hopen⟩ := canSend_iff.mp hcan
    have hhand := h.hand hws hauth hqueue
    rw [Browser.flushLoop, send_of_open hws hopen]
    exact ih hhand (canSend_iff.mpr ⟨hauth, i, hws, hopen⟩) rfl

theorem Kept.flush (h : Kept queued b) (hstored : queueOf b.storage = b.offlineSendQueue) :
    Inv queued b.flushOfflineSendQueue := by
  unfold flushOfflineSendQueue
  cases hcan : b.canSend with
  | false => exact ⟨h, hstored, fun hcan' => absurd (hcan.symm.trans hcan') nofun⟩
  | true =>
    by_cases hempty : b.offlineSendQueue = []
    · rw [if_neg (by simp), if_pos hempty]
      exact ⟨h, hstored, fun _ => hempty⟩
    · rw [if_neg (by simp), if_neg hempty]
      obtain ⟨hkept, hnil⟩ := h.flushLoop hcan rfl
      exact ⟨⟨hkept.kept, hkept.ordered, hkept.welcomed, hkept.alone, hkept.timers⟩, rfl, fun _ => hnil⟩

/-! ## Handler by handler -/

/-- What is seen of neither a call nor a message that is sent. -/
theorem Kept.note (h : Kept queued b) {e : Happening} (hpassed : e.passedMessage = none)
    (hhanded : e.handedMessage = none) : Kept queued (b.note e) := by
  refine ⟨?_, ordered_concat h.ordered ?_, fun hauth => ?_, h.alone, h.timers⟩
  · rw [passed_note, handed_note, hpassed, hhanded, Option.toList_none, List.append_nil, List.append_nil]
    exact h.kept
  · rintro i frame rfl hsent
    have hnone : sentMessage frame = none := hhanded
    rw [hnone] at hsent
    cases hsent
  · obtain ⟨i, hws, hwelcomed, hstate⟩ := h.welcomed hauth
    exact ⟨i, hws, hwelcomed.append [e], hstate⟩

theorem Inv.note (h : Inv queued b) {e : Happening} (hpassed : e.passedMessage = none)
    (hhanded : e.handedMessage = none) : Inv queued (b.note e) :=
  ⟨h.toKept.note hpassed hhanded, h.stored, h.drained⟩

/-- The queue is empty where a message is handed over directly. -/
theorem Inv.sendMessage (h : Inv queued b) (fields : List (String × Json)) :
    Inv queued (b.next (.sendMessage fields)) := by
  show Inv queued ((b.note (.passed (.obj fields))).wsSend "send_message" (.obj fields)).1
  have hpassed : (b.note (.passed (.obj fields))).passed = b.passed ++ [.obj fields] :=
    passed_note b (.passed (.obj fields))
  have hhanded : (b.note (.passed (.obj fields))).handed = b.handed := by
    rw [handed_note]
    exact List.append_nil _
  have hordered := ordered_concat (h := .passed (.obj fields)) h.ordered nofun
  have hwelcomed : b.wsAuthenticated = true → ∃ i, b.ws = some i ∧
      Welcomed (b.log ++ [.passed (.obj fields)]) i ∧ b.stateOf i ≠ some .connecting := by
    intro hauth
    obtain ⟨i, hws, hi, hstate⟩ := h.welcomed hauth
    exact ⟨i, hws, hi.append _, hstate⟩
  unfold wsSend
  cases hcan : b.canSend with
  | true =>
    obtain ⟨hauth, i, hws, hopen⟩ := canSend_iff.mp hcan
    have hqueue : b.offlineSendQueue = [] := h.drained hcan
    -- it is as if the message had been put into the queue first
    have hfirst : Kept queued { b.note (.passed (.obj fields)) with offlineSendQueue := [.obj fields] } := by
      refine ⟨?_, hordered, hwelcomed, h.alone, h.timers⟩
      show queued ++ (b.note (.passed (.obj fields))).passed =
        (b.note (.passed (.obj fields))).handed ++ [.obj fields]
      rw [hpassed, hhanded, ← List.append_assoc, h.kept, hqueue, List.append_nil]
    have hhand := hfirst.hand hws hauth rfl
    have hcan' : (b.note (.passed (.obj fields))).canSend = true := hcan
    have hsend := send_of_open (b := b.note (.passed (.obj fields))) hws hopen
      (commandFrame "send_message" (.obj fields))
    rw [if_pos hcan', hsend, Option.getD_some]
    refine ⟨⟨?_, hhand.ordered, hhand.welcomed, h.alone, h.timers⟩, h.stored, fun _ => hqueue⟩
    show _ = _ ++ b.offlineSendQueue
    rw [hqueue]
    exact hhand.kept
  | false =>
    have hcan' : ¬ (b.note (.passed (.obj fields))).canSend = true := by
      show ¬ b.canSend = true
      simp [hcan]
    rw [if_neg hcan', if_pos ⟨rfl, rfl⟩]
    refine ⟨⟨?_, hordered, hwelcomed, h.alone, h.timers⟩, rfl, fun hcan'' => absurd hcan'' hcan'⟩
    show queued ++ (b.note (.passed (.obj fields))).passed =
      (b.note (.passed (.obj fields))).handed ++ (b.offlineSendQueue ++ [.obj fields])
    rw [hpassed, hhanded, ← List.append_assoc, h.kept, List.append_assoc]

theorem Inv.otherCommand (h : Inv queued b) (command : String) (payload : Json)
    (hother : command ≠ "send_message") :
    Inv queued (b.next (.otherCommand command payload hother)) := by
  show Inv queued (b.wsSend command payload).1
  unfold wsSend
  cases hcan : b.canSend with
  | true =>
    obtain ⟨-, i, hws, hopen⟩ := canSend_iff.mp hcan
    rw [if_pos rfl, send_of_open hws hopen]
    exact h.note rfl (sentMessage_other hother payload)
  | false =>
    rw [if_neg nofun, if_neg fun heq => hother heq.1]
    exact h

/-- A socket that changes its state and is not closed: what is live now was live before, and
nothing begins to connect. -/
theorem Kept.setState (h : Kept queued b) {i : ℕ} (hlive : b.Live i) {state : ReadyState}
    (hstate : state ≠ .connecting) : Kept queued (b.setState i state) := by
  have hkept : ∀ j, (b.setState i state).stateOf j = some .connecting →
      b.stateOf j = some .connecting := by
    intro j hj
    rw [stateOf_setState] at hj
    split at hj
    · obtain ⟨-, -, heq⟩ := Option.map_eq_some_iff.mp hj
      exact absurd heq hstate
    · exact hj
  refine ⟨h.kept, h.ordered, fun hauth => ?_, fun j hj => ?_, h.timers⟩
  · obtain ⟨j, hws, hwelcomed, hj⟩ := h.welcomed hauth
    exact ⟨j, hws, hwelcomed, fun hconnecting => hj (hkept j hconnecting)⟩
  · by_cases hij : i = j
    · exact hij ▸ h.alone i hlive
    · refine h.alone j ?_
      unfold Live at hj
      rw [stateOf_setState, if_neg hij] at hj
      exact hj

theorem Inv.opened (h : Inv queued b) (i : ℕ) : Inv queued (b.next (.opened i)) := by
  rw [next]
  split
  · rename_i token hsocket
    have hconnecting : b.stateOf i = some .connecting := by
      rw [stateOf, hsocket]
      rfl
    have hlive : b.Live i := by
      unfold Live
      rw [hconnecting]
      exact ⟨by decide, by decide⟩
    have hws := (h.alone i hlive).1
    have hopen : (b.setState i .open).stateOf i = some .open := by
      rw [stateOf_setState, if_pos rfl, hconnecting]
      rfl
    -- it has not been authenticated, for it was not open
    have hauth : ¬ b.wsAuthenticated = true := by
      intro hauth
      obtain ⟨j, hj, -, hstate⟩ := h.welcomed hauth
      obtain rfl : i = j := Option.some.inj (hws.symm.trans hj)
      exact hstate hconnecting
    have hopened : Kept queued (b.setState i .open) := h.toKept.setState hlive (by decide)
    have hkept : Kept queued ((b.setState i .open).note (.handed i (authFrame token))) :=
      hopened.note rfl rfl
    have hsend := send_of_open (b := { b.setState i .open with wsReconnectDelay := 2000 }) hws hopen
      (authFrame token)
    unfold onopen
    dsimp only
    rw [hsend, Option.getD_some]
    exact ⟨⟨hkept.kept, hkept.ordered, hkept.welcomed, hkept.alone, hkept.timers⟩, h.stored,
      fun hcan => absurd (canSend_iff.mp hcan).1 hauth⟩
  · exact h

theorem Inv.received (h : Inv queued b) (i : ℕ) (data : Option Json) :
    Inv queued (b.next (.received i data)) := by
  show Inv queued (if b.stateOf i = some .open then (b.note (.received i data)).onmessage data else b)
  split
  · rename_i hopen
    have hnote : Inv queued (b.note (.received i data)) := h.note rfl rfl
    unfold onmessage
    cases data with
    | none => exact hnote
    | some m =>
      dsimp only
      split
      · rename_i hok
        have hlive : b.Live i := by
          unfold Live
          rw [hopen]
          exact ⟨nofun, nofun⟩
        have hauthOk : isAuthOk m = true := (Bool.and_eq_true _ _ |>.mp hok).2
        have hwelcomed : Welcomed (b.note (.received i (some m))).log i :=
          ⟨m, List.mem_append_right _ List.mem_cons_self, hauthOk⟩
        have hstate : b.stateOf i ≠ some .connecting := by
          rw [hopen]
          exact nofun
        exact Kept.flush ⟨hnote.kept, hnote.ordered,
          fun _ => ⟨i, (h.alone i hlive).1, hwelcomed, hstate⟩, h.alone, h.timers⟩ h.stored
      · exact hnote
  · exact h

theorem Inv.close (h : Inv queued b) (i : ℕ) : Inv queued (b.close i) := by
  unfold Browser.close
  split
  · rename_i hopen
    have hlive : b.Live i := by
      unfold Live
      rcases hopen with hopen | hopen <;> rw [hopen] <;> exact ⟨nofun, nofun⟩
    refine ⟨h.toKept.setState hlive nofun, h.stored, fun hcan => h.drained ?_⟩
    obtain ⟨hauth, j, hws, hj⟩ := canSend_iff.mp hcan
    rw [stateOf_setState] at hj
    split at hj
    · obtain ⟨-, -, heq⟩ := Option.map_eq_some_iff.mp hj
      cases heq
    · exact canSend_iff.mpr ⟨hauth, j, hws, hj⟩
  · exact h

theorem Inv.failed (h : Inv queued b) (i : ℕ) : Inv queued (b.next (.failed i)) := by
  show Inv queued (if b.stateOf i = none ∨ b.stateOf i = some .closed then b else b.onerror)
  split
  · exact h
  · unfold onerror
    cases b.ws with
    | none => exact h
    | some j => exact h.close j

theorem Inv.closed (h : Inv queued b) (i : ℕ) : Inv queued (b.next (.closed i)) := by
  show Inv queued (if b.stateOf i = none ∨ b.stateOf i = some .closed then b
    else (b.setState i .closed).onclose)
  split
  · exact h
  · rename_i hlive
    obtain ⟨hws, htimers⟩ := h.alone i (not_or.mp hlive)
    refine ⟨⟨h.kept, h.ordered, nofun, fun j hj => ?_, ?_⟩, h.stored,
      fun hcan => nomatch (canSend_iff.mp hcan).1⟩
    · -- another socket that is live would be the same
      have hne : i ≠ j := by
        rintro rfl
        have hclosed : (b.setState i .closed).stateOf i ≠ some .closed := hj.2
        rw [stateOf_setState, if_pos rfl] at hclosed
        cases hstate : b.stateOf i with
        | none => exact (not_or.mp hlive).1 hstate
        | some state =>
          rw [hstate] at hclosed
          exact hclosed rfl
      have hold : b.Live j := by
        have hj' : (b.setState i .closed).Live j := hj
        unfold Live at hj'
        rw [stateOf_setState, if_neg hne] at hj'
        exact hj'
      exact absurd (Option.some.inj (hws.symm.trans (h.alone j hold).1)) hne
    · show b.timers + 1 ≤ 1
      omega

/-- A new socket is made where none is live. -/
theorem Inv.wsConnect (h : Inv queued b) (hdead : ∀ i, ¬ b.Live i) (htimers : b.timers = 0)
    (token : Option Text) : Inv queued (b.wsConnect token) := by
  cases token with
  | none => exact h
  | some token =>
    refine ⟨⟨h.kept, h.ordered, nofun, fun j hj => ?_, h.timers⟩, h.stored,
      fun hcan => nomatch (canSend_iff.mp hcan).1⟩
    refine ⟨?_, htimers⟩
    show some b.sockets.length = some j
    have hstate : (b.wsConnect (some token)).stateOf j =
        if j < b.sockets.length then b.stateOf j
        else if j = b.sockets.length then some .connecting else none := by
      show ((b.sockets ++ [⟨.connecting, token⟩])[j]?).map WebSocket.readyState = _
      rw [List.getElem?_append]
      split
      · rfl
      · split
        · rename_i heq
          subst heq
          simp
        · rename_i hnot hne
          have hlength : ([⟨.connecting, token⟩] : List WebSocket).length ≤ j - b.sockets.length := by
            show 1 ≤ _
            omega
          rw [List.getElem?_eq_none hlength]
          rfl
    unfold Live at hj
    rw [hstate] at hj
    split at hj
    · exact absurd hj (hdead j)
    · split at hj
      · rename_i heq
        rw [heq]
      · exact absurd rfl hj.1

theorem Inv.timer (h : Inv queued b) (token : Option Text) : Inv queued (b.next (.timer token)) := by
  rw [next]
  have hle := h.timers
  cases htimers : b.timers with
  | zero => exact h
  | succ n =>
    have hdead : ∀ i, ¬ b.Live i := fun i hlive => by
      have hzero := (h.alone i hlive).2
      omega
    have hlast : n = 0 := by omega
    refine Inv.wsConnect (b := { b with timers := n })
      ⟨⟨h.kept, h.ordered, h.welcomed, fun i hlive => absurd hlive (hdead i), ?_⟩,
        h.stored, h.drained⟩ hdead hlast token
    show n ≤ 1
    omega

/-- A page that is loaded has the queue that is stored. -/
theorem inv_load (hkept : queued ++ b.passed = b.handed ++ queueOf b.storage)
    (hordered : ∀ before i frame after, b.log = before ++ .handed i frame :: after →
      (sentMessage frame).isSome → Welcomed before i) (token : Option Text) :
    Inv queued (b.load token) := by
  have hdead : ∀ i, ¬ b.newPage.loadOfflineSendQueue.Live i := by
    intro i hlive
    have hstate : b.newPage.loadOfflineSendQueue.stateOf i =
        b.sockets[i]?.map fun _ => ReadyState.closed := by
      show ((b.sockets.map _)[i]?).map WebSocket.readyState = _
      rw [List.getElem?_map, Option.map_map]
      rfl
    unfold Live at hlive
    rw [hstate] at hlive
    cases hsocket : b.sockets[i]? with
    | none =>
      rw [hsocket] at hlive
      exact hlive.1 rfl
    | some socket =>
      rw [hsocket] at hlive
      exact hlive.2 rfl
  exact Inv.wsConnect (b := b.newPage.loadOfflineSendQueue)
    ⟨⟨hkept, hordered, fun hauth => (nomatch hauth), fun i hlive => absurd hlive (hdead i),
      Nat.zero_le 1⟩, rfl, fun hcan => nomatch (canSend_iff.mp hcan).1⟩ hdead rfl token

/-- **A handler keeps the invariant.** -/
theorem Inv.next (h : Inv queued b) (e : Event) : Inv queued (b.next e) := by
  cases e with
  | sendMessage fields => exact h.sendMessage fields
  | otherCommand command payload other => exact h.otherCommand command payload other
  | opened i => exact h.opened i
  | received i data => exact h.received i data
  | closing i => exact h.close i
  | failed i => exact h.failed i
  | closed i => exact h.closed i
  | timer token => exact h.timer token
  | reload token => exact inv_load (by rw [h.stored]; exact h.kept) h.ordered token

theorem inv_run (storage : Option Json) (token : Option Text) (events : List Event) :
    Inv (queueOf storage) (run storage token events) := by
  have hstart : Inv (queueOf storage) ((blank storage).load token) := by
    refine inv_load (List.append_nil _) (fun before i frame after hlog => ?_) token
    have hlength := congrArg List.length hlog
    simp [blank] at hlength
  exact List.foldlRecOn events Browser.next hstart fun b hb e _ => hb.next e

end Browser

/-- **Every message is sent once, and in order**: what was queued and what was passed to `wsSend`
is what was handed to sockets, each after its `auth_ok`, and then what is in the queue. -/
theorem sent_once (storage : Option Json) (token : Option Text) (events : List Browser.Event) :
    queueOf storage ++ (Browser.run storage token events).passed =
        (Browser.run storage token events).handed ++
          (Browser.run storage token events).offlineSendQueue ∧
      ∀ before i frame after,
        (Browser.run storage token events).log = before ++ .handed i frame :: after →
          (sentMessage frame).isSome →
            ∃ m, Happening.received i (some m) ∈ before ∧ isAuthOk m = true :=
  ⟨(Browser.inv_run storage token events).kept, (Browser.inv_run storage token events).ordered⟩

end Winkd.Web
