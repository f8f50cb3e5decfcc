import Winkd.SentOnce
import Winkd.UnreadBadge

/-!
# Tabs

A user can have the page open in several tabs.  They share the storage, and each keeps its own copy of
the conversations and of the queue: the copies are read when the page is loaded, and written back whole,
the conversations by a timer, the queue with every change.

The storage has no quota here, and what is stored is taken as what its text is of.  Both keys are those
of the user who is signed in.
-/

namespace Winkd.Web
open UnicodeText Winkd.Server

/-! ## What an event does to the queue of a page -/

namespace Browser
variable {b : Browser} {e : Event}

/-- The event is the `auth_ok` that empties a queue. -/
def flushes (b : Browser) : Event → Bool
  | .received i (some m) =>
    b.stateOf i = some .open && !b.wsAuthenticated && isAuthOk m && b.readyState = some .open &&
      !b.offlineSendQueue.isEmpty
  | _ => false

/-- The event is one of the connection. -/
def Event.connects : Event → Bool
  | .sendMessage _ => false
  | .reload _ => false
  | _ => true

theorem flushes_received {i : ℕ} {m : Json} : b.flushes (.received i (some m)) = true ↔
    b.stateOf i = some .open ∧ b.wsAuthenticated = false ∧ isAuthOk m = true ∧
      b.readyState = some .open ∧ b.offlineSendQueue ≠ [] := by
  simp only [flushes, Bool.and_eq_true, decide_eq_true_eq, Bool.not_eq_true',
    List.isEmpty_eq_false_iff, and_assoc, ne_eq]

/-- Nothing is passed, handed over, queued or stored. -/
structure SameQueue (b b' : Browser) : Prop where
  queue : b'.offlineSendQueue = b.offlineSendQueue
  storage : b'.storage = b.storage
  passed : b'.passed = b.passed
  handed : b'.handed = b.handed

theorem SameQueue.refl (b : Browser) : SameQueue b b := ⟨rfl, rfl, rfl, rfl⟩

theorem SameQueue.note (b : Browser) {h : Happening} (hpassed : h.passedMessage = none)
    (hhanded : h.handedMessage = none) : SameQueue b (b.note h) := by
  refine ⟨rfl, rfl, ?_, ?_⟩
  · rw [passed_note, hpassed]
    exact List.append_nil _
  · rw [handed_note, hhanded]
    exact List.append_nil _

/-- A frame that sends no message. -/
theorem SameQueue.send (b : Browser) (frame : Json) (hframe : sentMessage frame = none) :
    SameQueue b ((b.send frame).getD b) := by
  unfold Browser.send
  split
  · exact .refl b
  · split
    · exact .note b rfl hframe
    · exact .refl b
    · exact .refl b
    · exact .refl b

theorem SameQueue.wsConnect (b : Browser) (token : Option Text) : SameQueue b (b.wsConnect token) := by
  cases token <;> exact ⟨rfl, rfl, rfl, rfl⟩

theorem SameQueue.close (b : Browser) (i : ℕ) : SameQueue b (b.close i) := by
  unfold Browser.close
  split <;> exact ⟨rfl, rfl, rfl, rfl⟩

/-- The loop of `flushOfflineSendQueue` hands over what it takes off the queue. -/
theorem flushLoop_eq {i : ℕ} {ps : List Json} (hws : b.ws = some i) (hopen : b.stateOf i = some .open)
    (hqueue : b.offlineSendQueue = ps) :
    (flushLoop ps b).offlineSendQueue = [] ∧ (flushLoop ps b).passed = b.passed ∧
      (flushLoop ps b).handed = b.handed ++ ps := by
  induction ps generalizing b with
  | nil => exact ⟨hqueue, rfl, (List.append_nil _).symm⟩
  | cons payload rest ih =>
    rw [flushLoop, send_of_open hws hopen]
    obtain ⟨hempty, hpassed, hhanded⟩ := ih
      (b := { b.note (.handed i (commandFrame "send_message" payload)) with offlineSendQueue := rest })
      hws hopen rfl
    refine ⟨hempty, hpassed.trans ?_, hhanded.trans ?_⟩
    · exact (passed_note b _).trans (List.append_nil _)
    · calc (b.note (.handed i (commandFrame "send_message" payload))).handed ++ rest
          = (b.handed ++ [payload]) ++ rest := congrArg (· ++ rest) (handed_note b _)
        _ = b.handed ++ payload :: rest := List.append_assoc _ _ _

/-- **The queue is handed over whole.** -/
theorem flushed (h : b.flushes e = true) :
    (b.next e).offlineSendQueue = [] ∧ (b.next e).storage = some (.arr []) ∧
      (b.next e).passed = b.passed ∧ (b.next e).handed = b.handed ++ b.offlineSendQueue := by
  cases e with
  | received i data =>
    cases data with
    | none => cases h
    | some m =>
      obtain ⟨hopen, hauth, hok, hready, hqueue⟩ := flushes_received.mp h
      obtain ⟨j, hws, hj⟩ := Option.bind_eq_some_iff.mp hready
      let welcomed : Browser := { b.note (.received i (some m)) with wsAuthenticated := true }
      have hcan : welcomed.canSend = true := canSend_iff.mpr ⟨rfl, j, hws, hj⟩
      have hnext : b.next (.received i (some m)) =
          persistOfflineSendQueue (flushLoop b.offlineSendQueue welcomed) := by
        calc b.next (.received i (some m)) = (b.note (.received i (some m))).onmessage (some m) :=
              if_pos hopen
          _ = welcomed.flushOfflineSendQueue := by
              refine if_pos ?_
              show (!b.wsAuthenticated && isAuthOk m) = true
              rw [hauth, hok]
              rfl
          _ = persistOfflineSendQueue (flushLoop b.offlineSendQueue welcomed) := by
              unfold flushOfflineSendQueue
              rw [hcan]
              exact (if_neg nofun).trans (if_neg hqueue)
      obtain ⟨hempty, hpassed, hhanded⟩ := flushLoop_eq (b := welcomed) hws hj rfl
      rw [hnext]
      refine ⟨hempty, congrArg (fun queue => some (Json.arr queue)) hempty, hpassed.trans ?_,
        hhanded.trans ?_⟩
      · exact (passed_note b _).trans (List.append_nil _)
      · exact congrArg (· ++ b.offlineSendQueue) ((handed_note b _).trans (List.append_nil _))
  | _ => cases h

theorem same_of_received {i : ℕ} {data : Option Json} (h : b.flushes (.received i data) = false) :
    SameQueue b (b.next (.received i data)) := by
  show SameQueue b (if b.stateOf i = some .open then (b.note (.received i data)).onmessage data else b)
  split
  · rename_i hopen
    have hnote : SameQueue b (b.note (.received i data)) := .note b rfl rfl
    unfold onmessage
    cases data with
    | none => exact hnote
    | some m =>
      dsimp only
      split
      · rename_i hok
        have hwelcomed : SameQueue b { b.note (.received i (some m)) with wsAuthenticated := true } :=
          ⟨hnote.queue, hnote.storage, hnote.passed, hnote.handed⟩
        unfold flushOfflineSendQueue
        split
        · exact hwelcomed
        · rename_i hcan
          split
          · exact hwelcomed
          · -- it would be the one that empties the queue
            rename_i hqueue
            rw [Bool.not_eq_true', Bool.not_eq_false] at hcan
            obtain ⟨-, j, hws, hj⟩ := canSend_iff.mp hcan
            obtain ⟨hauth, hok⟩ := Bool.and_eq_true _ _ |>.mp hok
            have hflushes := flushes_received.mpr ⟨hopen, Bool.not_eq_true' _ |>.mp hauth, hok,
              Option.bind_eq_some_iff.mpr ⟨j, hws, hj⟩, hqueue⟩
            rw [h] at hflushes
            cases hflushes
      · exact hnote
  · exact .refl b

/-- The other events of the connection leave the queue. -/
theorem same_of_connects (hconnects : e.connects = true) (h : b.flushes e = false) :
    SameQueue b (b.next e) := by
  cases e with
  | sendMessage => cases hconnects
  | reload => cases hconnects
  | otherCommand command payload hother =>
    show SameQueue b (b.wsSend command payload).1
    unfold wsSend
    split
    · exact .send b _ (sentMessage_other hother payload)
    · rw [if_neg fun heq => hother heq.1]
      exact .refl b
  | opened i =>
    rw [Browser.next]
    split
    · rename_i token _
      -- the socket opens: only the frame that authenticates is sent
      have hsame := SameQueue.send { b.setState i .open with wsReconnectDelay := 2000 }
        (authFrame token) rfl
      exact ⟨hsame.queue, hsame.storage, hsame.passed, hsame.handed⟩
    · exact .refl b
  | received i data => exact same_of_received h
  | closing i => exact .close b i
  | failed i =>
    show SameQueue b (if b.stateOf i = none ∨ b.stateOf i = some .closed then b else b.onerror)
    split
    · exact .refl b
    · unfold onerror
      split
      · exact .refl b
      · exact .close b _
  | closed i =>
    show SameQueue b (if b.stateOf i = none ∨ b.stateOf i = some .closed then b
      else (b.setState i .closed).onclose)
    split <;> exact ⟨rfl, rfl, rfl, rfl⟩
  | timer token =>
    rw [Browser.next]
    split
    · exact .refl b
    · rename_i n _
      have hsame := SameQueue.wsConnect { b with timers := n } token
      exact ⟨hsame.queue, hsame.storage, hsame.passed, hsame.handed⟩

/-- A message is handed over at once, where there is a connection. -/
theorem sent_directly (hcan : b.canSend = true) (fields : List (String × Json)) :
    (b.next (.sendMessage fields)).offlineSendQueue = b.offlineSendQueue ∧
      (b.next (.sendMessage fields)).storage = b.storage ∧
      (b.next (.sendMessage fields)).passed = b.passed ++ [.obj fields] ∧
      (b.next (.sendMessage fields)).handed = b.handed ++ [.obj fields] := by
  obtain ⟨-, i, hws, hopen⟩ := canSend_iff.mp hcan
  have hnext : b.next (.sendMessage fields) = (b.note (.passed (.obj fields))).note
      (.handed i (commandFrame "send_message" (.obj fields))) := by
    show ((b.note (.passed (.obj fields))).wsSend "send_message" (.obj fields)).1 = _
    have hcan' : (b.note (.passed (.obj fields))).canSend = true := hcan
    unfold wsSend
    rw [if_pos hcan', send_of_open (b := b.note (.passed (.obj fields))) hws hopen]
    rfl
  rw [hnext]
  refine ⟨rfl, rfl, ?_, ?_⟩
  · rw [passed_note, passed_note]
    exact List.append_nil _
  · rw [handed_note, handed_note]
    exact congrArg (· ++ [Json.obj fields]) (List.append_nil _)

/-- A message that cannot be sent is put into the queue, and the queue is stored. -/
theorem sent_later (hcan : b.canSend = false) (fields : List (String × Json)) :
    (b.next (.sendMessage fields)).offlineSendQueue = b.offlineSendQueue ++ [.obj fields] ∧
      (b.next (.sendMessage fields)).storage = some (.arr (b.offlineSendQueue ++ [.obj fields])) ∧
      (b.next (.sendMessage fields)).passed = b.passed ++ [.obj fields] ∧
      (b.next (.sendMessage fields)).handed = b.handed := by
  have hcan' : ¬ (b.note (.passed (.obj fields))).canSend = true := by
    show ¬ b.canSend = true
    rw [hcan]
    exact nofun
  have hnext : b.next (.sendMessage fields) =
      (b.note (.passed (.obj fields))).enqueueOfflineMessage (.obj fields) := by
    show ((b.note (.passed (.obj fields))).wsSend "send_message" (.obj fields)).1 = _
    unfold wsSend
    rw [if_neg hcan', if_pos ⟨rfl, rfl⟩]
  rw [hnext]
  refine ⟨rfl, rfl, passed_note b _, ?_⟩
  exact (handed_note b _).trans (List.append_nil _)

end Browser
/-! ## Several tabs -/

/-- `mkMsgId` gives no id twice. -/
structure MsgIds where
  mkMsgId : ℕ → Text
  injective : Function.Injective mkMsgId

namespace MsgIds
variable (ids : MsgIds)

/-- The fields of a payload with the id that the `n`th call of `mkMsgId` gives. -/
def fieldsOf (n : ℕ) (fields : List (String × Json)) : List (String × Json) :=
  ("id", .str (ids.mkMsgId n)) :: fields

/-- The id of the payload was given by one of the first `n` calls. -/
def Drawn (n : ℕ) (p : Json) : Prop := ∃ j < n, ∃ fields, p = .obj (ids.fieldsOf j fields)

variable {ids}

theorem Drawn.mono {n n' : ℕ} (hle : n ≤ n') {p : Json} (h : ids.Drawn n p) : ids.Drawn n' p := by
  obtain ⟨j, hj, hp⟩ := h
  exact ⟨j, by omega, hp⟩

theorem drawn_succ (n : ℕ) (fields : List (String × Json)) :
    ids.Drawn (n + 1) (.obj (ids.fieldsOf n fields)) := ⟨n, n.lt_succ_self, fields, rfl⟩

/-- The next id is new. -/
theorem not_drawn (n : ℕ) (fields : List (String × Json)) :
    ¬ ids.Drawn n (.obj (ids.fieldsOf n fields)) := by
  rintro ⟨j, hj, fields', heq⟩
  simp only [fieldsOf, Json.obj.injEq, List.cons.injEq, Prod.mk.injEq, Json.str.injEq, true_and] at heq
  have := ids.injective heq.1
  omega

end MsgIds

/-- A tab; what its browser stores is in the storage of all tabs. -/
structure Tab where
  loaded : Bool
  app : AppCore
  /-- `_convosSaveTimer` -/
  saveTimer : Bool
  browser : Browser

/-- What the pages before have left: the conversations, and a queue of messages. -/
structure Stored (ids : MsgIds) where
  convos : Convos
  queue : Option Json
  /-- How often `mkMsgId` was called. -/
  calls : ℕ
  nodup : (queueOf queue).Nodup
  drawn : ∀ p ∈ queueOf queue, ids.Drawn calls p

structure Tabs (ι : Type) (ids : MsgIds) where
  tab : ι → Tab
  storedConvos : Convos
  storedQueue : Option Json
  /-- How often `mkMsgId` was called. -/
  calls : ℕ
  /-- What was stored before the tabs were loaded. -/
  before : Stored ids
  /-- The messages that the tabs have appended to each conversation. -/
  appended : Text → List UiMessage

namespace Tabs
variable {ι : Type} {ids : MsgIds}

/-- No tab is loaded yet. -/
def start (ι : Type) (before : Stored ids) : Tabs ι ids where
  tab := fun _ => ⟨false, AppCore.load fun _ => none, false, Browser.blank none⟩
  storedConvos := before.convos
  storedQueue := before.queue
  calls := before.calls
  before := before
  appended := fun _ => []

/-- The browser of a tab with the storage of all. -/
def browser (s : Tabs ι ids) (i : ι) : Browser := { (s.tab i).browser with storage := s.storedQueue }

inductive Event (ι : Type) where
  | load (i : ι) (token : Option Text)
  | rendered (i : ι) (payload : Json) (ts : Text)
  | relayed (i : ι) (payload : Json) (ts : Text)
  /-- The timer of `saveConvos`. -/
  | save (i : ι)
  /-- `wsSend('send_message', {id:mkMsgId(),…})` -/
  | send (i : ι) (fields : List (String × Json))
  | connection (i : ι) (e : Browser.Event) (connects : e.connects = true)

/-- The tab of an event. -/
def Event.tab : Event ι → ι
  | .load i _ => i
  | .rendered i _ _ => i
  | .relayed i _ _ => i
  | .save i => i
  | .send i _ => i
  | .connection i _ _ => i

/-- A message was pushed to its conversation. -/
def pushed (app app' : AppCore) (payload : Json) : Bool :=
  match Chats.conversationOf payload with
  | some (.str k) => !(AppCore.appended app app' k).isEmpty
  | _ => false

section
variable [DecidableEq ι]

def setTab (s : Tabs ι ids) (i : ι) (t : Tab) : Tabs ι ids := { s with tab := Function.update s.tab i t }

/-- What a tab's browser has done, and what it has stored. -/
def setBrowser (s : Tabs ι ids) (i : ι) (b : Browser) : Tabs ι ids :=
  { s.setTab i { s.tab i with browser := b } with storedQueue := b.storage }

/-- A message was handled: where it was pushed, `saveConvos` is called. -/
def handle (s : Tabs ι ids) (i : ι) (payload : Json) (app : AppCore) : Tabs ι ids :=
  { s.setTab i { s.tab i with
      app := app
      saveTimer := (s.tab i).saveTimer || pushed (s.tab i).app app payload } with
    appended := fun k => s.appended k ++ AppCore.appended (s.tab i).app app k }

variable (numberText : Text → CodeUnits) (me : Identity)

/-- What a tab does that is loaded. -/
def step (s : Tabs ι ids) : Event ι → Tabs ι ids
  | .load _ _ => s
  | .rendered i payload ts =>
    s.handle i payload ((s.tab i).app.locallyRenderOutgoing numberText payload ts)
  | .relayed i payload ts =>
    s.handle i payload ((s.tab i).app.handleRelayedMessage numberText me payload ts)
  | .save i =>
    if (s.tab i).saveTimer then
      { s.setTab i { s.tab i with saveTimer := false } with storedConvos := (s.tab i).app.convos }
    else s
  | .send i fields =>
    { s.setBrowser i ((s.browser i).next (.sendMessage (ids.fieldsOf s.calls fields))) with
      calls := s.calls + 1 }
  | .connection i e _ => s.setBrowser i ((s.browser i).next e)

/-- A tab is loaded first, and once. -/
def next (s : Tabs ι ids) (e : Event ι) : Tabs ι ids :=
  if (s.tab e.tab).loaded then s.step numberText me e
  else
    match e with
    | .load i token =>
      s.setTab i ⟨true, AppCore.load s.storedConvos, false, (s.browser i).load token⟩
    | _ => s

end

/-! ## What the storage is to keep -/

/-- A message to send that was passed to `wsSend`, or that was stored before. -/
def Passed (s : Tabs ι ids) (p : Json) : Prop :=
  p ∈ queueOf s.before.queue ∨ ∃ i, p ∈ (s.tab i).browser.passed

def Handed (s : Tabs ι ids) (p : Json) : Prop := ∃ i, p ∈ (s.tab i).browser.handed

/-- It was not handed to a socket yet. -/
def Waiting (s : Tabs ι ids) (p : Json) : Prop := s.Passed p ∧ ¬ s.Handed p

/-- No message is handed to sockets twice. -/
structure Once (s : Tabs ι ids) : Prop where
  tab : ∀ i, (s.tab i).browser.handed.Nodup
  tabs : ∀ i j, i ≠ j → (s.tab i).browser.handed.Disjoint (s.tab j).browser.handed

/-- Once all tabs have saved theirs, a page that is loaded has every message that was appended. -/
def MessagesKept (s : Tabs ι ids) : Prop :=
  (∀ i, (s.tab i).saveTimer = false) →
    ∀ k, ∀ m ∈ s.appended k, m ∈ (AppCore.load s.storedConvos).convos.messages k

/-- A page that is loaded has every message that waits to be sent. -/
def QueueKept (s : Tabs ι ids) : Prop :=
  ∀ p, s.Waiting p → p ∈ (Browser.blank s.storedQueue).loadOfflineSendQueue.offlineSendQueue

structure Kept (s : Tabs ι ids) : Prop where
  messages : s.MessagesKept
  queue : s.QueueKept
  once : s.Once

/-- The tab has every message to send that waits. -/
def HasWaiting (s : Tabs ι ids) (i : ι) : Prop :=
  ∀ p, s.Waiting p → p ∈ (s.tab i).browser.offlineSendQueue

/-- A tab that writes has what it replaces, and does not send what was sent. -/
def Harmless (s : Tabs ι ids) : Event ι → Prop
  | .save i => (s.tab i).saveTimer = true → (∀ j ≠ i, (s.tab j).saveTimer = false) →
      ∀ k, ∀ m ∈ s.appended k, m ∈ (s.tab i).app.convos.messages k
  | .send i _ => (s.tab i).loaded = true → (s.browser i).canSend = false → s.HasWaiting i
  | .connection i e _ => (s.tab i).loaded = true → (s.browser i).flushes e = true →
      s.HasWaiting i ∧ ∀ p ∈ (s.tab i).browser.offlineSendQueue, ¬ s.Handed p
  | _ => True

end Tabs
end Winkd.Web
