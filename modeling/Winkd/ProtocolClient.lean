import Winkd.SendQueue

/-!
# The protocol client

`WinkdClient` of `packages/core`: one object, the sockets that its `connect` has made, and its
reconnect timers.  The callbacks of every socket act on the same fields, whichever socket is the
current one, and no callback is ever taken off.

Sockets are those of the specification, as in `Winkd.SendQueue`: a message is delivered only while
its socket is open, `send` throws on a socket that is not open yet, and the close event, which may
come late, is the last of a socket.  A call that a handler makes is a call right after the event.
-/

namespace Winkd.Core
open Winkd.Server Winkd.Web

/-- What can be seen of a client. -/
inductive Activity where
  /-- A message comes in; `none` where it is not JSON. -/
  | received (socket : ℕ) (data : Option Json)
  /-- A frame is handed to a socket that is open. -/
  | handed (socket : ℕ) (frame : Json)
  /-- `dispatch` is called. -/
  | dispatched (envelope : Json)
  | handled (handler : ℕ) (payload : Option Json)
  /-- `onAuthFailure` is called. -/
  | authFailure

structure WinkdClient where
  sessionToken : Text
  ws : Option ℕ
  handlers : Text → List ℕ
  reconnectTimer : Option ℕ
  reconnectDelay : ℕ
  authenticated : Bool
  /-- The sockets that were made, each with its state. -/
  sockets : List ReadyState
  /-- The timers that are set. -/
  timers : List ℕ
  /-- The id of the next timer. -/
  nextTimer : ℕ
  log : List Activity

namespace WinkdClient

/-- `new WinkdClient(serverUrl, sessionToken)` -/
def new (sessionToken : Text) : WinkdClient where
  sessionToken := sessionToken
  ws := none
  handlers _ := []
  reconnectTimer := none
  reconnectDelay := 1000
  authenticated := false
  sockets := []
  timers := []
  nextTimer := 1
  log := []

/-! ## Sockets -/

def note (c : WinkdClient) (a : Activity) : WinkdClient := { c with log := c.log ++ [a] }

def stateOf (c : WinkdClient) (i : ℕ) : Option ReadyState := c.sockets[i]?

def setState (c : WinkdClient) (i : ℕ) (state : ReadyState) : WinkdClient :=
  { c with sockets := c.sockets.modify i fun _ => state }

/-- `this.ws?.readyState` -/
def readyState (c : WinkdClient) : Option ReadyState := c.ws.bind c.stateOf

/-- `this.ws!.send(frame)`, unless it throws. -/
def transmit (c : WinkdClient) (frame : Json) : Option WinkdClient :=
  match c.ws with
  | none => none
  | some i =>
    match c.stateOf i with
    | some .open => some (c.note (.handed i frame))
    | some .closing => some c
    | some .closed => some c
    | _ => none

/-- The closing of a socket begins. -/
def close (c : WinkdClient) (i : ℕ) : WinkdClient :=
  if c.stateOf i = some .connecting ∨ c.stateOf i = some .open then c.setState i .closing else c

/-! ## The methods -/

def connect (c : WinkdClient) : WinkdClient :=
  if c.readyState = some .open then c
  else
    { c with
      ws := some c.sockets.length
      sockets := c.sockets ++ [.connecting]
      authenticated := false }

/-- The timer that was set before is forgotten, not cleared. -/
def scheduleReconnect (c : WinkdClient) : WinkdClient :=
  { c with
    reconnectTimer := some c.nextTimer
    timers := c.timers ++ [c.nextTimer]
    nextTimer := c.nextTimer + 1 }

/-- What the timer calls. -/
def reconnect (c : WinkdClient) : WinkdClient :=
  connect { c with reconnectDelay := min (c.reconnectDelay * 2) 30000 }

def clearTimeout (c : WinkdClient) (timer : ℕ) : WinkdClient :=
  { c with timers := c.timers.filter (· ≠ timer) }

def disconnect (c : WinkdClient) : WinkdClient :=
  let cleared := (c.reconnectTimer.map c.clearTimeout).getD c
  let closed := (cleared.ws.map cleared.close).getD cleared
  { closed with ws := none, authenticated := false }

def send (c : WinkdClient) (command : String) (payload : Json) : WinkdClient :=
  if !c.authenticated ∨ c.readyState ≠ some .open then c
  else (c.transmit (commandFrame command payload)).getD c

def on (c : WinkdClient) (event : Text) (handler : ℕ) : WinkdClient :=
  let set := c.handlers event
  let set := if handler ∈ set then set else set ++ [handler]
  { c with handlers := Function.update c.handlers event set }

/-- What `on` returns. -/
def off (c : WinkdClient) (event : Text) (handler : ℕ) : WinkdClient :=
  let set := (c.handlers event).filter (· ≠ handler)
  { c with handlers := Function.update c.handlers event set }

def dispatch (c : WinkdClient) (envelope : Json) : WinkdClient :=
  let set := ((envelope.getStr "event").map c.handlers).getD []
  let handled := set.map fun handler => .handled handler (envelope.get "payload")
  { c with log := c.log ++ .dispatched envelope :: handled }

/-! ## The callbacks -/

/-- The frame goes to the socket that is the current one. -/
def onopen (c : WinkdClient) : WinkdClient :=
  let c' := { c with reconnectDelay := 1000 }
  (c'.transmit (authFrame c.sessionToken)).getD c'

def onmessage (c : WinkdClient) (data : Option Json) : WinkdClient :=
  match data with
  | none => c
  | some envelope =>
    if !c.authenticated then
      if isAuthOk envelope then { c with authenticated := true } else c
    else c.dispatch envelope

def onclose (c : WinkdClient) (code : ℕ) : WinkdClient :=
  let c := { c with authenticated := false }
  if code = 4001 then c.note .authFailure else c.scheduleReconnect

/-! ## What the operations change -/

/-- Where a frame can be sent, it is handed to the current socket; and nothing else changes. -/
theorem transmit_getD (c : WinkdClient) (frame : Json) :
    (c.transmit frame).getD c = c ∨ ∃ i, (c.transmit frame).getD c = c.note (.handed i frame) := by
  unfold transmit
  split
  · exact .inl rfl
  · split
    · exact .inr ⟨_, rfl⟩
    · exact .inl rfl
    · exact .inl rfl
    · exact .inl rfl

theorem stateOf_setState (c : WinkdClient) (i j : ℕ) (state : ReadyState) :
    (c.setState i state).stateOf j =
      if i = j then (c.stateOf i).map fun _ => state else c.stateOf j := by
  unfold stateOf setState
  rw [List.getElem?_modify]
  split
  · rename_i hij
    subst hij
    rfl
  · rw [id_map']

/-- A socket whose closing begins was connecting or open. -/
theorem stateOf_close (c : WinkdClient) (i j : ℕ) :
    (c.close i).stateOf j = c.stateOf j ∨ ((c.close i).stateOf j = some .closing ∧
      (c.stateOf j = some .connecting ∨ c.stateOf j = some .open)) := by
  unfold close
  split
  · rename_i hopen
    rw [stateOf_setState]
    split
    · rename_i hij
      subst hij
      refine .inr ⟨?_, hopen⟩
      rcases hopen with hopen | hopen <;> rw [hopen] <;> rfl
    · exact .inl rfl
  · exact .inl rfl

/-- The closing of a socket changes the sockets only, and goes by them. -/
theorem close_eq (c : WinkdClient) (timers : List ℕ) (i : ℕ) :
    close { c with timers := timers } i = { c with timers := timers, sockets := (c.close i).sockets } := by
  have hsame : stateOf { c with timers := timers } i = c.stateOf i := rfl
  unfold close
  rw [hsame]
  split
  · rfl
  · rfl

/-- What `disconnect` leaves: the sockets, the current one of which may have begun to close, and the
timers but the one that was set last. -/
theorem disconnect_eq (c : WinkdClient) :
    c.disconnect =
      { c with
        ws := none
        authenticated := false
        timers := c.timers.filter fun t => c.reconnectTimer ≠ some t
        sockets := ((c.ws.map c.close).getD c).sockets } := by
  have hcleared : ∀ timer : Option ℕ, (timer.map c.clearTimeout).getD c =
      { c with timers := c.timers.filter fun t => timer ≠ some t } := by
    intro timer
    cases timer with
    | none => simp
    | some t => simp [clearTimeout, eq_comm]
  unfold disconnect
  rw [hcleared]
  cases hws : c.ws with
  | none => rfl
  | some i =>
    dsimp only [Option.map_some, Option.getD_some]
    rw [← hws, close_eq]

theorem stateOf_disconnect (c : WinkdClient) (j : ℕ) :
    c.disconnect.stateOf j = c.stateOf j ∨ (c.disconnect.stateOf j = some .closing ∧
      (c.stateOf j = some .connecting ∨ c.stateOf j = some .open)) := by
  rw [disconnect_eq]
  cases c.ws with
  | none => exact .inl rfl
  | some i => exact stateOf_close c i j

/-! ## Runs -/

/-- Calls of the methods, and events of the sockets and of the timers. -/
inductive Event where
  | connect
  | disconnect
  | send (command : String) (payload : Json)
  | on (event : Text) (handler : ℕ)
  | off (event : Text) (handler : ℕ)
  | opened (socket : ℕ)
  | received (socket : ℕ) (data : Option Json)
  /-- The other end closes the socket. -/
  | closing (socket : ℕ)
  | failed (socket : ℕ)
  | closed (socket code : ℕ)
  | timer (id : ℕ)

/-- What a client does, if the event can occur. -/
def next (c : WinkdClient) : Event → WinkdClient
  | .connect => c.connect
  | .disconnect => c.disconnect
  | .send command payload => c.send command payload
  | .on event handler => c.on event handler
  | .off event handler => c.off event handler
  | .opened i => if c.stateOf i = some .connecting then (c.setState i .open).onopen else c
  | .received i data =>
    if c.stateOf i = some .open then (c.note (.received i data)).onmessage data else c
  | .closing i => c.close i
  -- `onerror` writes to the console only
  | .failed _ => c
  | .closed i code =>
    if c.stateOf i = none ∨ c.stateOf i = some .closed then c
    else (c.setState i .closed).onclose code
  | .timer t => if t ∈ c.timers then (c.clearTimeout t).reconnect else c

def run (sessionToken : Text) (events : List Event) : WinkdClient :=
  events.foldl next (new sessionToken)

end WinkdClient
end Winkd.Core
