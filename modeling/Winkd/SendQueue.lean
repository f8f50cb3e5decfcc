import Winkd.ReceivedSize

/-!
# The client's queue of messages

What the web client does with its WebSocket: `wsConnect`, `wsSend` and the queue in
`localStorage`, in which messages wait while there is no connection.  A browser runs one page
after the other, each with the globals of the script, its sockets and its timers; what is
stored stays.  The user who is signed in is the same in every page, and so is the key of the
queue.

`send` throws where the specification of WebSockets says so, which is on a socket that is not
open yet, and a write to the storage succeeds.  Frames and what is stored are taken as the JSON
that their texts are of.
-/

namespace Winkd.Web
open Winkd.Server

/-- `WebSocket.readyState` -/
inductive ReadyState where
  | connecting
  | open
  | closing
  | closed
  deriving DecidableEq

/-- A socket, and the token that its `onopen` sends. -/
structure WebSocket where
  readyState : ReadyState
  token : Text

/-- What can be seen of a run. -/
inductive Happening where
  /-- `wsSend('send_message', payload)` is called. -/
  | passed (payload : Json)
  /-- A frame is handed to a socket that is open. -/
  | handed (socket : ℕ) (frame : Json)
  /-- A frame comes in; `none` where it is not JSON. -/
  | received (socket : ℕ) (data : Option Json)

structure Browser where
  ws : Option ℕ
  wsAuthenticated : Bool
  wsReconnectDelay : ℕ
  offlineSendQueue : List Json
  /-- The sockets of all pages. -/
  sockets : List WebSocket
  /-- How many calls of `wsConnect` are due. -/
  timers : ℕ
  /-- What is stored under `OFFLINE_SEND_QUEUE_KEY`, if it is JSON. -/
  storage : Option Json
  log : List Happening

/-! ## Sockets -/

namespace Browser

def note (b : Browser) (h : Happening) : Browser := { b with log := b.log ++ [h] }

def stateOf (b : Browser) (i : ℕ) : Option ReadyState := b.sockets[i]?.map WebSocket.readyState

def setState (b : Browser) (i : ℕ) (state : ReadyState) : Browser :=
  { b with sockets := b.sockets.modify i fun s => { s with readyState := state } }

/-- `ws?.readyState` -/
def readyState (b : Browser) : Option ReadyState := b.ws.bind b.stateOf

/-- `ws.send(frame)`, unless it throws. -/
def send (b : Browser) (frame : Json) : Option Browser :=
  match b.ws with
  | none => none
  | some i =>
    match b.stateOf i with
    | some .open => some (b.note (.handed i frame))
    | some .closing => some b
    | some .closed => some b
    | _ => none

/-- `ws?.readyState===WebSocket.OPEN&&wsAuthenticated` -/
def canSend (b : Browser) : Bool := b.readyState = some .open && b.wsAuthenticated

end Browser

/-- `{type:'auth',token}` -/
def authFrame (token : Text) : Json := .obj [("type", .ofString "auth"), ("token", .str token)]

/-- `{command,payload}` -/
def commandFrame (command : String) (payload : Json) : Json :=
  .obj [("command", .ofString command), ("payload", payload)]

/-- The payload of a frame that sends a message. -/
def sentMessage (frame : Json) : Option Json :=
  if frame.getStr "command" = some "send_message".toList then frame.get "payload" else none

/-- The message that is passed to `wsSend`. -/
def Happening.passedMessage : Happening → Option Json
  | .passed payload => some payload
  | _ => none

/-- The message that is handed to a socket. -/
def Happening.handedMessage : Happening → Option Json
  | .handed _ frame => sentMessage frame
  | _ => none

/-- `m.type==='auth_ok'` -/
def isAuthOk (m : Json) : Bool := m.getStr "type" = some "auth_ok".toList

/-! ## The queue -/

/-- The queue that is read from what is stored. -/
def queueOf : Option Json → List Json
  | some (.arr parsed) => parsed
  | _ => []

namespace Browser

def loadOfflineSendQueue (b : Browser) : Browser := { b with offlineSendQueue := queueOf b.storage }

def persistOfflineSendQueue (b : Browser) : Browser :=
  { b with storage := some (.arr b.offlineSendQueue) }

def enqueueOfflineMessage (b : Browser) (payload : Json) : Browser :=
  persistOfflineSendQueue { b with offlineSendQueue := b.offlineSendQueue ++ [payload] }

/-- The loop of `flushOfflineSendQueue`, on the queue as it is. -/
def flushLoop : List Json → Browser → Browser
  | [], b => b
  | payload :: rest, b =>
    match b.send (commandFrame "send_message" payload) with
    | some b' => flushLoop rest { b' with offlineSendQueue := rest }
    | none => b

def flushOfflineSendQueue (b : Browser) : Browser :=
  if !b.canSend then b
  else if b.offlineSendQueue = [] then b
  else persistOfflineSendQueue (flushLoop b.offlineSendQueue b)

/-! ## The connection -/

/-- With the token of the session, if there is one. -/
def wsConnect (b : Browser) (token : Option Text) : Browser :=
  match token with
  | none => b
  | some token =>
    { b with
      wsAuthenticated := false
      ws := some b.sockets.length
      sockets := b.sockets ++ [⟨.connecting, token⟩] }

/-- What `wsSend` does, and what it returns. -/
def wsSend (b : Browser) (command : String) (payload : Json) : Browser × Bool :=
  if b.canSend then ((b.send (commandFrame command payload)).getD b, true)
  else if command = "send_message" ∧ payload.truthy then (b.enqueueOfflineMessage payload, true)
  else (b, false)

def onopen (b : Browser) (token : Text) : Browser :=
  let b' := { b with wsReconnectDelay := 2000 }
  (b'.send (authFrame token)).getD b'

/-- With `auth_ok` the queue is sent.  No event of the server has to do with the queue. -/
def onmessage (b : Browser) (data : Option Json) : Browser :=
  match data with
  | none => b
  | some m =>
    if !b.wsAuthenticated && isAuthOk m then flushOfflineSendQueue { b with wsAuthenticated := true }
    else b

def onclose (b : Browser) : Browser :=
  { b with
    ws := none
    wsAuthenticated := false
    timers := b.timers + 1
    wsReconnectDelay := min (b.wsReconnectDelay * 2) 30000 }

/-- `ws.close()` -/
def close (b : Browser) (i : ℕ) : Browser :=
  if b.stateOf i = some .connecting ∨ b.stateOf i = some .open then b.setState i .closing else b

def onerror (b : Browser) : Browser :=
  match b.ws with
  | none => b
  | some i => b.close i

/-! ## Runs -/

/-- A new page has nothing of the page before: its sockets and its timers are gone. -/
def newPage (b : Browser) : Browser :=
  { b with
    ws := none
    wsAuthenticated := false
    wsReconnectDelay := 2000
    offlineSendQueue := []
    sockets := b.sockets.map fun s => { s with readyState := .closed }
    timers := 0 }

/-- A page is loaded. -/
def load (b : Browser) (token : Option Text) : Browser :=
  b.newPage.loadOfflineSendQueue.wsConnect token

/-- What calls the client, event handler by event handler. -/
inductive Event where
  /-- `wsSend('send_message', …)`: a payload is an object. -/
  | sendMessage (fields : List (String × Json))
  | otherCommand (command : String) (payload : Json) (other : command ≠ "send_message")
  | opened (socket : ℕ)
  | received (socket : ℕ) (data : Option Json)
  | closing (socket : ℕ)
  | failed (socket : ℕ)
  | closed (socket : ℕ)
  | timer (token : Option Text)
  | reload (token : Option Text)

/-- What a browser does on an event, if the event can occur. -/
def next (b : Browser) : Event → Browser
  | .sendMessage fields => ((b.note (.passed (.obj fields))).wsSend "send_message" (.obj fields)).1
  | .otherCommand command payload _ => (b.wsSend command payload).1
  | .opened i =>
    match b.sockets[i]? with
    | some ⟨.connecting, token⟩ => (b.setState i .open).onopen token
    | _ => b
  | .received i data =>
    if b.stateOf i = some .open then (b.note (.received i data)).onmessage data else b
  | .closing i => b.close i
  | .failed i => if b.stateOf i = none ∨ b.stateOf i = some .closed then b else b.onerror
  | .closed i =>
    if b.stateOf i = none ∨ b.stateOf i = some .closed then b else (b.setState i .closed).onclose
  | .timer token =>
    match b.timers with
    | 0 => b
    | n + 1 => wsConnect { b with timers := n } token
  | .reload token => b.load token

/-- A browser that has not loaded the page yet. -/
def blank (storage : Option Json) : Browser := ⟨none, false, 2000, [], [], 0, storage, []⟩

/-- The page is loaded, and the events come. -/
def run (storage : Option Json) (token : Option Text) (events : List Event) : Browser :=
  events.foldl next ((blank storage).load token)

/-- The payloads that were passed to `wsSend`. -/
def passed (b : Browser) : List Json := b.log.filterMap Happening.passedMessage

/-- The payloads that were handed to sockets. -/
def handed (b : Browser) : List Json := b.log.filterMap Happening.handedMessage

end Browser
end Winkd.Web
