import Winkd.Commands
import Winkd.Service
import Winkd.Turns

/-!
# The relay at work

Connections come in at any time and are served side by side, on what they share.  Beside
them the forwarding tasks write to the sockets, sockets fail, and the account endpoints
and the membership webhook change their tables.  `Reached` are the states that the relay
can come to from empty tables.
-/

namespace Winkd.Server

/-- What a relay starts with: the time, and the ids that the index of the queue takes. -/
structure Start where
  now : ℕ
  indexes : Text → Bool

/-- Empty tables, and nobody connected. -/
def AppState.init (start : Start) : AppState where
  db := .init start.now
  supporters _ := .initial
  contactRequests := []
  blocks := []
  pendingMessages := []
  clients _ := none
  presence _ := none
  channels := []
  indexes := start.indexes
  received := 0

/-! ## The forwarding tasks -/

namespace Channel

/-- The task takes the first event of the channel and writes it. -/
def forward (c : Channel) : Channel :=
  match c.queue with
  | item :: queue =>
    if c.forwarding.isRunning then { c with queue := queue, written := c.written ++ [item] } else c
  | [] => c

/-- The task takes the first event and cannot write it: it ends, and the channel goes with
it. -/
def fail (c : Channel) : Channel :=
  if c.forwarding.isRunning ∧ c.queue ≠ [] then { c with queue := [], forwarding := .ended } else c

/-- A task that was told to stop is dropped, and the channel with it. -/
def drop (c : Channel) : Channel :=
  if c.forwarding = .aborted then { c with queue := [], forwarding := .ended } else c

end Channel

/-! ## Runs -/

/-- What the connections share, with the connections under way. -/
abbrev Relay : Type := Threads.Pool RelayOp RelayOp.Reply Empty Unit AppState

/-- What happens at the relay. -/
inductive RelayEvent where
  /-- A socket is opened. -/
  | connect (socket : Socket)
  /-- A connection takes the step it has come to. -/
  | step (connection : ℕ)
  | forward (channel : ℕ)
  | fail (channel : ℕ)
  | drop (channel : ℕ)
  /-- An account endpoint carries out a statement. -/
  | account (r : Op)
  /-- The webhook changes what a user has bought. -/
  | supporter (userId : Id) (columns : Supporter)
  | clock (now : ℕ)

/-- What an event that is no step of a connection makes of the state. -/
def AppState.outside (s : AppState) : RelayEvent → AppState
  | .connect _ => s
  | .step _ => s
  | .forward c => s.updateChannel c Channel.forward
  | .fail c => s.updateChannel c Channel.fail
  | .drop c => s.updateChannel c Channel.drop
  | .account r => { s with db := (answer r s.db).2 }
  | .supporter userId columns =>
      { s with supporters := Function.update s.supporters userId columns }
  | .clock now => { s with db := { s.db with now := now } }

namespace Relay
variable (F : Formats)

/-- An event, as a step of the pool. -/
def act (s : Relay) : RelayEvent → Threads.Act RelayOp RelayOp.Reply Empty Unit AppState
  | .connect socket => .start (handleSocket F socket)
  | .step i => .answer i
  | e => .outside (s.state.outside e)

def next (s : Relay) (e : RelayEvent) : Relay := Threads.Pool.next serve s (s.act F e)

/-- The clock does not run backwards. -/
def InTime (s : Relay) : RelayEvent → Prop
  | .clock now => s.state.db.now ≤ now
  | _ => True

instance (s : Relay) : ∀ e, Decidable (s.InTime e)
  | .clock now => inferInstanceAs (Decidable (s.state.db.now ≤ now))
  | .connect _ => isTrue trivial
  | .step _ => isTrue trivial
  | .forward _ => isTrue trivial
  | .fail _ => isTrue trivial
  | .drop _ => isTrue trivial
  | .account _ => isTrue trivial
  | .supporter _ _ => isTrue trivial

/-- Nobody is connected, and the tables are empty. -/
def init (start : Start) : Relay := Threads.Pool.idle (.init start)

/-- The states that the relay can come to. -/
def Reached (s : Relay) : Prop := ∃ start, Transitions.Reaches (next F) InTime (init start) s

end Relay

/-- A connection has nothing to do while it waits for a frame. -/
def RelayOp.isNextFrame : RelayOp → Bool
  | .nextFrame => true
  | _ => false

namespace Relay

/-- No handler is mid-way: every connection waits for a frame, or has ended. -/
abbrev AtRest (s : Relay) : Prop := Threads.Pool.AtRest RelayOp.isNextFrame s

/-- A connection takes a step only while no other handler is mid-way, and a socket is opened
only while none is: each is handled to its end before the next. -/
def InTurn (s : Relay) : RelayEvent → Prop
  | .connect _ => s.AtRest
  | .step i => Threads.Pool.OthersRest RelayOp.isNextFrame s i
  | _ => True

instance (s : Relay) : ∀ e, Decidable (s.InTurn e)
  | .connect _ => inferInstanceAs (Decidable s.AtRest)
  | .step i => inferInstanceAs (Decidable (Threads.Pool.OthersRest RelayOp.isNextFrame s i))
  | .forward _ => isTrue trivial
  | .fail _ => isTrue trivial
  | .drop _ => isTrue trivial
  | .account _ => isTrue trivial
  | .supporter _ _ => isTrue trivial
  | .clock _ => isTrue trivial

/-- The states that the relay comes to when each command, connect and disconnect is handled
atomically. -/
def ReachedInTurn (F : Formats) (s : Relay) : Prop :=
  ∃ start, Transitions.Reaches (next F) (fun s e => s.InTime e ∧ s.InTurn e) (init start) s

/-- Connection `i` has socket `sockets i`; the clock does not run backwards. -/
def Serves (sockets : ℕ → Socket) (s : Relay) : RelayEvent → Prop
  | .connect socket => sockets s.tasks.length = socket
  | .clock now => s.state.db.now ≤ now
  | _ => True

/-- The states the relay can come to when connection `i` has socket `sockets i`. -/
def ReachedServing (F : Formats) (sockets : ℕ → Socket) (s : Relay) : Prop :=
  ∃ start, Transitions.Reaches (next F) (Serves sockets) (init start) s

/-- The same, when each command, connect and disconnect is handled atomically. -/
def ReachedServingInTurn (F : Formats) (sockets : ℕ → Socket) (s : Relay) : Prop :=
  ∃ start, Transitions.Reaches (next F) (fun s e => s.Serves sockets e ∧ s.InTurn e) (init start) s

end Relay

/-! ## Invariants of runs -/

namespace Relay
variable {F : Formats} {δ : Type} {may : δ → RelayOp → Prop} {seen : δ → (r : RelayOp) → r.Reply → δ}
variable {d : δ} {Q : δ → Prop}

/-- Every connection goes along. -/
abbrev Follows (may : δ → RelayOp → Prop) (seen : δ → (r : RelayOp) → r.Reply → δ) (d : δ)
    (Q : δ → Prop) (s : Relay) : Prop := Threads.Pool.Follows may seen d Q s

/-- A connection that has come to `r` has it answered. -/
abbrev answered (s : Relay) (i : ℕ) (r : RelayOp) (k : r.Reply → RelayProg Unit) : Relay :=
  Threads.Pool.answered serve s i r k

section Runs
variable {allowed : Relay → RelayEvent → Prop} {s₀ : AppState} {s : Relay}

theorem follows_of (hsocket : ∀ s socket, allowed s (.connect socket) →
      (handleSocket F socket).Along may seen (fun d _ => Q d) d)
    (h : Transitions.Reaches (next F) allowed (Threads.Pool.idle s₀) s) : s.Follows may seen d Q := by
  refine h.invariant (I := Follows may seen d Q) (Threads.Pool.Follows.idle _) fun s e hs he => ?_
  refine Threads.Pool.Follows.next hs fun p hp => ?_
  cases e with
  | connect socket =>
    cases hp
    exact hsocket s socket he
  | _ => cases hp

/-- **An invariant of runs** is one of connections that start, of what comes from outside,
and of the steps that connections may take.  The connections that start go along. -/
theorem run_invariant_of (hsocket : ∀ s socket, allowed s (.connect socket) →
      (handleSocket F socket).Along may seen (fun d _ => Q d) d)
    (h : Transitions.Reaches (next F) allowed (Threads.Pool.idle s₀) s)
    {I : Relay → Prop} (hinit : I (Threads.Pool.idle s₀))
    (hconnect : ∀ (s : Relay) p, s.Follows may seen d Q → I s → I { s with tasks := s.tasks ++ [p] })
    (houtside : ∀ (s : Relay) e, I s → allowed s e → I { s with state := s.state.outside e })
    (hstep : ∀ (s : Relay) i r k,
      Transitions.Reaches (next F) allowed (Threads.Pool.idle s₀) s → I s → allowed s (.step i) →
      s.tasks[i]? = some (.request r k) → may (Threads.Pool.learned seen d i s.trace) r →
      I (s.answered i r k)) : I s := by
  suffices hI : Transitions.Reaches (next F) allowed (Threads.Pool.idle s₀) s ∧ I s from hI.2
  refine h.invariant (I := fun s : Relay =>
    Transitions.Reaches (next F) allowed (Threads.Pool.idle s₀) s ∧ I s) ⟨.refl _, hinit⟩ ?_
  rintro s e ⟨hs, hI⟩ he
  refine ⟨hs.tail he, ?_⟩
  have hf := follows_of hsocket hs
  cases e with
  | connect socket => exact hconnect s _ hf hI
  | step i =>
    show I (Threads.Pool.next serve s (.answer i))
    rcases Threads.Pool.next_answer_cases (h := serve) s i with heq | ⟨r, k, hp, heq⟩
    · rw [heq]
      exact hI
    · rw [heq]
      exact hstep s i r k hs hI he hp (hf.may_issue hp)
  | _ => exact houtside s _ hI he

variable (hsocket : ∀ socket, (handleSocket F socket).Along may seen (fun d _ => Q d) d)
include hsocket

theorem follows (h : Transitions.Reaches (next F) allowed (Threads.Pool.idle s₀) s) :
    s.Follows may seen d Q := follows_of (fun _ socket _ => hsocket socket) h

/-- Every connection goes along. -/
theorem run_invariant (h : Transitions.Reaches (next F) allowed (Threads.Pool.idle s₀) s)
    {I : Relay → Prop} (hinit : I (Threads.Pool.idle s₀))
    (hconnect : ∀ (s : Relay) p, s.Follows may seen d Q → I s → I { s with tasks := s.tasks ++ [p] })
    (houtside : ∀ (s : Relay) e, I s → allowed s e → I { s with state := s.state.outside e })
    (hstep : ∀ (s : Relay) i r k,
      Transitions.Reaches (next F) allowed (Threads.Pool.idle s₀) s → I s → allowed s (.step i) →
      s.tasks[i]? = some (.request r k) → may (Threads.Pool.learned seen d i s.trace) r →
      I (s.answered i r k)) : I s :=
  run_invariant_of (fun _ socket _ => hsocket socket) h hinit hconnect houtside hstep

end Runs
end Relay

/-! ## What the commands ask for -/

/-- The points that the commands come to, a message sent apart. -/
def RelayOp.isPlain : RelayOp → Bool
  | .queuePendingMessage _ _ _ => false
  | .drainPendingMessages _ => false
  | .clientsInsert _ _ => false
  | .clientsRemove _ _ => false
  | .presenceRemove _ => false
  | .newSessionId => false
  | .unboundedChannel _ => false
  | .send _ item => item.label = .other
  | .sendToAll _ item => item.label = .other
  | .spawnSendTask _ => false
  | .abortSendTask _ => false
  | .nextFrame => false
  | .write _ _ => false
  | _ => true

/-- A program that comes only to plain points. -/
def Plain {α : Type} (p : RelayProg α) : Prop := p.Asks fun r => r.isPlain = true

section Rules
variable {α β : Type}

theorem plain_pure (a : α) : Plain (pure a : RelayProg α) := trivial

theorem plain_await {r : RelayOp} (hr : r.isPlain = true) : Plain (await r) := Prog.asks_ask hr

theorem plain_bind {p : RelayProg α} {f : α → RelayProg β} (hp : Plain p) (hf : ∀ a, Plain (f a)) :
    Plain (p >>= f) := Prog.asks_bind hp hf

theorem plain_then {r : RelayOp} (hr : r.isPlain = true) {f : r.Reply → RelayProg β}
    (hf : ∀ x, Plain (f x)) : Plain (await r >>= f) := plain_bind (plain_await hr) hf

end Rules

theorem plain_common (u : Id) (r : RelayOp) (hr : r.Common u) : r.isPlain = true := by
  cases r with
  | send c item => exact decide_eq_true hr.1
  | _ => first | rfl | exact False.elim hr

theorem plain_compositional (u : Id) : Compositional u fun _ p => Plain p :=
  asks_compositional (plain_common u)

theorem plain_sendErr (tx : ℕ) (message : Text) : Plain (sendErr tx message) :=
  plain_then rfl fun _ => plain_pure ()

theorem plain_broadcastPresence (user : Member) (status : Text) :
    Plain (broadcastPresenceToContacts user status) :=
  through_broadcastPresence (plain_compositional user.id) status (plain_await rfl)
    fun _ => plain_await rfl

section Commands
variable {F : Formats}

theorem plain_block (user : Member) (tx : ℕ) (fields : List (String × Json)) (blockedId : Id)
    (winkdId displayName : Text) (avatarData : Option Text) :
    Plain (block F user tx fields blockedId winkdId displayName avatarData) :=
  through_block (plain_compositional user.id) tx fields blockedId winkdId displayName avatarData
    (plain_await rfl) (plain_await rfl)

/-- The command forwards a message. -/
def ClientCommandType.sends : ClientCommandType → Bool
  | .sendMessage => true
  | .sendWinkd => true
  | .sendNudge => true
  | .sendWink => true
  | _ => false

/-- **Every command but the four that send a message is plain.** -/
theorem plain_handleCommand (user : Member) (tx serial : ℕ) (cmd : ClientCommand)
    (hc : cmd.command.sends = false) : Plain (handleCommand F user tx serial cmd) := by
  have hW := plain_compositional user.id
  have hset : ∀ entry, Plain (await (.presenceSet user.id entry)) := fun _ => plain_await rfl
  obtain ⟨command, payload⟩ := cmd
  cases command with
  | addContact =>
    exact through_addContact hW tx payload fun _ =>
      through_addTarget hW tx _ fun _ => plain_await rfl
  | acceptContact => exact through_acceptContact hW tx payload fun _ _ => plain_await rfl
  | rejectContact => exact through_rejectContact hW tx payload fun _ => plain_await rfl
  | blockContact => exact through_blockContact hW tx payload (plain_block user tx)
  | blockUser => exact through_blockUser hW tx payload (plain_block user tx)
  | unblockContact => exact through_unblockContact hW tx payload fun _ => plain_await rfl
  | listBlocked => exact through_listBlocked hW tx
  | setMood => exact through_setMood hW payload hset
  | setDisplayName => exact through_setDisplayName hW payload
  | setAvatar => exact through_setAvatar hW payload
  | setProfileStyle => exact through_setProfileStyle hW payload
  | setStatus => exact through_setStatus hW payload hset (plain_broadcastPresence user)
  | typingStart => exact plain_pure ()
  | typingStop => exact plain_pure ()
  | sendMessage => cases hc
  | sendWinkd => cases hc
  | sendNudge => cases hc
  | sendWink => cases hc

/-! ## What setting up a connection asks for -/

theorem plain_flushRoster (user : Member) (tx : ℕ) : Plain (flushRoster user tx) :=
  through_flushRoster (plain_compositional user.id) tx (plain_await rfl) (fun _ => plain_await rfl)
    fun _ => plain_then rfl fun _ => plain_pure ()

theorem plain_flushPendingInbound (user : Member) (tx : ℕ) :
    Plain (flushPendingInbound F user tx) := through_flushPendingInbound (plain_compositional user.id) tx

theorem plain_sendReceipt (user : Member) (senderId : Id) (payload : Json) :
    Plain (sendReceipt user senderId payload) :=
  through_sendReceipt (plain_compositional user.id) senderId payload

end Commands

/-! ## Two accounts -/

namespace Relay.Sample

/-- UUIDs with twelve digits of their own. -/
def uuidPrefix : Text := "00000000-0000-4000-8000-".toList

def formats : Formats where
  uuid id := uuidPrefix ++ List.replicate (12 - (Nat.toDigits 16 id).length) '0' ++ Nat.toDigits 16 id
  parseUuid t := (Text.stripPrefix uuidPrefix t).bind (Text.parseUnsigned (10 ^ 12))
  rfc3339 _ := "2026-01-01T00:00:00Z".toList

/-- Ada has id 0 and Bob id 1; each has a session. -/
def accounts : List RelayEvent :=
  [.account (.createUser "ada".toList "ada#0001".toList "Ada".toList none none),
    .account (.createUser "bob".toList "bob#0002".toList "Bob".toList none none),
    .account (.createSession 0 "ada's token".toList), .account (.createSession 1 "bob's token".toList)]

/-- The frame that authenticates with a token. -/
def authFrame (token : String) : Frame :=
  .text (some (.obj [("type", .ofString "auth"), ("token", .ofString token)]))

/-- A message to Bob. -/
def messageFrame (id body : String) : Frame :=
  .text (some (.obj [("command", .ofString "send_message"),
    ("payload", .obj [("id", .ofString id), ("conversationId", .ofString "bob#0002"),
      ("body", .ofString body)])]))

/-- A command that names a user. -/
def commandFrame (command winkdId : String) : Frame :=
  .text (some (.obj [("command", .ofString command),
    ("payload", .obj [("winkd_id", .ofString winkdId)])]))

/-- An answer to a contact request. -/
def answerFrame (command : String) (requestId : Id) : Frame :=
  .text (some (.obj [("command", .ofString command),
    ("payload", .obj [("request_id", .str (formats.uuid requestId))])]))

/-- A connection that is opened and takes its first `n` steps.  After 15 of them it waits
for the first frame. -/
def connected (i n : ℕ) (token : String) (frames : List Frame) : List RelayEvent :=
  .connect ⟨authFrame token :: frames, true⟩ :: List.replicate n (.step i)

/-- The relay starts; ids are short. -/
def start : Start := ⟨0, fun id => id.length < 600⟩

/-- The relay after `events`, from empty tables. -/
def after (events : List RelayEvent) : Relay := events.foldl (Relay.next formats) (init start)

section Sockets
variable {F : Formats} {sockets : ℕ → Socket} {s : Relay}

theorem serves_accounts : Transitions.Admits (Relay.next F) (Serves sockets) s accounts :=
  ⟨trivial, trivial, trivial, trivial, trivial⟩

theorem serves_steps (i n : ℕ) :
    Transitions.Admits (Relay.next F) (Serves sockets) s (List.replicate n (.step i)) := by
  induction n generalizing s with
  | zero => trivial
  | succ n ih => exact ⟨trivial, ih⟩

theorem serves_connected (i n : ℕ) (token : String) (frames : List Frame)
    (hsocket : sockets s.tasks.length = ⟨authFrame token :: frames, true⟩) :
    Transitions.Admits (Relay.next F) (Serves sockets) s (connected i n token frames) :=
  ⟨hsocket, serves_steps i n⟩

end Sockets

theorem after_reached {events : List RelayEvent}
    (h : Transitions.Admits (Relay.next formats) InTime (init start) events) :
    (after events).Reached formats := ⟨start, h.reaches⟩

/-- Ada sends Bob a message while he is offline, and one once he is connected. -/
def queuedThenLive : List RelayEvent :=
  accounts ++ connected 0 23 "ada's token" [messageFrame "m1" "hi", messageFrame "m2" "there"] ++
    connected 1 18 "bob's token" [] ++ List.replicate 6 (.step 0)

/-- Ada adds Bob, and he accepts. -/
def addedAndAccepted : List RelayEvent :=
  accounts ++ connected 0 23 "ada's token" [commandFrame "add_contact" "bob#0002"] ++
    connected 1 22 "bob's token" [answerFrame "accept_contact" 3]

/-- The sockets of `addedAndAccepted`. -/
def contactSockets (i : ℕ) : Socket :=
  if i = 0 then ⟨authFrame "ada's token" :: [commandFrame "add_contact" "bob#0002"], true⟩
  else ⟨authFrame "bob's token" :: [answerFrame "accept_contact" 3], true⟩

theorem serves_addedAndAccepted :
    Transitions.Admits (Relay.next formats) (Serves contactSockets) (init start) addedAndAccepted := by
  refine (serves_accounts.append (serves_connected 0 23 "ada's token" _ rfl)).append ?_
  refine serves_connected 1 22 "bob's token" _ ?_
  rw [show List.length _ = 1 by decide +kernel]
  rfl

end Relay.Sample
end Winkd.Server
