import Winkd.ProtocolClient
import Winkd.SentOnce

/-!
# When a client connects again

A `WinkdClient` makes a socket without a call of `connect` only when a timer fires, and a timer is
set when a socket closes with another code than 4001.  So it makes none, whatever happens, if and only
if no timer is set and every socket has closed (`stays_iff`).  `disconnect` clears the timer that was
set last and asks the current socket to close, and the close event then sets another: the client
stays disconnected only where nothing was left to close (`stays_disconnected_iff`).

A close with code 4001 sets no timer there; the page sets one after every close, whatever its
code, and connects with the token that it finds then (`no_reconnect_iff`).
-/

namespace Winkd.Core
open Winkd.Server Winkd.Web

namespace WinkdClient
variable {c : WinkdClient}

/-! ## Clients that have come to rest -/

def AllClosed (c : WinkdClient) : Prop := ∀ i state, c.stateOf i = some state → state = .closed

/-- Whatever happens, no socket is made until `connect` is called. -/
def Stays (c : WinkdClient) : Prop :=
  ∀ after : List Event, (∀ e ∈ after, e ≠ .connect) →
    (after.foldl next c).sockets.length = c.sockets.length

/-- Nothing is left that calls the client. -/
structure AtRest (c : WinkdClient) : Prop where
  timers : c.timers = []
  closed : c.AllClosed

theorem AllClosed.stateOf_ne (h : c.AllClosed) (i : ℕ) (state : ReadyState)
    (hstate : state ≠ .closed) :
    c.stateOf i ≠ some state := fun heq => hstate (h i state heq)

theorem AllClosed.close (h : c.AllClosed) (i : ℕ) : c.close i = c :=
  if_neg fun hopen => hopen.elim (h.stateOf_ne i .connecting nofun) (h.stateOf_ne i .open nofun)

/-- **A client at rest stays so**, and makes no socket, until `connect` is called. -/
theorem AtRest.next (h : c.AtRest) {e : Event} (he : e ≠ .connect) :
    (c.next e).AtRest ∧ (c.next e).sockets = c.sockets := by
  have hsame : ∀ c' : WinkdClient, c'.timers = c.timers → c'.sockets = c.sockets →
      c'.AtRest ∧ c'.sockets = c.sockets := by
    intro c' htimers hsockets
    refine ⟨⟨htimers.trans h.timers, fun i state hstate => h.closed i state ?_⟩, hsockets⟩
    rw [stateOf, ← hsockets]
    exact hstate
  cases e with
  | connect => exact absurd rfl he
  | disconnect =>
    refine hsame c.disconnect ?_ ?_
    · rw [disconnect_eq, h.timers]
      rfl
    · rw [disconnect_eq]
      show ((c.ws.map c.close).getD c).sockets = c.sockets
      cases c.ws with
      | none => rfl
      | some i => exact congrArg sockets (h.closed.close i)
  | send command payload =>
    show (c.send command payload).AtRest ∧ (c.send command payload).sockets = c.sockets
    unfold send
    split
    · exact hsame c rfl rfl
    · rcases transmit_getD c (commandFrame command payload) with heq | ⟨i, heq⟩
      · rw [heq]
        exact hsame c rfl rfl
      · rw [heq]
        exact hsame (c.note _) rfl rfl
  | on event handler => exact hsame _ rfl rfl
  | off event handler => exact hsame _ rfl rfl
  | opened i =>
    -- every socket has closed, so none opens, receives or closes
    have hnone : c.next (.opened i) = c := if_neg (h.closed.stateOf_ne i .connecting nofun)
    rw [hnone]
    exact hsame c rfl rfl
  | received i data =>
    have hnone : c.next (.received i data) = c := if_neg (h.closed.stateOf_ne i .open nofun)
    rw [hnone]
    exact hsame c rfl rfl
  | closing i =>
    have hnone : c.next (.closing i) = c := h.closed.close i
    rw [hnone]
    exact hsame c rfl rfl
  | failed i => exact hsame c rfl rfl
  | closed i code =>
    have hnone : c.next (.closed i code) = c := by
      refine if_pos ?_
      cases hstate : c.stateOf i with
      | none => exact .inl rfl
      | some state => exact .inr (h.closed i state hstate ▸ rfl)
    rw [hnone]
    exact hsame c rfl rfl
  | timer t =>
    have hnone : c.next (.timer t) = c := if_neg (by rw [h.timers]; exact List.not_mem_nil)
    rw [hnone]
    exact hsame c rfl rfl

theorem AtRest.stays (h : c.AtRest) : c.Stays := by
  intro after hafter
  have hrun : (after.foldl WinkdClient.next c).AtRest ∧
      (after.foldl WinkdClient.next c).sockets = c.sockets := by
    refine List.foldlRecOn (motive := fun c' : WinkdClient => c'.AtRest ∧ c'.sockets = c.sockets)
      after _ ⟨h, rfl⟩ fun c' hc' e he => ?_
    obtain ⟨hrest, hsockets⟩ := hc'
    obtain ⟨hnext, hnextSockets⟩ := hrest.next (hafter e he)
    exact ⟨hnext, hnextSockets.trans hsockets⟩
  exact congrArg List.length hrun.2

/-! ## What makes a socket -/

/-- A timer that fires makes a socket, where the current one is not open. -/
theorem length_timer {t : ℕ} (ht : t ∈ c.timers) (hws : c.readyState ≠ some .open) :
    (c.next (.timer t)).sockets.length = c.sockets.length + 1 := by
  show (if t ∈ c.timers then (c.clearTimeout t).reconnect else c).sockets.length = _
  rw [if_pos ht]
  have hready : readyState { c.clearTimeout t with
      reconnectDelay := min (c.reconnectDelay * 2) 30000 } ≠ some .open := hws
  show (connect { c.clearTimeout t with
    reconnectDelay := min (c.reconnectDelay * 2) 30000 }).sockets.length = _
  unfold connect
  rw [if_neg hready]
  exact List.length_append

/-- A socket that has not closed may close late, and a timer fires after it. -/
theorem not_stays_of_live {i : ℕ} {state : ReadyState} (hstate : c.stateOf i = some state)
    (hlive : state ≠ .closed) : ¬ c.Stays := by
  intro hstays
  have hdisconnected : ∃ state', c.disconnect.stateOf i = some state' ∧ state' ≠ .closed := by
    rcases stateOf_disconnect c i with heq | ⟨hclosing, -⟩
    · exact ⟨state, heq.trans hstate, hlive⟩
    · exact ⟨.closing, hclosing, nofun⟩
  obtain ⟨state', hstate', hlive'⟩ := hdisconnected
  have hclosed : c.disconnect.next (.closed i 1006) =
      scheduleReconnect { c.disconnect.setState i .closed with authenticated := false } := by
    refine if_neg ?_
    rw [hstate']
    exact fun h => h.elim nofun fun heq => hlive' (Option.some.inj heq)
  have htimer : c.nextTimer ∈ (c.disconnect.next (.closed i 1006)).timers := by
    rw [hclosed]
    show c.nextTimer ∈ c.disconnect.timers ++ [c.disconnect.nextTimer]
    rw [disconnect_eq]
    exact List.mem_append_right _ List.mem_cons_self
  have hws : (c.disconnect.next (.closed i 1006)).readyState ≠ some .open := by
    have hnone : (c.disconnect.next (.closed i 1006)).ws = none := by
      rw [hclosed]
      show c.disconnect.ws = none
      rw [disconnect_eq]
    rw [readyState, hnone]
    exact nofun
  have hlength : (c.disconnect.next (.closed i 1006)).sockets.length = c.sockets.length := by
    have hsame := hstays [.disconnect, .closed i 1006] (by simp)
    exact hsame
  have hlonger := length_timer htimer hws
  have hsame := hstays [.disconnect, .closed i 1006, .timer c.nextTimer] (by simp)
  have hsame' : ((c.disconnect.next (.closed i 1006)).next (.timer c.nextTimer)).sockets.length =
    c.sockets.length := hsame
  omega

/-- **A client makes no socket of its own** just if no timer is set and every socket has closed. -/
theorem stays_iff : c.Stays ↔ c.timers = [] ∧ c.AllClosed := by
  constructor
  · intro hstays
    have hclosed : c.AllClosed := by
      intro i state hstate
      by_contra hlive
      exact not_stays_of_live hstate hlive hstays
    refine ⟨List.eq_nil_iff_forall_not_mem.mpr fun t ht => ?_, hclosed⟩
    have hws : c.readyState ≠ some .open := by
      cases hws : c.ws with
      | none =>
        rw [readyState, hws]
        exact nofun
      | some i =>
        rw [readyState, hws]
        exact hclosed.stateOf_ne i .open nofun
    have hlonger := length_timer ht hws
    have hsame : (c.next (.timer t)).sockets.length = c.sockets.length := hstays [.timer t] (by simp)
    omega
  · rintro ⟨htimers, hclosed⟩
    exact AtRest.stays ⟨htimers, hclosed⟩

theorem allClosed_disconnect_iff : c.disconnect.AllClosed ↔ c.AllClosed := by
  constructor
  · intro h i state hstate
    rcases stateOf_disconnect c i with heq | ⟨hclosing, -⟩
    · exact h i state (heq.trans hstate)
    · exact absurd hclosing (h.stateOf_ne i .closing nofun)
  · intro h i state hstate
    rcases stateOf_disconnect c i with heq | ⟨-, hopen⟩
    · exact h i state (heq.symm.trans hstate)
    · exact hopen.elim (fun hi => absurd hi (h.stateOf_ne i .connecting nofun))
        fun hi => absurd hi (h.stateOf_ne i .open nofun)

/-- **A disconnected client stays disconnected**, whatever comes late, just if the timer that was set
last is the only one that can be set and every socket had closed before. -/
theorem stays_disconnected_iff (sessionToken : Text) (before : List Event) :
    ((run sessionToken before).next .disconnect).Stays ↔
      (∀ t ∈ (run sessionToken before).timers, (run sessionToken before).reconnectTimer = some t) ∧
        (run sessionToken before).AllClosed := by
  generalize run sessionToken before = c
  have htimers : c.disconnect.timers = [] ↔ ∀ t ∈ c.timers, c.reconnectTimer = some t := by
    rw [disconnect_eq]
    show c.timers.filter _ = [] ↔ _
    rw [List.filter_eq_nil_iff]
    simp
  calc c.disconnect.Stays
      ↔ c.disconnect.timers = [] ∧ c.disconnect.AllClosed := stays_iff
    _ ↔ (∀ t ∈ c.timers, c.reconnectTimer = some t) ∧ c.AllClosed := by
      rw [htimers, allClosed_disconnect_iff]

namespace Sample

def token : Text := "ada's token".toList

end Sample

/-- The close event of the socket comes after `disconnect`, and the timer that it sets connects. -/
theorem disconnected_client_connects :
    ¬ ∀ (sessionToken : Text) (before : List Event),
      ((run sessionToken before).next .disconnect).Stays := by
  intro h
  have hstays := h Sample.token [.connect, .opened 0] [.closed 0 1005, .timer 1] (by simp)
  exact absurd hstays (by decide)

end WinkdClient
end Winkd.Core

namespace Winkd.Web
open Winkd.Server

namespace Browser

/-! ## The page -/

/-- The tokens of the sockets, of all pages. -/
def tokens (b : Browser) : List Text := b.sockets.map WebSocket.token

/-- Where a token is looked for in the storage, one of these is found. -/
def Event.Finds (found : Option Text → Prop) : Event → Prop
  | .timer token => found token
  | .reload token => found token
  | _ => True

/-- A socket closes with a code, which `onclose` does not look at. -/
def closedWith (b : Browser) (i : ℕ) (_code : ℕ) : Browser := b.next (.closed i)

/-- Whatever happens, no more sockets are made with the token, if these are found in the storage. -/
def Refrains (b : Browser) (token : Text) (found : Option Text → Prop) : Prop :=
  ∀ after : List Event, (∀ e ∈ after, e.Finds found) →
    token ∉ (after.foldl next b).tokens.drop b.tokens.length

theorem send_sockets {b b' : Browser} {frame : Json} (h : b.send frame = some b') :
    b'.sockets = b.sockets := by
  unfold send at h
  split at h
  · cases h
  · split at h <;> cases h <;> rfl

theorem send_getD_sockets (b : Browser) (frame : Json) : ((b.send frame).getD b).sockets = b.sockets := by
  cases hsend : b.send frame with
  | none => rfl
  | some b' => exact send_sockets hsend

theorem flushLoop_sockets (ps : List Json) (b : Browser) : (flushLoop ps b).sockets = b.sockets := by
  induction ps generalizing b with
  | nil => rfl
  | cons payload rest ih =>
    rw [flushLoop]
    cases hsend : b.send (commandFrame "send_message" payload) with
    | none => rfl
    | some b' =>
      have hsent : b'.sockets = b.sockets := send_sockets hsend
      exact (ih _).trans hsent

theorem tokens_setState (b : Browser) (i : ℕ) (state : ReadyState) :
    (b.setState i state).tokens = b.tokens := by
  refine List.ext_getElem? fun j => ?_
  show ((b.sockets.modify i _).map _)[j]? = (b.sockets.map _)[j]?
  rw [List.getElem?_map, List.getElem?_map, List.getElem?_modify]
  split
  · cases b.sockets[j]? <;> rfl
  · rw [id_map']

theorem tokens_close (b : Browser) (i : ℕ) : (b.close i).tokens = b.tokens := by
  unfold close
  split
  · exact tokens_setState b i .closing
  · rfl

theorem tokens_wsConnect (b : Browser) (token : Option Text) :
    (b.wsConnect token).tokens = b.tokens ++ token.toList := by
  cases token with
  | none => exact (List.append_nil _).symm
  | some token => exact List.map_append

theorem tokens_load (b : Browser) (token : Option Text) :
    (b.load token).tokens = b.tokens ++ token.toList := by
  refine (tokens_wsConnect _ token).trans (congrArg (· ++ token.toList) ?_)
  show (b.sockets.map _).map _ = b.sockets.map _
  rw [List.map_map]
  rfl

/-- **A socket is made only with a token that is found**, by a timer or when the page is loaded. -/
theorem tokens_next {found : Option Text → Prop} (b : Browser) {e : Event} (he : e.Finds found) :
    ∃ made : List Text, (b.next e).tokens = b.tokens ++ made ∧ ∀ t ∈ made, found (some t) := by
  -- most events make no socket
  have hsame : ∀ b' : Browser, b'.tokens = b.tokens →
      ∃ made : List Text, b'.tokens = b.tokens ++ made ∧ ∀ t ∈ made, found (some t) :=
    fun b' h => ⟨[], h.trans (List.append_nil _).symm, fun _ ht => nomatch ht⟩
  have hmade : ∀ token : Option Text, found token → ∀ t ∈ token.toList, found (some t) := by
    intro token hfound t ht
    obtain rfl := Option.mem_toList.mp ht
    exact hfound
  have hsend : ∀ (b : Browser) command payload, (b.wsSend command payload).1.sockets = b.sockets := by
    intro b command payload
    unfold wsSend
    split
    · exact send_getD_sockets b _
    · split <;> rfl
  cases e with
  | sendMessage fields =>
    exact hsame _ (congrArg (List.map WebSocket.token) (hsend (b.note (.passed (.obj fields))) _ _))
  | otherCommand command payload other =>
    exact hsame _ (congrArg (List.map WebSocket.token) (hsend b command payload))
  | opened i =>
    refine hsame _ ?_
    rw [next]
    split
    · exact (congrArg (List.map WebSocket.token) (send_getD_sockets _ _)).trans
        (tokens_setState b i .open)
    · rfl
  | received i data =>
    refine hsame _ ?_
    show (if b.stateOf i = some .open then (b.note (.received i data)).onmessage data else b).tokens =
      b.tokens
    split
    · unfold onmessage
      split
      · rfl
      · split
        · refine congrArg (List.map WebSocket.token) ?_
          unfold flushOfflineSendQueue
          split
          · rfl
          · split
            · rfl
            · exact flushLoop_sockets _ _
        · rfl
    · rfl
  | closing i => exact hsame _ (tokens_close b i)
  | failed i =>
    refine hsame _ ?_
    show (if b.stateOf i = none ∨ b.stateOf i = some .closed then b else b.onerror).tokens = b.tokens
    split
    · rfl
    · unfold onerror
      split
      · rfl
      · exact tokens_close b _
  | closed i =>
    refine hsame _ ?_
    show (if b.stateOf i = none ∨ b.stateOf i = some .closed then b
      else (b.setState i .closed).onclose).tokens = b.tokens
    split
    · rfl
    · exact tokens_setState b i .closed
  | timer token =>
    rw [next]
    split
    · exact hsame b rfl
    · exact ⟨token.toList, tokens_wsConnect _ token, hmade token he⟩
  | reload token => exact ⟨token.toList, tokens_load b token, hmade token he⟩

theorem tokens_run {found : Option Text → Prop} (b : Browser) {after : List Event}
    (hafter : ∀ e ∈ after, e.Finds found) :
    ∃ made : List Text, (after.foldl next b).tokens = b.tokens ++ made ∧
      ∀ t ∈ made, found (some t) := by
  refine List.foldlRecOn (motive := fun b' : Browser => ∃ made : List Text,
    b'.tokens = b.tokens ++ made ∧ ∀ t ∈ made, found (some t)) after _
    ⟨[], (List.append_nil _).symm, fun _ ht => nomatch ht⟩ fun b' hb' e he => ?_
  obtain ⟨made, heq, hmade⟩ := hb'
  obtain ⟨more, hmore, hfound⟩ := tokens_next b' (hafter e he)
  refine ⟨made ++ more, ?_, fun t ht => ?_⟩
  · rw [hmore, heq, List.append_assoc]
  · exact (List.mem_append.mp ht).elim (hmade t) (hfound t)

/-- **The page connects with a token again after its socket has closed**, whatever the code, just if the
token is still found. -/
theorem refrains_closedWith_iff (b : Browser) {i : ℕ} {socket : WebSocket} (found : Option Text → Prop)
    (hsocket : b.sockets[i]? = some socket) (hlive : socket.readyState ≠ .closed) (code : ℕ) :
    (b.closedWith i code).Refrains socket.token found ↔ ¬ found (some socket.token) := by
  have hclosed : b.closedWith i code = (b.setState i .closed).onclose := by
    refine if_neg ?_
    rw [stateOf, hsocket]
    rintro (h | heq)
    · cases h
    · exact hlive (Option.some.inj heq)
  constructor
  · intro hrefrains hfound
    refine hrefrains [.timer (some socket.token)] (fun e he => ?_) ?_
    · obtain rfl := List.mem_singleton.mp he
      exact hfound
    · -- the timer that the close has set is due
      have htimer : (b.closedWith i code).next (.timer (some socket.token)) =
          wsConnect { b.closedWith i code with timers := b.timers } (some socket.token) := by
        rw [hclosed]
        rfl
      have htokens : ((b.closedWith i code).next (.timer (some socket.token))).tokens =
          (b.closedWith i code).tokens ++ [socket.token] := by
        rw [htimer, tokens_wsConnect]
        rfl
      show socket.token ∈ ((b.closedWith i code).next (.timer (some socket.token))).tokens.drop _
      rw [htokens, List.drop_left]
      exact List.mem_cons_self
  · intro hfound after hafter hmem
    obtain ⟨made, heq, hmade⟩ := tokens_run (b.closedWith i code) hafter
    rw [heq, List.drop_left] at hmem
    exact hfound (hmade _ hmem)

end Browser
end Winkd.Web

namespace Winkd.Core
open Winkd.Server Winkd.Web

/-- **Who connects again after a close with code 4001.**  The page refrains from connecting with the
token of the socket just if it does not find it in the storage any more.  A `WinkdClient` makes no socket
until `connect` is called just if no timer was set and every other socket had closed. -/
theorem no_reconnect_iff (storage : Option Json) (token : Option Text) (events : List Browser.Event)
    (sessionToken : Text) (before : List WinkdClient.Event) :
    (∀ (i : ℕ) (socket : WebSocket) (found : Option Text → Prop),
      (Browser.run storage token events).sockets[i]? = some socket → socket.readyState ≠ .closed →
        (((Browser.run storage token events).closedWith i 4001).Refrains socket.token found ↔
          ¬ found (some socket.token))) ∧
      ∀ (i : ℕ) (state : ReadyState),
        (WinkdClient.run sessionToken before).stateOf i = some state → state ≠ .closed →
          (((WinkdClient.run sessionToken before).next (.closed i 4001)).Stays ↔
            (WinkdClient.run sessionToken before).timers = [] ∧ ∀ j state', j ≠ i →
              (WinkdClient.run sessionToken before).stateOf j = some state' → state' = .closed) := by
  constructor
  · intro i socket found hsocket hlive
    exact Browser.refrains_closedWith_iff _ found hsocket hlive 4001
  · intro i state hstate hlive
    generalize WinkdClient.run sessionToken before = c at hstate ⊢
    have hclosed : c.next (.closed i 4001) =
        { c.setState i .closed with authenticated := false, log := c.log ++ [.authFailure] } := by
      refine if_neg ?_
      rw [hstate]
      exact fun h => h.elim nofun fun heq => hlive (Option.some.inj heq)
    have hallClosed : (c.next (.closed i 4001)).AllClosed ↔
        ∀ j state', j ≠ i → c.stateOf j = some state' → state' = .closed := by
      rw [hclosed]
      refine forall_congr' fun j => ⟨fun h state' hji hj => h state' ?_, fun h state' hj => ?_⟩
      · show (c.setState i .closed).stateOf j = some state'
        rw [WinkdClient.stateOf_setState, if_neg (Ne.symm hji), hj]
      · have hj' : (c.setState i .closed).stateOf j = some state' := hj
        rw [WinkdClient.stateOf_setState] at hj'
        split at hj'
        · rw [hstate] at hj'
          exact (Option.some.inj hj').symm
        · rename_i hij
          exact h state' (Ne.symm hij) hj'
    have htimers : (c.next (.closed i 4001)).timers = c.timers := by
      rw [hclosed]
      rfl
    rw [WinkdClient.stays_iff, htimers, hallClosed]

namespace Sample

/-- A page whose session has ended, and a client with one socket. -/
theorem no_reconnect_iff_ended :
    ((Browser.run none (some WinkdClient.Sample.token) []).closedWith 0 4001).Refrains
        WinkdClient.Sample.token (· = none) ∧
      ((WinkdClient.run WinkdClient.Sample.token [.connect, .opened 0]).next (.closed 0 4001)).Stays := by
  obtain ⟨hpage, hclient⟩ := no_reconnect_iff none (some WinkdClient.Sample.token) []
    WinkdClient.Sample.token [.connect, .opened 0]
  refine ⟨(hpage 0 ⟨.connecting, _⟩ (· = none) rfl nofun).mpr nofun,
    (hclient 0 .open rfl nofun).mpr ⟨rfl, ?_⟩⟩
  intro j state' hj hstate
  cases j with
  | zero => exact absurd rfl hj
  | succ j => cases hstate

end Sample

/-- The page connects with the token that was rejected; and a timer that was set before connects a
client again whose other socket was rejected. -/
theorem rejected_session_reconnects :
    (¬ ∀ (storage : Option Json) (token : Text),
      ((Browser.run storage (some token) [.opened 0]).closedWith 0 4001).Refrains token
        (· = some token)) ∧
      ¬ ∀ (sessionToken : Text) (before : List WinkdClient.Event) (i : ℕ),
        ((WinkdClient.run sessionToken before).next (.closed i 4001)).Stays := by
  constructor
  · intro h
    refine h none WinkdClient.Sample.token [.timer (some WinkdClient.Sample.token)] ?_ ?_
    · intro e he
      obtain rfl := List.mem_singleton.mp he
      rfl
    · decide
  · intro h
    have hstays := h WinkdClient.Sample.token
      [.connect, .connect, .opened 1, .closed 0 1006] 1 [.timer 1] (by simp)
    exact absurd hstays (by decide)

end Winkd.Core
