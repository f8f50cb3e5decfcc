import Winkd.ProtocolClient
import Winkd.Transitions

/-!
# The flag of a client

`authenticated` is one field, and the callbacks of every socket write it.  It says of the current
socket that it has received auth_ok and has not closed, and `send` and `dispatch` go by it, as long as
auth_ok comes to the current socket, or to another while the current one has it, and no other socket
closes meanwhile (`tracks_iff_undisturbed`).
-/

namespace Winkd.Core
open Winkd.Server Winkd.Web Transitions

namespace WinkdClient
variable {c c' : WinkdClient}

/-- The socket has received auth_ok. -/
def Welcomed (c : WinkdClient) (i : ℕ) : Prop :=
  ∃ envelope, .received i (some envelope) ∈ c.log ∧ isAuthOk envelope = true

/-- The current socket has received auth_ok and has not closed. -/
def CurrentAuthenticated (c : WinkdClient) : Prop :=
  ∃ i, c.ws = some i ∧ c.Welcomed i ∧ c.stateOf i ≠ some .closed

/-- `send` hands the frame to a socket. -/
def Transmits (c : WinkdClient) (command : String) (payload : Json) : Prop :=
  ∃ i, (c.send command payload).log = c.log ++ [.handed i (commandFrame command payload)]

/-- The message of a socket is dispatched. -/
def Dispatches (c : WinkdClient) (i : ℕ) (envelope : Json) : Prop :=
  ∃ handled, (c.next (.received i (some envelope))).log =
    c.log ++ .received i (some envelope) :: .dispatched envelope :: handled

structure Tracks (c : WinkdClient) : Prop where
  flag : c.authenticated = true ↔ c.CurrentAuthenticated
  sends : ∀ command payload, c.Transmits command payload ↔ c.CurrentAuthenticated
  dispatches : ∀ i envelope, c.stateOf i = some .open →
    (c.Dispatches i envelope ↔ c.CurrentAuthenticated)

/-- What an event of a socket may do to the flag is meant for the current one, and the current one does
not close halfway while it is authenticated. -/
def Undisturbed (c : WinkdClient) : Event → Prop
  | .received i data => c.stateOf i = some .open →
      ∀ envelope, data = some envelope → isAuthOk envelope = true →
        c.ws = some i ∨ c.CurrentAuthenticated
  | .closing i => c.ws = some i → ¬ c.CurrentAuthenticated
  | .closed i _ => c.CurrentAuthenticated →
      c.ws = some i ∨ c.stateOf i = none ∨ c.stateOf i = some .closed
  | _ => True

/-- Messages were received by sockets that were made. -/
def Known (c : WinkdClient) : Prop := ∀ i data, .received i data ∈ c.log → i < c.sockets.length

/-! ## What the flag decides -/

theorem transmits_iff (command : String) (payload : Json) :
    c.Transmits command payload ↔ c.authenticated = true ∧ c.readyState = some .open := by
  unfold Transmits send
  split
  · rename_i hguard
    constructor
    · rintro ⟨i, hi⟩
      exact absurd hi (by simp)
    · rintro ⟨hflag, hopen⟩
      rcases hguard with hguard | hguard
      · rw [hflag] at hguard
        cases hguard
      · exact absurd hopen hguard
  · rename_i hguard
    obtain ⟨hflag, hopen⟩ := not_or.mp hguard
    have hopen : c.readyState = some .open := not_not.mp hopen
    refine iff_of_true ?_ ⟨by simpa using hflag, hopen⟩
    obtain ⟨i, hws, hi⟩ := Option.bind_eq_some_iff.mp hopen
    refine ⟨i, ?_⟩
    simp only [transmit, hws, hi]
    rfl

theorem dispatches_iff {i : ℕ} (hi : c.stateOf i = some .open) (envelope : Json) :
    c.Dispatches i envelope ↔ c.authenticated = true := by
  have hnext : c.next (.received i (some envelope)) =
      (c.note (.received i (some envelope))).onmessage (some envelope) := if_pos hi
  unfold Dispatches
  rw [hnext]
  show (∃ handled, (if !c.authenticated then
      if isAuthOk envelope then { c.note (.received i (some envelope)) with authenticated := true }
      else c.note (.received i (some envelope))
    else (c.note (.received i (some envelope))).dispatch envelope).log = _) ↔ _
  cases hflag : c.authenticated with
  | false =>
    refine iff_of_false ?_ nofun
    rintro ⟨handled, hlog⟩
    have hlength := congrArg List.length hlog
    rw [if_pos (show (!false) = true from rfl)] at hlength
    split at hlength <;> simp [note] at hlength
  | true => exact iff_of_true ⟨_, List.append_assoc ..⟩ rfl

/-- **The flag tracks the current socket**, and so do `send` and `dispatch`, just if the flag says that
the current socket is authenticated and an authenticated socket is open. -/
theorem tracks_iff : c.Tracks ↔ (c.authenticated = true ↔ c.CurrentAuthenticated) ∧
    (c.CurrentAuthenticated → c.readyState = some .open) := by
  constructor
  · rintro ⟨hflag, hsends, -⟩
    refine ⟨hflag, fun hcurrent => ?_⟩
    have htransmits := (hsends "ping" .null).mpr hcurrent
    exact ((transmits_iff "ping" .null).mp htransmits).2
  · rintro ⟨hflag, hopen⟩
    refine ⟨hflag, fun command payload => ?_, fun i envelope hi => ?_⟩
    · rw [transmits_iff, hflag]
      exact and_iff_left_of_imp hopen
    · rw [dispatches_iff hi, hflag]

/-! ## What the events do to it -/

/-- Where no message comes in, no socket is welcomed. -/
theorem welcomed_append (log : List Activity) (hlog : c'.log = c.log ++ log)
    (hnone : ∀ i data, .received i data ∉ log) (i : ℕ) : c'.Welcomed i ↔ c.Welcomed i := by
  refine exists_congr fun envelope => and_congr_left fun _ => ?_
  rw [hlog, List.mem_append]
  exact or_iff_left (hnone i _)

theorem welcomed_note_received (c : WinkdClient) (i j : ℕ) (data : Option Json) :
    (c.note (.received i data)).Welcomed j ↔
      c.Welcomed j ∨ (j = i ∧ ∃ envelope, data = some envelope ∧ isAuthOk envelope = true) := by
  constructor
  · rintro ⟨envelope, hmem, hok⟩
    rcases List.mem_append.mp hmem with hmem | hmem
    · exact .inl ⟨envelope, hmem, hok⟩
    · cases List.mem_singleton.mp hmem
      exact .inr ⟨rfl, envelope, rfl, hok⟩
  · rintro (⟨envelope, hmem, hok⟩ | ⟨rfl, envelope, rfl, hok⟩)
    · exact ⟨envelope, List.mem_append_left _ hmem, hok⟩
    · exact ⟨envelope, List.mem_append_right _ List.mem_cons_self, hok⟩

/-- Where the fields, the sockets and the messages received are the same, the flag tracks as before. -/
theorem tracks_congr (c c' : WinkdClient) {log : List Activity}
    (hflag : c'.authenticated = c.authenticated) (hws : c'.ws = c.ws)
    (hsockets : c'.sockets = c.sockets) (hlog : c'.log = c.log ++ log)
    (hnone : ∀ i data, .received i data ∉ log) : c'.Tracks ↔ c.Tracks := by
  have hstate : ∀ i, c'.stateOf i = c.stateOf i := fun i => by rw [stateOf, hsockets, stateOf]
  have hcurrent : c'.CurrentAuthenticated ↔ c.CurrentAuthenticated := by
    unfold CurrentAuthenticated
    simp only [hws, hstate, welcomed_append _ hlog hnone]
  have hready : c'.readyState = c.readyState := by
    rw [readyState, hws, readyState]
    exact Option.bind_congr fun i _ => hstate i
  rw [tracks_iff, tracks_iff, hflag, hcurrent, hready]

/-- A client whose flag is down tracks just if its current socket is not authenticated. -/
theorem tracks_of_down (hflag : c.authenticated = false) :
    c.Tracks ↔ ¬ c.CurrentAuthenticated := by
  rw [tracks_iff, hflag]
  constructor
  · rintro ⟨hiff, -⟩ hcurrent
    exact absurd (hiff.mpr hcurrent) nofun
  · intro hnot
    exact ⟨iff_of_false nofun hnot, fun hcurrent => absurd hcurrent hnot⟩

/-- A socket that is new has received nothing. -/
theorem tracks_connect (hknown : c.Known) (htracks : c.Tracks) : c.connect.Tracks := by
  unfold connect
  split
  · exact htracks
  · refine (tracks_of_down rfl).mpr ?_
    rintro ⟨i, hws, ⟨envelope, hmem, -⟩, -⟩
    obtain rfl := Option.some.inj hws
    exact absurd (hknown _ _ hmem) (lt_irrefl _)

theorem readyState_of_ws {i : ℕ} (hws : c.ws = some i) : c.readyState = c.stateOf i := by
  rw [readyState, hws]
  rfl

theorem currentAuthenticated_received {i : ℕ} (hi : c.stateOf i = some .open) (data : Option Json) :
    (c.note (.received i data)).CurrentAuthenticated ↔ c.CurrentAuthenticated ∨
      (c.ws = some i ∧ ∃ envelope, data = some envelope ∧ isAuthOk envelope = true) := by
  constructor
  · rintro ⟨j, hws, hwelcomed, hj⟩
    rcases (welcomed_note_received c i j data).mp hwelcomed with hwelcomed | ⟨rfl, hok⟩
    · exact .inl ⟨j, hws, hwelcomed, hj⟩
    · exact .inr ⟨hws, hok⟩
  · rintro (⟨j, hws, hwelcomed, hj⟩ | ⟨hws, hok⟩)
    · exact ⟨j, hws, (welcomed_note_received c i j data).mpr (.inl hwelcomed), hj⟩
    · refine ⟨i, hws, (welcomed_note_received c i i data).mpr (.inr ⟨rfl, hok⟩), ?_⟩
      show c.stateOf i ≠ some .closed
      rw [hi]
      exact nofun

/-- A message sets the flag, where it is down, as is right for the current socket only. -/
theorem tracks_received (htracks : c.Tracks) {i : ℕ} (hi : c.stateOf i = some .open)
    (data : Option Json) : ((c.note (.received i data)).onmessage data).Tracks ↔
      ∀ envelope, data = some envelope → isAuthOk envelope = true →
        c.ws = some i ∨ c.CurrentAuthenticated := by
  obtain ⟨hflag, hopen⟩ := tracks_iff.mp htracks
  have hcurrent := currentAuthenticated_received hi data
  have hready : (c.note (.received i data)).CurrentAuthenticated → c.readyState = some .open := by
    intro h
    rcases hcurrent.mp h with h | ⟨hws, -⟩
    · exact hopen h
    · exact (readyState_of_ws hws).trans hi
  cases data with
  | none =>
    refine iff_of_true (tracks_iff.mpr ⟨?_, hready⟩) nofun
    refine hflag.trans (hcurrent.trans (or_iff_left ?_)).symm
    rintro ⟨-, envelope, henvelope, -⟩
    cases henvelope
  | some envelope =>
    show (if !c.authenticated then
        if isAuthOk envelope then { c.note (.received i (some envelope)) with authenticated := true }
        else c.note (.received i (some envelope))
      else (c.note (.received i (some envelope))).dispatch envelope).Tracks ↔ _
    -- the message may authenticate where the flag is down, and is dispatched where it is up
    cases hup : c.authenticated with
    | true =>
      rw [hup] at hflag
      have hauthenticated := hflag.mp rfl
      refine iff_of_true ?_ fun _ _ _ => .inr hauthenticated
      rw [if_neg (show ¬ (!true) = true from nofun)]
      have hnote : (c.note (.received i (some envelope))).Tracks :=
        tracks_iff.mpr ⟨iff_of_true hup (hcurrent.mpr (.inl hauthenticated)), hready⟩
      -- to dispatch a message receives nothing
      have hnone : ∀ j data, .received j data ∉ Activity.dispatched envelope ::
          (((envelope.getStr "event").map c.handlers).getD []).map
            fun handler => Activity.handled handler (envelope.get "payload") := by
        intro j data hmem
        rcases List.mem_cons.mp hmem with hmem | hmem
        · cases hmem
        · obtain ⟨handler, -, heq⟩ := List.mem_map.mp hmem
          cases heq
      let received := c.note (.received i (some envelope))
      exact (tracks_congr received (received.dispatch envelope) rfl rfl rfl rfl hnone).mpr hnote
    | false =>
      rw [hup] at hflag
      have hnot : ¬ c.CurrentAuthenticated := fun h => nomatch hflag.mpr h
      rw [if_pos (show (!false) = true from rfl)]
      split
      · rename_i hok
        calc
            ({ c.note (.received i (some envelope)) with authenticated := true } : WinkdClient).Tracks
            ↔ (c.note (.received i (some envelope))).CurrentAuthenticated :=
              tracks_iff.trans ⟨fun h => h.1.mp rfl, fun h => ⟨iff_of_true rfl h, hready⟩⟩
          _ ↔ c.ws = some i := by
            rw [hcurrent, or_iff_right hnot]
            exact and_iff_left ⟨envelope, rfl, hok⟩
          _ ↔ _ := by
            constructor
            · intro hws _ _ _
              exact .inl hws
            · intro h
              exact (h envelope rfl hok).resolve_right hnot
      · rename_i hok
        have hdown : (c.note (.received i (some envelope))).authenticated = false := hup
        refine iff_of_true ((tracks_of_down hdown).mpr fun h => ?_) fun e he hok' => ?_
        · rcases hcurrent.mp h with h | ⟨-, e, he, hok'⟩
          · exact hnot h
          · cases he
            exact hok hok'
        · cases he
          exact absurd hok' hok

theorem currentAuthenticated_setState {i : ℕ} {state : ReadyState} (hi : c.stateOf i = some state)
    (hstate : state ≠ .closed) (state' : ReadyState) (hstate' : state' ≠ .closed) :
    (c.setState i state').CurrentAuthenticated ↔ c.CurrentAuthenticated := by
  refine exists_congr fun j => and_congr_right fun _ => and_congr_right fun _ => ?_
  rw [stateOf_setState]
  split
  · rename_i hij
    subst hij
    rw [hi]
    exact iff_of_true (fun h => hstate' (Option.some.inj h)) fun h => hstate (Option.some.inj h)
  · exact Iff.rfl

theorem readyState_setState {i : ℕ} (hws : c.ws ≠ some i) (state : ReadyState) :
    (c.setState i state).readyState = c.readyState := by
  show c.ws.bind _ = c.ws.bind _
  refine Option.bind_congr fun j hj => ?_
  rw [stateOf_setState, if_neg]
  rintro rfl
  exact hws hj

/-- The closing of a socket leaves the flag; the current socket sends nothing then. -/
theorem tracks_close (htracks : c.Tracks) (i : ℕ) :
    (c.close i).Tracks ↔ (c.ws = some i → ¬ c.CurrentAuthenticated) := by
  obtain ⟨hflag, hopen⟩ := tracks_iff.mp htracks
  unfold close
  split
  · rename_i hlive
    obtain ⟨state, hi, hstate⟩ : ∃ state, c.stateOf i = some state ∧ state ≠ .closed :=
      hlive.elim (fun h => ⟨_, h, nofun⟩) fun h => ⟨_, h, nofun⟩
    have hcurrent := currentAuthenticated_setState hi hstate .closing nofun
    rw [tracks_iff, hcurrent]
    constructor
    · rintro ⟨-, hopen'⟩ hws hauthenticated
      have hclosing : (c.setState i .closing).readyState = some .closing := by
        rw [readyState_of_ws (c := c.setState i .closing) hws, stateOf_setState, if_pos rfl, hi]
        rfl
      rw [hclosing] at hopen'
      cases hopen' hauthenticated
    · intro hnot
      refine ⟨hflag, fun hauthenticated => ?_⟩
      rw [readyState_setState (fun hws => hnot hws hauthenticated)]
      exact hopen hauthenticated
  · rename_i hlive
    refine iff_of_true htracks fun hws hauthenticated => hlive (.inr ?_)
    exact (readyState_of_ws hws).symm.trans (hopen hauthenticated)

/-- A socket that closes takes the flag down, whichever socket it is. -/
theorem tracks_closed {i : ℕ} {state : ReadyState} (hi : c.stateOf i = some state) (code : ℕ) :
    ((c.setState i .closed).onclose code).Tracks ↔ (c.CurrentAuthenticated → c.ws = some i) := by
  have hdown : ((c.setState i .closed).onclose code).Tracks ↔
      ¬ ((c.setState i .closed).CurrentAuthenticated) := by
    unfold onclose
    split
    · refine (tracks_of_down rfl).trans (not_congr (exists_congr fun j => ?_))
      refine and_congr_right fun _ => and_congr_left fun _ => ?_
      exact welcomed_append [.authFailure] rfl (by simp) j
    · exact tracks_of_down rfl
  rw [hdown]
  constructor
  · rintro hnot ⟨j, hws, hwelcomed, hj⟩
    by_contra hne
    refine hnot ⟨j, hws, hwelcomed, ?_⟩
    rw [stateOf_setState, if_neg]
    · exact hj
    · rintro rfl
      exact hne hws
  · rintro hws ⟨j, hj, hwelcomed, hopen⟩
    rw [stateOf_setState] at hopen
    split at hopen
    · rw [hi] at hopen
      exact hopen rfl
    · rename_i hij
      obtain heq := (hws ⟨j, hj, hwelcomed, hopen⟩).symm.trans hj
      exact hij (Option.some.inj heq)

theorem tracks_opened (htracks : c.Tracks) {i : ℕ} (hi : c.stateOf i = some .connecting) :
    (c.setState i .open).onopen.Tracks := by
  obtain ⟨hflag, hopen⟩ := tracks_iff.mp htracks
  have hcurrent := currentAuthenticated_setState hi nofun .open nofun
  have hset : (c.setState i .open).Tracks := by
    rw [tracks_iff, hcurrent]
    refine ⟨hflag, fun hauthenticated => ?_⟩
    rw [readyState_setState]
    · exact hopen hauthenticated
    · intro hws
      have heq := hi.symm.trans ((readyState_of_ws hws).symm.trans (hopen hauthenticated))
      cases heq
  let c₁ : WinkdClient := { c.setState i .open with reconnectDelay := 1000 }
  have hdelay : c₁.Tracks :=
    (tracks_congr (c.setState i .open) c₁ rfl rfl rfl (List.append_nil _).symm (by simp)).mpr hset
  show ((c₁.transmit (authFrame c.sessionToken)).getD c₁).Tracks
  rcases transmit_getD c₁ (authFrame c.sessionToken) with heq | ⟨j, heq⟩
  · rw [heq]
    exact hdelay
  · rw [heq]
    exact (tracks_congr c₁ (c₁.note (.handed j _)) rfl rfl rfl rfl (by simp)).mpr hdelay

/-- **The steps that keep the flag right.** -/
theorem tracks_next_iff (hknown : c.Known) (htracks : c.Tracks) (e : Event) :
    (c.next e).Tracks ↔ c.Undisturbed e := by
  cases e with
  | connect => exact iff_of_true (tracks_connect hknown htracks) trivial
  | disconnect =>
    refine iff_of_true ((tracks_of_down rfl).mpr ?_) trivial
    rintro ⟨i, hws, -⟩
    cases hws
  | send command payload =>
    refine iff_of_true ?_ trivial
    show (c.send command payload).Tracks
    unfold send
    split
    · exact htracks
    · rcases transmit_getD c (commandFrame command payload) with heq | ⟨j, heq⟩
      · rw [heq]
        exact htracks
      · rw [heq]
        exact (tracks_congr c (c.note (.handed j _)) rfl rfl rfl rfl (by simp)).mpr htracks
  | on event handler =>
    -- handlers are not part of what the flag depends on
    have hlog : (c.on event handler).log = c.log ++ [] := (List.append_nil _).symm
    have hon := (tracks_congr c (c.on event handler) rfl rfl rfl hlog (by simp)).mpr htracks
    exact iff_of_true hon trivial
  | off event handler =>
    have hlog : (c.off event handler).log = c.log ++ [] := (List.append_nil _).symm
    have hoff := (tracks_congr c (c.off event handler) rfl rfl rfl hlog (by simp)).mpr htracks
    exact iff_of_true hoff trivial
  | opened i =>
    refine iff_of_true ?_ trivial
    show (if c.stateOf i = some .connecting then (c.setState i .open).onopen else c).Tracks
    split
    · rename_i hi
      exact tracks_opened htracks hi
    · exact htracks
  | received i data =>
    show (if c.stateOf i = some .open then (c.note (.received i data)).onmessage data else c).Tracks ↔
      (c.stateOf i = some .open → _)
    split
    · rename_i hi
      rw [tracks_received htracks hi data]
      exact ⟨fun h _ => h, fun h => h hi⟩
    · rename_i hi
      exact iff_of_true htracks fun h => absurd h hi
  | closing i => exact tracks_close htracks i
  | failed i => exact iff_of_true htracks trivial
  | closed i code =>
    show (if c.stateOf i = none ∨ c.stateOf i = some .closed then c
      else (c.setState i .closed).onclose code).Tracks ↔ (c.CurrentAuthenticated → _ ∨ _)
    split
    · rename_i hdone
      -- a socket that has closed does not close again
      exact iff_of_true htracks fun _ => .inr hdone
    · rename_i hlive
      obtain ⟨state, hi⟩ := Option.ne_none_iff_exists'.mp (not_or.mp hlive).1
      rw [tracks_closed hi code]
      exact forall_congr' fun _ => (or_iff_left hlive).symm
  | timer t =>
    refine iff_of_true ?_ trivial
    show (if t ∈ c.timers then (c.clearTimeout t).reconnect else c).Tracks
    split
    · let c₁ : WinkdClient :=
        { c.clearTimeout t with reconnectDelay := min (c.reconnectDelay * 2) 30000 }
      have hlog : c₁.log = c.log ++ [] := (List.append_nil _).symm
      have h₁ : c₁.Tracks := (tracks_congr c c₁ rfl rfl rfl hlog (by simp)).mpr htracks
      exact tracks_connect (c := c₁) hknown h₁
    · exact htracks

/-! ## Runs -/

/-- Sockets are only added, and where a message comes in, its socket was made. -/
theorem known_of_append {log : List Activity} (hknown : c.Known)
    (hsockets : c.sockets.length ≤ c'.sockets.length) (hlog : c'.log = c.log ++ log)
    (hmade : ∀ i data, .received i data ∈ log → i < c'.sockets.length) : c'.Known := by
  intro i data hmem
  rw [hlog] at hmem
  rcases List.mem_append.mp hmem with hmem | hmem
  · exact (hknown i data hmem).trans_le hsockets
  · exact hmade i data hmem

theorem Known.same (hknown : c.Known) (hsockets : c'.sockets.length = c.sockets.length)
    (hlog : c'.log = c.log) : c'.Known :=
  known_of_append hknown hsockets.ge (hlog.trans (List.append_nil _).symm) (by simp)

theorem Known.note (hknown : c.Known) {a : Activity} (ha : ∀ i data, a ≠ .received i data) :
    (c.note a).Known := by
  refine known_of_append hknown le_rfl rfl fun i data hmem => ?_
  exact absurd (List.mem_singleton.mp hmem).symm (ha i data)

theorem Known.setState (hknown : c.Known) (i : ℕ) (state : ReadyState) : (c.setState i state).Known :=
  hknown.same (List.length_modify ..) rfl

theorem Known.close (hknown : c.Known) (i : ℕ) : (c.close i).Known := by
  unfold WinkdClient.close
  split
  · exact hknown.setState i .closing
  · exact hknown

theorem Known.transmit (hknown : c.Known) (frame : Json) : ((c.transmit frame).getD c).Known := by
  rcases transmit_getD c frame with heq | ⟨i, heq⟩
  · rw [heq]
    exact hknown
  · rw [heq]
    exact hknown.note nofun

theorem Known.connect (hknown : c.Known) : c.connect.Known := by
  unfold WinkdClient.connect
  split
  · exact hknown
  · refine known_of_append hknown ?_ (List.append_nil _).symm (by simp)
    show c.sockets.length ≤ (c.sockets ++ [ReadyState.connecting]).length
    rw [List.length_append]
    exact Nat.le_add_right ..

theorem Known.next (hknown : c.Known) (e : Event) : (c.next e).Known := by
  cases e with
  | connect => exact hknown.connect
  | disconnect =>
    show c.disconnect.Known
    rw [disconnect_eq]
    cases c.ws with
    | none => exact hknown
    | some i => exact (hknown.close i).same rfl (by unfold WinkdClient.close; split <;> rfl)
  | send command payload =>
    show (c.send command payload).Known
    unfold send
    split
    · exact hknown
    · exact hknown.transmit _
  | on event handler => exact hknown
  | off event handler => exact hknown
  | opened i =>
    show (if c.stateOf i = some .connecting then (c.setState i .open).onopen else c).Known
    split
    · let c₁ : WinkdClient := { c.setState i .open with reconnectDelay := 1000 }
      have h₁ : c₁.Known := (hknown.setState i .open).same rfl rfl
      exact h₁.transmit _
    · exact hknown
  | received i data =>
    show (if c.stateOf i = some .open then (c.note (.received i data)).onmessage data else c).Known
    split
    · rename_i hi
      -- only an open socket receives, and an open socket has been made
      have hmade : i < c.sockets.length := (List.getElem?_eq_some_iff.mp hi).1
      have hnote : (c.note (.received i data)).Known := by
        refine known_of_append hknown le_rfl rfl fun j data' hmem => ?_
        cases List.mem_singleton.mp hmem
        exact hmade
      unfold onmessage
      split
      · exact hnote
      · split
        · split
          · exact hnote
          · exact hnote
        · refine known_of_append hnote le_rfl rfl fun j data hmem => ?_
          rcases List.mem_cons.mp hmem with hmem | hmem
          · cases hmem
          · obtain ⟨handler, -, heq⟩ := List.mem_map.mp hmem
            cases heq
    · exact hknown
  | closing i => exact hknown.close i
  | failed i => exact hknown
  | closed i code =>
    show (if c.stateOf i = none ∨ c.stateOf i = some .closed then c
      else (c.setState i .closed).onclose code).Known
    split
    · exact hknown
    · unfold onclose
      split
      · exact ((hknown.setState i .closed).same rfl rfl : WinkdClient.Known
          { c.setState i .closed with authenticated := false }).note nofun
      · exact (hknown.setState i .closed).same rfl rfl
  | timer t =>
    show (if t ∈ c.timers then (c.clearTimeout t).reconnect else c).Known
    split
    · let c₁ : WinkdClient :=
        { c.clearTimeout t with reconnectDelay := min (c.reconnectDelay * 2) 30000 }
      have h₁ : c₁.Known := hknown
      exact h₁.connect
    · exact hknown

/-- **The flag tracks the current socket in every state of a run** just if auth_ok comes to the current
socket, or while that has it, and while the current socket has it no other socket closes and it does
not close halfway. -/
theorem tracks_iff_undisturbed (sessionToken : Text) (events : List Event) :
    Throughout next Tracks (new sessionToken) events ↔
      Admits next Undisturbed (new sessionToken) events := by
  refine throughout_iff_admits (J := Known) (fun c e hknown _ => hknown.next e)
    (fun c e hknown htracks => tracks_next_iff hknown htracks e)
    (fun _ _ hmem => absurd hmem List.not_mem_nil) ?_ events
  refine (tracks_of_down rfl).mpr ?_
  rintro ⟨i, hws, -⟩
  cases hws

namespace Sample

def authOk : Json := .obj [("type", .ofString "auth_ok")]

/-- A client that disconnects and connects again, and the close event of its first socket. -/
def lateClose : List Event :=
  [.connect, .opened 0, .received 0 (some authOk), .disconnect,
    .connect, .opened 1, .received 1 (some authOk), .closed 0 1005]

end Sample

/-- The close event of the first socket comes late: the flag is down, and the second socket, which has
received auth_ok, is open. -/
theorem late_close_takes_flag_down :
    ¬ ∀ (sessionToken : Text) (events : List Event), (run sessionToken events).Tracks := by
  intro h
  have htracks := h [] Sample.lateClose
  have hcurrent : (run [] Sample.lateClose).CurrentAuthenticated := by
    refine ⟨1, by decide, ⟨Sample.authOk, ?_, by decide⟩, by decide⟩
    exact List.mem_append_right _ List.mem_cons_self
  have hdown : (run [] Sample.lateClose).authenticated = false := by decide
  exact absurd ((htracks.flag.mpr hcurrent).symm.trans hdown) nofun

end WinkdClient
end Winkd.Core
