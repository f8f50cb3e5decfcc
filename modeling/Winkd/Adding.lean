import Winkd.RelayRuns
import Winkd.Names

/-!
# What a connection has looked up

A connection has a copy of its user's row, taken when it authenticated, and keeps it for as
long as it is open.  Before it creates a contact request it computes the cap from the copy,
counts the roster and looks the other user up.  `LookedUp` is read off the replies, and a
connection creates a request only where the count was below the cap
(`handleSocket_looks`).
-/

namespace Winkd.Server

/-- What a connection has looked up. -/
structure LookedUp where
  /-- The copy of its user's row. -/
  user : Option Member
  /-- The cap, as it was computed last. -/
  cap : Option (Option ℤ)
  /-- The roster, as it was counted since. -/
  counted : Option ℕ
  /-- The user that was found last. -/
  target : Option Id

namespace LookedUp

/-- What a connection starts with. -/
def none : LookedUp := ⟨.none, .none, .none, .none⟩

/-- It has the row of this user. -/
def Has (d : LookedUp) (u : Id) : Prop := ∃ m ∈ d.user, m.id = u

/-- The roster was counted, and there was a slot. -/
def HasSlot (d : LookedUp) : Prop :=
  ∃ cap, d.cap = some cap ∧ ∀ c ∈ cap, ∃ n, d.counted = some n ∧ (n : ℤ) < c

/-- What a connection may do. -/
def may (d : LookedUp) : RelayOp → Prop
  | .findUserBySession _ => d.user = .none
  | .countRoster u => d.Has u
  | .createContactRequest f t => d.Has f ∧ d.target = some t ∧ d.HasSlot
  | .acceptContactRequest _ t => d.Has t
  | _ => True

/-- What a reply makes of it. -/
def seen (d : LookedUp) : (r : RelayOp) → r.Reply → LookedUp
  | .findUserBySession _ => fun user => { none with user := user.toOption.getD .none }
  | .utcNow => fun now =>
      { d with cap := d.user.map fun m => m.buddyCap now, counted := .none }
  | .countRoster _ => fun n => { d with counted := n.toOption }
  | .findUserByWinkdId _ => fun target =>
      { d with target := (target.toOption.getD .none).map fun m => m.id }
  | _ => fun _ => d

/-- Only a lookup by session changes whose row it is. -/
theorem seen_user (d : LookedUp) {r : RelayOp} (hr : ∀ token, r ≠ .findUserBySession token)
    (x : r.Reply) : (d.seen r x).user = d.user := by
  cases r with
  | findUserBySession token => exact absurd rfl (hr token)
  | _ => rfl

end LookedUp

/-- The connection goes along, from `d`, to a point where `Q` holds. -/
abbrev Looks {α : Type} (d : LookedUp) (Q : LookedUp → α → Prop) (p : RelayProg α) : Prop :=
  p.Along LookedUp.may LookedUp.seen Q d

theorem looks_bind {α β : Type} {d : LookedUp} {M : LookedUp → α → Prop} {Q : LookedUp → β → Prop}
    {p : RelayProg α} {f : α → RelayProg β} (hp : Looks d M p)
    (hf : ∀ d' a, M d' a → Looks d' Q (f a)) : Looks d Q (p >>= f) :=
  (Prog.along_bind p f).mpr (hp.mono (fun _ _ h => h) hf)

/-- From where it has the row of the user, a program comes back with it. -/
abbrev KeepsRow (user : Member) (α : Type) (p : RelayProg α) : Prop :=
  ∀ d : LookedUp, d.user = some user → Looks d (fun d' _ => d'.user = some user) p

theorem keepsRow_await {user : Member} {r : RelayOp} (hr : ∀ token, r ≠ .findUserBySession token)
    (hmay : ∀ d : LookedUp, d.user = some user → d.may r) : KeepsRow user _ (await r) :=
  fun d hd => ⟨hmay d hd, fun x => (d.seen_user hr x).trans hd⟩

/-- The points that a connection may come to whatever it has looked up. -/
def RelayOp.needsNothing : RelayOp → Bool
  | .findUserBySession _ => false
  | .countRoster _ => false
  | .createContactRequest _ _ => false
  | .acceptContactRequest _ _ => false
  | _ => true

theorem keepsRow_free {user : Member} {r : RelayOp} (hr : r.needsNothing = true) :
    KeepsRow user _ (await r) := by
  refine keepsRow_await ?_ fun d _ => ?_
  · rintro token rfl
    cases hr
  · cases r <;> trivial

theorem keepsRow_compositional (user : Member) : Compositional user.id (KeepsRow user) where
  pure _ _ hd := hd
  bind hp hf d hd := looks_bind (hp d hd) fun d' a h => hf a d' h
  common r hr := by
    cases r with
    | countRoster a =>
      refine keepsRow_await (fun _ h => nomatch h) fun d hd => ⟨user, hd, ?_⟩
      exact (show a = user.id from hr).symm
    | _ => first | exact keepsRow_free rfl | exact False.elim hr

section Handlers
variable {F : Formats} {user : Member}

/-- A request is created once the other user has been found. -/
theorem looks_addTarget (tx : ℕ) (targetId : Text) {d : LookedUp} (hd : d.user = some user)
    (hslot : d.HasSlot) :
    Looks d (fun d' _ => d'.user = some user) (addTarget F user tx targetId) := by
  have hW := keepsRow_compositional user
  refine ⟨trivial, ?_⟩
  intro target
  rcases target with e | target | target
  · exact through_sendErr hW tx _ _ hd
  · exact through_sendErr hW tx _ _ hd
  · refine ⟨trivial, ?_⟩
    intro blocked
    rcases blocked with e | blocked | blocked
    · exact through_sendErr hW tx _ _ hd
    · refine ⟨⟨⟨user, hd, rfl⟩, rfl, hslot⟩, ?_⟩
      intro req
      cases req with
      | error e => exact through_sendErr hW tx _ _ hd
      | ok req =>
        refine hW.bind (through_push hW tx ?_) (fun _ => ?_) _ hd
        · exact shows_event (by decide) (by decide) _
        · exact through_notify hW target.id (shows_event (by decide) (by decide) _)
    · exact through_sendErr hW tx _ _ hd

/-- **The roster is counted before a user is added.** -/
theorem looks_addContact (tx : ℕ) (payload : Json) : KeepsRow user _ (addContact F user tx payload) := by
  intro d hd
  have hW := keepsRow_compositional user
  unfold addContact
  split
  · exact through_sendErr hW tx _ d hd
  · split
    · exact through_sendErr hW tx _ d hd
    · refine ⟨trivial, ?_⟩
      intro now
      dsimp only [Prog.bind]
      split
      · rename_i hcap
        refine looks_addTarget tx _ hd ⟨user.buddyCap now, ?_, ?_⟩
        · show d.user.map _ = _
          rw [hd]
          rfl
        · rw [hcap]
          exact fun _ h => nomatch h
      · rename_i cap hcap
        refine ⟨⟨user, hd, rfl⟩, ?_⟩
        intro n
        cases n with
        | error e => exact through_sendErr hW tx _ _ hd
        | ok n =>
          dsimp only [Prog.bind]
          split
          · exact hW.bind (hW.common .utcNow trivial) (fun _ => through_sendErr hW tx _) _ hd
          · rename_i hfull
            refine looks_addTarget tx _ hd ⟨user.buddyCap now, ?_, ?_⟩
            · show d.user.map _ = _
              rw [hd]
              rfl
            · rw [hcap]
              intro c hc
              cases hc
              exact ⟨n, rfl, by omega⟩

theorem looks_handleCommand (tx serial : ℕ) (cmd : ClientCommand) :
    KeepsRow user _ (handleCommand F user tx serial cmd) := by
  have hW := keepsRow_compositional user
  refine through_command hW tx serial cmd ?_ ?_ ?_ ?_ ?_ ?_ ?_ ?_
  · exact fun payload => looks_addContact tx payload
  · exact fun _ _ _ => keepsRow_await (fun _ h => nomatch h) fun d hd => ⟨user, hd, rfl⟩
  · exact fun _ => keepsRow_free rfl
  · exact fun fields id winkdId displayName avatarData =>
      through_block hW tx fields id winkdId displayName avatarData (keepsRow_free rfl)
        (keepsRow_free rfl)
  · exact fun _ => keepsRow_free rfl
  · exact fun _ => keepsRow_free rfl
  · exact fun status => through_broadcastPresence hW status (keepsRow_free rfl) fun _ =>
      keepsRow_free rfl
  · exact fun payload => through_relayMessage hW tx serial payload fun w _ =>
      through_deliver hW tx w _ payload (fun _ _ _ _ => keepsRow_free rfl) fun _ _ =>
        keepsRow_free rfl

theorem looks_receiveLoop (tx : ℕ) (frames : List Frame) :
    KeepsRow user _ (receiveLoop F user tx frames) := by
  refine through_receiveLoop (keepsRow_compositional user) tx (keepsRow_free rfl) frames ?_
  exact fun _ _ cmd _ serial => looks_handleCommand tx serial cmd

theorem looks_flushQueued (tx : ℕ) : KeepsRow user _ (flushQueued user tx) := by
  exact through_flushQueued (keepsRow_compositional user) tx (keepsRow_free rfl) fun _ => keepsRow_free rfl

theorem looks_disconnect (sessionId : Id) : KeepsRow user _ (disconnect user sessionId) := by
  have hW := keepsRow_compositional user
  refine through_disconnect hW sessionId (keepsRow_free rfl) (keepsRow_free rfl) ?_
  exact through_broadcastPresence hW _ (keepsRow_free rfl) fun _ => keepsRow_free rfl

theorem looks_serveSession (frames : List Frame) : KeepsRow user _ (serveSession F user frames) := by
  have hW := keepsRow_compositional user
  refine hW.bind (keepsRow_free rfl) fun tx => ?_
  refine hW.bind (keepsRow_free rfl) fun sessionId => ?_
  refine hW.bind (keepsRow_free rfl) fun _ => ?_
  refine hW.bind (keepsRow_free rfl) fun _ => ?_
  refine hW.bind (through_broadcastPresence hW _ (keepsRow_free rfl) fun _ => keepsRow_free rfl)
    fun _ => ?_
  refine hW.bind (through_flushRoster hW tx (keepsRow_free rfl) (fun _ => keepsRow_free rfl) fun _ =>
    hW.bind (keepsRow_free rfl) fun _ => hW.pure ()) fun _ => ?_
  refine hW.bind (through_flushPendingInbound hW tx) fun _ => ?_
  refine hW.bind (looks_flushQueued tx) fun _ => ?_
  refine hW.bind (keepsRow_free rfl) fun _ => ?_
  refine hW.bind (looks_receiveLoop tx frames) fun _ => ?_
  exact hW.bind (looks_disconnect sessionId) fun _ => keepsRow_free rfl

/-- **A connection creates a request where it has counted a slot.** -/
theorem handleSocket_looks (socket : Socket) :
    Looks .none (fun _ _ => True) (handleSocket F socket) := by
  have hrefuse : ∀ (d : LookedUp) reason, Looks d (fun _ _ => True) (refuse reason) :=
    fun _ _ => ⟨trivial, fun _ => trivial⟩
  unfold handleSocket
  split
  · split
    · refine ⟨rfl, ?_⟩
      intro user
      rcases user with e | user | user
      · exact hrefuse _ _
      · exact hrefuse _ _
      · refine ⟨trivial, fun _ => ⟨trivial, fun _ => ⟨⟨user, rfl, rfl⟩, fun _ => ⟨trivial, ?_⟩⟩⟩⟩
        intro sent
        cases sent with
        | false => trivial
        | true => exact (looks_serveSession _ _ rfl).mono (fun _ _ h => h) fun _ _ _ => trivial
    · exact hrefuse _ _
  · exact hrefuse _ _

end Handlers

/-! ## In a run -/

/-- There is a user with this id. -/
def AppState.IsUser (s : AppState) (u : Id) : Prop := ∃ w, s.db.HasName u w

theorem AppState.IsUser.found {s : AppState} {u : Id} (h : s.IsUser u) :
    ∃ x, s.db.findUserById u = some x ∧ x.id = u := by
  obtain ⟨_, x, hx, hid, -⟩ := h
  cases hfind : s.db.findUserById u with
  | none => exact absurd (decide_eq_true hid) (List.find?_eq_none.mp hfind x hx)
  | some y => exact ⟨y, rfl, by simpa using List.find?_some hfind⟩

theorem AppState.IsUser.serve {s : AppState} {u : Id} (h : s.IsUser u) (r : RelayOp) :
    (Server.serve r s).2.IsUser u := by
  obtain ⟨w, h⟩ := h
  exact ⟨w, (serve_names r s).kept u w h⟩

theorem AppState.IsUser.outside {s : AppState} {u : Id} (h : s.IsUser u) (e : RelayEvent) :
    (s.outside e).IsUser u := by
  obtain ⟨w, h⟩ := h
  exact ⟨w, outside_hasName s e h⟩

theorem serve_supporters (r : RelayOp) (s : AppState) : (serve r s).2.supporters = s.supporters := by
  by_cases hr : r.onlyTables = true
  · obtain ⟨db, contactRequests, blocks, h⟩ := serve_onlyTables hr s
    rw [h]
  · cases r with
    | send c item =>
      obtain ⟨channels, h⟩ := send_state s c item
      simp only [serve, h]
    | sendToAll ids item =>
      obtain ⟨channels, h⟩ := sendToAll_state s ids item
      simp only [serve, h]
    | queuePendingMessage m clientMsgId payload =>
      simp only [serve, AppState.queuePendingMessage_state]
      split <;> rfl
    | clientsRemove u sessionId =>
      simp only [serve, AppState.clientsRemove]
      split <;> rfl
    | _ => first | rfl | exact absurd rfl hr

namespace Relay
variable {F : Formats} {allowed : Relay → RelayEvent → Prop} {s₀ : AppState} {s : Relay}

/-- What connection `i` has looked up. -/
def lookedUp (s : Relay) (i : ℕ) : LookedUp := Threads.Pool.learned LookedUp.seen .none i s.trace

theorem lookedUp_own (s : Relay) (i : ℕ) (r : RelayOp) (k : r.Reply → RelayProg Unit) :
    (s.answered i r k).lookedUp i = (s.lookedUp i).seen r (serve r s.state).1 :=
  Threads.Pool.learned_own rfl _

theorem lookedUp_other (s : Relay) {i j : ℕ} (hij : i ≠ j) (r : RelayOp)
    (k : r.Reply → RelayProg Unit) : (s.answered i r k).lookedUp j = s.lookedUp j :=
  Threads.Pool.learned_other hij _

/-- Who was looked up is a user, and the copy has his name. -/
structure FoundUsers (s : Relay) : Prop where
  own : ∀ i m, (s.lookedUp i).user = some m → s.state.db.HasName m.id m.winkdId
  target : ∀ i t, (s.lookedUp i).target = some t → s.state.IsUser t

theorem FoundUsers.isUser {s : Relay} (hs : s.FoundUsers) {i : ℕ} {m : Member}
    (hm : (s.lookedUp i).user = some m) : s.state.IsUser m.id := ⟨_, hs.own i m hm⟩

theorem FoundUsers.step {s : Relay} (hs : s.FoundUsers) (i : ℕ) (r : RelayOp)
    (k : r.Reply → RelayProg Unit) : (s.answered i r k).FoundUsers := by
  constructor
  · intro j m h
    refine (serve_names r s.state).kept m.id m.winkdId ?_
    by_cases hij : i = j
    · subst hij
      rw [lookedUp_own] at h
      cases r with
      | findUserBySession token =>
        obtain ⟨x, hx, rfl⟩ := Option.map_eq_some_iff.mp h
        obtain ⟨row, -, hrow⟩ := Option.bind_eq_some_iff.mp hx
        exact ⟨x, List.mem_of_find?_eq_some hrow, rfl, rfl⟩
      | _ => exact hs.own i m h
    · rw [lookedUp_other s hij] at h
      exact hs.own j m h
  · intro j t h
    refine AppState.IsUser.serve ?_ r
    by_cases hij : i = j
    · subst hij
      rw [lookedUp_own] at h
      cases r with
      | findUserBySession token => cases h
      | findUserByWinkdId w =>
        obtain ⟨m, hm, rfl⟩ := Option.map_eq_some_iff.mp h
        obtain ⟨x, hx, rfl⟩ := Option.map_eq_some_iff.mp hm
        exact ⟨_, x, List.mem_of_find?_eq_some hx, rfl, rfl⟩
      | _ => exact hs.target i t h
    · rw [lookedUp_other s hij] at h
      exact hs.target j t h

theorem foundUsers (h : Transitions.Reaches (next F) allowed (Threads.Pool.idle s₀) s) :
    s.FoundUsers := by
  refine run_invariant (fun socket => handleSocket_looks socket) h ?_ ?_ ?_ ?_
  · exact ⟨fun _ _ h => (nomatch h), fun _ _ h => nomatch h⟩
  · exact fun s p _ hs => ⟨hs.own, hs.target⟩
  · exact fun s e hs _ =>
      ⟨fun i m h => outside_hasName s.state e (hs.own i m h), fun i t h => (hs.target i t h).outside e⟩
  · exact fun s i r k _ hs _ _ _ => hs.step i r k

/-! ## The copy and the row -/

/-- The webhook changes what a user has bought only while no connection of his is open. -/
def BuysOffline (s : Relay) : RelayEvent → Prop
  | .supporter u _ => ∀ i < s.tasks.length, (s.waiting i).isSome = true → ¬ (s.lookedUp i).Has u
  | _ => True

/-- The states that the relay comes to if the webhook does so. -/
def ReachedBuyingOffline (F : Formats) (s : Relay) : Prop :=
  ∃ start, Transitions.Reaches (next F) (fun s e => s.InTime e ∧ s.BuysOffline e) (init start) s

/-- The copies of the connections that are open are as the rows. -/
def CopiesTrue (s : Relay) : Prop :=
  ∀ i m, (s.waiting i).isSome = true → (s.lookedUp i).user = some m →
    m.toSupporter = s.state.supporters m.id

/-- What another connection has come to stays. -/
theorem waiting_other (s : Relay) {i j : ℕ} (hij : i ≠ j) (r : RelayOp) (k : r.Reply → RelayProg Unit) :
    (s.answered i r k).waiting j = s.waiting j := by
  rw [Threads.Pool.waiting, Threads.Pool.waiting, answered, Threads.Pool.answered]
  dsimp only
  rw [List.getElem?_set_ne hij]

/-- A connection that has a copy has come to something since. -/
theorem waiting_of_user {s : Relay} (hf : s.Follows LookedUp.may LookedUp.seen .none fun _ => True)
    {i : ℕ} {m : Member} (hm : (s.lookedUp i).user = some m) {p : RelayProg Unit}
    (hopen : (Threads.Pool.waiting { s with tasks := s.tasks ++ [p] } i).isSome = true) :
    (s.waiting i).isSome = true := by
  have hlt : i < s.tasks.length := hf.lt_length fun h => by
    rw [show (s.lookedUp i).user = none from congrArg LookedUp.user h] at hm
    cases hm
  rw [← hopen, Threads.Pool.waiting, Threads.Pool.waiting, List.getElem?_append_left hlt]

/-- What the user of an open connection has bought does not change from outside. -/
theorem BuysOffline.supporters {s : Relay} {e : RelayEvent} (he : s.BuysOffline e) {i : ℕ} {m : Member}
    (hopen : (s.waiting i).isSome = true) (hm : (s.lookedUp i).user = some m) :
    (s.state.outside e).supporters m.id = s.state.supporters m.id := by
  cases e with
  | supporter u columns =>
    refine Function.update_of_ne ?_ _ _
    rintro rfl
    obtain ⟨r, hr⟩ := Option.isSome_iff_exists.mp hopen
    obtain ⟨k, hp⟩ := Threads.Pool.of_waiting hr
    exact he i (List.getElem?_eq_some_iff.mp hp).1 hopen ⟨m, hm, rfl⟩
  | _ => rfl

theorem CopiesTrue.step {s : Relay} (hs : s.CopiesTrue) {i : ℕ} {r : RelayOp}
    {k : r.Reply → RelayProg Unit} (hp : s.tasks[i]? = some (.request r k)) :
    (s.answered i r k).CopiesTrue := by
  intro j m hopen hm
  show m.toSupporter = (serve r s.state).2.supporters m.id
  rw [serve_supporters]
  by_cases hij : i = j
  · subst hij
    rw [lookedUp_own] at hm
    cases r with
    | findUserBySession token =>
      obtain ⟨x, -, rfl⟩ := Option.map_eq_some_iff.mp hm
      rfl
    | _ => exact hs i m (by rw [Threads.Pool.waiting_eq hp]; rfl) hm
  · rw [lookedUp_other s hij] at hm
    refine hs j m ?_ hm
    rw [← hopen, waiting_other s hij]

theorem ReachedBuyingOffline.copiesTrue (hs : s.ReachedBuyingOffline F) : s.CopiesTrue := by
  obtain ⟨start, hreach⟩ := hs
  refine run_invariant (fun socket => handleSocket_looks socket) hreach (I := CopiesTrue) ?_ ?_ ?_ ?_
  · exact fun _ _ _ h => nomatch h
  · exact fun s p hf hs i m hopen hm => hs i m (waiting_of_user hf hm hopen) hm
  · exact fun s e hs he i m hopen hm => (hs i m hopen hm).trans (he.2.supporters hopen hm).symm
  · exact fun s i r k _ hs _ hp _ => hs.step hp

end Relay
end Winkd.Server
