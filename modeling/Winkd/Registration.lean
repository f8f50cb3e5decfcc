import Winkd.Standing

/-!
# Who is registered

The map of the sessions has one slot for a user, however many connections the user has.
The session in the slot is of a connection that has not come to its cleanup yet, and the
slot is not empty while one of the user's connections is registered (`Registry`), provided
that a connection empties it only when it is the last.  The code compares session ids, so
a connection does not remove the session of a newer one; but a newer one that closes
removes its own, and leaves an older one behind.
-/

namespace Winkd.Server.Relay
variable {F : Formats}

/-- The connection is in its receive loop: its user, and its channel. -/
def Live (s : Relay) (i : ℕ) (u : Id) (c : ℕ) : Prop :=
  s.waiting i = some .nextFrame ∧ (s.standing i).channel = some (u, c)

/-- No other connection of the user is registered. -/
def OnlyOne (s : Relay) (i : ℕ) (u : Id) : Prop :=
  ∀ j < s.tasks.length, j ≠ i → (s.standing j).registered.map Prod.fst ≠ some u

/-- A connection empties the slot of its user only if no other connection of the user is
registered. -/
def EmptiesLast (s : Relay) : RelayEvent → Prop
  | .step i =>
    match s.waiting i with
    | some (.clientsRemove u sessionId) =>
        ((s.state.clients u).any fun c => c.sessionId = sessionId) = true → s.OnlyOne i u
    | _ => True
  | _ => True

/-- The states that the relay comes to when only the last connection of a user empties the
slot. -/
def ReachedEmptying (F : Formats) (s : Relay) : Prop :=
  ∃ start, Transitions.Reaches (Relay.next F) (fun s e => s.InTime e ∧ s.EmptiesLast e) (init start) s

/-- The slots and the connections agree. -/
structure Registry (s : Relay) : Prop where
  owned : ∀ u session, s.state.clients u = some session →
    ∃ i, (s.standing i).registered = some (u, session)
  filled : ∀ i u session, (s.standing i).registered = some (u, session) → s.state.clients u ≠ none

/-- A connection that has registered a session has started. -/
theorem lt_of_registered {allowed : Relay → RelayEvent → Prop} {s₀ : AppState} {s : Relay}
    (h : Transitions.Reaches (Relay.next F) allowed (Threads.Pool.idle s₀) s) {i : ℕ}
    (hi : (s.standing i).registered ≠ none) : i < s.tasks.length := by
  refine (stands h).lt_length fun hnone => hi ?_
  show (Threads.Pool.learned Standing.seen .none i s.trace).registered = none
  rw [hnone]
  rfl

/-- Only the two ends of a registration change it. -/
theorem seen_registered (d : Standing) (r : RelayOp) (hr : r.writesClients = false) (x : r.Reply) :
    (d.seen r x).registered = d.registered := by
  cases r with
  | listAcceptedContactUserIds u =>
    simp only [Standing.seen]
    split <;> rfl
  | createBlock a b =>
    simp only [Standing.seen]
    split <;> rfl
  | clientsInsert u session => cases hr
  | clientsRemove u sessionId => cases hr
  | _ => rfl

/-- What a step of a connection leaves.  A session that is in a slot afterwards is the one the
connection has registered, or was there before as another's; and the step empties no slot of
another connection. -/
theorem Registry.step {s : Relay} (hs : s.Registry) {i : ℕ} {r : RelayOp}
    {k : r.Reply → RelayProg Unit}
    (hslots : ∀ u session, (s.answered i r k).state.clients u = some session →
      ((s.answered i r k).standing i).registered = some (u, session) ∨
        s.state.clients u = some session ∧ (s.standing i).registered ≠ some (u, session))
    (hown : ∀ u session, ((s.answered i r k).standing i).registered = some (u, session) →
      (s.answered i r k).state.clients u ≠ none)
    (hothers : ∀ j u session, j ≠ i → (s.standing j).registered = some (u, session) →
      s.state.clients u ≠ none → (s.answered i r k).state.clients u ≠ none) :
    (s.answered i r k).Registry where
  owned u session h := by
    rcases hslots u session h with hi | ⟨hbefore, hi⟩
    · exact ⟨i, hi⟩
    · -- it is another's, and the step does not touch that one
      obtain ⟨j, hj⟩ := hs.owned u session hbefore
      have hij : i ≠ j := by
        rintro rfl
        exact hi hj
      refine ⟨j, ?_⟩
      rw [standing_other s hij]
      exact hj
  filled j u session h := by
    by_cases hij : i = j
    · subst hij
      exact hown u session h
    · rw [standing_other s hij] at h
      exact hothers j u session (Ne.symm hij) h (hs.filled j u session h)

theorem Registry.insert {s : Relay} (hs : s.Registry) {i : ℕ} {u : Id} {session : ClientSession}
    {k : Unit → RelayProg Unit} (hi : (s.standing i).registered = none) :
    (s.answered i (.clientsInsert u session) k).Registry := by
  have hclients : (s.answered i (.clientsInsert u session) k).state.clients =
      Function.update s.state.clients u (some session) := rfl
  have hself : ((s.answered i (.clientsInsert u session) k).standing i).registered =
      some (u, session) := by
    rw [standing_own]
    rfl
  refine hs.step ?_ ?_ ?_
  · intro u' session' h
    rw [hclients] at h
    by_cases huu : u' = u
    · subst huu
      rw [Function.update_self] at h
      cases h
      exact .inl hself
    · rw [Function.update_of_ne huu] at h
      refine .inr ⟨h, ?_⟩
      rw [hi]
      exact fun h => nomatch h
  · intro u' session' h
    rw [hself] at h
    cases h
    rw [hclients, Function.update_self]
    exact Option.some_ne_none session
  · intro j u' session' _ _ hfilled
    rw [hclients]
    by_cases huu : u' = u
    · subst huu
      rw [Function.update_self]
      exact Option.some_ne_none session
    · rw [Function.update_of_ne huu]
      exact hfilled

theorem Registry.remove {s : Relay} (hs : s.Registry) {i : ℕ} {u sessionId : Id}
    {session : ClientSession} {k : Bool → RelayProg Unit}
    (hi : (s.standing i).registered = some (u, session)) (hid : session.sessionId = sessionId)
    (hlast : ((s.state.clients u).any fun c => c.sessionId = sessionId) = true →
      ∀ j session', j ≠ i → (s.standing j).registered ≠ some (u, session')) :
    (s.answered i (.clientsRemove u sessionId) k).Registry := by
  have hnone : ((s.answered i (.clientsRemove u sessionId) k).standing i).registered = none := by
    rw [standing_own]
    simp only [Standing.seen]
    split <;> rfl
  have hown : ∀ u' session',
      ((s.answered i (.clientsRemove u sessionId) k).standing i).registered = some (u', session') →
        (s.answered i (.clientsRemove u sessionId) k).state.clients u' ≠ none := by
    intro u' session' h
    rw [hnone] at h
    cases h
  by_cases hremoved : ((s.state.clients u).any fun c => c.sessionId = sessionId) = true
  · -- the slot of the user is emptied, and nobody else is registered for it
    have hclients : (s.answered i (.clientsRemove u sessionId) k).state.clients =
        Function.update s.state.clients u none := by
      simp only [answered_state, serve, AppState.clientsRemove, hremoved, if_true]
    refine hs.step ?_ hown ?_
    · intro u' session' h
      rw [hclients] at h
      have huu : u' ≠ u := by
        rintro rfl
        rw [Function.update_self] at h
        cases h
      rw [Function.update_of_ne huu] at h
      refine .inr ⟨h, fun hi' => huu ?_⟩
      rw [hi] at hi'
      cases hi'
      rfl
    · intro j u' session' hji hj hfilled
      have huu : u' ≠ u := by
        rintro rfl
        exact hlast hremoved j session' hji hj
      rw [hclients, Function.update_of_ne huu]
      exact hfilled
  · -- the slot has the session of a newer connection
    have hclients : (s.answered i (.clientsRemove u sessionId) k).state.clients =
        s.state.clients := by
      simp only [answered_state, serve, AppState.clientsRemove, hremoved]
      rfl
    refine hs.step ?_ hown ?_
    · intro u' session' h
      rw [hclients] at h
      refine .inr ⟨h, fun hi' => hremoved ?_⟩
      rw [hi] at hi'
      cases hi'
      simp [h, hid]
    · intro j u' session' _ _ hfilled
      rw [hclients]
      exact hfilled

/-- **The slots and the connections agree**, in every state of a run in which only the last
connection of a user empties the slot. -/
theorem ReachedEmptying.registry {s : Relay} (hs : s.ReachedEmptying F) : s.Registry := by
  obtain ⟨start, hreach⟩ := hs
  refine run_invariant (fun socket => handleSocket_standing socket) hreach ?_ ?_ ?_ ?_
  · exact ⟨fun _ _ h => (nomatch h), fun _ _ _ h => (nomatch h)⟩
  · intro s p _ hs
    exact ⟨hs.owned, hs.filled⟩
  · intro s e hs _
    have hclients : (s.state.outside e).clients = s.state.clients := by
      cases e <;> rfl
    exact ⟨fun u session h => hs.owned u session (hclients ▸ h),
      fun i u session h => hclients ▸ hs.filled i u session h⟩
  · intro s i r k hreach hs hallowed hp hr
    -- only two requests write the table of clients
    by_cases hw : r.writesClients = true
    · cases r with
      | clientsInsert u session => exact hs.insert hr.2.1
      | clientsRemove u sessionId =>
        obtain ⟨session, hi, hid⟩ := hr.2
        refine hs.remove hi hid fun hremoved j session' hji hj => ?_
        have honly := hallowed.2
        simp only [EmptiesLast, Threads.Pool.waiting_eq hp] at honly
        have hlt : j < s.tasks.length := by
          refine lt_of_registered hreach ?_
          rw [hj]
          exact Option.some_ne_none _
        exact honly hremoved j hlt hji (by rw [hj]; rfl)
      | _ => cases hw
    · have hw : r.writesClients = false := Bool.eq_false_iff.mpr hw
      have hclients := (serve_unwritten r s.state).clients hw
      have hsame : ((s.answered i r k).standing i).registered = (s.standing i).registered := by
        rw [standing_own, seen_registered _ r hw]
      refine hs.step ?_ ?_ ?_
      · intro u session h
        rw [hsame]
        by_cases hi : (s.standing i).registered = some (u, session)
        · exact .inl hi
        · exact .inr ⟨hclients ▸ h, hi⟩
      · intro u session h
        rw [hsame] at h
        rw [answered_state, hclients]
        exact hs.filled i u session h
      · intro j u session _ _ hfilled
        rw [answered_state, hclients]
        exact hfilled

/-- A connection that rests and is registered is in its receive loop. -/
theorem live_of_registered {s : Relay} (hs : s.ReachedEmptying F) (hrest : s.AtRest) {i : ℕ} {u : Id}
    {session : ClientSession} (hi : (s.standing i).registered = some (u, session)) :
    s.Live i u session.sender := by
  obtain ⟨start, hreach⟩ := hs
  have hlt : i < s.tasks.length := lt_of_registered hreach (by rw [hi]; exact Option.some_ne_none _)
  have hp := List.getElem?_eq_getElem hlt
  have halong := (stands hreach).own.own i _ hp
  have hresting := hrest _ (List.mem_of_getElem? hp)
  cases hprog : s.tasks[i] with
  | pure a =>
    rw [hprog] at halong
    have hnone : (s.standing i).registered = none := halong.2
    rw [hi] at hnone
    cases hnone
  | throw e => exact e.elim
  | request r k =>
    rw [hprog] at halong hresting hp
    cases r with
    | nextFrame =>
      obtain ⟨-, u', session', hchannel, hregistered⟩ := halong.1
      refine ⟨Threads.Pool.waiting_eq hp, ?_⟩
      have hsame : (u', session') = (u, session) := Option.some.inj (hregistered.symm.trans hi)
      cases hsame
      exact hchannel
    | _ => cases hresting

/-- **A live connection can be reached**: while a user has a connection in its receive
loop, and no handler is mid-way, the user is registered, with the channel of such a
connection, provided that only the last connection of a user empties the slot. -/
theorem live_connection_reachable {s : Relay} (hs : s.ReachedEmptying F) (hrest : s.AtRest) {i : ℕ}
    {u : Id} {c : ℕ} (hlive : s.Live i u c) :
    ∃ session, s.state.clients u = some session ∧ ∃ j, s.Live j u session.sender := by
  have hregistry := hs.registry
  have hregistered : ∃ session, (s.standing i).registered = some (u, session) := by
    obtain ⟨start, hreach⟩ := hs
    obtain ⟨hwaiting, hchannel⟩ := hlive
    obtain ⟨k, hp⟩ := Threads.Pool.of_waiting hwaiting
    obtain ⟨-, u', session, hchannel', hregistered⟩ := (stands hreach).may_issue hp
    have hsame : (u', session.sender) = (u, c) := Option.some.inj (hchannel'.symm.trans hchannel)
    cases hsame
    exact ⟨session, hregistered⟩
  obtain ⟨session, hi⟩ := hregistered
  obtain ⟨session', hclients⟩ := Option.ne_none_iff_exists'.mp (hregistry.filled i u session hi)
  obtain ⟨j, hj⟩ := hregistry.owned u session' hclients
  exact ⟨session', hclients, j, live_of_registered hs hrest hj⟩

namespace Sample

instance (s : Relay) (i : ℕ) (u : Id) : Decidable (s.OnlyOne i u) :=
  inferInstanceAs (Decidable (∀ j < s.tasks.length, j ≠ i →
    (s.standing j).registered.map Prod.fst ≠ some u))

instance (s : Relay) : ∀ e, Decidable (s.EmptiesLast e)
  | .step i => by
    unfold EmptiesLast
    dsimp only
    induction s.waiting i using Option.casesOn with
    | none => exact isTrue trivial
    | some r => induction r using RelayOp.casesOn <;> dsimp only <;> infer_instance
  | .connect _ => isTrue trivial
  | .forward _ => isTrue trivial
  | .fail _ => isTrue trivial
  | .drop _ => isTrue trivial
  | .account _ => isTrue trivial
  | .supporter _ _ => isTrue trivial
  | .clock _ => isTrue trivial

instance (s : Relay) (i : ℕ) : Decidable (s.waiting i = some .nextFrame) :=
  decidable_of_iff ((s.waiting i).any RelayOp.isNextFrame = true) <| by
    rw [Option.any_eq_true]
    constructor
    · rintro ⟨r, hr, hn⟩
      cases r with
      | nextFrame => exact hr
      | _ => cases hn
    · intro h
      exact ⟨.nextFrame, h, rfl⟩

instance (s : Relay) (i : ℕ) (u : Id) (c : ℕ) : Decidable (s.Live i u c) :=
  inferInstanceAs (Decidable (s.waiting i = some .nextFrame ∧ (s.standing i).channel = some (u, c)))

/-- Bob is connected twice, with channels 0 and 1, and the first connection closes. -/
def olderCloses : List RelayEvent :=
  accounts ++ connected 0 15 "bob's token" [] ++ connected 1 15 "bob's token" [] ++
    List.replicate 3 (.step 0)

theorem live_connection_reachable_newer : (after olderCloses).AtRest ∧
    (after olderCloses).Live 1 1 1 ∧ ∃ session,
      (after olderCloses).state.clients 1 = some session ∧
        ∃ j, (after olderCloses).Live j 1 session.sender := by
  have hreach : (after olderCloses).ReachedEmptying formats :=
    ⟨start, Transitions.Admits.reaches (by decide)⟩
  have hrest : (after olderCloses).AtRest := by decide
  have hlive : (after olderCloses).Live 1 1 1 := by decide
  exact ⟨hrest, hlive, live_connection_reachable hreach hrest hlive⟩

/-- Bob is connected twice, and the second connection closes.  The first is still live, and
Bob is not registered. -/
def newerCloses : List RelayEvent :=
  accounts ++ connected 0 15 "bob's token" [] ++ connected 1 15 "bob's token" [] ++
    List.replicate 5 (.step 1)

theorem live_connection_unreachable :
    ¬ ∀ s : Relay, s.ReachedInTurn formats → s.AtRest → ∀ i u c, s.Live i u c →
      ∃ session, s.state.clients u = some session ∧ ∃ j, s.Live j u session.sender := by
  intro h
  have hreach : (after newerCloses).ReachedInTurn formats :=
    ⟨start, Transitions.Admits.reaches (by decide)⟩
  obtain ⟨session, hsession, -⟩ := h _ hreach (by decide) 0 1 0 (by decide)
  have hnone : (after newerCloses).state.clients 1 = none := by decide
  rw [hnone] at hsession
  cases hsession

end Sample

end Winkd.Server.Relay
