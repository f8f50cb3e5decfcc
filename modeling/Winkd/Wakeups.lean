import Winkd.Standing

/-!
# Messages for a user who is online

A sender looks for the session of the recipient, and queues the message if there is none;
a recipient registers a session, and later drains the queue.  A message is stranded when
it is queued for a user who is registered and whose connections have all drained the
queue.  It cannot be, if messages are queued only for those who are not registered, or of
whom some connection has still to drain the queue (`no_message_stranded`).  The code does
not see to that: the recipient may come in between.
-/

namespace Winkd.Server.Relay
variable {F : Formats}

/-- A message waits in the queue for a user who is registered. -/
def StrandedFor (u : Id) (s : AppState) : Prop :=
  (∃ row ∈ s.pendingMessages, row.recipientId = u) ∧ s.clients u ≠ none

/-- A connection of the user has still to drain the queue. -/
def DrainDue (s : Relay) (u : Id) : Prop := ∃ j < s.tasks.length, (s.standing j).drain = some u

/-- No message is queued for a user who is registered, unless the queue is still to be
drained. -/
def QueuesInTime (s : Relay) : RelayEvent → Prop
  | .step i =>
    match s.waiting i with
    | some (.queuePendingMessage m id payload) =>
        s.state.keepsOut m id payload = true ∨ s.state.clients m.recipientId = none ∨
          s.DrainDue m.recipientId
    | _ => True
  | _ => True

/-- The states that the relay comes to by steps that queue in time. -/
def ReachedQueueing (F : Formats) (s : Relay) : Prop :=
  ∃ start, Transitions.Reaches (Relay.next F) (fun s e => s.InTime e ∧ s.QueuesInTime e) (init start) s

/-- The rows of a user after a drain of that user's queue. -/
theorem not_stranded_drained (u : Id) (s : AppState) :
    ¬ StrandedFor u (s.drainPendingMessages u).2 := by
  rintro ⟨⟨row, hrow, hu⟩, -⟩
  have hne : row.recipientId ≠ u := by simpa using List.of_mem_filter hrow
  exact hne hu

/-- What a step that leaves a user stranded has done. -/
theorem stranded_cases {u : Id} (r : RelayOp) (s : AppState) (h : StrandedFor u (serve r s).2) :
    StrandedFor u s ∧ r ≠ .drainPendingMessages u ∨ (∃ session, r = .clientsInsert u session) ∨
      ∃ m id payload, r = .queuePendingMessage m id payload ∧ m.recipientId = u ∧
        s.keepsOut m id payload = false ∧ s.clients u ≠ none := by
  have hunwritten := serve_unwritten r s
  obtain ⟨⟨row, hrow, hu⟩, hc⟩ := h
  cases r with
  | queuePendingMessage m id payload =>
    have hclients : s.clients u ≠ none := hunwritten.clients rfl ▸ hc
    simp only [serve, AppState.queuePendingMessage_state] at hrow
    split at hrow
    · exact .inl ⟨⟨⟨row, hrow, hu⟩, hclients⟩, fun h => by cases h⟩
    · rename_i hkeptOut
      rcases List.mem_append.mp hrow with hrow | hrow
      · exact .inl ⟨⟨⟨row, hrow, hu⟩, hclients⟩, fun h => by cases h⟩
      · obtain rfl := List.mem_singleton.mp hrow
        have hu : m.recipientId = u := hu
        exact .inr (.inr ⟨m, id, payload, rfl, hu, by simpa [hu] using hkeptOut, hclients⟩)
  | drainPendingMessages u' =>
    -- a row that is left is another user's
    have hmem : row ∈ s.pendingMessages := (List.mem_filter.mp hrow).1
    refine .inl ⟨⟨⟨row, hmem, hu⟩, hc⟩, ?_⟩
    rintro ⟨rfl⟩
    exact not_stranded_drained u s ⟨⟨row, hrow, hu⟩, hc⟩
  | clientsInsert u' session =>
    by_cases huu : u = u'
    · exact .inr (.inl ⟨session, by rw [huu]⟩)
    · refine .inl ⟨⟨⟨row, hrow, hu⟩, ?_⟩, fun h => by cases h⟩
      simpa [serve, Function.update_of_ne huu] using hc
  | clientsRemove u' sessionId =>
    refine .inl ⟨⟨⟨row, hunwritten.pendingMessages rfl ▸ hrow, hu⟩, ?_⟩, fun h => by cases h⟩
    intro hnone
    simp only [serve, AppState.clientsRemove] at hc
    split at hc
    · by_cases huu : u = u'
      · exact hc (by rw [huu]; exact Function.update_self ..)
      · exact hc (by simpa [Function.update_of_ne huu] using hnone)
    · exact hc hnone
  | _ =>
    exact .inl ⟨⟨⟨row, hunwritten.pendingMessages rfl ▸ hrow, hu⟩, hunwritten.clients rfl ▸ hc⟩,
      fun h => by cases h⟩

/-- Only the drain of the queue pays for it. -/
theorem seen_drain {d : Standing} {r : RelayOp} (hr : d.may r) {u : Id}
    (hne : r ≠ .drainPendingMessages u) (hd : d.drain = some u) (x : r.Reply) :
    (d.seen r x).drain = some u := by
  cases r with
  | clientsInsert u' session =>
    -- who registers owes nothing before
    have hnone : d.drain = none := hr.1.drain
    rw [hnone] at hd
    cases hd
  | drainPendingMessages u' =>
    have huu : u ≠ u' := fun h => hne (by rw [h])
    simp [Standing.seen, hd, huu]
  | clientsRemove u' sessionId =>
    simp only [Standing.seen]
    split <;> exact hd
  | listAcceptedContactUserIds u' =>
    simp only [Standing.seen]
    split <;> exact hd
  | createBlock a b =>
    simp only [Standing.seen]
    split <;> exact hd
  | _ => exact hd

/-- While a user is stranded, a connection has still to drain the queue. -/
theorem drain_owed {s : Relay} (hs : s.ReachedQueueing F) (u : Id) :
    Threads.Pool.Owed (fun d : Standing => d.drain = some u) (fun t _ => StrandedFor u t)
      Standing.seen .none s := by
  obtain ⟨start, hreach⟩ := hs
  refine run_invariant (fun socket => handleSocket_standing socket) hreach ?_ ?_ ?_ ?_
  · rintro ⟨⟨row, hrow, -⟩, -⟩
    cases hrow
  · intro s p _ hs
    exact hs
  · intro s e hs _ hbad
    refine hs ?_
    cases e <;> exact hbad
  · intro s i r k hreach hs hallowed hp hr
    refine hs.answered fun hbad => ?_
    rcases stranded_cases r s.state hbad with ⟨hbefore, hne⟩ | ⟨session, rfl⟩ | hqueued
    · exact .inr ⟨.inl hbefore, fun hd => seen_drain hr hne hd _⟩
    · -- who registers has to drain the queue
      exact .inl rfl
    · -- the row was queued in time: some connection has still to drain
      obtain ⟨m, clientMsgId, payload, rfl, hu, hkeptOut, hclients⟩ := hqueued
      have hdue := hallowed.2
      simp only [QueuesInTime, Threads.Pool.waiting_eq hp, hu, hkeptOut, hclients, false_or,
        Bool.false_eq_true] at hdue
      obtain ⟨j, -, hj⟩ := hdue
      exact .inr ⟨.inr ⟨j, hj⟩, id⟩

/-- **No message waits for a user who is registered**, in every state where no handler is
mid-way, if messages are queued in time. -/
theorem no_message_stranded {s : Relay} (hs : s.ReachedQueueing F) (hrest : s.AtRest) {u : Id}
    (hu : s.state.clients u ≠ none) : ∀ row ∈ s.state.pendingMessages, row.recipientId ≠ u := by
  intro row hrow hr
  have hnone : ∀ i, ¬ (s.standing i).drain = some u := by
    intro i hdrain
    obtain ⟨start, hreach⟩ := id hs
    have hidle := idle_of_resting hreach (i := i) fun p hp => hrest p (List.mem_of_getElem? hp)
    rw [hidle.drain] at hdrain
    cases hdrain
  exact (drain_owed hs u).settled hnone ⟨⟨row, hrow, hr⟩, hu⟩

namespace Sample

instance (s : Relay) (u : Id) : Decidable (s.DrainDue u) :=
  inferInstanceAs (Decidable (∃ j < s.tasks.length, (s.standing j).drain = some u))

instance (s : Relay) : ∀ e, Decidable (s.QueuesInTime e)
  | .step i => by
    unfold QueuesInTime
    dsimp only
    induction s.waiting i using Option.casesOn with
    | none => exact isTrue trivial
    | some r => induction r using RelayOp.casesOn <;> dsimp only <;> infer_instance
  | .connect _ => isTrue trivial
  | .forward _ => isTrue trivial
  | .fail _ => isTrue trivial
  | .drop _ => isTrue trivial
  | .account _ => isTrue trivial
  | .supporter _ _ => isTrue trivial
  | .clock _ => isTrue trivial

/-- Bob gets what was queued for him. -/
theorem no_message_stranded_queuedThenLive :
    (after queuedThenLive).AtRest ∧ (after queuedThenLive).state.clients 1 ≠ none ∧
      ∀ row ∈ (after queuedThenLive).state.pendingMessages, row.recipientId ≠ 1 := by
  have hreach : (after queuedThenLive).ReachedQueueing formats :=
    ⟨start, Transitions.Admits.reaches (by decide)⟩
  have hrest : (after queuedThenLive).AtRest := by decide
  have hbob : (after queuedThenLive).state.clients 1 ≠ none := by decide
  exact ⟨hrest, hbob, no_message_stranded hreach hrest hbob⟩

/-- Ada looks for Bob's session; he connects, and drains the queue; then she queues her
message. -/
def connectedInBetween : List RelayEvent :=
  accounts ++ connected 0 20 "ada's token" [messageFrame "m1" "hi"] ++
    connected 1 15 "bob's token" [] ++ List.replicate 2 (.step 0)

theorem message_stranded :
    ¬ ∀ s : Relay, s.Reached formats → s.AtRest → ∀ u, s.state.clients u ≠ none →
      ∀ row ∈ s.state.pendingMessages, row.recipientId ≠ u := by
  intro h
  have hreach : (after connectedInBetween).Reached formats := after_reached (by decide)
  exact absurd (h _ hreach (by decide +kernel) 1 (by decide +kernel)) (by decide +kernel)

end Sample

end Winkd.Server.Relay
