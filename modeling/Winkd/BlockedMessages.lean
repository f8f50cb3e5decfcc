import Winkd.Known

/-!
# Messages between users with a block

The block is looked for when a message comes in.  A message that was queued by then is
pushed when its recipient connects, and nothing looks for a block there.  No message
passes between users with a block, if a connection drains only messages of senders with
whom there is no block at that moment (`block_stops_messages`).
-/

namespace Winkd.Server

/-- The drained messages, too, are between users without a block. -/
def Known.Unblocked (d : Known) (s : AppState) : Prop :=
  d.IsTrue s ∧ ∀ m ∈ d.held, s.isBlockedBetween m.senderId m.recipientId = false

theorem Known.Unblocked.forget (d : Known) (s : AppState) : d.forget.Unblocked s :=
  ⟨.forget d s, fun _ h => nomatch h⟩

/-- No message that is queued for the user is from one with whom there is a block. -/
def AppState.QueueUnblocked (s : AppState) (u : Id) : Prop :=
  ∀ row ∈ s.pendingMessages, row.recipientId = u → s.isBlockedBetween row.senderId u = false

theorem unblocked_drained {s : AppState} {u : Id} (h : s.QueueUnblocked u) :
    ∀ m ∈ (s.drainPendingMessages u).1.map (PendingMessageDelivery.relayed u),
      s.isBlockedBetween m.senderId m.recipientId = false := by
  intro m hm
  obtain ⟨d, hd, rfl⟩ := List.mem_map.mp hm
  obtain ⟨row, hrow, rfl⟩ := List.mem_map.mp hd
  obtain ⟨hmem, hu⟩ := List.mem_filter.mp ((List.mem_insertionSort _).mp hrow)
  exact h row hmem (of_decide_eq_true hu)

/-- **What a handler passes on stays between users without a block**, when only it moves. -/
theorem Known.Unblocked.step {d : Known} {r : RelayOp} {s : AppState} (hr : d.may r)
    (hdrain : ∀ u, r = .drainPendingMessages u → s.QueueUnblocked u)
    (hd : r.isNextFrame = false → d.Unblocked s) :
    (d.seen r (serve r s).1).Unblocked (serve r s).2 := by
  refine ⟨Known.IsTrue.step hr fun hn => (hd hn).1, ?_⟩
  by_cases hf : Known.forgetsAfter r = true
  · -- what writes the contacts holds nothing that was drained
    have hnone : (d.seen r (serve r s).1).held = [] := by
      cases r <;> first | rfl | cases hf
    rw [hnone]
    exact fun _ h => nomatch h
  · have hf : Known.forgetsAfter r = false := Bool.eq_false_iff.mpr hf
    simp only [Known.forgetsAfter, Bool.or_eq_false_iff] at hf
    have hb := AppState.isBlockedBetween_congr ((serve_unwritten r s).blocks hf.1.1.2)
    have hheld := (hd hf.2).2
    intro m hm
    rw [hb]
    cases r with
    | findUserBySession token => cases hm
    | drainPendingMessages u => exact unblocked_drained (hdrain u rfl) m hm
    | send c item =>
      obtain ⟨text, label⟩ := item
      cases label with
      | queued m' => exact hheld m (List.mem_of_mem_tail hm)
      | _ => exact hheld m hm
    | presenceGet u =>
      simp only [Known.seen] at hm
      split at hm <;> exact hheld m hm
    | _ => first | exact hheld m hm | cases hm

namespace Relay
variable {F : Formats}

/-- A connection drains the queue only if no message in it is from a user with whom there is
a block. -/
def DrainsUnblocked (s : Relay) : RelayEvent → Prop
  | .step i =>
    match s.waiting i with
    | some (.drainPendingMessages u) => s.state.QueueUnblocked u
    | _ => True
  | _ => True

/-- The states that the relay comes to by handlers that are carried out one after the other
and drain so. -/
def ReachedUnblocked (F : Formats) (s : Relay) : Prop :=
  ∃ start, Transitions.Reaches (Relay.next F)
    (fun s e => s.InTime e ∧ s.InTurn e ∧ s.DrainsUnblocked e) (init start) s

theorem ReachedUnblocked.knows {s : Relay} (hs : s.ReachedUnblocked F) :
    Threads.Pool.Knows Known.Unblocked RelayOp.isNextFrame Known.seen .none s := by
  obtain ⟨start, hreach⟩ := hs
  refine Relay.knows hreach (fun _ _ h => h.2.1) ?_ ?_ ?_
  · exact fun t => .forget .none t
  · rintro d t e ⟨htrue, hheld⟩
    obtain ⟨hrequests, hblocks, hpresence⟩ := outside_contacts t e
    refine ⟨htrue.congr hrequests hblocks hpresence, fun m hm => ?_⟩
    rw [AppState.isBlockedBetween_congr hblocks]
    exact hheld m hm
  · rintro s i r ⟨-, -, hdrains⟩ hw hr hd
    refine Known.Unblocked.step hr ?_ hd
    rintro u rfl
    simpa only [DrainsUnblocked, hw] using hdrains

/-- What a step pushes, it may push. -/
theorem pushes_may {d : Known} {r : RelayOp} (hr : d.may r) (s : AppState) {x : r.Reply} {m : Relayed}
    (hm : m ∈ (Deed.of s r x).pushes) :
    r.isNextFrame = false ∧ (d.unblocked = some (m.senderId, m.recipientId) ∨ m ∈ d.held) := by
  cases r with
  | send c item =>
    obtain ⟨text, label⟩ := item
    refine ⟨rfl, ?_⟩
    cases label with
    | live m' =>
      simp only [Deed.of] at hm
      split at hm
      · obtain rfl := List.mem_singleton.mp hm
        exact .inl hr.1
      · cases hm
    | queued m' =>
      simp only [Deed.of] at hm
      split at hm
      · obtain rfl := List.mem_singleton.mp hm
        exact .inr (List.mem_of_mem_head? hr.1)
      · cases hm
    | echo m' => cases hm
    | other => cases hm
  | queuePendingMessage m' clientMsgId payload =>
    simp only [Deed.of] at hm
    split at hm <;> cases hm
  | _ => cases hm

/-- **A block stops messages in both directions**: none is pushed, live or from the queue,
while there is a block between its sender and its recipient, if the queue is drained so. -/
theorem block_stops_messages {s : Relay} (hs : s.ReachedUnblocked F) :
    ∀ e ∈ s.trace, ∀ m ∈ (deedOf e).pushes,
      e.before.isBlockedBetween m.senderId m.recipientId = false := by
  obtain ⟨start, hreach⟩ := hs
  refine run_invariant (fun socket => handleSocket_minds socket) hreach (I := fun s : Relay =>
    ∀ e ∈ s.trace, ∀ m ∈ (deedOf e).pushes,
      e.before.isBlockedBetween m.senderId m.recipientId = false) ?_ ?_ ?_ ?_
  · exact fun _ h => nomatch h
  · exact fun _ _ _ h => h
  · exact fun _ _ h _ => h
  · intro s i r k hreach hs _ hp hr e he m hm
    rcases List.mem_cons.mp he with rfl | he
    · -- the handler has looked for a block, or holds the message from a drain
      obtain ⟨hn, hm⟩ := pushes_may hr s.state hm
      have hknown := ReachedUnblocked.knows ⟨start, hreach⟩ i _ hp hn
      rcases hm with hm | hm
      · exact hknown.1.unblocked _ _ hm
      · exact hknown.2 m hm
    · exact hs e he m hm

/-! ## A message that was queued before the block -/

namespace Sample

instance (s : AppState) (u : Id) : Decidable (s.QueueUnblocked u) :=
  inferInstanceAs (Decidable (∀ row ∈ s.pendingMessages, row.recipientId = u →
    s.isBlockedBetween row.senderId u = false))

instance (s : Relay) : ∀ e, Decidable (s.DrainsUnblocked e)
  | .step i => by
    unfold DrainsUnblocked
    dsimp only
    induction s.waiting i using Option.casesOn with
    | none => exact isTrue trivial
    | some r => induction r using RelayOp.casesOn <;> dsimp only <;> infer_instance
  | .connect _ => isTrue trivial
  | .forward _ => isTrue trivial
  | .fail _ => isTrue trivial
  | .drop _ => isTrue trivial
  | .account _ => isTrue trivial
  | .supporter _ _ => isTrue trivial
  | .clock _ => isTrue trivial

/-- Ada sends Bob a message while he is offline.  He connects, and she sends him another. -/
def sentTwice : List RelayEvent :=
  accounts ++ connected 0 22 "ada's token" [messageFrame "m1" "hi", messageFrame "m2" "there"] ++
    connected 1 18 "bob's token" [] ++ List.replicate 7 (.step 0)

theorem block_stops_messages_sentTwice :
    ((after sentTwice).trace.flatMap fun e => (deedOf e).pushes) = [⟨1, 0, 1⟩, ⟨0, 0, 1⟩] ∧
      ∀ e ∈ (after sentTwice).trace, ∀ m ∈ (deedOf e).pushes,
        e.before.isBlockedBetween m.senderId m.recipientId = false := by
  have hreach : (after sentTwice).ReachedUnblocked formats :=
    ⟨start, Transitions.Admits.reaches (by decide)⟩
  exact ⟨by decide, block_stops_messages hreach⟩

/-- Ada sends Bob a message while he is offline, and blocks him.  He connects, and gets it. -/
def sentThenBlocked : List RelayEvent :=
  accounts ++ connected 0 28 "ada's token"
    [messageFrame "m1" "hi", commandFrame "block_user" "bob#0002"] ++ connected 1 18 "bob's token" []

theorem blocked_message_pushed :
    ¬ ∀ s : Relay, s.ReachedInTurn formats → ∀ e ∈ s.trace, ∀ m ∈ (deedOf e).pushes,
      e.before.isBlockedBetween m.senderId m.recipientId = false := by
  intro h
  have hreach : (after sentThenBlocked).ReachedInTurn formats :=
    ⟨start, Transitions.Admits.reaches (by decide)⟩
  have hpushed := h _ hreach
  revert hpushed
  decide

end Sample

end Relay
end Winkd.Server
