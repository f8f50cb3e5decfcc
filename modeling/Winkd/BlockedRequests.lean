import Winkd.Standing
import Winkd.Contacts

/-!
# A block and the requests between the two

Adding a contact looks for a block and then creates the request; blocking creates the
block and then clears the requests.  Where the two overlap a request can be created after
the other handler has cleared them.  It stays pending then, with the block.  There is no
such request, if each is created where there is no block or where a handler has still to
clear (`no_blocked_request`).
-/

namespace Winkd.Server.Relay
variable {F : Formats}

/-- Between the two there is a block and a pending request. -/
def BlockedRequest (a b : Id) (s : AppState) : Prop :=
  s.isBlockedBetween a b = true ∧ s.PendingBetween a b = true

/-- A handler that has blocked one of the two for the other has still to clear the requests
between them. -/
def ClearDue (s : Relay) (a b : Id) : Prop :=
  ∃ j < s.tasks.length, (s.standing j).clearing = some (a, b) ∨ (s.standing j).clearing = some (b, a)

/-- A request is created between two users only if there is no block, or a handler has still
to clear. -/
def RequestsUnblocked (s : Relay) : RelayEvent → Prop
  | .step i =>
    match s.waiting i with
    | some (.createContactRequest f t) => s.state.isBlockedBetween f t = false ∨ s.ClearDue f t
    | _ => True
  | _ => True

/-- The states that the relay comes to by steps that create requests so. -/
def ReachedRequesting (F : Formats) (s : Relay) : Prop :=
  ∃ start, Transitions.Reaches (Relay.next F) (fun s e => s.InTime e ∧ s.RequestsUnblocked e)
    (init start) s

/-- What a step that leaves a blocked request has done. -/
theorem blockedRequest_cases {a b : Id} (r : RelayOp) (s : AppState)
    (h : BlockedRequest a b (serve r s).2) :
    (BlockedRequest a b s ∧ r ≠ .clearPendingContactRequestsBetween a b ∧
        r ≠ .clearPendingContactRequestsBetween b a) ∨
      (r = .createBlock a b ∨ r = .createBlock b a) ∧ a ≠ b ∨
      (r = .createContactRequest a b ∨ r = .createContactRequest b a) ∧
        s.isBlockedBetween a b = true := by
  obtain ⟨hblocked, hpending⟩ := h
  rcases blocked_cases hblocked with hblocked | hcreated
  · -- the block is old, so it depends on where the row comes from
    obtain ⟨cr, hcr, hstatus, hab⟩ := AppState.pendingBetween_iff.mp hpending
    cases serve_requests r s hcr with
    | kept hbefore _ hclear =>
      refine .inl ⟨⟨hblocked, AppState.pendingBetween_iff.mpr ⟨cr, hbefore, hstatus, hab⟩⟩, ?_⟩
      obtain ⟨h₁, h₂⟩ := hclear hstatus
      rcases hab with ⟨rfl, rfl⟩ | ⟨rfl, rfl⟩
      · exact ⟨h₁, h₂⟩
      · exact ⟨h₂, h₁⟩
    | requested hr _ =>
      refine .inr (.inr ⟨?_, hblocked⟩)
      rcases hab with ⟨rfl, rfl⟩ | ⟨rfl, rfl⟩
      · exact .inl hr
      · exact .inr hr
    | accepted _ hacc _ =>
      rw [hstatus] at hacc
      cases hacc
    | rejected hrej =>
      rw [hstatus] at hrej
      cases hrej
  · exact .inr (.inl hcreated)

/-- Only the clearing pays for it. -/
theorem seen_clearing {d : Standing} {r : RelayOp} (hr : d.may r) {a b : Id}
    (hne : r ≠ .clearPendingContactRequestsBetween a b) (hd : d.clearing = some (a, b))
    (x : r.Reply) : (d.seen r x).clearing = some (a, b) := by
  cases r with
  | createBlock a' b' =>
    have hnone : d.clearing = none := hr
    rw [hnone] at hd
    cases hd
  | clearPendingContactRequestsBetween a' b' =>
    have hab : (a, b) ≠ (a', b') := by
      rintro ⟨⟩
      exact hne rfl
    simp [Standing.seen, hd, hab]
  | clientsRemove u sessionId =>
    simp only [Standing.seen]
    split <;> exact hd
  | listAcceptedContactUserIds u =>
    simp only [Standing.seen]
    split <;> exact hd
  | _ => exact hd

/-- While a blocked request is pending, a handler has still to clear the requests. -/
theorem clear_owed {s : Relay} (hs : s.ReachedRequesting F) (a b : Id) :
    Threads.Pool.Owed (fun d : Standing => d.clearing = some (a, b) ∨ d.clearing = some (b, a))
      (fun t _ => BlockedRequest a b t) Standing.seen .none s := by
  obtain ⟨start, hreach⟩ := hs
  refine run_invariant (fun socket => handleSocket_standing socket) hreach ?_ ?_ ?_ ?_
  · rintro ⟨hblocked, -⟩
    cases hblocked
  · intro s p _ hs
    exact hs
  · intro s e hs _ hbad
    refine hs ?_
    cases e <;> exact hbad
  · intro s i r k _ hs hallowed hp hr
    refine hs.answered fun hbad => ?_
    rcases blockedRequest_cases r s.state hbad with ⟨hbefore, h₁, h₂⟩ | ⟨hcreated, hab⟩ | ⟨hreq, hblocked⟩
    · refine .inr ⟨.inl hbefore, ?_⟩
      rintro (hd | hd)
      · exact .inl (seen_clearing hr h₁ hd _)
      · exact .inr (seen_clearing hr h₂ hd _)
    · -- who blocks has to clear the requests
      refine .inl ?_
      rcases hcreated with rfl | rfl
      · rw [createBlock_ok hab]
        exact .inl rfl
      · rw [createBlock_ok (Ne.symm hab)]
        exact .inr rfl
    · -- created in spite of the block: the clearing is still to come
      have hdue := hallowed.2
      rcases hreq with rfl | rfl
      · simp only [RequestsUnblocked, Threads.Pool.waiting_eq hp, hblocked, false_or,
          Bool.true_eq_false] at hdue
        obtain ⟨j, -, hj⟩ := hdue
        exact .inr ⟨.inr ⟨j, hj⟩, fun h => h⟩
      · rw [AppState.isBlockedBetween_comm] at hblocked
        simp only [RequestsUnblocked, Threads.Pool.waiting_eq hp, hblocked, false_or,
          Bool.true_eq_false] at hdue
        obtain ⟨j, -, hj⟩ := hdue
        exact .inr ⟨.inr ⟨j, hj.symm⟩, fun h => h⟩

/-- **Between two users with a block no request is pending**, in every state where no handler
is mid-way, if requests are created so. -/
theorem no_blocked_request {s : Relay} (hs : s.ReachedRequesting F) (hrest : s.AtRest) (a b : Id) :
    ¬ (s.state.isBlockedBetween a b = true ∧ s.state.PendingBetween a b = true) := by
  refine (clear_owed hs a b).settled fun i hdue => ?_
  obtain ⟨start, hreach⟩ := id hs
  have hidle := idle_of_resting hreach (i := i) fun p hp => hrest p (List.mem_of_getElem? hp)
  rw [show (Threads.Pool.learned Standing.seen .none i s.trace).clearing = none from hidle.clearing]
    at hdue
  rcases hdue with h | h <;> cases h

namespace Sample

instance (s : Relay) (a b : Id) : Decidable (s.ClearDue a b) :=
  inferInstanceAs (Decidable (∃ j < s.tasks.length,
    (s.standing j).clearing = some (a, b) ∨ (s.standing j).clearing = some (b, a)))

instance (s : Relay) : ∀ e, Decidable (s.RequestsUnblocked e)
  | .step i => by
    unfold RequestsUnblocked
    dsimp only
    induction s.waiting i using Option.casesOn with
    | none => exact isTrue trivial
    | some r => induction r using RelayOp.casesOn <;> dsimp only <;> infer_instance
  | .connect _ => isTrue trivial
  | .forward _ => isTrue trivial
  | .fail _ => isTrue trivial
  | .drop _ => isTrue trivial
  | .account _ => isTrue trivial
  | .supporter _ _ => isTrue trivial
  | .clock _ => isTrue trivial

/-- Ada adds Bob, and then he blocks her. -/
def addedThenBlocked : List RelayEvent :=
  accounts ++ connected 0 23 "ada's token" [commandFrame "add_contact" "bob#0002"] ++
    connected 1 22 "bob's token" [commandFrame "block_user" "ada#0001"]

theorem no_blocked_request_addedThenBlocked : (after addedThenBlocked).AtRest ∧
    ¬ ((after addedThenBlocked).state.isBlockedBetween 0 1 = true ∧
      (after addedThenBlocked).state.PendingBetween 0 1 = true) := by
  have hreach : (after addedThenBlocked).ReachedRequesting formats :=
    ⟨start, Transitions.Admits.reaches (by decide)⟩
  have hrest : (after addedThenBlocked).AtRest := by decide
  exact ⟨hrest, no_blocked_request hreach hrest 0 1⟩

/-- Ada's handler has found no block; Bob connects and blocks her; then her request is
created. -/
def blockedInBetween : List RelayEvent :=
  accounts ++ connected 0 20 "ada's token" [commandFrame "add_contact" "bob#0002"] ++
    connected 1 21 "bob's token" [commandFrame "block_user" "ada#0001"] ++
    List.replicate 4 (.step 0)

theorem blocked_request_pending :
    ¬ ∀ s : Relay, s.Reached formats → s.AtRest → ∀ a b,
      ¬ (s.state.isBlockedBetween a b = true ∧ s.state.PendingBetween a b = true) := by
  intro h
  have hreach : (after blockedInBetween).Reached formats := after_reached (by decide)
  exact h _ hreach (by decide +kernel) 0 1 (by decide +kernel)

end Sample

end Winkd.Server.Relay
