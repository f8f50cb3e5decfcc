import Winkd.AtMostOnce
import Winkd.Known
import Winkd.Lanes
import Winkd.Names

/-!
# The messages of one sender to one recipient

They are pushed at once, or queued, drained and pushed: the two lanes of `Lanes`.  Each
step of the relay is one of theirs (`step_lanes`); the queue keeps its order as the clock
does not run backwards.  So the messages are pushed in the order in which they were
handled, if none is pushed live while an earlier one is in the queue, or with a connection
that has drained it, and none is pushed from the queue while another connection has an
earlier one (`sender_order`).
-/

namespace Winkd.Server

/-- The two are of one sender to one recipient. -/
def Relayed.SamePair (m₁ m₂ : Relayed) : Prop :=
  m₁.senderId = m₂.senderId ∧ m₁.recipientId = m₂.recipientId

/-! ## The queue is in order -/

/-- The rows are in the order in which they were queued. -/
structure AppState.Clocked (s : AppState) : Prop where
  sorted : s.pendingMessages.Pairwise fun a b => a.createdAt ≤ b.createdAt
  past : ∀ row ∈ s.pendingMessages, row.createdAt ≤ s.db.now

theorem AppState.Clocked.serve {s : AppState} (hs : s.Clocked) (r : RelayOp) :
    (Server.serve r s).2.Clocked := by
  have hnow := (serve_names r s).now
  by_cases hw : r.writesQueue = true
  · cases r with
    | queuePendingMessage m clientMsgId payload =>
      simp only [Server.serve, AppState.queuePendingMessage_state]
      split
      · exact hs
      · constructor
        · refine List.pairwise_append.mpr ⟨hs.sorted, List.pairwise_singleton _ _, ?_⟩
          intro a ha b hb
          rw [List.mem_singleton.mp hb]
          exact hs.past a ha
        · intro row hrow
          rcases List.mem_append.mp hrow with hrow | hrow
          · exact hs.past row hrow
          · rw [List.mem_singleton.mp hrow]
            exact Nat.le_refl _
    | drainPendingMessages u =>
      exact ⟨hs.sorted.filter _, fun row hrow => hs.past row (List.mem_of_mem_filter hrow)⟩
    | _ => cases hw
  · have hqueue := (serve_unwritten r s).pendingMessages (Bool.eq_false_iff.mpr hw)
    constructor
    · rw [hqueue]
      exact hs.sorted
    · rw [hqueue, hnow]
      exact hs.past

theorem serve_queue {r : RelayOp} (hr : r.writesQueue = false) (s : AppState) :
    (serve r s).2.queue = s.queue := by
  rw [AppState.queue, (serve_unwritten r s).pendingMessages hr]
  rfl

/-- What is queued for a user is in the order of the queue. -/
theorem AppState.Clocked.queuedFor {s : AppState} (hs : s.Clocked) (u : Id) :
    s.queuedFor u = s.pendingMessages.filter fun r => r.recipientId = u :=
  List.Pairwise.insertionSort_eq (hs.sorted.filter _)

/-- What is drained is what was queued for the user. -/
theorem drained_eq {s : AppState} (hs : s.Clocked) (u : Id) :
    (s.drainPendingMessages u).1.map (PendingMessageDelivery.relayed u) =
      s.queue.filter fun m => m.recipientId = u := by
  rw [AppState.drainPendingMessages, hs.queuedFor, AppState.queue, List.filter_map, List.map_map]
  refine List.map_congr_left fun row hrow => ?_
  have hu : row.recipientId = u := of_decide_eq_true (List.mem_filter.mp hrow).2
  rw [Function.comp, PendingMessageDelivery.relayed, PendingMessage.relayed, hu]

theorem queue_drained (s : AppState) (u : Id) :
    (s.drainPendingMessages u).2.queue = s.queue.filter fun m => !decide (m.recipientId = u) := by
  rw [AppState.queue, AppState.queue, List.filter_map]
  exact congrArg _ (List.filter_congr fun row _ => decide_not)

namespace Relay
variable {F : Formats}

theorem clocked {allowed : Relay → RelayEvent → Prop} {start : Start} {s : Relay}
    (h : Transitions.Reaches (Relay.next F) allowed (init start) s)
    (htime : ∀ s e, allowed s e → s.InTime e) : s.state.Clocked := by
  refine reaches_invariant h (I := fun s : Relay => s.state.Clocked) ?_ ?_ ?_ ?_
  · exact ⟨List.Pairwise.nil, fun _ h => nomatch h⟩
  · exact fun _ _ _ h => h
  · intro s e hs he
    cases e with
    | clock now => exact ⟨hs.sorted, fun row hrow => (hs.past row hrow).trans (htime s _ he)⟩
    | account r =>
      refine ⟨hs.sorted, fun row hrow => ?_⟩
      rw [AppState.outside, (answer_names r s.state.db).now]
      exact hs.past row hrow
    | _ => exact ⟨hs.sorted, hs.past⟩
  · exact fun s i r k _ hs _ _ _ => hs.serve r

/-! ## The lanes of the relay -/

/-- Where the messages are. -/
def lanes (s : Relay) : Lanes Relayed where
  handled := s.did Deed.settles
  pushed := s.did Deed.pushes
  queue := s.state.queue
  held j := (s.known j).held

theorem lanes_answered (s : Relay) (i : ℕ) (r : RelayOp) (k : r.Reply → RelayProg Unit) :
    (s.answered i r k).lanes =
      { handled := (Deed.of s.state r (serve r s.state).1).settles ++ s.lanes.handled
        pushed := (Deed.of s.state r (serve r s.state).1).pushes ++ s.lanes.pushed
        queue := (serve r s.state).2.queue
        held := Function.update s.lanes.held i ((s.known i).seen r (serve r s.state).1).held } := by
  have hheld : (fun j => ((s.answered i r k).known j).held) =
      Function.update s.lanes.held i ((s.known i).seen r (serve r s.state).1).held := by
    funext j
    by_cases hij : j = i
    · subst hij
      rw [known_own, Function.update_self]
    · rw [known_other s (Ne.symm hij), Function.update_of_ne hij]
      rfl
  rw [lanes, hheld]
  rfl

/-- A message is pushed live only while none of the same sender waits for the recipient, and
from the queue only while no other connection has an earlier one. -/
def PushesInOrder (s : Relay) : RelayEvent → Prop
  | .step i =>
    match s.waiting i with
    | some (.send c item) => s.state.isOpen c = true →
      match item.label with
      | .live m => (∀ m₁ ∈ s.state.queue, ¬ m₁.SamePair m) ∧
          ∀ j < s.tasks.length, ∀ m₁ ∈ (s.known j).held, ¬ m₁.SamePair m
      | .queued m => ∀ j < s.tasks.length, j ≠ i → ∀ m₁ ∈ (s.known j).held,
          ¬ s.lanes.Earlier Relayed.SamePair m₁ m
      | _ => True
    | _ => True
  | _ => True

/-- The states that the relay comes to by steps that push so. -/
def ReachedInOrder (F : Formats) (s : Relay) : Prop :=
  ∃ start, Transitions.Reaches (Relay.next F) (fun s e => s.InTime e ∧ s.PushesInOrder e) (init start) s

/-- What a connection has still to push, after a step. -/
theorem held_cases (d : Known) (r : RelayOp) (x : r.Reply)
    (hdrain : ∀ u, r ≠ .drainPendingMessages u) : (d.seen r x).held.IsSuffix d.held := by
  cases r with
  | drainPendingMessages u => exact absurd rfl (hdrain u)
  | send c item =>
    obtain ⟨text, label⟩ := item
    cases label with
    | queued m => exact List.tail_suffix d.held
    | _ => exact List.suffix_rfl
  | presenceGet u =>
    simp only [Known.seen]
    split <;> exact List.suffix_rfl
  | _ => first | exact List.suffix_rfl | exact List.nil_suffix

/-- What is passed on, was not before. -/
theorem fresh_of_reached {s : Relay} {i : ℕ} {r : RelayOp} {k : r.Reply → RelayProg Unit}
    (h : (s.answered i r k).Reached F) {m : Relayed}
    (hm : m ∈ (Deed.of s.state r (serve r s.state).1).settles) : m ∉ s.did Deed.settles := by
  intro hbefore
  have hle := h.settled_le m.serial
  rw [did, show (s.answered i r k).trace = s.entry serve i r :: s.trace from rfl, did_cons,
    tally_append] at hle
  have hnew : 0 < tally (Relayed.isOf m.serial) (Deed.of s.state r (serve r s.state).1).settles :=
    (tally_pos _).mpr ⟨m, hm, decide_eq_true rfl⟩
  have hold : 0 < tally (Relayed.isOf m.serial) (s.did Deed.settles) :=
    (tally_pos _).mpr ⟨m, hbefore, decide_eq_true rfl⟩
  have hdeed : deedOf (s.entry serve i r) = Deed.of s.state r (serve r s.state).1 := rfl
  rw [hdeed] at hle
  rw [did] at hold
  omega

/-- Where nothing is passed on, drained or pushed. -/
theorem step_quiet (s : Relay) (i : ℕ) (r : RelayOp) (k : r.Reply → RelayProg Unit)
    (hq : r.writesQueue = false) (hsettles : (Deed.of s.state r (serve r s.state).1).settles = [])
    (hpushes : (Deed.of s.state r (serve r s.state).1).pushes = []) :
    s.lanes.Step Relayed.SamePair (s.answered i r k).lanes := by
  have hqueue : (serve r s.state).2.queue = s.lanes.queue := serve_queue hq s.state
  rw [lanes_answered, hsettles, hpushes, hqueue]
  refine .release i _ (held_cases _ r _ ?_)
  rintro u rfl
  cases hq

theorem send_sent (s : AppState) (c : ℕ) (item : Item) : (s.send c item).1 = s.isOpen c := by
  rw [AppState.send]
  split
  · rename_i hopen
    exact hopen.symm
  · rename_i hopen
    exact (Bool.eq_false_iff.mpr hopen).symm

/-- A message that is handled is pushed, queued or kept out of the queue, and one that was
drained is pushed or lost. -/
theorem step_send {s : Relay} {i c : ℕ} {item : Item} {k : Bool → RelayProg Unit}
    (hmay : (s.known i).may (.send c item))
    (hfresh : ∀ m, item.label = .live m → s.state.isOpen c = true → m ∉ s.did Deed.settles)
    (hstarted : ∀ j, s.tasks.length ≤ j → s.lanes.held j = [])
    (hw : s.waiting i = some (.send c item)) (horder : s.PushesInOrder (.step i)) :
    s.lanes.Step Relayed.SamePair (s.answered i (.send c item) k).lanes := by
  obtain ⟨text, label⟩ := item
  have hqueue : (serve (.send c ⟨text, label⟩) s.state).2.queue = s.lanes.queue :=
    serve_queue rfl s.state
  have hsent : (serve (.send c ⟨text, label⟩) s.state).1 = s.state.isOpen c := send_sent _ _ _
  have hlt : ∀ {j : ℕ} {m : Relayed}, m ∈ s.lanes.held j → j < s.tasks.length := by
    intro j m hm
    by_contra hj
    rw [hstarted j (not_lt.mp hj)] at hm
    cases hm
  simp only [PushesInOrder, hw] at horder
  cases label with
  | live m =>
    by_cases hopen : s.state.isOpen c = true
    · have hdeed : Deed.of s.state (.send c ⟨text, .live m⟩)
          (serve (.send c ⟨text, .live m⟩) s.state).1 = .live m := by
        rw [hsent, hopen]
        rfl
      -- nothing earlier is in the queue or on its way from it
      obtain ⟨hq, hh⟩ := horder hopen
      have hstep : s.lanes.Step Relayed.SamePair
          { s.lanes with handled := m :: s.lanes.handled, pushed := m :: s.lanes.pushed } := by
        refine .direct m (hfresh m rfl hopen) fun m₁ hsame => ⟨fun hm => hq m₁ hm hsame, ?_⟩
        exact fun j hm => hh j (hlt hm) m₁ hm hsame
      have hkept : Function.update s.lanes.held i ((s.known i).seen (.send c ⟨text, .live m⟩)
          (serve (.send c ⟨text, .live m⟩) s.state).1).held = s.lanes.held :=
        Function.update_eq_self i s.lanes.held
      rw [lanes_answered, hdeed, hqueue, hkept]
      exact hstep
    · -- the channel is closed: the message is not handled yet, the handler goes on to queue it
      have hdeed : Deed.of s.state (.send c ⟨text, .live m⟩)
          (serve (.send c ⟨text, .live m⟩) s.state).1 = .undelivered m := by
        rw [hsent, Bool.eq_false_iff.mpr hopen]
        rfl
      exact step_quiet s i _ k rfl (by rw [hdeed]; rfl) (by rw [hdeed]; rfl)
  | queued m =>
    by_cases hopen : s.state.isOpen c = true
    · have hdeed : Deed.of s.state (.send c ⟨text, .queued m⟩)
          (serve (.send c ⟨text, .queued m⟩) s.state).1 = .replayed m := by
        rw [hsent, hopen]
        rfl
      have hhead : s.lanes.held i = m :: (s.lanes.held i).tail := (List.eq_cons_of_mem_head? hmay.1)
      rw [lanes_answered, hdeed, hqueue]
      exact .replay i m _ hhead fun j hij m₁ hm => horder hopen j (hlt hm) hij m₁ hm
    · -- the message is lost, and nothing overtakes it
      have hdeed : Deed.of s.state (.send c ⟨text, .queued m⟩)
          (serve (.send c ⟨text, .queued m⟩) s.state).1 = .dropped m := by
        rw [hsent, Bool.eq_false_iff.mpr hopen]
        rfl
      exact step_quiet s i _ k rfl (by rw [hdeed]; rfl) (by rw [hdeed]; rfl)
  | _ => exact step_quiet s i _ k rfl rfl rfl

/-- **A step of the relay is one of the lanes.** -/
theorem step_lanes {s : Relay} {i : ℕ} {r : RelayOp} {k : r.Reply → RelayProg Unit}
    (hmay : (s.known i).may r) (hclocked : s.state.Clocked)
    (hfresh : ∀ m ∈ (Deed.of s.state r (serve r s.state).1).settles, m ∉ s.did Deed.settles)
    (hstarted : ∀ j, s.tasks.length ≤ j → s.lanes.held j = [])
    (hw : s.waiting i = some r) (horder : s.PushesInOrder (.step i)) :
    s.lanes.Step Relayed.SamePair (s.answered i r k).lanes := by
  cases r with
  | send c item =>
    refine step_send hmay ?_ hstarted hw horder
    intro m hlabel hopen
    refine hfresh m ?_
    have hsent : (serve (.send c item) s.state).1 = true := (send_sent _ _ _).trans hopen
    simp only [Deed.of, hlabel, hsent]
    exact List.mem_singleton_self m
  | queuePendingMessage m clientMsgId payload =>
    -- to queue a message needs nothing that the task holds
    have hkept : ∀ x, Function.update s.lanes.held i
        ((s.known i).seen (.queuePendingMessage m clientMsgId payload) x).held =
          s.lanes.held := fun _ => Function.update_eq_self i s.lanes.held
    by_cases hc : s.state.keepsOut m clientMsgId payload = true
    · have hdeed : ∀ x, Deed.of s.state (.queuePendingMessage m clientMsgId payload) x = .keptOut m :=
        fun _ => if_pos hc
      have hstate : (serve (.queuePendingMessage m clientMsgId payload) s.state).2 = s.state :=
        (s.state.queuePendingMessage_state m clientMsgId payload).trans (if_pos hc)
      have hstep : s.lanes.Step Relayed.SamePair _ :=
        .refuse m (hfresh m (hdeed _ ▸ List.mem_singleton_self m))
      rw [lanes_answered]
      simp only [hdeed, hkept, hstate]
      exact hstep
    · have hdeed : ∀ x, Deed.of s.state (.queuePendingMessage m clientMsgId payload) x = .queued m :=
        fun _ => if_neg hc
      have hstate : (serve (.queuePendingMessage m clientMsgId payload) s.state).2 =
          s.state.withQueued m clientMsgId payload :=
        (s.state.queuePendingMessage_state m clientMsgId payload).trans (if_neg hc)
      have hstep : s.lanes.Step Relayed.SamePair _ :=
        .queue m (hfresh m (hdeed _ ▸ List.mem_singleton_self m))
      rw [lanes_answered]
      simp only [hdeed, hkept, hstate, queue_withQueued]
      exact hstep
  | drainPendingMessages u =>
    have hstep : s.lanes.Step Relayed.SamePair _ :=
      .drain i (fun m => decide (m.recipientId = u)) fun m₁ m₂ h => by rw [h.2]
    have hheld : ((s.known i).seen (.drainPendingMessages u)
        (serve (.drainPendingMessages u) s.state).1).held = _ := drained_eq hclocked u
    rw [lanes_answered, hheld]
    simp only [serve, queue_drained]
    exact hstep
  | _ => exact step_quiet s i _ k rfl rfl rfl

/-! ## The result -/

/-- The first came before the second; what was done has the latest first. -/
def Before (f : Deed → List Relayed) (m₁ m₂ : Relayed) (s : Relay) : Prop :=
  [m₂, m₁].Sublist (s.did f)

/-- A run keeps the order. -/
theorem lanes_ordered {s : Relay} (hs : s.ReachedInOrder F) : s.lanes.Ordered Relayed.SamePair := by
  obtain ⟨start, hreach⟩ := hs
  refine run_invariant (fun socket => handleSocket_minds socket) hreach
    (I := fun s : Relay => s.lanes.Ordered Relayed.SamePair) ?_ ?_ ?_ ?_
  · exact Lanes.ordered_empty
  · exact fun _ _ _ h => h
  · intro s e hs _
    have hqueue := (outside_keeps s.state e).2
    have hlanes : lanes { s with state := s.state.outside e } = s.lanes := by
      rw [lanes, lanes, hqueue]
      rfl
    rw [hlanes]
    exact hs
  · intro s i r k hreach hs hallowed hp hmay
    have hclocked := clocked hreach fun _ _ h => h.1
    have hafter : (s.answered i r k).Reached F := by
      have hnext : next F s (.step i) = s.answered i r k := Threads.Pool.next_answer hp
      exact ⟨start, hnext ▸ (hreach.mono fun _ _ h => h.1).tail trivial⟩
    refine hs.step (step_lanes hmay hclocked (fun _ => fresh_of_reached hafter) ?_
      (Threads.Pool.waiting_eq hp) hallowed.2)
    intro j hj
    by_contra hheld
    refine absurd ((minds hreach).lt_length (i := j) fun hnone => hheld ?_) (not_lt.mpr hj)
    exact congrArg Known.held hnone

/-- **Messages of one sender to one recipient are pushed in the order in which they were
handled**, in every run whose pushes pass by no message that waits. -/
theorem sender_order {s : Relay} (hs : s.ReachedInOrder F) {m₁ m₂ : Relayed}
    (hpair : m₁.SamePair m₂) (hhandled : s.Before Deed.settles m₁ m₂)
    (h₁ : m₁ ∈ s.did Deed.pushes) (h₂ : m₂ ∈ s.did Deed.pushes) : s.Before Deed.pushes m₁ m₂ :=
  (lanes_ordered hs).pushed m₁ m₂ ⟨hpair, hhandled⟩ h₁ h₂

namespace Sample

instance (m₁ m₂ : Relayed) : Decidable (m₁.SamePair m₂) :=
  inferInstanceAs (Decidable (m₁.senderId = m₂.senderId ∧ m₁.recipientId = m₂.recipientId))

instance (f : Deed → List Relayed) (m₁ m₂ : Relayed) (s : Relay) : Decidable (s.Before f m₁ m₂) :=
  inferInstanceAs (Decidable ([m₂, m₁].Sublist (s.did f)))

instance (s : Relay) (m₁ m₂ : Relayed) : Decidable (s.lanes.Earlier Relayed.SamePair m₁ m₂) :=
  inferInstanceAs (Decidable (m₁.SamePair m₂ ∧ [m₂, m₁].Sublist (s.did Deed.settles)))

instance (s : Relay) : ∀ e, Decidable (s.PushesInOrder e)
  | .step i => by
    unfold PushesInOrder
    dsimp only
    induction s.waiting i using Option.casesOn with
    | none => exact isTrue trivial
    | some r =>
      induction r using RelayOp.casesOn with
      | send c item =>
        dsimp only
        induction item.label using Label.casesOn <;> dsimp only <;> infer_instance
      | _ => exact isTrue trivial
  | .connect _ => isTrue trivial
  | .forward _ => isTrue trivial
  | .fail _ => isTrue trivial
  | .drop _ => isTrue trivial
  | .account _ => isTrue trivial
  | .supporter _ _ => isTrue trivial
  | .clock _ => isTrue trivial

theorem sender_order_queuedThenLive :
    (after queuedThenLive).Before Deed.settles ⟨0, 0, 1⟩ ⟨1, 0, 1⟩ ∧
      (after queuedThenLive).Before Deed.pushes ⟨0, 0, 1⟩ ⟨1, 0, 1⟩ := by
  have hreach : (after queuedThenLive).ReachedInOrder formats :=
    ⟨start, Transitions.Admits.reaches (by decide)⟩
  have hhandled : (after queuedThenLive).Before Deed.settles ⟨0, 0, 1⟩ ⟨1, 0, 1⟩ := by
    decide
  exact ⟨hhandled,
    sender_order hreach (by decide) hhandled (by decide) (by decide)⟩

/-- Ada sends Bob a message while he is offline.  He connects, and is registered; she sends
him another, live; then he drains the queue. -/
def liveBeforeDrained : List RelayEvent :=
  accounts ++ connected 0 23 "ada's token" [messageFrame "m1" "hi", messageFrame "m2" "there"] ++
    connected 1 10 "bob's token" [] ++ List.replicate 6 (.step 0) ++ List.replicate 8 (.step 1)

theorem pushed_out_of_order :
    ¬ ∀ s : Relay, s.Reached formats → ∀ m₁ m₂ : Relayed, m₁.SamePair m₂ →
      s.Before Deed.settles m₁ m₂ → m₁ ∈ s.did Deed.pushes → m₂ ∈ s.did Deed.pushes →
        s.Before Deed.pushes m₁ m₂ := by
  intro h
  have hreach : (after liveBeforeDrained).Reached formats := after_reached (by decide)
  exact absurd (h _ hreach ⟨0, 0, 1⟩ ⟨1, 0, 1⟩ (by decide) (by decide +kernel) (by decide +kernel)
    (by decide +kernel)) (by decide +kernel)

end Sample

end Relay
end Winkd.Server
