import Winkd.Channels

/-!
# Where an accepted message is

Once its handler has shown a message to its sender, the message should have been written
to a socket of the recipient, or be waiting in a channel that is forwarded, or be in the
queue (`Kept`).  A message is lost when a forwarding task ends with the message in its
channel, and when it is kept out of the queue.  Where neither happens
(`Spares`), a message is in one of the three places or with a connection that is being
set up (`kept_iff`).
-/

namespace Winkd.Server

/-! ## Counting in channels -/

theorem sum_modify {l : List Channel} (w : Channel → ℤ) {i : ℕ} {f : Channel → Channel}
    {c : Channel} (hc : l[i]? = some c) :
    ((l.modify i f).map w).sum = (l.map w).sum + (w (f c) - w c) := by
  induction l generalizing i with
  | nil => cases hc
  | cons c' l ih =>
    cases i with
    | zero =>
      cases hc
      simp only [List.modify_zero_cons, List.map_cons, List.sum_cons]
      omega
    | succ i =>
      simp only [List.modify_succ_cons, List.map_cons, List.sum_cons, ih hc]
      omega

theorem sum_modify_le {l : List Channel} (w : Channel → ℤ) {i : ℕ} {f : Channel → Channel}
    (hf : ∀ c, l[i]? = some c → w (f c) ≤ w c) : ((l.modify i f).map w).sum ≤ (l.map w).sum := by
  cases hc : l[i]? with
  | none => rw [List.modify_eq_self (List.getElem?_eq_none_iff.mp hc)]
  | some c =>
    have hle := hf c hc
    rw [sum_modify w hc]
    omega

theorem sum_modify_eq {l : List Channel} (w : Channel → ℤ) {i : ℕ} {f : Channel → Channel}
    (hf : ∀ c, l[i]? = some c → w (f c) = w c) : ((l.modify i f).map w).sum = (l.map w).sum := by
  cases hc : l[i]? with
  | none => rw [List.modify_eq_self (List.getElem?_eq_none_iff.mp hc)]
  | some c => rw [sum_modify w hc, hf c hc, sub_self, add_zero]

theorem sum_quiet {l l' : List Channel} (w : Channel → ℤ) (h : QuietChannels l l')
    (hw : ∀ c c', Channel.Quiet c c' → w c' = w c) : (l'.map w).sum = (l.map w).sum := by
  induction h with
  | nil => rfl
  | cons hx _ ih => simp only [List.map_cons, List.sum_cons, hw _ _ hx, ih]

/-- Two channels of a list have shares of the sum. -/
theorem add_le_sum {l : List Channel} (w : Channel → ℤ) (hw : ∀ c, 0 ≤ w c) {c c' : Channel}
    (hc : c ∈ l) (hc' : c' ∈ l) (hne : c ≠ c') : w c + w c' ≤ (l.map w).sum := by
  obtain ⟨l₁, l₂, rfl⟩ := List.append_of_mem hc
  have hnonneg : ∀ l : List Channel, 0 ≤ (l.map w).sum := fun l =>
    List.sum_nonneg fun x hx => by
      obtain ⟨c, -, rfl⟩ := List.mem_map.mp hx
      exact hw c
  have hshare : ∀ l : List Channel, c' ∈ l → w c' ≤ (l.map w).sum := by
    intro l hl
    obtain ⟨a, b, rfl⟩ := List.append_of_mem hl
    have ha := hnonneg a
    have hb := hnonneg b
    simp only [List.map_append, List.map_cons, List.sum_append, List.sum_cons]
    omega
  have h₁ := hnonneg l₁
  have h₂ := hnonneg l₂
  simp only [List.map_append, List.map_cons, List.sum_append, List.sum_cons]
  rcases List.mem_append.mp hc' with h | h
  · have := hshare l₁ h
    omega
  · rcases List.mem_cons.mp h with h | h
    · exact absurd h.symm hne
    · have := hshare l₂ h
      omega

namespace Channel

/-- How many of the messages that wait in the channel, or were written, satisfy `p`. -/
def carries (p : Relayed → Bool) (c : Channel) : ℤ := tally p c.waiting + tally p c.delivered

theorem carries_nonneg (p : Relayed → Bool) (c : Channel) : 0 ≤ c.carries p :=
  Int.add_nonneg (tally_nonneg p _) (tally_nonneg p _)

theorem carries_quiet (p : Relayed → Bool) {c c' : Channel} (h : Quiet c c') :
    c'.carries p = c.carries p := by
  rw [carries, carries, delivered, delivered, h.waiting, h.written]

theorem carries_push (p : Relayed → Bool) (c : Channel) {item : Item} {m : Relayed}
    (hm : item.forwarded = some m) : (c.push item).carries p = c.carries p + tally p [m] := by
  have hw : (c.push item).waiting = c.waiting ++ [m] := by simp [waiting, push, hm]
  rw [carries, carries, hw, tally_append]
  show _ + tally p c.delivered = _
  omega

theorem carries_forward (p : Relayed → Bool) (c : Channel) : c.forward.carries p = c.carries p := by
  rcases c.forward_cases with h | ⟨item, queue, hq, -, h⟩
  · rw [h]
  · rw [h]
    simp only [carries, waiting, delivered, hq, List.filterMap_append, tally_append]
    cases hi : item.forwarded with
    | none =>
      rw [List.filterMap_cons_none hi, List.filterMap_cons_none hi]
      simp
    | some m =>
      rw [List.filterMap_cons_some hi, List.filterMap_cons_some hi]
      simp only [tally_cons, List.filterMap_nil, tally_nil]
      omega

theorem carries_fail (p : Relayed → Bool) (c : Channel) : c.fail.carries p ≤ c.carries p := by
  have hnonneg := tally_nonneg p c.waiting
  unfold fail
  split
  · show tally p [] + tally p c.delivered ≤ tally p c.waiting + tally p c.delivered
    rw [tally_nil]
    omega
  · exact le_refl _

theorem carries_drop (p : Relayed → Bool) (c : Channel) : c.drop.carries p ≤ c.carries p := by
  have hnonneg := tally_nonneg p c.waiting
  unfold drop
  split
  · show tally p [] + tally p c.delivered ≤ tally p c.waiting + tally p c.delivered
    rw [tally_nil]
    omega
  · exact le_refl _

/-- A task that ends without a message in its channel loses none. -/
theorem carries_fail_eq (p : Relayed → Bool) {c : Channel}
    (h : c.forwarding.isRunning = true → c.waiting = []) : c.fail.carries p = c.carries p := by
  unfold fail
  split
  · rename_i hc
    show tally p [] + tally p c.delivered = tally p c.waiting + tally p c.delivered
    rw [h hc.1]
  · rfl

theorem carries_drop_eq (p : Relayed → Bool) {c : Channel}
    (h : c.forwarding = .aborted → c.waiting = []) : c.drop.carries p = c.carries p := by
  unfold drop
  split
  · rename_i hc
    show tally p [] + tally p c.delivered = tally p c.waiting + tally p c.delivered
    rw [h hc]
  · rfl

end Channel

namespace AppState

/-- How many of the messages in channels, or written, satisfy `p`. -/
def carries (p : Relayed → Bool) (s : AppState) : ℤ := (s.channels.map (Channel.carries p)).sum

theorem carries_nonneg (p : Relayed → Bool) (s : AppState) : 0 ≤ s.carries p :=
  List.sum_nonneg fun x hx => by
    obtain ⟨c, -, rfl⟩ := List.mem_map.mp hx
    exact c.carries_nonneg p

/-- A channel has a share of the whole. -/
theorem carries_le (p : Relayed → Bool) {s : AppState} {c : Channel} (hc : c ∈ s.channels) :
    c.carries p ≤ s.carries p := by
  refine List.single_le_sum (fun x hx => ?_) _ (List.mem_map_of_mem hc)
  obtain ⟨c', -, rfl⟩ := List.mem_map.mp hx
  exact c'.carries_nonneg p

end AppState

/-- **What is pushed is in a channel.** -/
theorem serve_carries {d : Custody} (p : Relayed → Bool) (r : RelayOp) (s : AppState)
    (hr : d.may r) : (serve r s).2.carries p =
      s.carries p + tally p (Deed.of s r (serve r s).1).pushes := by
  cases serve_channels r s hr with
  | quiet hq hpushes =>
    rw [hpushes, AppState.carries, sum_quiet _ hq fun _ _ => Channel.carries_quiet p, tally_nil,
      add_zero]
    rfl
  | forwarded c item m _ hm hopen hpushes ht =>
    obtain ⟨ch, hch, -⟩ := isOpen_iff.mp hopen
    rw [hpushes, AppState.carries, ht, sum_modify _ hch, Channel.carries_push p ch hm,
      AppState.carries]
    omega
  | opened u hreq ht =>
    subst hreq
    rw [AppState.carries, ht, List.map_append, List.sum_append]
    rfl
  | spawned c hreq ht =>
    subst hreq
    rw [AppState.carries, ht]
    refine (sum_modify_eq (Channel.carries p) ?_).trans (add_zero _).symm
    intro _ _
    rfl
  | stopped c hreq ht =>
    subst hreq
    rw [AppState.carries, ht]
    refine (sum_modify_eq (Channel.carries p) ?_).trans (add_zero _).symm
    intro _ _
    rfl

theorem outside_carries_le (p : Relayed → Bool) (s : AppState) (e : RelayEvent) :
    (s.outside e).carries p ≤ s.carries p := by
  cases e with
  | forward c => exact sum_modify_le _ fun ch _ => le_of_eq (ch.carries_forward p)
  | fail c => exact sum_modify_le _ fun ch _ => ch.carries_fail p
  | drop c => exact sum_modify_le _ fun ch _ => ch.carries_drop p
  | _ => exact le_refl _

namespace Relay
variable {F : Formats}

/-! ## The claim's places -/

/-- The handler of the message has come to its end: it has shown it to the sender. -/
def Accepted (s : Relay) (m : Relayed) : Prop := ∃ e ∈ s.trace, deedOf e = .echoed m

/-- The message has been written to a socket of the recipient. -/
def Written (s : Relay) (m : Relayed) : Prop :=
  ∃ c ∈ s.state.channels, c.user = m.recipientId ∧ m ∈ c.delivered

/-- The message is in a channel of the recipient whose forwarding task is running. -/
def Waiting (s : Relay) (m : Relayed) : Prop :=
  ∃ c ∈ s.state.channels, c.user = m.recipientId ∧ c.forwarding.isRunning = true ∧ m ∈ c.waiting

/-- The message is a row of `pending_messages`. -/
def Queued (s : Relay) (m : Relayed) : Prop := m ∈ s.state.queue

/-- The message is in one of the three places. -/
def Kept (s : Relay) (m : Relayed) : Prop := s.Written m ∨ s.Waiting m ∨ s.Queued m

/-- The message is with a connection that is being set up: it has been drained and not
pushed, or it is in a channel whose forwarding task has not been spawned. -/
def InSetUp (s : Relay) (m : Relayed) : Prop :=
  (∃ i, m ∈ (s.custody i).held) ∨
    ∃ c ∈ s.state.channels, c.forwarding = .notSpawned ∧ m ∈ c.waiting

/-! ## Runs that spare messages -/

end Relay

/-- The queue takes the row of this statement. -/
def AppState.admits (s : AppState) : RelayOp → Bool
  | .queuePendingMessage m clientMsgId payload => !s.keepsOut m clientMsgId payload
  | _ => true

namespace Relay

/-- No forwarding task ends with a message in its channel, and no message is kept out of
the queue. -/
def Spares (s : Relay) : RelayEvent → Prop
  | .step i => ∀ r ∈ s.waiting i, s.state.admits r = true
  | .fail c => ∀ ch ∈ s.state.channels[c]?, ch.forwarding.isRunning = true → ch.waiting = []
  | .drop c => ∀ ch ∈ s.state.channels[c]?, ch.forwarding = .aborted → ch.waiting = []
  | _ => True

/-- The states that the relay comes to by steps that spare messages. -/
def ReachedSparing (F : Formats) (s : Relay) : Prop :=
  ∃ start, Transitions.Reaches (Relay.next F) (fun s e => s.InTime e ∧ s.Spares e) (init start) s

theorem outside_carries {s : Relay} {e : RelayEvent} (p : Relayed → Bool) (he : s.Spares e) :
    (s.state.outside e).carries p = s.state.carries p := by
  cases e with
  | forward c => exact sum_modify_eq _ fun ch _ => ch.carries_forward p
  | fail c => exact sum_modify_eq _ fun ch hch => Channel.carries_fail_eq p (he ch hch)
  | drop c => exact sum_modify_eq _ fun ch hch => Channel.carries_drop_eq p (he ch hch)
  | _ => rfl

/-- What a step passes on goes to the queue or a channel, where the queue takes it and the
channel is open. -/
theorem settles_step (p : Relayed → Bool) {x : Deed} {d d' : Custody} {n n' : ℕ}
    {q q' : List Relayed} (hm : x.Moves n n' q q') (hd : d.Has x) (hh : d'.held = x.held d.held)
    (hkeptOut : ∀ m, x ≠ .keptOut m) (hdropped : ∀ m, x ≠ .dropped m) :
    tally p x.settles + tally p q + tally p d.held =
      tally p q' + tally p d'.held + tally p x.pushes := by
  have hheld := held_step p hd hh
  have hqueue := queue_step p hm
  cases x with
  | keptOut m => exact absurd rfl (hkeptOut m)
  | dropped m => exact absurd rfl (hdropped m)
  | _ =>
    simp only [Deed.settles, Deed.pushes, Deed.drops, Deed.sendsLive, Deed.drains, Deed.queues,
      tally_nil] at hheld hqueue ⊢
    omega

/-- A message is kept out of the queue only where the queue does not take its row. -/
theorem admits_of_keptOut {s : AppState} {r : RelayOp} {x : r.Reply} {m : Relayed}
    (h : Deed.of s r x = .keptOut m) : s.admits r = false := by
  cases r with
  | queuePendingMessage m' clientMsgId payload =>
    simp only [Deed.of] at h
    split at h
    · rename_i hkeptOut
      simp only [AppState.admits, hkeptOut]
      rfl
    · cases h
  | send c item =>
    obtain ⟨text, label⟩ := item
    cases label with
    | live m' => simp only [Deed.of] at h; split at h <;> cases h
    | queued m' => simp only [Deed.of] at h; split at h <;> cases h
    | _ => cases h
  | _ => cases h

/-- A message that was drained is dropped only where its channel is closed. -/
theorem send_of_dropped {s : AppState} {r : RelayOp} {m : Relayed}
    (h : Deed.of s r (serve r s).1 = .dropped m) :
    ∃ c text, r = .send c ⟨text, .queued m⟩ ∧ s.isOpen c = false := by
  cases r with
  | queuePendingMessage m' clientMsgId payload =>
    simp only [Deed.of] at h
    split at h <;> cases h
  | send c item =>
    obtain ⟨text, label⟩ := item
    cases label with
    | live m' => simp only [Deed.of] at h; split at h <;> cases h
    | queued m' =>
      simp only [Deed.of] at h
      split at h
      · cases h
      · rename_i hsent
        cases h
        refine ⟨c, text, rfl, Bool.eq_false_iff.mpr fun hopen => hsent ?_⟩
        simp [serve, AppState.send, hopen]
    | _ => cases h
  | _ => cases h

/-- **Nothing that was passed on is lost**, in a run that spares messages. -/
theorem ReachedSparing.settles_le {s : Relay} (h : s.ReachedSparing F) (p : Relayed → Bool) :
    tally p (s.did Deed.settles) ≤ tally p s.state.queue + s.state.carries p +
      s.owned (fun d => tally p d.held) := by
  obtain ⟨start, hreach⟩ := h
  have hle : Threads.Pool.quantity (fun d : Custody => -tally p d.held)
      (fun t l => tally p (l.flatMap fun e => (deedOf e).settles) - tally p t.queue - t.carries p)
      Custody.seen .none s ≤ 0 := by
    refine reaches_invariant hreach (I := fun s => Threads.Pool.quantity
      (fun d : Custody => -tally p d.held)
      (fun t l => tally p (l.flatMap fun e => (deedOf e).settles) - tally p t.queue - t.carries p)
      Custody.seen .none s ≤ 0) ?_ ?_ ?_ ?_
    · exact le_of_eq (Threads.Pool.quantity_idle _)
    · intro s c hd hle
      exact (Threads.Pool.quantity_start hd rfl c).trans_le hle
    · intro s e hle he
      have hcarries := outside_carries p he.2
      simp only [Threads.Pool.quantity, outside_keeps, hcarries] at hle ⊢
      exact hle
    · intro s i r k hreach hle he hp hr
      refine le_trans (Threads.Pool.quantity_answered_le hp ?_) hle
      have hmoves := serve_moves r s.state
      have hcarries := serve_carries p r s.state hr
      have hheld := Custody.seen_held s.state (s.custody i) r (serve r s.state).1
      have hadmits := he.2 r (Threads.Pool.waiting_eq hp)
      have hstep := settles_step p hmoves (Custody.may_has s.state hr _) hheld ?_ ?_
      · have hdeed : deedOf (s.entry serve i r) = Deed.of s.state r (serve r s.state).1 := rfl
        simp only [did_cons, tally_append, hdeed, hcarries]
        simp only [custody] at hstep
        omega
      · intro m hm
        exact absurd hadmits (Bool.eq_false_iff.mp (admits_of_keptOut hm))
      · intro m hm
        obtain ⟨c, text, rfl, hclosed⟩ := send_of_dropped hm
        -- the connection pushes to the channel it is setting up, which is open
        obtain ⟨ch, hch, hn⟩ := settingUp_reached hreach i c hr.2.2
        exact Bool.eq_false_iff.mp hclosed (isOpen_iff.mpr ⟨ch, hch, by rw [hn]; decide⟩)
  have hneg : s.owned (fun d => -tally p d.held) = -s.owned (fun d => tally p d.held) :=
    Finset.sum_neg_distrib _
  have hsum : tally p (s.did Deed.settles) - tally p s.state.queue - s.state.carries p +
      s.owned (fun d => -tally p d.held) ≤ 0 := hle
  omega

/-- **A message is in one place at most**, in every run. -/
theorem places_le {allowed : Relay → RelayEvent → Prop} {start : Start} {s : Relay}
    (h : Transitions.Reaches (Relay.next F) allowed (init start) s) (n : ℕ) :
    tally (Relayed.isOf n) s.state.queue + s.state.carries (Relayed.isOf n) +
      s.owned (Custody.has n) ≤ 1 := by
  have hle : Threads.Pool.quantity (Custody.has n) (fun t _ => toCome n t.received +
      tally (Relayed.isOf n) t.queue + t.carries (Relayed.isOf n)) Custody.seen .none s ≤ 1 := by
    refine reaches_invariant h (I := fun s => Threads.Pool.quantity (Custody.has n) (fun t _ =>
      toCome n t.received + tally (Relayed.isOf n) t.queue + t.carries (Relayed.isOf n))
        Custody.seen .none s ≤ 1) ?_ ?_ ?_ ?_
    · exact le_of_eq ((Threads.Pool.quantity_idle _).trans (toCome_zero n))
    · intro s c hd hle
      exact (Threads.Pool.quantity_start hd rfl c).trans_le hle
    · intro s e hle _
      have hcarries := outside_carries_le (Relayed.isOf n) s.state e
      simp only [Threads.Pool.quantity, outside_keeps] at hle ⊢
      omega
    · intro s i r k _ hle _ hp hr
      refine le_trans (Threads.Pool.quantity_answered_le hp ?_) hle
      have hmoves := serve_moves r s.state
      have hhas := Custody.may_has s.state hr (serve r s.state).1
      have hhandled := handled_step (n := n) hmoves hhas
        (Custody.seen_current s.state (s.custody i) r _)
      have hheld := held_step (Relayed.isOf n) hhas
        (Custody.seen_held s.state (s.custody i) r _)
      have hqueue := queue_step (Relayed.isOf n) hmoves
      have hcarries := serve_carries (Relayed.isOf n) r s.state hr
      have hdrops := tally_nonneg (Relayed.isOf n) (Deed.of s.state r (serve r s.state).1).drops
      simp only [Custody.has, custody] at *
      omega
  have hcome := toCome_nonneg n s.state.received
  have hsum : toCome n s.state.received + tally (Relayed.isOf n) s.state.queue +
      s.state.carries (Relayed.isOf n) + s.owned (Custody.has n) ≤ 1 := hle
  omega

/-! ## What was accepted was passed on -/

/-- The message that a connection has settled, it has passed on. -/
theorem settles_of_custody {i : ℕ} {l : List RelayEntry} {m : Relayed}
    (h : (Threads.Pool.learned Custody.seen .none i l).settled = some m) :
    m ∈ l.flatMap fun e => (deedOf e).settles := by
  induction l with
  | nil => cases h
  | cons e l ih =>
    rw [did_cons, List.mem_append]
    by_cases he : e.task = i
    · rw [Threads.Pool.learned_own he] at h
      rcases Custody.seen_settled e.before _ e.request e.reply h with h | h
      · exact .inl h
      · exact .inr (ih h)
    · rw [Threads.Pool.learned_other he] at h
      exact .inr (ih h)

theorem echoed_may {d : Custody} {r : RelayOp} (hr : d.may r) {s : AppState} {x : r.Reply}
    {m : Relayed} (h : Deed.of s r x = .echoed m) : d.settled = some m := by
  cases r with
  | queuePendingMessage m' clientMsgId payload =>
    simp only [Deed.of] at h
    split at h <;> cases h
  | send c item =>
    obtain ⟨text, label⟩ := item
    cases label with
    | live m' => simp only [Deed.of] at h; split at h <;> cases h
    | queued m' => simp only [Deed.of] at h; split at h <;> cases h
    | echo m' => cases h; exact hr
    | other => cases h
  | _ => cases h

theorem Accepted.settles {allowed : Relay → RelayEvent → Prop} {start : Start} {s : Relay}
    (h : Transitions.Reaches (Relay.next F) allowed (init start) s) {m : Relayed}
    (hm : s.Accepted m) : m ∈ s.did Deed.settles := by
  refine reaches_invariant h (I := fun s => s.Accepted m → m ∈ s.did Deed.settles) ?_ ?_ ?_ ?_ hm
  · rintro ⟨e, he, -⟩
    cases he
  · intro s c _ hs
    exact hs
  · intro s e hs _
    exact hs
  · rintro s i r k - hs - - hr ⟨e, he, hecho⟩
    refine List.mem_append_right _ ?_
    rcases List.mem_cons.mp he with rfl | he
    · exact settles_of_custody (echoed_may hr hecho)
    · exact hs ⟨e, he, hecho⟩

/-! ## The result -/

theorem tally_eq_pos {m : Relayed} {ms : List Relayed} : 0 < tally (· = m) ms ↔ m ∈ ms := by
  rw [tally_pos]
  constructor
  · rintro ⟨m', hm', h⟩
    exact of_decide_eq_true h ▸ hm'
  · intro h
    exact ⟨m, h, decide_eq_true rfl⟩

theorem tally_isOf_pos {m : Relayed} {ms : List Relayed} (h : m ∈ ms) :
    1 ≤ tally (Relayed.isOf m.serial) ms := (tally_pos _).mpr ⟨m, h, decide_eq_true rfl⟩

/-- A message that is in channels is in one. -/
theorem exists_carries {s : AppState} {p : Relayed → Bool} (h : 0 < s.carries p) :
    ∃ c ∈ s.channels, 0 < c.carries p :=
  List.exists_lt_of_sum_lt (fun _ => 0) (Channel.carries p) (by simpa [AppState.carries] using h)

/-- A message that has been accepted is somewhere, in a run that spares messages. -/
theorem ReachedSparing.kept_or_inSetUp {s : Relay} (h : s.ReachedSparing F) {m : Relayed}
    (hm : s.Accepted m) : s.Kept m ∨ s.InSetUp m := by
  have hle := h.settles_le (· = m)
  obtain ⟨start, hreach⟩ := h
  have hsettled := tally_eq_pos.mpr (hm.settles hreach)
  have haddressed := addressed hreach
  by_cases hqueue : m ∈ s.state.queue
  · exact .inl (.inr (.inr hqueue))
  have hqueue : tally (· = m) s.state.queue ≤ 0 := not_lt.mp fun h => hqueue (tally_eq_pos.mp h)
  by_cases hcarries : 0 < s.state.carries (· = m)
  · obtain ⟨c, hc, hpos⟩ := exists_carries hcarries
    have hsound := haddressed.sound c hc
    by_cases hwaiting : m ∈ c.waiting
    · have huser := (hsound.waiting m hwaiting).symm
      cases hf : c.forwarding with
      | notSpawned => exact .inr (.inr ⟨c, hc, hf, hwaiting⟩)
      | running => exact .inl (.inr (.inl ⟨c, hc, huser, by rw [hf]; rfl, hwaiting⟩))
      | aborted => exact .inl (.inr (.inl ⟨c, hc, huser, by rw [hf]; rfl, hwaiting⟩))
      | ended =>
        rw [Channel.waiting, hsound.ended hf] at hwaiting
        cases hwaiting
    · have hnone : tally (· = m) c.waiting ≤ 0 := not_lt.mp fun h => hwaiting (tally_eq_pos.mp h)
      have hdelivered : m ∈ c.delivered := by
        refine tally_eq_pos.mp ?_
        rw [Channel.carries] at hpos
        omega
      exact .inl (.inl ⟨c, hc, (hsound.delivered m hdelivered).symm, hdelivered⟩)
  · have hown : 0 < s.owned (fun d => tally (· = m) d.held) := by omega
    obtain ⟨i, hi⟩ := exists_own hown
    exact .inr (.inl ⟨i, tally_eq_pos.mp hi⟩)

/-- A message in one of the three places is not with a connection that is being set up. -/
theorem not_inSetUp_of_kept {allowed : Relay → RelayEvent → Prop} {start : Start} {s : Relay}
    (h : Transitions.Reaches (Relay.next F) allowed (init start) s) {m : Relayed} (hk : s.Kept m) :
    ¬ s.InSetUp m := by
  have hle := places_le h m.serial
  have hqueue := tally_nonneg (Relayed.isOf m.serial) s.state.queue
  have hown := owned_nonneg (Custody.has_nonneg m.serial) s
  have hcarries : ∀ c : Channel, m ∈ c.waiting ∨ m ∈ c.delivered →
      1 ≤ c.carries (Relayed.isOf m.serial) := by
    intro c hc
    have hw := tally_nonneg (Relayed.isOf m.serial) c.waiting
    have hd := tally_nonneg (Relayed.isOf m.serial) c.delivered
    rw [Channel.carries]
    rcases hc with hc | hc
    · have := tally_isOf_pos hc
      omega
    · have := tally_isOf_pos hc
      omega
  have hall := s.state.carries_nonneg (Relayed.isOf m.serial)
  -- a channel it is kept in has a forwarding task that was spawned
  have hplace : m ∈ s.state.queue ∨ ∃ c ∈ s.state.channels, c.forwarding ≠ .notSpawned ∧
      (m ∈ c.waiting ∨ m ∈ c.delivered) := by
    rcases hk with ⟨c, hc, -, hm⟩ | ⟨c, hc, -, hrun, hm⟩ | hm
    · refine .inr ⟨c, hc, ?_, .inr hm⟩
      intro hn
      rw [Channel.delivered, ((addressed h).sound c hc).unwritten hn] at hm
      cases hm
    · refine .inr ⟨c, hc, ?_, .inl hm⟩
      intro hn
      rw [hn] at hrun
      cases hrun
    · exact .inl hm
  rintro (⟨i, hi⟩ | ⟨c, hc, hn, hm⟩)
  · -- the connection has it, and so has the place
    have hheld : 1 ≤ (s.custody i).has m.serial := by
      have := tally_isOf_pos hi
      have := Custody.hasFrame_nonneg m.serial (s.custody i)
      rw [Custody.has]
      omega
    have hlt : i < s.tasks.length := started_of_custody (disciplined h) fun hnone => by
      rw [hnone] at hi
      cases hi
    have hshare := own_le_owned (Custody.has_nonneg m.serial) hlt
    rcases hplace with hq | ⟨c, hc, -, hm⟩
    · have := tally_isOf_pos hq
      omega
    · have := hcarries c hm
      have := AppState.carries_le (Relayed.isOf m.serial) hc
      omega
  · have hone := hcarries c (.inl hm)
    have hshare := AppState.carries_le (Relayed.isOf m.serial) hc
    rcases hplace with hq | ⟨c', hc', hn', hm'⟩
    · have := tally_isOf_pos hq
      omega
    · have htwo := add_le_sum (Channel.carries (Relayed.isOf m.serial))
        (Channel.carries_nonneg _) hc hc' fun heq => hn' (heq ▸ hn)
      have := hcarries c' hm'
      simp only [AppState.carries] at hle
      omega

/-- **In a run that spares messages** an accepted message is in one of the three places,
in every state reached, unless a connection that is being set up has it. -/
theorem kept_iff {s : Relay} (h : s.ReachedSparing F) {m : Relayed} (hm : s.Accepted m) :
    s.Kept m ↔ ¬ s.InSetUp m := by
  constructor
  · intro hk
    obtain ⟨start, hreach⟩ := h
    exact not_inSetUp_of_kept hreach hk
  · intro hn
    exact (h.kept_or_inSetUp hm).resolve_right hn

/-! ## A message that is kept, and one that is lost -/

namespace Sample

instance (s : Relay) (m : Relayed) : Decidable (s.Accepted m) :=
  inferInstanceAs (Decidable (∃ e ∈ s.trace, deedOf e = .echoed m))

instance (s : Relay) (m : Relayed) : Decidable (s.Kept m) :=
  inferInstanceAs (Decidable ((∃ c ∈ s.state.channels, c.user = m.recipientId ∧ m ∈ c.delivered) ∨
    (∃ c ∈ s.state.channels, c.user = m.recipientId ∧ c.forwarding.isRunning = true ∧
      m ∈ c.waiting) ∨ m ∈ s.state.queue))

instance (s : Relay) : ∀ e, Decidable (s.Spares e)
  | .step i => inferInstanceAs (Decidable (∀ r ∈ s.waiting i, s.state.admits r = true))
  | .fail c => inferInstanceAs (Decidable
      (∀ ch ∈ s.state.channels[c]?, ch.forwarding.isRunning = true → ch.waiting = []))
  | .drop c => inferInstanceAs (Decidable
      (∀ ch ∈ s.state.channels[c]?, ch.forwarding = .aborted → ch.waiting = []))
  | .connect _ => isTrue trivial
  | .forward _ => isTrue trivial
  | .account _ => isTrue trivial
  | .supporter _ _ => isTrue trivial
  | .clock _ => isTrue trivial

/-- Ada and Bob are connected, and Ada sends Bob a message.  Her handler ends. -/
def sentLive : List RelayEvent :=
  accounts ++ connected 0 15 "ada's token" [messageFrame "m1" "hi"] ++
    connected 1 15 "bob's token" [] ++ List.replicate 7 (.step 0)

/-- The message has been forwarded to Bob, after the roster. -/
theorem kept_iff_forwarded :
    let s := after (sentLive ++ [.forward 1, .forward 1])
    s.Accepted ⟨0, 0, 1⟩ ∧ (s.Kept ⟨0, 0, 1⟩ ↔ ¬ s.InSetUp ⟨0, 0, 1⟩) := by
  have hreach : (after (sentLive ++ [.forward 1, .forward 1])).ReachedSparing formats :=
    ⟨start, Transitions.Admits.reaches (by decide)⟩
  have haccepted : (after (sentLive ++ [.forward 1, .forward 1])).Accepted ⟨0, 0, 1⟩ := by
    decide
  exact ⟨haccepted, kept_iff hreach haccepted⟩

/-- Bob's socket fails before the message has been written to it.  It is in no place then. -/
theorem failed_socket_loses_message :
    ¬ ∀ s : Relay, s.Reached formats → ∀ m, s.Accepted m → s.Kept m := by
  intro h
  have hreach : (after (sentLive ++ [.fail 1])).Reached formats := after_reached (by decide)
  have hkept := h _ hreach ⟨0, 0, 1⟩ (by decide +kernel)
  exact absurd hkept (by decide +kernel)

end Sample

end Relay
end Winkd.Server
