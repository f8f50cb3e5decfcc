import Winkd.Custody

/-!
# A message is relayed at most once

Of every frame that was received, what is still to come, what the connections have, what
is in the queue and what was pushed add up to one at most (`Reached.book_le`, for three
such sums).  So over a whole run no message is pushed twice, none is both sent live and
queued, and none is drained twice.
-/

namespace Winkd.Server

/-! ## Counting -/

/-- How many of some messages satisfy `p`. -/
def tally (p : Relayed → Bool) (ms : List Relayed) : ℤ := (ms.countP p : ℕ)

/-- The message is that of frame `n`. -/
def Relayed.isOf (n : ℕ) (m : Relayed) : Bool := m.serial = n

section Tally
variable (p : Relayed → Bool)

theorem tally_nonneg (ms : List Relayed) : 0 ≤ tally p ms := Int.natCast_nonneg _

@[simp] theorem tally_nil : tally p [] = 0 := rfl

@[simp] theorem tally_cons (m : Relayed) (ms : List Relayed) :
    tally p (m :: ms) = tally p ms + if p m then 1 else 0 := by
  by_cases hm : p m <;> simp [tally, hm]

@[simp] theorem tally_append (ms ms' : List Relayed) :
    tally p (ms ++ ms') = tally p ms + tally p ms' := by
  simp [tally]

theorem tally_perm {ms ms' : List Relayed} (h : ms.Perm ms') : tally p ms = tally p ms' :=
  congrArg Nat.cast (h.countP_eq _)

theorem tally_erase {m : Relayed} {ms : List Relayed} (hm : m ∈ ms) :
    tally p ms = tally p (ms.erase m) + if p m then 1 else 0 := by
  rw [tally_perm p (List.perm_cons_erase hm), tally_cons]

theorem tally_pos {ms : List Relayed} : 0 < tally p ms ↔ ∃ m ∈ ms, p m = true := by
  simp [tally, List.countP_pos_iff]

end Tally

/-- Messages of which no two are of one frame. -/
theorem nodup_of_tally {ms : List Relayed} (h : ∀ n, tally (Relayed.isOf n) ms ≤ 1) :
    (ms.map Relayed.serial).Nodup := by
  refine List.nodup_iff_count_le_one.mpr ?_
  intro n
  have hcount : (ms.map Relayed.serial).count n = ms.countP (Relayed.isOf n) := by
    rw [List.count, List.countP_map]
    rfl
  rw [hcount]
  exact Int.ofNat_le.mp (h n)

/-- One while frame `n` has not been received. -/
def toCome (n received : ℕ) : ℤ := if received ≤ n then 1 else 0

namespace Custody

/-- One for frame `n`. -/
def isFrame (n : ℕ) : Option ℕ → ℤ
  | some k => if k = n then 1 else 0
  | .none => 0

/-- One while a connection has the message of frame `n` that it received. -/
def hasFrame (n : ℕ) (d : Custody) : ℤ := isFrame n d.current

/-- How often a connection has the message of frame `n`. -/
def has (n : ℕ) (d : Custody) : ℤ := d.hasFrame n + tally (Relayed.isOf n) d.held

@[simp] theorem isFrame_some (n k : ℕ) : isFrame n (some k) = if k = n then 1 else 0 := rfl

@[simp] theorem isFrame_none (n : ℕ) : isFrame n .none = 0 := rfl

theorem isFrame_nonneg (n : ℕ) (c : Option ℕ) : 0 ≤ isFrame n c := by
  cases c with
  | none => exact le_refl 0
  | some k =>
    rw [isFrame]
    split <;> decide

theorem hasFrame_nonneg (n : ℕ) (d : Custody) : 0 ≤ d.hasFrame n := isFrame_nonneg n d.current

theorem has_nonneg (n : ℕ) (d : Custody) : 0 ≤ d.has n :=
  Int.add_nonneg (d.hasFrame_nonneg n) (tally_nonneg _ _)

end Custody

/-! ## What was done in a run -/

namespace Relay
variable {F : Formats}

/-- All that was done of one kind, latest first. -/
def did (f : Deed → List Relayed) (s : Relay) : List Relayed := s.trace.flatMap fun e => f (deedOf e)

/-- What an event from outside leaves alone. -/
theorem outside_keeps (s : AppState) (e : RelayEvent) :
    (s.outside e).received = s.received ∧ (s.outside e).queue = s.queue := by
  cases e <;> exact ⟨rfl, rfl⟩

/-- **Keeping the book.**  A sum over the frames received, the queue, the steps taken and
what each connection has is never larger than at the start, if no deed increases it. -/
theorem Reached.book_le {s : Relay} (hs : s.Reached F) (own : Custody → ℤ)
    (shared : ℕ → List Relayed → List RelayEntry → ℤ) (hown : own .none = 0)
    (hstep : ∀ (e : RelayEntry) (d d' : Custody) n n' q q' l, (deedOf e).Moves n n' q q' →
      d.Has (deedOf e) → d'.current = (deedOf e).current d.current →
      d'.held = (deedOf e).held d.held →
      shared n' q' (e :: l) + own d' ≤ shared n q l + own d) :
    shared s.state.received s.state.queue s.trace + s.owned own ≤ shared 0 [] [] := by
  obtain ⟨start, hreach⟩ := hs
  refine (reaches_invariant hreach (I := fun s => Threads.Pool.quantity own
    (fun t l => shared t.received t.queue l) Custody.seen .none s ≤ shared 0 [] []) ?_ ?_ ?_ ?_)
  · exact le_of_eq (Threads.Pool.quantity_idle _)
  · intro s p hd hle
    exact (Threads.Pool.quantity_start hd hown p).trans_le hle
  · intro s e hle _
    simp only [Threads.Pool.quantity, outside_keeps]
    exact hle
  · intro s i r k _ hle _ hp hr
    refine le_trans (Threads.Pool.quantity_answered_le hp ?_) hle
    exact hstep _ _ _ _ _ _ _ _ (serve_moves r s.state) (Custody.may_has s.state hr _)
      (Custody.seen_current s.state _ r _) (Custody.seen_held s.state _ r _)

/-! ## Three books -/

variable {n : ℕ}

theorem did_cons (f : Deed → List Relayed) (e : RelayEntry) (l : List RelayEntry) :
    (e :: l).flatMap (fun e => f (deedOf e)) = f (deedOf e) ++ l.flatMap fun e => f (deedOf e) :=
  List.flatMap_cons

/-- What is passed on, or kept out of the queue, a connection has had. -/
theorem settled_step {x : Deed} {d d' : Custody} {r r' : ℕ} {q q' : List Relayed}
    (hm : x.Moves r r' q q') (hd : d.Has x) (hc : d'.current = x.current d.current) :
    toCome n r' + tally (Relayed.isOf n) x.settles + d'.hasFrame n ≤ toCome n r + d.hasFrame n := by
  rw [Custody.hasFrame, Custody.hasFrame, hc]
  have hone : ∀ m : Relayed, d.current = some m.serial →
      tally (Relayed.isOf n) [m] + Custody.isFrame n none ≤ Custody.isFrame n d.current := by
    intro m hm
    simp [hm, Relayed.isOf]
  cases x with
  | received serial =>
    obtain ⟨rfl, rfl, -⟩ := hm
    have hnonneg := Custody.isFrame_nonneg n d.current
    simp only [Deed.settles, Deed.current, tally_nil, toCome, Custody.isFrame_some]
    split_ifs <;> omega
  | live m =>
    obtain ⟨rfl, -⟩ := hm
    have := hone m hd
    simp only [Deed.settles, Deed.current]
    omega
  | queued m =>
    obtain ⟨rfl, -⟩ := hm
    have := hone m hd
    simp only [Deed.settles, Deed.current]
    omega
  | keptOut m =>
    obtain ⟨rfl, -⟩ := hm
    have := hone m hd
    simp only [Deed.settles, Deed.current]
    omega
  | _ =>
    obtain ⟨rfl, -⟩ := hm
    simp only [Deed.settles, Deed.current, tally_nil]
    omega

/-- Of what is passed on, part is sent live and part is queued. -/
theorem tally_settles (p : Relayed → Bool) (x : Deed) :
    tally p x.sendsLive + tally p x.queues ≤ tally p x.settles := by
  cases x with
  | keptOut m => exact tally_nonneg p [m]
  | _ => simp [Deed.sendsLive, Deed.queues, Deed.settles]

/-- What is sent live or added to the queue, a connection has had. -/
theorem handled_step {x : Deed} {d d' : Custody} {r r' : ℕ} {q q' : List Relayed}
    (hm : x.Moves r r' q q') (hd : d.Has x) (hc : d'.current = x.current d.current) :
    toCome n r' + tally (Relayed.isOf n) x.sendsLive + tally (Relayed.isOf n) x.queues +
      d'.hasFrame n ≤ toCome n r + d.hasFrame n := by
  have hsettled := settled_step (n := n) hm hd hc
  have hparts := tally_settles (Relayed.isOf n) x
  omega

/-- What is in the queue was added to it, and is there until it is drained. -/
theorem queue_step (p : Relayed → Bool) {x : Deed} {r r' : ℕ} {q q' : List Relayed}
    (hm : x.Moves r r' q q') :
    tally p q' + tally p x.drains = tally p q + tally p x.queues := by
  cases x with
  | received serial => obtain ⟨-, -, rfl⟩ := hm; rfl
  | queued m => obtain ⟨-, rfl⟩ := hm; simp [Deed.drains, Deed.queues]
  | drained ms =>
    have hperm := tally_perm p hm.2
    simp only [Deed.drains, Deed.queues, tally_append, tally_nil] at hperm ⊢
    omega
  | _ => obtain ⟨-, rfl⟩ := hm; rfl

/-- What a connection pushes from the queue, or drops, it has drained. -/
theorem held_step (p : Relayed → Bool) {x : Deed} {d d' : Custody} (hd : d.Has x)
    (hh : d'.held = x.held d.held) :
    tally p x.pushes + tally p x.drops + tally p d'.held =
      tally p x.sendsLive + tally p x.drains + tally p d.held := by
  rw [hh]
  cases x with
  | drained ms =>
    simp only [Deed.pushes, Deed.drops, Deed.sendsLive, Deed.drains, Deed.held, tally_nil,
      tally_append]
    omega
  -- one that is pushed or dropped leaves what the connection holds
  | replayed m =>
    have herase := tally_erase p (show m ∈ d.held from hd)
    simp only [Deed.pushes, Deed.drops, Deed.sendsLive, Deed.drains, Deed.held, tally_nil,
      tally_cons]
    omega
  | dropped m =>
    have herase := tally_erase p (show m ∈ d.held from hd)
    simp only [Deed.pushes, Deed.drops, Deed.sendsLive, Deed.drains, Deed.held, tally_nil,
      tally_cons]
    omega
  | _ => simp [Deed.pushes, Deed.drops, Deed.sendsLive, Deed.drains, Deed.held]

/-- The frames behind what was done of one kind, each only once. -/
def Once (f : Deed → List Relayed) (s : Relay) : Prop := ((s.did f).map Relayed.serial).Nodup

theorem toCome_nonneg (n r : ℕ) : 0 ≤ toCome n r := by
  unfold toCome
  split <;> decide

theorem toCome_zero (n : ℕ) : toCome n 0 = 1 := if_pos (Nat.zero_le n)

/-- What was passed on, or kept out of the queue. -/
theorem Reached.settled_le {s : Relay} (hs : s.Reached F) (n : ℕ) :
    tally (Relayed.isOf n) (s.did Deed.settles) ≤ 1 := by
  have hbook := hs.book_le (Custody.hasFrame n) (fun r _ l => toCome n r +
    tally (Relayed.isOf n) (l.flatMap fun e => (deedOf e).settles)) rfl ?_
  · have hown := owned_nonneg (Custody.hasFrame_nonneg n) s
    have hcome := toCome_nonneg n s.state.received
    simp only [List.flatMap_nil, tally_nil, toCome_zero] at hbook
    simp only [did]
    omega
  · intro e d d' r r' q q' l hm hd hc _
    have hstep := settled_step (n := n) hm hd hc
    simp only [did_cons, tally_append]
    omega

/-- Of what was passed on, part was sent live and part was queued. -/
theorem did_settles (p : Relayed → Bool) (s : Relay) :
    tally p (s.did Deed.sendsLive) + tally p (s.did Deed.queues) ≤
      tally p (s.did Deed.settles) := by
  simp only [did]
  induction s.trace with
  | nil => exact Int.le_refl 0
  | cons e l ih =>
    have hparts := tally_settles p (deedOf e)
    simp only [did_cons, tally_append]
    omega

/-- What is in the queue and what was drained from it. -/
theorem Reached.drained_le {s : Relay} (hs : s.Reached F) (n : ℕ) :
    tally (Relayed.isOf n) (s.did Deed.drains) ≤ 1 := by
  have hbook := hs.book_le (Custody.hasFrame n) (fun r q l => toCome n r +
    tally (Relayed.isOf n) q + tally (Relayed.isOf n) (l.flatMap fun e => (deedOf e).drains)) rfl ?_
  · have hown := owned_nonneg (Custody.hasFrame_nonneg n) s
    have hcome := toCome_nonneg n s.state.received
    have hqueue := tally_nonneg (Relayed.isOf n) s.state.queue
    simp only [List.flatMap_nil, tally_nil, toCome_zero] at hbook
    simp only [did]
    omega
  · intro e d d' r r' q q' l hm hd hc _
    have hstep := handled_step (n := n) hm hd hc
    have hqueue := queue_step (Relayed.isOf n) hm
    have hlive := tally_nonneg (Relayed.isOf n) (deedOf e).sendsLive
    simp only [did_cons, tally_append]
    omega

/-- What is in the queue, what was drained and not pushed, and what was pushed. -/
theorem Reached.pushed_le {s : Relay} (hs : s.Reached F) (n : ℕ) :
    tally (Relayed.isOf n) (s.did Deed.pushes) ≤ 1 := by
  have hbook := hs.book_le (Custody.has n) (fun r q l => toCome n r +
    tally (Relayed.isOf n) q + tally (Relayed.isOf n) (l.flatMap fun e => (deedOf e).pushes)) rfl ?_
  · have hown := owned_nonneg (Custody.has_nonneg n) s
    have hcome := toCome_nonneg n s.state.received
    have hqueue := tally_nonneg (Relayed.isOf n) s.state.queue
    simp only [List.flatMap_nil, tally_nil, toCome_zero] at hbook
    simp only [did]
    omega
  · intro e d d' r r' q q' l hm hd hc hh
    have hstep := handled_step (n := n) hm hd hc
    have hqueue := queue_step (Relayed.isOf n) hm
    have hheld := held_step (Relayed.isOf n) hd hh
    have hdrops := tally_nonneg (Relayed.isOf n) (deedOf e).drops
    simp only [did_cons, tally_append, Custody.has]
    omega

/-! ## The result -/

/-- No message is pushed twice, none is both sent live and queued, and none is drained
twice. -/
structure AtMostOnce (s : Relay) : Prop where
  pushed : s.Once Deed.pushes
  apart : ∀ m ∈ s.did Deed.sendsLive, ∀ m' ∈ s.did Deed.queues, m.serial ≠ m'.serial
  drained : s.Once Deed.drains

/-- **At most once.**  In every state reached, whatever the interleaving. -/
theorem at_most_once {s : Relay} (hs : s.Reached F) : s.AtMostOnce where
  pushed := nodup_of_tally hs.pushed_le
  drained := nodup_of_tally hs.drained_le
  apart m hm m' hm' heq := by
    have hlive : 0 < tally (Relayed.isOf m.serial) (s.did Deed.sendsLive) :=
      (tally_pos _).mpr ⟨m, hm, decide_eq_true rfl⟩
    have hqueued : 0 < tally (Relayed.isOf m.serial) (s.did Deed.queues) :=
      (tally_pos _).mpr ⟨m', hm', decide_eq_true heq.symm⟩
    have hparts := did_settles (Relayed.isOf m.serial) s
    have hle := hs.settled_le m.serial
    omega

namespace Sample

theorem at_most_once_queuedThenLive : (after queuedThenLive).AtMostOnce ∧
    (after queuedThenLive).did Deed.pushes = [⟨1, 0, 1⟩, ⟨0, 0, 1⟩] :=
  ⟨at_most_once (after_reached (by decide +kernel)), by decide +kernel⟩

end Sample

end Relay
end Winkd.Server
