import Winkd.Deliveries

/-!
# Which events are dropped as replays

A delivery is answered as replayed where its row is not inserted.  The row is kept out by
one with the same external id, and the id is made of the identifiers that the event
carries, the same for all types of events: the events of one subscription share it.  An
insert that fails counts as a replay too.
-/

namespace Winkd.Server

namespace Billing

/-- The event is in the table: its type and its body. -/
def HasEvent (b : Billing) (payload : Json) : Prop :=
  ∃ row ∈ b.bmacEvents, row.eventType = eventTypeOf payload ∧ row.rawPayload = payload

/-- Under the identifier of the event there is no other event, and its row is not refused
unless there is one. -/
structure KeepsApart (C : BmacCrates) (b : Billing) (payload : Json) (userId : Option Id) : Prop where
  same : ∀ row ∈ b.bmacEvents, row.externalId = externalIdOf C payload →
    row.eventType = eventTypeOf payload ∧ row.rawPayload = payload
  refused : (b.error (.recordBmacEvent (bmacRow C payload userId))).isSome = true →
    b.isRecorded (externalIdOf C payload) = true

/-- The rows are those of events, and no two have one external id. -/
structure Ledger (C : BmacCrates) (b : Billing) : Prop where
  rows : ∀ row ∈ b.bmacEvents, row = bmacRow C row.rawPayload row.userId
  distinct : (b.bmacEvents.map BmacEvent.externalId).Nodup

variable {C : BmacCrates} {b : Billing}

theorem isRecorded_iff {externalId : Text} :
    b.isRecorded externalId = true ↔ ∃ row ∈ b.bmacEvents, row.externalId = externalId := by
  simp [isRecorded]

theorem Ledger.externalId (hb : b.Ledger C) {row : BmacEvent} (h : row ∈ b.bmacEvents) :
    row.externalId = externalIdOf C row.rawPayload := congrArg BmacEvent.externalId (hb.rows row h)

theorem Ledger.congr (hb : b.Ledger C) {b' : Billing} (h : b'.bmacEvents = b.bmacEvents) :
    b'.Ledger C := ⟨h ▸ hb.rows, h ▸ hb.distinct⟩

theorem Ledger.insert (hb : b.Ledger C) {row : BmacEvent} (hrow : row = bmacRow C row.rawPayload row.userId)
    (hins : b.Inserts row) {b' : Billing} (h : b'.bmacEvents = b.bmacEvents ++ [row]) :
    b'.Ledger C := by
  constructor
  · intro row' h'
    rw [h] at h'
    rcases List.mem_append.mp h' with h' | h'
    · exact hb.rows row' h'
    · rw [List.mem_singleton.mp h']
      exact hrow
  · rw [h, List.map_append]
    refine List.nodup_append.mpr ⟨hb.distinct, List.nodup_singleton _, ?_⟩
    intro id hid id' hid'
    obtain ⟨row', hrow', rfl⟩ := List.mem_map.mp hid
    rw [List.mem_singleton.mp hid']
    intro heq
    have hrec := isRecorded_iff.mpr ⟨row', hrow', heq⟩
    rw [hins.2] at hrec
    cases hrec

/-- An event that is in the table is there under its identifier. -/
theorem Ledger.isRecorded_of_hasEvent (hb : b.Ledger C) {payload : Json} (h : b.HasEvent payload) :
    b.isRecorded (externalIdOf C payload) = true := by
  obtain ⟨row, hrow, -, rfl⟩ := h
  exact isRecorded_iff.mpr ⟨row, hrow, hb.externalId hrow⟩

/-- **Only events that are in the table are kept out of it** exactly if the event is kept
apart from others. -/
theorem Ledger.keepsApart_iff (hb : b.Ledger C) (payload : Json) (userId : Option Id) :
    (¬ b.Inserts (bmacRow C payload userId) → b.HasEvent payload) ↔ b.KeepsApart C payload userId := by
  constructor
  · intro h
    constructor
    · intro row hrow hid
      have hrec : b.isRecorded (externalIdOf C payload) = true := isRecorded_iff.mpr ⟨row, hrow, hid⟩
      obtain ⟨row', hrow', htype, hraw⟩ := h fun hins => by
        rw [show b.isRecorded (externalIdOf C payload) = false from hins.2] at hrec
        cases hrec
      -- the ids in the table are distinct
      have hid' : row'.externalId = row.externalId := by
        rw [hb.externalId hrow', hraw, hid]
      rw [← List.inj_on_of_nodup_map hb.distinct hrow' hrow hid']
      exact ⟨htype, hraw⟩
    · intro herror
      refine hb.isRecorded_of_hasEvent (h fun hins => ?_)
      rw [hins.1] at herror
      cases herror
  · intro h hnot
    have hrec : b.isRecorded (externalIdOf C payload) = true := by
      cases herror : b.error (.recordBmacEvent (bmacRow C payload userId)) with
      | some e => exact h.refused (by rw [herror]; rfl)
      | none =>
        by_contra hrec
        exact hnot ⟨herror, Bool.eq_false_iff.mpr hrec⟩
    obtain ⟨row, hrow, hid⟩ := isRecorded_iff.mp hrec
    exact ⟨row, hrow, h.same row hrow hid⟩

end Billing

namespace Deliveries
variable {C : BmacCrates} {config : BmacConfig} {b : Billing} {s : Deliveries}

/-- In every state of a run the rows are those of events. -/
theorem ledger (hb : b.bmacEvents = []) (h : ReachedFrom C config b s) :
    s.state.Ledger C ∧ ∀ e ∈ s.trace, e.before.Ledger C := by
  refine run_invariant h (I := fun s => s.state.Ledger C ∧ ∀ e ∈ s.trace, e.before.Ledger C) ?_ ?_ ?_ ?_
  · refine ⟨⟨?_, ?_⟩, fun _ h => nomatch h⟩
    · intro row hrow
      rw [show (Threads.Pool.idle b : Deliveries).state.bmacEvents = [] from hb] at hrow
      cases hrow
    · rw [show (Threads.Pool.idle b : Deliveries).state.bmacEvents = [] from hb]
      exact List.nodup_nil
  · exact fun _ _ h => h
  · exact fun s db failing hs _ => ⟨hs.1.congr rfl, hs.2⟩
  · intro s i r k hs _ hr
    refine ⟨?_, fun e he => ?_⟩
    · rcases serve_bmacEvents r s.state with ⟨heq, -⟩ | ⟨row, rfl, hins, heq⟩
      · exact hs.1.congr heq
      · refine hs.1.insert ?_ hins heq
        have hrow := hr.2.1
        rw [show row.userId = (s.handled i).user by rw [hrow]; rfl]
        exact hrow
    · rcases List.mem_cons.mp he with rfl | he
      · exact hs.1
      · exact hs.2 e he

/-- A delivery that has been answered is answered as replayed exactly if its row was not
inserted. -/
theorem answered_replayed (h : ReachedFrom C config b s) {i : ℕ} {req : BmacRequest}
    {response : BmacResponse} {payload : Json} (hresponse : s.response i = some (req, response))
    (hg : Genuine C config req payload) :
    ∃ e ∈ s.trace, e.task = i ∧
      e.request = .recordBmacEvent (bmacRow C payload (s.handled i).user) ∧
        (response = replayed ↔ ¬ e.before.Inserts (bmacRow C payload (s.handled i).user)) := by
  obtain ⟨first, hrow, hanswer⟩ := (settled h hresponse hg).row
  obtain ⟨e, he, htask, hreq⟩ := (consistent h).recorded i _ first hrow
  have htold := (consistent h).told e he _ hreq
  rw [htask, hrow, Option.some_inj, Prod.mk.injEq] at htold
  refine ⟨e, he, htask, hreq, ?_⟩
  rw [hanswer, htold.2]
  by_cases hins : e.before.Inserts (bmacRow C payload (s.handled i).user)
  · rw [decide_eq_true hins, if_pos rfl]
    exact ⟨fun h => absurd h (by decide), fun h => absurd hins h⟩
  · rw [decide_eq_false hins, if_neg Bool.false_ne_true]
    exact ⟨fun _ => hins, fun _ => rfl⟩

/-! ## The result -/

/-- **A delivery is dropped as a replay only where the event is recorded**, exactly if at its
insert no other event is recorded under its identifier, and its row is not refused unless one
is. -/
theorem dropped_only_replays_iff (hb : b.bmacEvents = []) (h : ReachedFrom C config b s) {i : ℕ}
    {req : BmacRequest} {response : BmacResponse} {payload : Json}
    (hresponse : s.response i = some (req, response)) (hg : Genuine C config req payload) :
    ∃ e ∈ s.trace, e.task = i ∧ ∃ userId, e.request = .recordBmacEvent (bmacRow C payload userId) ∧
      ((response = replayed → e.before.HasEvent payload) ↔ e.before.KeepsApart C payload userId) := by
  obtain ⟨e, he, htask, hreq, hreplayed⟩ := answered_replayed h hresponse hg
  refine ⟨e, he, htask, _, hreq, ?_⟩
  rw [hreplayed]
  exact ((ledger hb h).2 e he).keepsApart_iff payload _

end Deliveries

namespace Deliveries.Sample

/-- A membership starts, and the event is delivered twice before it is answered. -/
def startedTwice : List DeliveryEvent :=
  .deliver started.request :: .deliver started.request :: List.replicate 4 (.statement 0) ++
    List.replicate 2 (.statement 1)

/-- A membership starts, and is cancelled. -/
def startedAndCancelled : List DeliveryEvent := handledAs 0 4 started ++ handledAs 1 2 cancelled

theorem genuine_started : Genuine crates config started.request started.payload :=
  Posted.genuine (n := 0) rfl (by decide +kernel) (by decide +kernel) (by decide +kernel)

theorem genuine_cancelled : Genuine crates config cancelled.request cancelled.payload :=
  Posted.genuine (n := 1) rfl (by decide +kernel) (by decide +kernel) (by decide +kernel)

theorem dropped_only_replays_iff_startedTwice :
    ∃ e ∈ (after startedTwice).trace, e.task = 1 ∧ ∃ userId,
      e.request = .recordBmacEvent (bmacRow crates started.payload userId) ∧
        ((replayed = replayed → e.before.HasEvent started.payload) ↔
          e.before.KeepsApart crates started.payload userId) := by
  have hreach : ReachedFrom crates config account (after startedTwice) := after_reached (by decide +kernel)
  have hresponse : (after startedTwice).response 1 = some (started.request, replayed) := by
    decide +kernel
  exact dropped_only_replays_iff rfl hreach hresponse genuine_started

/-- The cancellation is dropped: its row has the external id of the start. -/
theorem cancellation_dropped :
    ¬ ∀ s : Deliveries, ReachedFrom crates config account s → ∀ i req payload,
      s.response i = some (req, replayed) → Genuine crates config req payload →
        ∃ e ∈ s.trace, e.task = i ∧ e.before.HasEvent payload := by
  intro h
  have hreach : ReachedFrom crates config account (after startedAndCancelled) :=
    after_reached (by decide +kernel)
  have hresponse : (after startedAndCancelled).response 1 = some (cancelled.request, replayed) := by
    decide +kernel
  obtain ⟨e, he, -, row, hrow, htype, -⟩ := h _ hreach 1 _ _ hresponse genuine_cancelled
  -- no row is of a cancellation
  have hnone : ∀ e ∈ (after startedAndCancelled).trace, ∀ row ∈ e.before.bmacEvents,
      row.eventType ≠ "membership.cancelled".toList := by
    decide +kernel
  exact hnone e he row hrow htype

end Deliveries.Sample
end Winkd.Server
