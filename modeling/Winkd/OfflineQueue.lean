import Winkd.Names
import Mathlib.Data.List.Induction

/-!
# Queueing a message twice

The queue keeps out a row whose recipient and client message id it has already, and the
database refuses a row that it cannot store.  So what is in the queue for a user, since it
was last drained, is one row for each id, of whoever first used it for a row that can be
stored, and one for each such row without an id (`rows_addRow`).  A retry adds nothing; but
neither does a message of another sender that has the same id.
-/

namespace Winkd.Server

/-- The state after some statements. -/
def AppState.serveAll (s : AppState) (rs : List RelayOp) : AppState :=
  rs.foldl (fun t r => (serve r t).2) s

/-- The sender and the id of each row that is queued for a user. -/
def AppState.rowsFor (s : AppState) (u : Id) : List (Id × Option Text) :=
  (s.pendingMessages.filter fun r => r.recipientId = u).map fun r => (r.senderId, r.clientMsgId)

/-- The sender and the id of a call that queues a message for a user. -/
def RelayOp.callFor (u : Id) : RelayOp → Option (Id × Option Text)
  | .queuePendingMessage m clientMsgId _ =>
      if m.recipientId = u then some (m.senderId, clientMsgId) else none
  | _ => none

/-- The calls among some statements that queue messages for a user. -/
def callsFor (u : Id) (rs : List RelayOp) : List (Id × Option Text) :=
  rs.filterMap (RelayOp.callFor u)

/-- The same, of a call whose row can be stored. -/
def AppState.stores (s : AppState) (u : Id) : RelayOp → Option (Id × Option Text)
  | .queuePendingMessage m clientMsgId payload =>
      if m.recipientId = u ∧ s.queueRefuses m clientMsgId payload = false then
        some (m.senderId, clientMsgId)
      else none
  | _ => none

/-- The calls among some statements whose rows can be stored. -/
def AppState.storedCalls (s : AppState) (u : Id) (rs : List RelayOp) : List (Id × Option Text) :=
  rs.filterMap (s.stores u)

/-- One row for each sender and id, and one for each call without an id. -/
structure Idempotent (calls rows : List (Id × Option Text)) : Prop where
  identified : ∀ sender id,
    rows.count (sender, some id) = if (sender, some id) ∈ calls then 1 else 0
  anonymous : ∀ sender, rows.count (sender, none) = calls.count (sender, none)

/-- No two senders use one id. -/
def SendersApart (calls : List (Id × Option Text)) : Prop :=
  ∀ sender sender' id, (sender, some id) ∈ calls → (sender', some id) ∈ calls → sender = sender'

/-- Every row without an id can be stored, and of those that a sender has queued with one id, one
can. -/
structure Storable (calls stored : List (Id × Option Text)) : Prop where
  identified : ∀ sender id, (sender, some id) ∈ calls → (sender, some id) ∈ stored
  anonymous : ∀ sender, stored.count (sender, none) = calls.count (sender, none)

/-! ## The rows -/

/-- The rows after a call. -/
def addRow (rows : List (Id × Option Text)) (call : Id × Option Text) : List (Id × Option Text) :=
  if call.2.isSome ∧ ∃ row ∈ rows, row.2 = call.2 then rows else rows ++ [call]

theorem queueConflict_iff (s : AppState) (u : Id) (clientMsgId : Option Text) :
    s.queueConflict u clientMsgId = true ↔
      clientMsgId.isSome ∧ ∃ row ∈ s.rowsFor u, row.2 = clientMsgId := by
  simp only [AppState.queueConflict, AppState.rowsFor, Bool.and_eq_true, List.any_eq_true,
    List.mem_map, List.mem_filter, decide_eq_true_eq]
  refine and_congr_right fun _ => ?_
  constructor
  · rintro ⟨r, hr, hu, hid⟩
    exact ⟨_, ⟨r, ⟨hr, hu⟩, rfl⟩, hid⟩
  · rintro ⟨_, ⟨r, ⟨hr, hu⟩, rfl⟩, hid⟩
    exact ⟨r, hr, hu, hid⟩

/-- Whether a row can be stored is the same after any statement. -/
theorem queueRefuses_serve (r : RelayOp) (s : AppState) (m : Relayed) (clientMsgId : Option Text)
    (payload : Json) : (serve r s).2.queueRefuses m clientMsgId payload =
      s.queueRefuses m clientMsgId payload := by
  have husers : ∀ id, (serve r s).2.hasUser id = s.hasUser id := by
    intro id
    rw [AppState.hasUser, AppState.hasUser]
    cases serve_row r s with
    | kept husers _ => rw [husers]
    | updated u f hid _ hstate =>
      have hsame : ((fun x : User => decide (x.id = id)) ∘ fun x => if x.id = u then f x else x) =
          fun x => decide (x.id = id) := by
        funext x
        rw [Function.comp]
        split
        · rw [hid x]
        · rfl
      rw [hstate, Backend.updateUser, List.any_map, hsame]
  rw [AppState.queueRefuses, AppState.queueRefuses, AppState.queueRowError, AppState.queueRowError,
    serve_indexes, husers, husers]

theorem stores_serve (r : RelayOp) (s : AppState) (u : Id) :
    (serve r s).2.stores u = s.stores u := by
  funext r'
  cases r' with
  | queuePendingMessage m clientMsgId payload =>
    rw [AppState.stores, AppState.stores, queueRefuses_serve]
  | _ => rfl

theorem rowsFor_queue (s : AppState) (u : Id) (m : Relayed) (clientMsgId : Option Text)
    (payload : Json) :
    (serve (.queuePendingMessage m clientMsgId payload) s).2.rowsFor u =
      if m.recipientId = u ∧ s.queueRefuses m clientMsgId payload = false then
        addRow (s.rowsFor u) (m.senderId, clientMsgId)
      else s.rowsFor u := by
  have hconflict := queueConflict_iff s m.recipientId clientMsgId
  have hstate : (serve (.queuePendingMessage m clientMsgId payload) s).2 = _ :=
    s.queuePendingMessage_state m clientMsgId payload
  rw [hstate]
  by_cases hrefuses : s.queueRefuses m clientMsgId payload = true
  · have hout : s.keepsOut m clientMsgId payload = true := by rw [AppState.keepsOut, hrefuses]; rfl
    have hnot : ¬ (m.recipientId = u ∧ s.queueRefuses m clientMsgId payload = false) :=
      fun h => Bool.false_ne_true (h.2.symm.trans hrefuses)
    rw [if_pos hout, if_neg hnot]
  · have hstores : s.queueRefuses m clientMsgId payload = false := Bool.eq_false_iff.mpr hrefuses
    have hout : s.keepsOut m clientMsgId payload = s.queueConflict m.recipientId clientMsgId := by
      rw [AppState.keepsOut, hstores, Bool.false_or]
    by_cases hu : m.recipientId = u
    · subst hu
      have hcond : m.recipientId = m.recipientId ∧ s.queueRefuses m clientMsgId payload = false :=
        ⟨rfl, hstores⟩
      rw [if_pos hcond, addRow, hout]
      split
      · rename_i h
        rw [if_pos (hconflict.mp h)]
      · rename_i h
        rw [if_neg fun h' => h (hconflict.mpr h')]
        simp [AppState.rowsFor, AppState.withQueued]
    · have hnot : ¬ (m.recipientId = u ∧ s.queueRefuses m clientMsgId payload = false) := fun h => hu h.1
      rw [if_neg hnot]
      split
      · rfl
      · simp [AppState.rowsFor, AppState.withQueued, hu]

/-- Draining the queue of another user. -/
theorem rowsFor_drain (s : AppState) {u u' : Id} (hne : u' ≠ u) :
    (serve (.drainPendingMessages u') s).2.rowsFor u = s.rowsFor u := by
  show (((s.pendingMessages.filter _).filter _).map _ : List (Id × Option Text)) = s.rowsFor u
  rw [List.filter_filter, AppState.rowsFor]
  refine congrArg _ (List.filter_congr fun row _ => ?_)
  by_cases h : row.recipientId = u
  · simp [h, hne.symm]
  · simp [h]

/-- A statement that does not drain the user's queue adds what it stores for the user. -/
theorem rowsFor_serve (s : AppState) (u : Id) {r : RelayOp} (hr : r ≠ .drainPendingMessages u) :
    (serve r s).2.rowsFor u = (s.stores u r).toList.foldl addRow (s.rowsFor u) := by
  by_cases hw : r.writesQueue = true
  · cases r with
    | queuePendingMessage m clientMsgId payload =>
      rw [rowsFor_queue, AppState.stores]
      split <;> rfl
    | drainPendingMessages u' =>
      refine rowsFor_drain s ?_
      rintro rfl
      exact hr rfl
    | _ => cases hw
  · have hcall : s.stores u r = none := by
      cases r with
      | queuePendingMessage m clientMsgId payload => exact absurd rfl hw
      | _ => rfl
    rw [AppState.rowsFor, (serve_unwritten r s).pendingMessages (Bool.eq_false_iff.mpr hw), hcall]
    rfl

/-- The rows after some statements. -/
theorem rowsFor_serveAll (s : AppState) (u : Id) (rs : List RelayOp)
    (hrs : ∀ r ∈ rs, r ≠ .drainPendingMessages u) :
    (s.serveAll rs).rowsFor u = (s.storedCalls u rs).foldl addRow (s.rowsFor u) := by
  induction rs generalizing s with
  | nil => rfl
  | cons r rs ih =>
    have hstep := rowsFor_serve s u (hrs r List.mem_cons_self)
    have hrest := ih (serve r s).2 fun r' hr' => hrs r' (List.mem_cons_of_mem _ hr')
    rw [AppState.serveAll, List.foldl_cons]
    refine hrest.trans ?_
    rw [hstep, AppState.storedCalls, AppState.storedCalls, stores_serve, List.filterMap_cons]
    cases s.stores u r <;> rfl

/-- A call whose row can be stored is a call. -/
theorem mem_callsFor_of_stored {s : AppState} {u : Id} {rs : List RelayOp} {call : Id × Option Text}
    (h : call ∈ s.storedCalls u rs) : call ∈ callsFor u rs := by
  obtain ⟨r, hr, hstores⟩ := List.mem_filterMap.mp h
  refine List.mem_filterMap.mpr ⟨r, hr, ?_⟩
  cases r with
  | queuePendingMessage m clientMsgId payload =>
    rw [AppState.stores] at hstores
    split at hstores
    · rename_i hcond
      rw [RelayOp.callFor, if_pos hcond.1]
      exact hstores
    · cases hstores
  | _ => cases hstores

/-! ## Which rows these are -/

/-- The first call with an id. -/
def firstCall (id : Text) (calls : List (Id × Option Text)) : Option (Id × Option Text) :=
  calls.find? fun call => call.2 = some id

theorem firstCall_some {id : Text} {calls : List (Id × Option Text)} {call : Id × Option Text}
    (h : firstCall id calls = some call) : call ∈ calls ∧ call.2 = some id :=
  ⟨List.mem_of_find?_eq_some h, by simpa using List.find?_some h⟩

theorem firstCall_isSome {id : Text} {calls : List (Id × Option Text)} {sender : Id}
    (h : (sender, some id) ∈ calls) : ∃ sender', firstCall id calls = some (sender', some id) := by
  have hsome : (firstCall id calls).isSome := List.find?_isSome.mpr ⟨_, h, by simp⟩
  obtain ⟨⟨sender', id'⟩, hcall⟩ := Option.isSome_iff_exists.mp hsome
  have hid : id' = some id := (firstCall_some hcall).2
  exact ⟨sender', hid ▸ hcall⟩

theorem firstCall_append (id : Text) (calls : List (Id × Option Text)) (call : Id × Option Text) :
    firstCall id (calls ++ [call]) =
      (firstCall id calls).or (if call.2 = some id then some call else none) := by
  simp [firstCall, List.find?_append, List.find?_singleton]

/-- The rows are those of the calls without an id, and of the first call with each id. -/
structure FirstRows (calls rows : List (Id × Option Text)) : Prop where
  anonymous : ∀ sender, rows.count (sender, none) = calls.count (sender, none)
  first : ∀ sender id, rows.count (sender, some id) =
    if firstCall id calls = some (sender, some id) then 1 else 0

section Rows
variable {calls rows : List (Id × Option Text)}

theorem FirstRows.row_iff (h : FirstRows calls rows) (id : Text) :
    (∃ row ∈ rows, row.2 = some id) ↔ firstCall id calls ≠ none := by
  constructor
  · rintro ⟨⟨sender, id'⟩, hmem, rfl⟩ hnone
    have hcount : 0 < rows.count (sender, some id) := List.count_pos_iff.mpr hmem
    rw [h.first, hnone] at hcount
    cases hcount
  · intro hsome
    obtain ⟨⟨sender, id'⟩, hcall⟩ := Option.ne_none_iff_exists'.mp hsome
    have hid : id' = some id := (firstCall_some hcall).2
    subst hid
    have hone : rows.count (sender, some id) = 1 := by rw [h.first, if_pos hcall]
    exact ⟨_, List.count_pos_iff.mp (hone ▸ Nat.one_pos), rfl⟩

/-- A call whose id has no row yet gets one. -/
theorem FirstRows.add (h : FirstRows calls rows) {call : Id × Option Text}
    (hcall : ∀ id, call.2 = some id → firstCall id calls = none) :
    FirstRows (calls ++ [call]) (rows ++ [call]) where
  anonymous sender := by
    rw [List.count_append, List.count_append, h.anonymous]
  first sender id := by
    rw [List.count_append, h.first, firstCall_append]
    by_cases hid : call.2 = some id
    · obtain ⟨sender₀, id₀⟩ := call
      have hid : id₀ = some id := hid
      subst hid
      simp [hcall id rfl, List.count_singleton]
    · have hne : call ≠ (sender, some id) := fun heq => hid (heq ▸ rfl)
      simp [hid, hne]

/-- A call whose id has a row gets none. -/
theorem FirstRows.drop (h : FirstRows calls rows) (sender₀ : Id) {id₀ : Text}
    (hcall : firstCall id₀ calls ≠ none) : FirstRows (calls ++ [(sender₀, some id₀)]) rows where
  anonymous sender := by
    rw [List.count_append, h.anonymous]
    simp
  first sender id := by
    rw [h.first, firstCall_append]
    by_cases hid : id₀ = id
    · subst hid
      obtain ⟨call, hsome⟩ := Option.ne_none_iff_exists'.mp hcall
      rw [hsome, Option.some_or]
    · simp [hid]

end Rows

/-- **Of each id the first call has a row**, and each call without an id has one. -/
theorem rows_addRow (calls : List (Id × Option Text)) :
    FirstRows calls (calls.foldl addRow []) := by
  induction calls using List.reverseRecOn with
  | nil => exact ⟨fun _ => rfl, fun _ _ => rfl⟩
  | append_singleton calls call ih =>
    rw [List.foldl_append, List.foldl_cons, List.foldl_nil]
    generalize calls.foldl addRow [] = rows at ih
    obtain ⟨sender, clientMsgId⟩ := call
    cases clientMsgId with
    | none =>
      have hadd : addRow rows (sender, none) = rows ++ [(sender, none)] := by simp [addRow]
      rw [hadd]
      exact ih.add fun _ h => nomatch h
    | some id =>
      -- the id has a row exactly if an earlier call had it
      by_cases hrow : ∃ row ∈ rows, row.2 = some id
      · have hadd : addRow rows (sender, some id) = rows := by
          rw [addRow, if_pos ⟨rfl, hrow⟩]
        rw [hadd]
        exact ih.drop sender ((ih.row_iff id).mp hrow)
      · have hadd : addRow rows (sender, some id) = rows ++ [(sender, some id)] := by
          rw [addRow, if_neg fun h => hrow h.2]
        have hfirst : firstCall id calls = none := by
          by_contra hne
          exact hrow ((ih.row_iff id).mpr hne)
        rw [hadd]
        refine ih.add fun id' h => ?_
        cases h
        exact hfirst

/-! ## The result -/

/-- The rows of some calls are as they should be exactly where no two senders use one id and the
rows can be stored. -/
theorem idempotent_iff {calls stored : List (Id × Option Text)} (hsub : ∀ call ∈ stored, call ∈ calls) :
    Idempotent calls (stored.foldl addRow []) ↔ SendersApart calls ∧ Storable calls stored := by
  obtain ⟨hnone, hsome⟩ := rows_addRow stored
  constructor
  · intro h
    have hfirst : ∀ sender id, (sender, some id) ∈ calls →
        firstCall id stored = some (sender, some id) := by
      intro sender id hcall
      by_contra hne
      have hcount := h.identified sender id
      rw [hsome, if_neg hne, if_pos hcall] at hcount
      cases hcount
    refine ⟨fun sender sender' id hcall hcall' => ?_, fun sender id hcall => ?_, fun sender => ?_⟩
    · have heq := (hfirst sender id hcall).symm.trans (hfirst sender' id hcall')
      exact congrArg Prod.fst (Option.some.inj heq)
    · exact (firstCall_some (hfirst sender id hcall)).1
    · rw [← hnone, h.anonymous]
  · rintro ⟨hapart, hidentified, hanonymous⟩
    refine ⟨fun sender id => ?_, fun sender => (hnone sender).trans (hanonymous sender)⟩
    rw [hsome]
    by_cases hcall : (sender, some id) ∈ calls
    · obtain ⟨sender', hfirst⟩ := firstCall_isSome (hidentified sender id hcall)
      have heq := hapart sender' sender id (hsub _ (firstCall_some hfirst).1) hcall
      rw [if_pos hcall, hfirst, heq, if_pos rfl]
    · rw [if_neg hcall, if_neg fun h => hcall (hsub _ (firstCall_some h).1)]

/-- **Queueing is idempotent exactly where no two senders use one id and the rows can be
stored**: for any statements that do not drain the user's queue, from a state in which it is
empty. -/
theorem queue_idempotent_iff (s : AppState) (u : Id) (hempty : s.rowsFor u = [])
    (rs : List RelayOp) (hrs : ∀ r ∈ rs, r ≠ .drainPendingMessages u) :
    Idempotent (callsFor u rs) ((s.serveAll rs).rowsFor u) ↔
      SendersApart (callsFor u rs) ∧ Storable (callsFor u rs) (s.storedCalls u rs) := by
  rw [rowsFor_serveAll s u rs hrs, hempty]
  exact idempotent_iff fun _ => mem_callsFor_of_stored

namespace Relay.Sample

/-- Three users. -/
def threeUsers : AppState :=
  { AppState.init start with
    db :=
      let b := Backend.init 0
      { b with
        users := [{ b.newUser "ada".toList "ada#0001".toList "Ada".toList none none with id := 0 },
          { b.newUser "bob".toList "bob#0002".toList "Bob".toList none none with id := 1 },
          { b.newUser "cy".toList "cy#0003".toList "Cy".toList none none with id := 2 }]
        drawn := 3 } }

/-- A call that queues a message from a user for user 2. -/
def queueFor (serial sender : ℕ) (id : Option Text) : RelayOp :=
  .queuePendingMessage ⟨serial, sender, 2⟩ id .null

/-- User 0 sends one message twice, and user 1 another. -/
def retried : List RelayOp :=
  [queueFor 0 0 (some "m1".toList), queueFor 1 0 (some "m1".toList),
    queueFor 2 1 (some "m2".toList), queueFor 3 1 none]

theorem queue_idempotent_iff_retried :
    Idempotent (callsFor 2 retried) ((threeUsers.serveAll retried).rowsFor 2) := by
  have hcalls : callsFor 2 retried =
      [(0, some "m1".toList), (0, some "m1".toList), (1, some "m2".toList), (1, none)] := rfl
  have hstored : threeUsers.storedCalls 2 retried = callsFor 2 retried := by decide
  refine (queue_idempotent_iff threeUsers 2 rfl retried fun r hr => ?_).mpr ⟨?_, ?_⟩
  · simp only [retried, List.mem_cons, List.not_mem_nil, or_false] at hr
    rcases hr with rfl | rfl | rfl | rfl <;> exact fun h => nomatch h
  · intro sender sender' id h h'
    have hne : "m1".toList ≠ "m2".toList := by decide
    simp only [hcalls, List.mem_cons, List.not_mem_nil, or_false, Prod.mk.injEq,
      Option.some.injEq, reduceCtorEq, and_false] at h h'
    grind
  · rw [hstored]
    exact ⟨fun _ _ h => h, fun _ => rfl⟩

/-- Two users use one id, and the message of the second is not queued. -/
theorem queue_drops_message :
    ¬ ∀ (s : AppState) (u : Id), s.rowsFor u = [] → ∀ rs : List RelayOp,
      (∀ r ∈ rs, r ≠ .drainPendingMessages u) →
        Idempotent (callsFor u rs) ((s.serveAll rs).rowsFor u) := by
  intro h
  have hrow := (h threeUsers 2 rfl
    [queueFor 0 0 (some "m1".toList), queueFor 1 1 (some "m1".toList)] (by
      intro r hr
      simp only [List.mem_cons, List.not_mem_nil, or_false] at hr
      rcases hr with rfl | rfl <;> exact fun h => nomatch h)).identified 1 "m1".toList
  exact absurd hrow (by decide)

end Relay.Sample
end Winkd.Server
