import Winkd.Relay

/-!
# Requests and blocks

What the statements do to the contact requests and the blocks: a row of the requests
that is there after a step was there before, or was requested, answered or cleared by it
(`RequestsEffect`); two users between whom there is a block had one before, or the step
creates it (`blocked_cases`).
-/

namespace Winkd.Server

namespace AppState

/-- Some request from one of the two to the other is pending. -/
def PendingBetween (s : AppState) (a b : Id) : Bool :=
  s.contactRequests.any fun cr => cr.status = .pending ∧
    ((cr.fromId = a ∧ cr.toId = b) ∨ (cr.fromId = b ∧ cr.toId = a))

/-- The request from `a` to `b` is accepted. -/
def Accepted (s : AppState) (a b : Id) : Bool :=
  s.contactRequests.any fun cr => cr.status = .accepted ∧ cr.fromId = a ∧ cr.toId = b

/-- The two are accepted contacts. -/
def AcceptedBetween (s : AppState) (a b : Id) : Bool := s.Accepted a b || s.Accepted b a

theorem pendingBetween_iff {s : AppState} {a b : Id} : s.PendingBetween a b = true ↔
    ∃ cr ∈ s.contactRequests, cr.status = .pending ∧
      ((cr.fromId = a ∧ cr.toId = b) ∨ (cr.fromId = b ∧ cr.toId = a)) := by
  simp [PendingBetween]

theorem accepted_iff {s : AppState} {a b : Id} : s.Accepted a b = true ↔
    ∃ cr ∈ s.contactRequests, cr.status = .accepted ∧ cr.fromId = a ∧ cr.toId = b := by
  simp [Accepted]

theorem acceptedBetween_comm (s : AppState) (a b : Id) :
    s.AcceptedBetween a b = s.AcceptedBetween b a := Bool.or_comm _ _

theorem isBlockedBetween_iff {s : AppState} {a b : Id} : s.isBlockedBetween a b = true ↔
    ∃ bl ∈ s.blocks, (bl.blockerId = a ∧ bl.blockedId = b) ∨
      (bl.blockerId = b ∧ bl.blockedId = a) := by
  simp [isBlockedBetween]

theorem isBlockedBetween_comm (s : AppState) (a b : Id) :
    s.isBlockedBetween a b = s.isBlockedBetween b a := by
  rw [isBlockedBetween, isBlockedBetween]
  refine congrArg s.blocks.any (funext fun bl => ?_)
  rw [decide_eq_decide]
  exact or_comm

/-- A request that is accepted makes its two sides accepted contacts. -/
theorem acceptedBetween_peer {s : AppState} {cr : ContactRequest} (hcr : cr ∈ s.contactRequests)
    (hstatus : cr.status = .accepted) {u : Id} (hu : cr.fromId = u ∨ cr.toId = u) :
    s.AcceptedBetween u (cr.peer u) = true := by
  rw [AcceptedBetween, Bool.or_eq_true, accepted_iff, accepted_iff, ContactRequest.peer]
  by_cases hf : cr.fromId = u
  · rw [if_pos hf]
    exact .inl ⟨cr, hcr, hstatus, hf, rfl⟩
  · rw [if_neg hf]
    exact .inr ⟨cr, hcr, hstatus, rfl, hu.resolve_left hf⟩

/-- Whom a user's presence is broadcast to. -/
theorem of_mem_listAccepted {s : AppState} {u v : Id} (h : v ∈ s.listAcceptedContactUserIds u) :
    s.AcceptedBetween u v = true ∧ s.isBlockedBetween u v = false := by
  obtain ⟨cr, hcr, rfl⟩ := List.mem_map.mp h
  obtain ⟨hmem, hcond⟩ := List.mem_filter.mp hcr
  obtain ⟨hu, hstatus, hblock⟩ := of_decide_eq_true hcond
  exact ⟨acceptedBetween_peer hmem hstatus hu, hblock⟩

/-- Whom an entry of the roster is about. -/
theorem of_mem_listContactRoster {s : AppState} {u : Id} {e : ContactRosterEntry}
    (h : e ∈ s.listContactRoster u) :
    (∃ x ∈ s.db.users, x.id = e.userId ∧ x.winkdId = e.winkdId) ∧
      (e.accepted = true → s.AcceptedBetween u e.userId = true) ∧
        s.isBlockedBetween u e.userId = false := by
  obtain ⟨cr, hcr, hmap⟩ := List.mem_filterMap.mp h
  obtain ⟨x, hx, rfl⟩ := Option.map_eq_some_iff.mp hmap
  obtain ⟨hmem, hcond⟩ := List.mem_filter.mp ((List.mem_insertionSort _).mp hcr)
  obtain ⟨hu, -, hblock⟩ := of_decide_eq_true hcond
  have hid : x.id = cr.peer u := by simpa using List.find?_some hx
  refine ⟨⟨x, List.mem_of_find?_eq_some hx, rfl, rfl⟩, fun hacc => ?_, ?_⟩
  · show s.AcceptedBetween u x.id = true
    rw [hid]
    exact acceptedBetween_peer hmem (of_decide_eq_true hacc) hu
  · show s.isBlockedBetween u x.id = false
    rw [hid]
    exact hblock

theorem isBlockedBetween_congr {s t : AppState} (h : t.blocks = s.blocks) (a b : Id) :
    t.isBlockedBetween a b = s.isBlockedBetween a b := by
  rw [isBlockedBetween, h, isBlockedBetween]

theorem acceptedBetween_congr {s t : AppState} (h : t.contactRequests = s.contactRequests)
    (a b : Id) : t.AcceptedBetween a b = s.AcceptedBetween a b := by
  rw [AcceptedBetween, Accepted, Accepted, h, AcceptedBetween, Accepted, Accepted]

end AppState

/-! ## Requests -/

/-- Where a row of the requests comes from that is there after a step. -/
inductive RequestsEffect (s : AppState) (r : RelayOp) (cr : ContactRequest) : Prop
  | kept (h : cr ∈ s.contactRequests) (unrequested : r ≠ .createContactRequest cr.fromId cr.toId)
      (uncleared : cr.status = .pending →
        r ≠ .clearPendingContactRequestsBetween cr.fromId cr.toId ∧
          r ≠ .clearPendingContactRequestsBetween cr.toId cr.fromId)
  | requested (h : r = .createContactRequest cr.fromId cr.toId) (status : cr.status = .pending)
  | accepted (h : r = .acceptContactRequest cr.id cr.toId) (status : cr.status = .accepted)
      (before : { cr with status := .pending } ∈ s.contactRequests)
  | rejected (status : cr.status = .rejected)

theorem createContactRequest_effect {s : AppState} {f t : Id} {cr : ContactRequest}
    (h : cr ∈ (s.createContactRequest f t).2.contactRequests) :
    RequestsEffect s (.createContactRequest f t) cr := by
  have hkept : cr ∈ s.contactRequests → ¬ (cr.fromId = f ∧ cr.toId = t) →
      RequestsEffect s (.createContactRequest f t) cr := by
    intro hcr hne
    refine .kept hcr ?_ fun _ => ⟨fun h => (nomatch h), fun h => (nomatch h)⟩
    rintro ⟨rfl, rfl⟩
    exact hne ⟨rfl, rfl⟩
  rw [AppState.createContactRequest] at h
  split at h
  · obtain ⟨c, hc, rfl⟩ := List.mem_map.mp h
    split at hkept
    · rename_i heq
      rw [if_pos heq]
      exact .requested (by rw [← heq.1, ← heq.2]) rfl
    · rename_i hne
      rw [if_neg hne]
      exact hkept hc hne
  · rename_i hnone
    rcases List.mem_append.mp h with hc | hc
    · refine hkept hc fun heq => ?_
      have := List.find?_eq_none.mp hnone cr hc
      simp [heq] at this
    · rw [List.mem_singleton.mp hc]
      exact .requested rfl rfl

theorem answer_effect {s : AppState} {id t : Id} {status : RequestStatus} {r : RelayOp}
    (hr : ∀ f t, r ≠ .createContactRequest f t)
    (hclear : ∀ a b, r ≠ .clearPendingContactRequestsBetween a b)
    (hstatus : status = .rejected ∨ status = .accepted ∧ r = .acceptContactRequest id t)
    {cr : ContactRequest} (h : cr ∈ (s.answerContactRequest id t status).2.contactRequests) :
    RequestsEffect s r cr := by
  have hkept : cr ∈ s.contactRequests → RequestsEffect s r cr := fun hcr =>
    .kept hcr (hr _ _) fun _ => ⟨hclear _ _, hclear _ _⟩
  rw [AppState.answerContactRequest] at h
  split at h
  · obtain ⟨c, hc, rfl⟩ := List.mem_map.mp h
    split at hkept
    · rename_i hans
      rw [if_pos hans]
      have hans : c.id = id ∧ c.toId = t ∧ c.status = .pending := by
        simpa [AppState.Answerable] using hans
      rcases hstatus with rfl | ⟨rfl, hr⟩
      · exact .rejected rfl
      · refine .accepted (by rw [hr, ← hans.1, ← hans.2.1]) rfl ?_
        have hsame : ({ c with status := .pending } : ContactRequest) = c := by rw [← hans.2.2]
        exact hsame.symm ▸ hc
    · rename_i hans
      rw [if_neg hans]
      exact hkept hc
  · exact hkept h

theorem clear_effect {s : AppState} {a b : Id} {cr : ContactRequest}
    (h : cr ∈ (s.clearPendingContactRequestsBetween a b).contactRequests) :
    RequestsEffect s (.clearPendingContactRequestsBetween a b) cr := by
  obtain ⟨c, hc, rfl⟩ := List.mem_map.mp h
  split
  · exact .rejected rfl
  · rename_i hne
    refine .kept hc (fun h => nomatch h) fun hp => ⟨?_, ?_⟩
    · rintro ⟨rfl, rfl⟩
      exact hne ⟨hp, .inl ⟨rfl, rfl⟩⟩
    · rintro ⟨rfl, rfl⟩
      exact hne ⟨hp, .inr ⟨rfl, rfl⟩⟩

/-- **What a step does to the requests**, row by row. -/
theorem serve_requests (r : RelayOp) (s : AppState) {cr : ContactRequest}
    (h : cr ∈ (serve r s).2.contactRequests) : RequestsEffect s r cr := by
  by_cases hw : r.writesRequests = true
  · cases r with
    | createContactRequest f t => exact createContactRequest_effect h
    | acceptContactRequest id t =>
      refine answer_effect ?_ ?_ (.inr ⟨rfl, rfl⟩) h
      · exact fun _ _ h => nomatch h
      · exact fun _ _ h => nomatch h
    | rejectContactRequest id t =>
      refine answer_effect ?_ ?_ (.inl rfl) h
      · exact fun _ _ h => nomatch h
      · exact fun _ _ h => nomatch h
    | clearPendingContactRequestsBetween a b => exact clear_effect h
    | _ => cases hw
  · have hw : r.writesRequests = false := Bool.eq_false_iff.mpr hw
    rw [(serve_unwritten r s).contactRequests hw] at h
    refine .kept h ?_ fun _ => ⟨?_, ?_⟩
    · rintro rfl
      cases hw
    · rintro rfl
      cases hw
    · rintro rfl
      cases hw

/-! ## Blocks -/

/-- Between whom there is a block after a step. -/
theorem blocked_cases {r : RelayOp} {s : AppState} {a b : Id}
    (h : (serve r s).2.isBlockedBetween a b = true) : s.isBlockedBetween a b = true ∨
      (r = .createBlock a b ∨ r = .createBlock b a) ∧ a ≠ b := by
  obtain ⟨bl, hbl, hab⟩ := AppState.isBlockedBetween_iff.mp h
  by_cases hw : r.writesBlocks = true
  · cases r with
    | createBlock x y =>
      simp only [serve, AppState.createBlock] at hbl
      split at hbl
      · exact .inl (AppState.isBlockedBetween_iff.mpr ⟨bl, hbl, hab⟩)
      · rename_i hxy
        split at hbl
        · exact .inl (AppState.isBlockedBetween_iff.mpr ⟨bl, hbl, hab⟩)
        · rcases List.mem_append.mp hbl with hbl | hbl
          · exact .inl (AppState.isBlockedBetween_iff.mpr ⟨bl, hbl, hab⟩)
          · rw [List.mem_singleton.mp hbl] at hab
            rcases hab with ⟨rfl, rfl⟩ | ⟨rfl, rfl⟩
            · exact .inr ⟨.inl rfl, hxy⟩
            · exact .inr ⟨.inr rfl, Ne.symm hxy⟩
    | removeBlock x y =>
      exact .inl (AppState.isBlockedBetween_iff.mpr ⟨bl, (List.mem_filter.mp hbl).1, hab⟩)
    | _ => cases hw
  · rw [(serve_unwritten r s).blocks (Bool.eq_false_iff.mpr hw)] at hbl
    exact .inl (AppState.isBlockedBetween_iff.mpr ⟨bl, hbl, hab⟩)

/-- A statement that creates a block succeeds unless a user blocks himself. -/
theorem createBlock_ok {s : AppState} {a b : Id} (h : a ≠ b) :
    (serve (.createBlock a b) s).1 = .ok () := by
  simp only [serve, AppState.createBlock, if_neg h]
  split <;> rfl

end Winkd.Server
