import Winkd.Relations
import Winkd.AddedAgain

/-!
# The tables behind a roster

The tables of the requests and of the blocks, seen as `Relations`.  Each statement changes them as a
command does (`relations_createContactRequest` to `relations_removeBlock`), and the rows that there
are keep their ids.  The roster and the list of the pending requests are read off the relations
(`mem_roster_iff`, `mem_pending_iff`).
-/

namespace Winkd.Server
namespace AppState

/-- The request from one user to another. -/
def request (s : AppState) (f t : Id) : Option ContactRequest :=
  s.contactRequests.find? fun cr => cr.fromId = f ∧ cr.toId = t

def requestId (s : AppState) (f t : Id) : Option Id := (s.request f t).map ContactRequest.id

/-- How the users stand to each other. -/
def relations (s : AppState) : Relations where
  status f t := (s.request f t).map ContactRequest.status
  blocks a b := s.blocks.any fun bl => bl.blockerId = a ∧ bl.blockedId = b

/-- What the schema and `add_contact` see to: nobody has asked himself, the rows have ids of their
own, and the users have Winkd IDs of their own. -/
structure ContactsOk (s : AppState) : Prop extends RowsOk s where
  others : ∀ p ∈ s.ends, p.1 ≠ p.2
  ids : (s.contactRequests.map ContactRequest.id).Nodup
  drawn : ∀ cr ∈ s.contactRequests, cr.id < s.db.drawn
  accounts : Accounts s.db
  names : s.db.NamesUnique
  named : ∀ u ∈ s.db.users, u.winkdId ≠ []

variable {s : AppState} {f t u v a b : Id} {cr : ContactRequest}

/-! ## Rows -/

theorem ends_of_request (h : s.request f t = some cr) : cr.fromId = f ∧ cr.toId = t := by
  simpa using List.find?_some h

theorem request_eq_some_iff (hs : s.RowsOk) :
    s.request f t = some cr ↔ cr ∈ s.contactRequests ∧ cr.fromId = f ∧ cr.toId = t := by
  constructor
  · intro h
    exact ⟨List.mem_of_find?_eq_some h, ends_of_request h⟩
  · rintro ⟨hcr, hf, ht⟩
    cases hfind : s.request f t with
    | none => exact absurd (decide_eq_true ⟨hf, ht⟩) (List.find?_eq_none.mp hfind cr hcr)
    | some c =>
      have hc := List.mem_of_find?_eq_some hfind
      obtain ⟨hcf, hct⟩ := ends_of_request hfind
      rw [List.inj_on_of_nodup_map hs.distinct hc hcr (Prod.ext (hcf.trans hf.symm) (hct.trans ht.symm))]

theorem status_eq_some_iff (hs : s.RowsOk) {status : RequestStatus} :
    s.relations.status f t = some status ↔
      ∃ cr ∈ s.contactRequests, cr.fromId = f ∧ cr.toId = t ∧ cr.status = status := by
  simp only [relations, Option.map_eq_some_iff, request_eq_some_iff hs, and_assoc]

theorem requestId_eq_some_iff (hs : s.RowsOk) {id : Id} :
    s.requestId f t = some id ↔
      ∃ cr ∈ s.contactRequests, cr.fromId = f ∧ cr.toId = t ∧ cr.id = id := by
  simp only [requestId, Option.map_eq_some_iff, request_eq_some_iff hs, and_assoc]

/-- The two ends of a request are told by its id. -/
theorem requestId_inj (hs : s.ContactsOk) {id : Id} (h : s.requestId f t = some id)
    (h' : s.requestId a b = some id) : a = f ∧ b = t := by
  obtain ⟨cr, hcr, rfl, rfl, hid⟩ := (requestId_eq_some_iff hs.toRowsOk).mp h
  obtain ⟨cr', hcr', rfl, rfl, hid'⟩ := (requestId_eq_some_iff hs.toRowsOk).mp h'
  obtain rfl := List.inj_on_of_nodup_map hs.ids hcr hcr' (hid.trans hid'.symm)
  exact ⟨rfl, rfl⟩

/-- A request that is there has an id. -/
theorem requestId_of_status {status : RequestStatus} (h : s.relations.status f t = some status) :
    ∃ id, s.requestId f t = some id := by
  obtain ⟨cr, hcr, -⟩ := Option.map_eq_some_iff.mp h
  exact ⟨cr.id, by rw [requestId, hcr, Option.map_some]⟩

/-- Its ends are two users. -/
theorem users_of_requestId (hs : s.ContactsOk) {id : Id} (h : s.requestId f t = some id) :
    s.IsUser f ∧ s.IsUser t ∧ f ≠ t := by
  obtain ⟨cr, hcr, rfl, rfl, -⟩ := (requestId_eq_some_iff hs.toRowsOk).mp h
  have hmem : (cr.fromId, cr.toId) ∈ s.ends := List.mem_map_of_mem (f := fun cr : ContactRequest =>
    (cr.fromId, cr.toId)) hcr
  exact ⟨(hs.users _ hmem).1, (hs.users _ hmem).2, hs.others _ hmem⟩

theorem users_of_status (hs : s.ContactsOk) {status : RequestStatus}
    (h : s.relations.status f t = some status) : s.IsUser f ∧ s.IsUser t ∧ f ≠ t := by
  obtain ⟨id, hid⟩ := requestId_of_status h
  exact users_of_requestId hs hid

theorem status_self (hs : s.ContactsOk) (u : Id) : s.relations.status u u = none := by
  cases h : s.relations.status u u with
  | none => rfl
  | some status => exact absurd rfl (users_of_status hs h).2.2

theorem isUser_of_related (hs : s.ContactsOk) (h : s.relations.Related u v) : s.IsUser v := by
  rcases h with h | h | h
  · exact (users_of_status hs h).2.1
  · exact (users_of_status hs h).2.1
  · exact (users_of_status hs h).1

/-- The rows are mapped, and keep their ends. -/
theorem request_map {s' : AppState} {g : ContactRequest → ContactRequest}
    (hg : ∀ cr, (g cr).fromId = cr.fromId ∧ (g cr).toId = cr.toId)
    (hrows : s'.contactRequests = s.contactRequests.map g) (f t : Id) :
    s'.request f t = (s.request f t).map g := by
  rw [request, hrows, List.find?_map, request]
  congr 2
  funext cr
  rw [Function.comp, (hg cr).1, (hg cr).2]

theorem requestId_map {s' : AppState} {g : ContactRequest → ContactRequest}
    (hg : ∀ cr, (g cr).fromId = cr.fromId ∧ (g cr).toId = cr.toId) (hid : ∀ cr, (g cr).id = cr.id)
    (hrows : s'.contactRequests = s.contactRequests.map g) (f t : Id) :
    s'.requestId f t = s.requestId f t := by
  rw [requestId, request_map hg hrows, requestId, Option.map_map]
  congr 1
  funext cr
  exact hid cr

/-! ## The statements -/

theorem isBlockedBetween_eq_false_iff : s.isBlockedBetween u v = false ↔ s.relations.Open u v := by
  have hiff : s.isBlockedBetween u v =
      (s.relations.blocks u v || s.relations.blocks v u) := by
    rw [Bool.eq_iff_iff, isBlockedBetween_iff]
    simp only [relations, Bool.or_eq_true, List.any_eq_true, decide_eq_true_eq]
    grind
  rw [hiff, Bool.or_eq_false_iff]
  exact Iff.rfl

theorem requestId_congr {s' : AppState} (hrows : s'.contactRequests = s.contactRequests) :
    s'.requestId = s.requestId := by
  funext f t
  simp only [requestId, request, hrows]

section Create

theorem request_createContactRequest (s : AppState) (f t a b : Id) :
    (s.createContactRequest f t).2.request a b =
      if a = f ∧ b = t then some (s.createContactRequest f t).1 else s.request a b := by
  have hfound : s.contactRequests.find? (fun cr => decide (cr.fromId = f ∧ cr.toId = t)) =
      s.request f t := rfl
  rw [createContactRequest, hfound]
  cases h : s.request f t with
  | some cr =>
    have hg : ∀ c : ContactRequest,
        (if c.fromId = f ∧ c.toId = t then { c with status := .pending } else c).fromId = c.fromId ∧
          (if c.fromId = f ∧ c.toId = t then { c with status := .pending } else c).toId = c.toId := by
      intro c
      split <;> exact ⟨rfl, rfl⟩
    rw [request_map (s := s) hg rfl]
    by_cases hab : a = f ∧ b = t
    · obtain ⟨rfl, rfl⟩ := hab
      rw [h, if_pos ⟨rfl, rfl⟩, Option.map_some, if_pos (ends_of_request h)]
    · rw [if_neg hab]
      cases h' : s.request a b with
      | none => rfl
      | some c =>
        have hends := ends_of_request h'
        rw [Option.map_some, if_neg fun hc => hab ⟨hends.1.symm.trans hc.1, hends.2.symm.trans hc.2⟩]
  | none =>
    show (s.contactRequests ++ [_]).find? _ = _
    rw [List.find?_append]
    by_cases hab : a = f ∧ b = t
    · obtain ⟨rfl, rfl⟩ := hab
      have hnone : s.contactRequests.find? (fun cr => decide (cr.fromId = a ∧ cr.toId = b)) = none := h
      rw [hnone, if_pos ⟨rfl, rfl⟩, Option.none_or]
      exact List.find?_cons_of_pos (decide_eq_true ⟨rfl, rfl⟩)
    · rw [if_neg hab]
      have hlast : List.find? (fun cr : ContactRequest => decide (cr.fromId = a ∧ cr.toId = b))
          [⟨s.db.drawn, f, t, .pending, s.db.now⟩] = none :=
        List.find?_cons_of_neg (fun h => hab ⟨(of_decide_eq_true h).1.symm, (of_decide_eq_true h).2.symm⟩)
      rw [hlast, Option.or_none, request]

theorem createContactRequest_status (s : AppState) (f t : Id) :
    (s.createContactRequest f t).1.status = .pending := by
  rw [createContactRequest]
  split <;> rfl

theorem relations_createContactRequest (s : AppState) (f t : Id) :
    (s.createContactRequest f t).2.relations = s.relations.setStatus f t .pending := by
  have hblocks : (s.createContactRequest f t).2.blocks = s.blocks := by
    rw [createContactRequest]
    split <;> rfl
  simp only [relations, Relations.setStatus, Relations.mk.injEq, hblocks, and_true]
  funext a b
  rw [request_createContactRequest]
  split
  · rw [Option.map_some, createContactRequest_status]
  · rfl

theorem requestId_createContactRequest (s : AppState) (f t a b : Id) :
    (s.createContactRequest f t).2.requestId a b =
      if a = f ∧ b = t then some (s.createContactRequest f t).1.id else s.requestId a b := by
  rw [requestId, request_createContactRequest]
  split <;> rfl

/-- A request that was there keeps its id; a new one has an id that no other has. -/
theorem createContactRequest_id (s : AppState) (f t : Id) :
    s.requestId f t = some (s.createContactRequest f t).1.id ∨
      (s.requestId f t = none ∧ (s.createContactRequest f t).1.id = s.db.drawn) := by
  have hfound : s.contactRequests.find? (fun cr => decide (cr.fromId = f ∧ cr.toId = t)) =
      s.request f t := rfl
  rw [createContactRequest, hfound, requestId]
  cases h : s.request f t with
  | some cr => exact .inl rfl
  | none => exact .inr ⟨rfl, rfl⟩

theorem createContactRequest_same (s : AppState) (f t : Id) :
    (s.createContactRequest f t).2.db.users = s.db.users ∧
      (s.createContactRequest f t).2.clients = s.clients ∧
        (s.createContactRequest f t).2.channels = s.channels := by
  rw [createContactRequest]
  split <;> exact ⟨rfl, rfl, rfl⟩

/-- Every request keeps its id. -/
theorem requestId_kept {rid : Id} (f t : Id) (h : s.requestId a b = some rid) :
    (s.createContactRequest f t).2.requestId a b = some rid := by
  rw [requestId_createContactRequest]
  split
  · rename_i hab
    rw [hab.1, hab.2] at h
    rcases createContactRequest_id s f t with hid | ⟨hnone, -⟩
    · exact hid.symm.trans h
    · rw [h] at hnone
      cases hnone
  · exact h

end Create

section Answer
variable {rid : Id}

/-- The pending request to a user with an id. -/
def pendingRequest (s : AppState) (rid t : Id) : Option ContactRequest :=
  s.contactRequests.find? (Answerable rid t)

theorem pendingRequest_spec (h : s.pendingRequest rid t = some cr) :
    cr ∈ s.contactRequests ∧ cr.id = rid ∧ cr.toId = t ∧ cr.status = .pending :=
  ⟨List.mem_of_find?_eq_some h, by simpa [Answerable] using List.find?_some h⟩

theorem asks_of_pendingRequest (hs : s.RowsOk) (h : s.pendingRequest rid t = some cr) :
    s.relations.Asks cr.fromId t ∧ s.requestId cr.fromId t = some rid := by
  obtain ⟨hcr, hid, ht, hstatus⟩ := pendingRequest_spec h
  exact ⟨(status_eq_some_iff hs).mpr ⟨cr, hcr, rfl, ht, hstatus⟩,
    (requestId_eq_some_iff hs).mpr ⟨cr, hcr, rfl, ht, hid⟩⟩

/-- The answered row is the one request that changes. -/
theorem answerContactRequest_of (h : s.pendingRequest rid t = some cr) (status : RequestStatus) :
    s.answerContactRequest rid t status = (.ok { cr with status := status },
      { s with contactRequests := s.contactRequests.map fun c =>
          if Answerable rid t c then { c with status := status } else c }) := by
  rw [answerContactRequest]
  rw [pendingRequest] at h
  rw [h]

theorem answerContactRequest_none (h : s.pendingRequest rid t = none) (status : RequestStatus) :
    s.answerContactRequest rid t status = (.error .rowNotFound, s) := by
  rw [answerContactRequest]
  rw [pendingRequest] at h
  rw [h]

theorem answered_ends (rid t : Id) (status : RequestStatus) (c : ContactRequest) :
    (if Answerable rid t c then { c with status := status } else c).fromId = c.fromId ∧
      (if Answerable rid t c then { c with status := status } else c).toId = c.toId := by
  split <;> exact ⟨rfl, rfl⟩

theorem relations_answerContactRequest (hs : s.ContactsOk) (h : s.pendingRequest rid t = some cr)
    (status : RequestStatus) : (s.answerContactRequest rid t status).2.relations =
      s.relations.setStatus cr.fromId t status := by
  obtain ⟨hcr, hid, ht, hstatus⟩ := pendingRequest_spec h
  rw [answerContactRequest_of h]
  simp only [relations, Relations.setStatus, Relations.mk.injEq, and_true]
  funext a b
  rw [request_map (s := s) (answered_ends rid t status) rfl]
  by_cases hab : a = cr.fromId ∧ b = t
  · obtain ⟨rfl, rfl⟩ := hab
    have hfound : s.request cr.fromId b = some cr := (request_eq_some_iff hs.toRowsOk).mpr ⟨hcr, rfl, ht⟩
    have hanswerable : Answerable rid b cr = true := by simp [Answerable, hid, ht, hstatus]
    simp [hfound, hanswerable]
  · rw [if_neg hab]
    cases hfound : s.request a b with
    | none => rfl
    | some c =>
      obtain ⟨hc, hca, hcb⟩ := (request_eq_some_iff hs.toRowsOk).mp hfound
      have hnot : ¬ Answerable rid t c = true := by
        intro hc'
        have hcid : c.id = rid ∧ c.toId = t ∧ c.status = .pending := by simpa [Answerable] using hc'
        obtain rfl := List.inj_on_of_nodup_map hs.ids hc hcr (hcid.1.trans hid.symm)
        exact hab ⟨hca.symm, hcb.symm.trans ht⟩
      rw [Option.map_some, if_neg hnot, Option.map_some]

theorem requestId_answerContactRequest (s : AppState) (rid t : Id) (status : RequestStatus) :
    (s.answerContactRequest rid t status).2.requestId = s.requestId := by
  cases h : s.pendingRequest rid t with
  | none => rw [answerContactRequest_none h]
  | some cr =>
    rw [answerContactRequest_of h]
    funext a b
    exact requestId_map (answered_ends rid t status) (fun c => by split <;> rfl) rfl a b

end Answer

section Clear

theorem relations_clear (s : AppState) (a b : Id) :
    (s.clearPendingContactRequestsBetween a b).relations = s.relations.clear a b := by
  simp only [relations, Relations.clear, Relations.mk.injEq]
  refine ⟨?_, rfl⟩
  funext f t
  rw [request_map (s := s) (fun c => by split <;> exact ⟨rfl, rfl⟩) rfl]
  rcases Option.eq_none_or_eq_some (s.request f t) with h | ⟨cr, h⟩
  · simp [h]
  · have hends := ends_of_request h
    simp only [h, Option.map_some, Option.some.injEq, hends.1, hends.2]
    split <;> rfl

theorem requestId_clear (s : AppState) (a b : Id) :
    (s.clearPendingContactRequestsBetween a b).requestId = s.requestId := by
  funext f t
  exact requestId_map (fun c => by split <;> exact ⟨rfl, rfl⟩) (fun c => by split <;> rfl) rfl f t

end Clear

theorem createBlock_rows (s : AppState) (a b : Id) :
    (s.createBlock a b).2.contactRequests = s.contactRequests ∧ (s.createBlock a b).2.db = s.db := by
  rw [createBlock]
  split
  · exact ⟨rfl, rfl⟩
  · split <;> exact ⟨rfl, rfl⟩

theorem relations_createBlock (hne : a ≠ b) :
    (s.createBlock a b).2.relations = s.relations.setBlock a b true := by
  have hstatus : (s.createBlock a b).2.relations.status = s.relations.status := by
    simp only [relations, request, (createBlock_rows s a b).1]
  have hblocks : (s.createBlock a b).2.relations.blocks = (s.relations.setBlock a b true).blocks := by
    funext x y
    rw [createBlock, if_neg hne, Bool.eq_iff_iff]
    simp only [Relations.setBlock, relations]
    split
    · rename_i hany
      rw [List.any_eq_true]
      split
      · rename_i hxy
        obtain ⟨bl, hbl, hab⟩ := List.any_eq_true.mp hany
        refine iff_of_true ⟨bl, hbl, ?_⟩ rfl
        rw [hxy.1, hxy.2]
        exact hab
      · rw [List.any_eq_true]
    · rw [List.any_append, Bool.or_eq_true]
      simp only [List.any_cons, List.any_nil, Bool.or_false, decide_eq_true_eq]
      split
      · rename_i hxy
        exact iff_of_true (.inr ⟨hxy.1.symm, hxy.2.symm⟩) rfl
      · rename_i hxy
        exact or_iff_left fun h => hxy ⟨h.1.symm, h.2.symm⟩
  exact congrArg₂ Relations.mk hstatus hblocks

theorem relations_removeBlock (s : AppState) (a b : Id) :
    (s.removeBlock a b).relations = s.relations.setBlock a b false := by
  have hblocks : (s.removeBlock a b).relations.blocks = (s.relations.setBlock a b false).blocks := by
    funext x y
    simp only [relations, removeBlock, Relations.setBlock, List.any_filter]
    split
    · rename_i hxy
      rw [List.any_eq_false]
      intro bl _
      simp only [hxy.1, hxy.2, Bool.and_eq_true, decide_eq_true_eq]
      tauto
    · rename_i hxy
      congr 1
      funext bl
      rw [Bool.eq_iff_iff, Bool.and_eq_true, decide_eq_true_eq, decide_eq_true_eq]
      exact and_iff_right_of_imp fun h h' => hxy ⟨h.1.symm.trans h'.1, h.2.symm.trans h'.2⟩
  exact congrArg₂ Relations.mk rfl hblocks

/-! ## What they keep -/

/-- The rows keep their ends and their ids. -/
theorem ContactsOk.of_rows (hs : s.ContactsOk) {s' : AppState} (hends : s'.ends = s.ends)
    (hids : s'.contactRequests.map ContactRequest.id = s.contactRequests.map ContactRequest.id)
    (hdb : s'.db = s.db) : s'.ContactsOk where
  distinct := hends ▸ hs.distinct
  users p hp := by
    rw [IsUser, IsUser, hdb]
    exact hs.users p (hends ▸ hp)
  others p hp := hs.others p (hends ▸ hp)
  ids := hids ▸ hs.ids
  drawn cr hcr := by
    obtain ⟨c, hc, hid⟩ := List.mem_map.mp (hids ▸ List.mem_map_of_mem (f := ContactRequest.id) hcr)
    rw [hdb, ← hid]
    exact hs.drawn c hc
  accounts := hdb ▸ hs.accounts
  names := hdb ▸ hs.names
  named := hdb ▸ hs.named

theorem ContactsOk.of_map (hs : s.ContactsOk) {s' : AppState} {g : ContactRequest → ContactRequest}
    (hg : ∀ cr, (g cr).fromId = cr.fromId ∧ (g cr).toId = cr.toId) (hid : ∀ cr, (g cr).id = cr.id)
    (hrows : s'.contactRequests = s.contactRequests.map g) (hdb : s'.db = s.db) : s'.ContactsOk := by
  refine hs.of_rows ?_ ?_ hdb
  · rw [ends, hrows]
    exact ends_map hg
  · rw [hrows, List.map_map]
    exact List.map_congr_left fun cr _ => hid cr

theorem ContactsOk.answerContactRequest (hs : s.ContactsOk) (rid t : Id) (status : RequestStatus) :
    (s.answerContactRequest rid t status).2.ContactsOk := by
  cases h : s.pendingRequest rid t with
  | none =>
    rw [answerContactRequest_none h]
    exact hs
  | some cr =>
    rw [answerContactRequest_of h]
    exact hs.of_map (answered_ends rid t status) (fun c => by split <;> rfl) rfl rfl

theorem ContactsOk.clear (hs : s.ContactsOk) (a b : Id) :
    (s.clearPendingContactRequestsBetween a b).ContactsOk :=
  hs.of_map (fun c => by split <;> exact ⟨rfl, rfl⟩) (fun c => by split <;> rfl) rfl rfl

theorem ContactsOk.createBlock (hs : s.ContactsOk) (a b : Id) : (s.createBlock a b).2.ContactsOk := by
  obtain ⟨hrows, hdb⟩ := createBlock_rows s a b
  refine hs.of_rows ?_ ?_ hdb
  · rw [ends, hrows, ends]
  · rw [hrows]

theorem ContactsOk.createContactRequest (hs : s.ContactsOk) (hf : s.IsUser f) (ht : s.IsUser t)
    (hne : f ≠ t) : (s.createContactRequest f t).2.ContactsOk := by
  have hrows : (s.createContactRequest f t).2.RowsOk :=
    hs.toRowsOk.serve (r := .createContactRequest f t) fun f' t' h => by
      obtain ⟨rfl, rfl⟩ := RelayOp.createContactRequest.inj h
      exact ⟨hf, ht⟩
  have hothers : ∀ p ∈ (s.createContactRequest f t).2.ends, p.1 ≠ p.2 := by
    intro p hp
    rcases serve_ends (.createContactRequest f t) s with heq | ⟨f', t', h, -, heq⟩
    · exact hs.others p (heq ▸ hp)
    · obtain ⟨rfl, rfl⟩ := RelayOp.createContactRequest.inj h
      rcases List.mem_append.mp (heq ▸ hp) with hold | hnew
      · exact hs.others p hold
      · rw [List.mem_singleton.mp hnew]
        exact hne
  cases h : s.contactRequests.find? (fun cr => decide (cr.fromId = f ∧ cr.toId = t)) with
  | some cr =>
    have heq : (s.createContactRequest f t).2 = { s with contactRequests := s.contactRequests.map fun c =>
        if c.fromId = f ∧ c.toId = t then { c with status := .pending } else c } := by
      rw [AppState.createContactRequest, h]
    rw [heq]
    exact hs.of_map (fun c => by split <;> exact ⟨rfl, rfl⟩) (fun c => by split <;> rfl) rfl rfl
  | none =>
    have heq : (s.createContactRequest f t).2 = { s with
        contactRequests := s.contactRequests ++ [⟨s.db.drawn, f, t, .pending, s.db.now⟩]
        db := { s.db with drawn := s.db.drawn + 1 } } := by
      rw [AppState.createContactRequest, h]
    rw [heq] at hrows hothers ⊢
    refine ⟨hrows, hothers, ?_, ?_, hs.accounts.of_users rfl (Nat.le_succ _), hs.names, hs.named⟩
    · rw [List.map_append, List.nodup_append]
      refine ⟨hs.ids, List.nodup_singleton _, fun a ha b hb hab => ?_⟩
      obtain ⟨cr, hcr, rfl⟩ := List.mem_map.mp ha
      exact (hs.drawn cr hcr).ne (hab.trans (List.mem_singleton.mp hb))
    · intro cr hcr
      rcases List.mem_append.mp hcr with hold | hnew
      · exact (hs.drawn cr hold).trans (Nat.lt_succ_self _)
      · rw [List.mem_singleton.mp hnew]
        exact Nat.lt_succ_self _

/-! ## Names -/

/-- The Winkd ID of a user. -/
def winkdIdOf (s : AppState) (v : Id) : Text := ((s.db.findUserById v).map User.winkdId).getD []

theorem hasName_iff (hs : s.ContactsOk) {w : Text} :
    s.db.HasName v w ↔ s.IsUser v ∧ s.winkdIdOf v = w := by
  have hnamed : ∀ {w : Text}, s.db.HasName v w → s.winkdIdOf v = w := by
    intro w h
    obtain ⟨x, hx, hid⟩ := IsUser.found ⟨w, h⟩
    have hname : s.db.HasName v x.winkdId := ⟨x, List.mem_of_find?_eq_some hx, hid, rfl⟩
    rw [winkdIdOf, hx]
    exact hs.accounts.name_eq h hname
  constructor
  · exact fun h => ⟨⟨w, h⟩, hnamed h⟩
  · rintro ⟨⟨w', h⟩, rfl⟩
    rw [hnamed h]
    exact h

theorem winkdIdOf_inj (hs : s.ContactsOk) (hu : s.IsUser u) (hv : s.IsUser v)
    (h : s.winkdIdOf u = s.winkdIdOf v) : u = v :=
  name_unique hs.names ((hasName_iff hs).mpr ⟨hv, rfl⟩) ((hasName_iff hs).mpr ⟨hu, h⟩)

theorem winkdIdOf_ne_nil (hs : s.ContactsOk) (hv : s.IsUser v) : s.winkdIdOf v ≠ [] := by
  obtain ⟨x, hx, -⟩ := hv.found
  rw [winkdIdOf, hx]
  exact hs.named x (List.mem_of_find?_eq_some hx)

theorem winkdIdOf_congr {s' : AppState} (h : s'.db.users = s.db.users) (v : Id) :
    s'.winkdIdOf v = s.winkdIdOf v := by
  rw [winkdIdOf, Backend.findUserById, h, winkdIdOf, Backend.findUserById]

theorem isUser_congr {s' : AppState} (h : s'.db.users = s.db.users) (v : Id) :
    s'.IsUser v ↔ s.IsUser v := by
  simp only [IsUser, Backend.HasName, h]

/-! ## The lists -/

/-- **The roster lists** those whom the relations list, by their Winkd IDs. -/
theorem mem_roster_iff (hs : s.ContactsOk) {w : Text} :
    w ∈ (s.listContactRoster u).map ContactRosterEntry.winkdId ↔
      ∃ v, s.IsUser v ∧ s.winkdIdOf v = w ∧ s.relations.Lists u v := by
  simp only [List.mem_map, listContactRoster, List.mem_filterMap, List.mem_insertionSort,
    List.mem_filter, decide_eq_true_eq, Option.map_eq_some_iff]
  constructor
  · rintro ⟨e, ⟨cr, ⟨hcr, hof, hstatus, hblock⟩, x, hx, rfl⟩, rfl⟩
    have hid : x.id = cr.peer u := id_of_findUserById hx
    have hname : s.db.HasName (cr.peer u) x.winkdId := ⟨x, List.mem_of_find?_eq_some hx, hid, rfl⟩
    obtain ⟨huser, hw⟩ := (hasName_iff hs).mp hname
    refine ⟨cr.peer u, huser, hw, ?_, isBlockedBetween_eq_false_iff.mp hblock⟩
    have hfound : s.relations.status cr.fromId cr.toId = some cr.status :=
      (status_eq_some_iff hs.toRowsOk).mpr ⟨cr, hcr, rfl, rfl, rfl⟩
    -- a request of the user, or one to the user that was accepted
    by_cases hf : cr.fromId = u
    · rw [ContactRequest.peer, if_pos hf, Relations.Related, ← hf, hfound]
      rcases hstatus with h | ⟨h, -⟩
      · exact .inr (.inl (congrArg some h))
      · exact .inl (congrArg some h)
    · rw [ContactRequest.peer, if_neg hf, Relations.Related, ← hof.resolve_left hf, hfound]
      rcases hstatus with h | ⟨-, h⟩
      · exact .inr (.inr (congrArg some h))
      · exact absurd h hf
  · rintro ⟨v, huser, hw, hrelated, hopen⟩
    obtain ⟨x, hx, hid⟩ := huser.found
    have hblock := isBlockedBetween_eq_false_iff.mpr hopen
    have hxw : x.winkdId = w := by
      rw [← hw, winkdIdOf, hx]
      rfl
    -- the row behind the relation, whichever of the two has asked
    have hrow : ∃ cr ∈ s.contactRequests, (cr.fromId = u ∨ cr.toId = u) ∧ cr.peer u = v ∧
        (cr.status = .accepted ∨ (cr.status = .pending ∧ cr.fromId = u)) := by
      rcases hrelated with h | h | h
      · obtain ⟨cr, hcr, hf, ht, hstatus⟩ := (status_eq_some_iff hs.toRowsOk).mp h
        exact ⟨cr, hcr, .inl hf, by rw [ContactRequest.peer, if_pos hf, ht], .inr ⟨hstatus, hf⟩⟩
      · obtain ⟨cr, hcr, hf, ht, hstatus⟩ := (status_eq_some_iff hs.toRowsOk).mp h
        exact ⟨cr, hcr, .inl hf, by rw [ContactRequest.peer, if_pos hf, ht], .inl hstatus⟩
      · have hne := (users_of_status hs h).2.2
        obtain ⟨cr, hcr, hf, ht, hstatus⟩ := (status_eq_some_iff hs.toRowsOk).mp h
        refine ⟨cr, hcr, .inr ht, ?_, .inl hstatus⟩
        rw [ContactRequest.peer, if_neg fun h => hne (hf.symm.trans h), hf]
    obtain ⟨cr, hcr, hof, hpeer, hstatus⟩ := hrow
    exact ⟨_, ⟨cr, ⟨hcr, hof, hstatus, hpeer ▸ hblock⟩, x, hpeer ▸ hx, rfl⟩, hxw⟩

/-- Who has sent a pending request. -/
theorem of_mem_listPendingInbound (hs : s.ContactsOk) {e : PendingContactRequest}
    (h : e ∈ s.listPendingInbound u) : s.requestId e.fromUserId u = some e.requestId ∧
      s.relations.Asks e.fromUserId u ∧ s.winkdIdOf e.fromUserId = e.fromWinkdId := by
  simp only [listPendingInbound, List.mem_filterMap, List.mem_insertionSort, List.mem_filter,
    decide_eq_true_eq, Option.map_eq_some_iff] at h
  obtain ⟨cr, ⟨hcr, ht, hstatus⟩, x, hx, rfl⟩ := h
  have hid : x.id = cr.fromId := id_of_findUserById hx
  have hname : s.db.HasName x.id x.winkdId := ⟨x, List.mem_of_find?_eq_some hx, rfl, rfl⟩
  refine ⟨(requestId_eq_some_iff hs.toRowsOk).mpr ⟨cr, hcr, hid.symm, ht, rfl⟩,
    (status_eq_some_iff hs.toRowsOk).mpr ⟨cr, hcr, hid.symm, ht, hstatus⟩, ((hasName_iff hs).mp hname).2⟩

/-- It is the pending request with its id. -/
theorem pendingRequest_of_mem (hs : s.ContactsOk) {e : PendingContactRequest}
    (h : e ∈ s.listPendingInbound u) : ∃ cr, s.pendingRequest e.requestId u = some cr ∧
      ∃ x ∈ s.db.users, x.id = cr.fromId ∧
        e = ⟨cr.id, x.id, x.winkdId, x.displayName, x.avatarData⟩ := by
  simp only [listPendingInbound, List.mem_filterMap, List.mem_insertionSort, List.mem_filter,
    decide_eq_true_eq, Option.map_eq_some_iff] at h
  obtain ⟨cr, ⟨hcr, ht, hstatus⟩, x, hx, rfl⟩ := h
  refine ⟨cr, ?_, x, List.mem_of_find?_eq_some hx, id_of_findUserById hx, rfl⟩
  cases hfind : s.pendingRequest cr.id u with
  | none =>
    refine absurd ?_ (List.find?_eq_none.mp hfind cr hcr)
    simp [Answerable, ht, hstatus]
  | some c =>
    obtain ⟨hc, hid, -⟩ := pendingRequest_spec hfind
    rw [List.inj_on_of_nodup_map hs.ids hc hcr hid]

/-- **The pending requests** are those that the relations say wait for an answer. -/
theorem mem_pending_iff (hs : s.ContactsOk) {rid : Id} :
    rid ∈ (s.listPendingInbound u).map PendingContactRequest.requestId ↔
      ∃ v, s.requestId v u = some rid ∧ s.relations.Asks v u := by
  rw [List.mem_map]
  constructor
  · rintro ⟨e, he, rfl⟩
    obtain ⟨hrid, hasks, -⟩ := of_mem_listPendingInbound hs he
    exact ⟨e.fromUserId, hrid, hasks⟩
  · rintro ⟨v, hrid, hasks⟩
    obtain ⟨cr, hcr, hf, ht, hstatus⟩ := (status_eq_some_iff hs.toRowsOk).mp hasks
    obtain ⟨cr', hcr', hf', ht', hid⟩ := (requestId_eq_some_iff hs.toRowsOk).mp hrid
    have hsame : cr = cr' :=
      List.inj_on_of_nodup_map hs.distinct hcr hcr' (Prod.ext (hf.trans hf'.symm) (ht.trans ht'.symm))
    obtain ⟨x, hx, -⟩ := (users_of_requestId hs hrid).1.found
    refine ⟨⟨cr.id, x.id, x.winkdId, x.displayName, x.avatarData⟩, ?_, hsame ▸ hid⟩
    simp only [listPendingInbound, List.mem_filterMap, List.mem_insertionSort, List.mem_filter,
      decide_eq_true_eq, Option.map_eq_some_iff]
    exact ⟨cr, ⟨hcr, ht, hstatus⟩, x, hf ▸ hx, rfl⟩

end AppState
end Winkd.Server
