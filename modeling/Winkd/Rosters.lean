import Winkd.Adding
import Winkd.Known
import Mathlib.Data.Finset.Card

/-!
# What the roster shows and what the cap counts

Between two users there can be two requests, one each way.  The cap counts the others, by
their ids; the roster and the list of those who are told of a presence have a row for each
request, and leave out those between whom and the user there is a block.  So a user whom
both requests are about is listed twice and counted once, and one who is blocked is counted
and not listed (`counted_as_shown`, `listed_once`).
-/

namespace Winkd.Server

namespace AppState

/-! ## Whom a request is about -/

/-- Those whom the user has added, and who have not refused. -/
def added (s : AppState) (u : Id) : Finset Id :=
  ((s.contactRequests.filter fun cr => cr.fromId = u ∧ cr.status ≠ .rejected).map
    ContactRequest.toId).toFinset

/-- The others, whose requests the user has accepted. -/
def addedBy (s : AppState) (u : Id) : Finset Id :=
  ((s.contactRequests.filter fun cr => cr.toId = u ∧ cr.fromId ≠ u ∧ cr.status = .accepted).map
    ContactRequest.fromId).toFinset

/-- Those without a block whom both requests are about. -/
def doubled (s : AppState) (u : Id) : Finset Id :=
  (s.added u ∩ s.addedBy u).filter fun v => s.isBlockedBetween u v = false

/-- Those with a block whom a request is about. -/
def blockedBuddies (s : AppState) (u : Id) : Finset Id :=
  (s.added u ∪ s.addedBy u).filter fun v => s.isBlockedBetween u v = true

variable {s : AppState} {u v : Id}

theorem mem_added : v ∈ s.added u ↔
    ∃ cr ∈ s.contactRequests, cr.fromId = u ∧ cr.toId = v ∧ cr.status ≠ .rejected := by
  simp only [added, List.mem_toFinset, List.mem_map, List.mem_filter, decide_eq_true_eq]
  constructor
  · rintro ⟨cr, ⟨hcr, hu, hstatus⟩, hv⟩
    exact ⟨cr, hcr, hu, hv, hstatus⟩
  · rintro ⟨cr, hcr, hu, hv, hstatus⟩
    exact ⟨cr, ⟨hcr, hu, hstatus⟩, hv⟩

theorem mem_addedBy : v ∈ s.addedBy u ↔
    ∃ cr ∈ s.contactRequests, cr.fromId = v ∧ cr.toId = u ∧ cr.status = .accepted ∧ v ≠ u := by
  simp only [addedBy, List.mem_toFinset, List.mem_map, List.mem_filter, decide_eq_true_eq]
  constructor
  · rintro ⟨cr, ⟨hcr, hu, hne, hstatus⟩, rfl⟩
    exact ⟨cr, hcr, rfl, hu, hstatus, hne⟩
  · rintro ⟨cr, hcr, rfl, hu, hstatus, hne⟩
    exact ⟨cr, ⟨hcr, hu, hne, hstatus⟩, rfl⟩

/-- Who has been accepted has added the other. -/
theorem mem_added_of_addedBy (h : v ∈ s.addedBy u) : u ∈ s.added v := by
  obtain ⟨cr, hcr, hv, hu, hstatus, -⟩ := mem_addedBy.mp h
  exact mem_added.mpr ⟨cr, hcr, hv, hu, by rw [hstatus]; exact fun h => nomatch h⟩

/-- **The cap counts each of them once.** -/
theorem countRoster_eq (s : AppState) (u : Id) : s.countRoster u = (s.added u ∪ s.addedBy u).card := by
  rw [countRoster, ← List.card_toFinset]
  congr 1
  ext v
  rw [List.mem_toFinset, List.mem_append, Finset.mem_union, added, List.mem_toFinset, mem_addedBy]
  constructor
  · rintro (h | h)
    · exact .inl h
    · obtain ⟨cr, hcr, rfl⟩ := List.mem_map.mp h
      obtain ⟨hmem, hcond⟩ := List.mem_filter.mp hcr
      obtain ⟨hu, hstatus⟩ := of_decide_eq_true hcond
      by_cases hself : cr.fromId = u
      · -- a request to oneself is among the first
        refine .inl (List.mem_map.mpr ⟨cr, List.mem_filter.mpr ⟨hmem, ?_⟩, hu.trans hself.symm⟩)
        exact decide_eq_true ⟨hself, by rw [hstatus]; exact fun h => nomatch h⟩
      · exact .inr ⟨cr, hmem, rfl, hu, hstatus, hself⟩
  · rintro (h | ⟨cr, hcr, rfl, hu, hstatus, -⟩)
    · exact .inl h
    · exact .inr (List.mem_map.mpr ⟨cr, List.mem_filter.mpr ⟨hcr, decide_eq_true ⟨hu, hstatus⟩⟩, rfl⟩)

/-! ## The rows -/

/-- Between whom the requests are. -/
def ends (s : AppState) : List (Id × Id) := s.contactRequests.map fun cr => (cr.fromId, cr.toId)

/-- There is one row for two users and a direction, and both are users. -/
structure RowsOk (s : AppState) : Prop where
  distinct : s.ends.Nodup
  users : ∀ p ∈ s.ends, s.IsUser p.1 ∧ s.IsUser p.2

theorem ends_map {rows : List ContactRequest} {f : ContactRequest → ContactRequest}
    (hf : ∀ cr, (f cr).fromId = cr.fromId ∧ (f cr).toId = cr.toId) :
    ((rows.map f).map fun cr => (cr.fromId, cr.toId)) = rows.map fun cr => (cr.fromId, cr.toId) := by
  rw [List.map_map]
  refine List.map_congr_left fun cr _ => ?_
  rw [Function.comp, (hf cr).1, (hf cr).2]

/-- Only a request that is created adds a row. -/
theorem serve_ends (r : RelayOp) (s : AppState) : (serve r s).2.ends = s.ends ∨
    ∃ f t, r = .createContactRequest f t ∧ (f, t) ∉ s.ends ∧ (serve r s).2.ends = s.ends ++ [(f, t)] := by
  have hanswer : ∀ id t status, (s.answerContactRequest id t status).2.ends = s.ends := by
    intro id t status
    rw [answerContactRequest]
    split
    · exact ends_map fun cr => by split <;> exact ⟨rfl, rfl⟩
    · rfl
  by_cases hw : r.writesRequests = true
  · cases r with
    | createContactRequest f t =>
      simp only [serve, createContactRequest]
      split
      · exact .inl (ends_map fun cr => by split <;> exact ⟨rfl, rfl⟩)
      · rename_i hnone
        refine .inr ⟨f, t, rfl, fun h => ?_, List.map_append⟩
        obtain ⟨cr, hcr, heq⟩ := List.mem_map.mp h
        exact List.find?_eq_none.mp hnone cr hcr (decide_eq_true (Prod.mk.inj heq))
    | acceptContactRequest id t => exact .inl (hanswer id t .accepted)
    | rejectContactRequest id t => exact .inl (hanswer id t .rejected)
    | clearPendingContactRequestsBetween a b =>
      exact .inl (ends_map fun cr => by split <;> exact ⟨rfl, rfl⟩)
    | _ => cases hw
  · refine .inl ?_
    rw [ends, (serve_unwritten r s).contactRequests (Bool.eq_false_iff.mpr hw)]
    rfl

theorem RowsOk.serve {s : AppState} (hs : s.RowsOk) {r : RelayOp}
    (hr : ∀ f t, r = .createContactRequest f t → s.IsUser f ∧ s.IsUser t) :
    (Server.serve r s).2.RowsOk := by
  rcases serve_ends r s with heq | ⟨f, t, rfl, hnot, heq⟩
  · refine ⟨heq ▸ hs.distinct, fun p hp => ?_⟩
    rw [heq] at hp
    exact ⟨(hs.users p hp).1.serve r, (hs.users p hp).2.serve r⟩
  · obtain ⟨hf, ht⟩ := hr f t rfl
    constructor
    · rw [heq]
      refine List.nodup_append.mpr ⟨hs.distinct, List.nodup_singleton _, fun a ha b hb hab => ?_⟩
      exact hnot (List.mem_singleton.mp hb ▸ hab ▸ ha)
    · intro p hp
      rw [heq] at hp
      rcases List.mem_append.mp hp with hp | hp
      · exact ⟨(hs.users p hp).1.serve _, (hs.users p hp).2.serve _⟩
      · rw [List.mem_singleton.mp hp]
        exact ⟨hf.serve _, ht.serve _⟩

end AppState

theorem Relay.rowsOk {F : Formats} {allowed : Relay → RelayEvent → Prop} {start : Start} {s : Relay}
    (h : Transitions.Reaches (Relay.next F) allowed (Relay.init start) s) : s.state.RowsOk := by
  refine Relay.run_invariant (fun socket => handleSocket_looks socket) h
    (I := fun s : Relay => s.state.RowsOk) ?_ ?_ ?_ ?_
  · exact ⟨List.nodup_nil, fun _ h => nomatch h⟩
  · exact fun s p _ hs => hs
  · intro s e hs _
    have hends : (s.state.outside e).ends = s.state.ends :=
      congrArg (List.map _) (outside_contacts s.state e).1
    refine ⟨hends ▸ hs.distinct, fun p hp => ?_⟩
    rw [hends] at hp
    exact ⟨(hs.users p hp).1.outside e, (hs.users p hp).2.outside e⟩
  · intro s i r k hreach hs _ _ hr
    refine hs.serve ?_
    -- who is added has been looked up
    rintro f t rfl
    obtain ⟨⟨m, hm, rfl⟩, htarget, -⟩ := hr
    exact ⟨(foundUsers hreach).isUser hm, (foundUsers hreach).target i t htarget⟩

namespace AppState
variable {s : AppState} {u v : Id}

/-! ## What is listed -/

/-- The requests that are listed for a user. -/
def rosterRows (s : AppState) (u : Id) : List ContactRequest :=
  s.contactRequests.filter fun cr =>
    (cr.fromId = u ∨ cr.toId = u) ∧ (cr.status = .accepted ∨ (cr.status = .pending ∧ cr.fromId = u)) ∧
      s.isBlockedBetween u (cr.peer u) = false

/-- The roster has an entry for each of them. -/
theorem roster_userIds (hs : s.RowsOk) (u : Id) :
    ((s.listContactRoster u).map ContactRosterEntry.userId).Perm
      ((s.rosterRows u).map fun cr => cr.peer u) := by
  have hpeer : ∀ cr ∈ s.rosterRows u, s.IsUser (cr.peer u) := by
    intro cr hcr
    have hends := hs.users _ (List.mem_map_of_mem (List.mem_of_mem_filter hcr))
    rw [ContactRequest.peer]
    split
    · exact hends.2
    · exact hends.1
  rw [listContactRoster, List.map_filterMap]
  refine ((List.perm_insertionSort _ _).filterMap _).trans (List.Perm.of_eq ?_)
  rw [← List.filterMap_eq_map]
  refine List.filterMap_congr fun cr hcr => ?_
  obtain ⟨x, hx, hid⟩ := (hpeer cr hcr).found
  rw [hx]
  exact congrArg some hid

/-- Rows that share one end are told apart by the other. -/
theorem nodup_other {rows : List ContactRequest} (hrows : rows.Sublist s.contactRequests)
    (hs : s.RowsOk) {f : ContactRequest → Id}
    (hf : ∀ a ∈ rows, ∀ b ∈ rows, f a = f b → a.fromId = b.fromId ∧ a.toId = b.toId) :
    (rows.map f).Nodup := by
  have hends : (rows.map fun cr => (cr.fromId, cr.toId)).Nodup := hs.distinct.sublist (hrows.map _)
  refine List.Nodup.map_on ?_ hends.of_map
  intro a ha b hb h
  exact List.inj_on_of_nodup_map hends ha hb (Prod.ext (hf a ha b hb h).1 (hf a ha b hb h).2)

/-- Whom the roster lists: those that the user has added, and those that have added him. -/
theorem roster_perm (hs : s.RowsOk) (u : Id) : ∃ l₁ l₂ : List Id,
    ((s.listContactRoster u).map ContactRosterEntry.userId).Perm (l₁ ++ l₂) ∧ l₁.Nodup ∧ l₂.Nodup ∧
      l₁.toFinset = (s.added u).filter (fun v => s.isBlockedBetween u v = false) ∧
        l₂.toFinset = (s.addedBy u).filter fun v => s.isBlockedBetween u v = false := by
  have hsub : (s.rosterRows u).Sublist s.contactRequests := List.filter_sublist
  have hown : ∀ cr, cr ∈ (s.rosterRows u).filter (fun cr => cr.fromId = u) ↔ cr ∈ s.contactRequests ∧
      cr.fromId = u ∧ cr.status ≠ .rejected ∧ s.isBlockedBetween u cr.toId = false := by
    intro cr
    simp only [rosterRows, List.mem_filter, decide_eq_true_eq, ContactRequest.peer]
    cases hstatus : cr.status <;> grind
  have hother : ∀ cr, cr ∈ (s.rosterRows u).filter (fun cr => !decide (cr.fromId = u)) ↔
      cr ∈ s.contactRequests ∧ cr.fromId ≠ u ∧ cr.toId = u ∧ cr.status = .accepted ∧
        s.isBlockedBetween u cr.fromId = false := by
    intro cr
    simp only [rosterRows, List.mem_filter, ContactRequest.peer]
    cases hstatus : cr.status <;> grind
  refine ⟨((s.rosterRows u).filter fun cr => cr.fromId = u).map ContactRequest.toId,
    ((s.rosterRows u).filter fun cr => !decide (cr.fromId = u)).map ContactRequest.fromId,
    ?_, ?_, ?_, ?_, ?_⟩
  · refine (roster_userIds hs u).trans ?_
    refine ((List.filter_append_perm (fun cr => decide (cr.fromId = u)) (s.rosterRows u)).map _).symm.trans
      (List.Perm.of_eq ?_)
    rw [List.map_append]
    congr 1
    · refine List.map_congr_left fun cr hcr => ?_
      rw [ContactRequest.peer, if_pos ((hown cr).mp hcr).2.1]
    · refine List.map_congr_left fun cr hcr => ?_
      rw [ContactRequest.peer, if_neg ((hother cr).mp hcr).2.1]
  · refine nodup_other (List.filter_sublist.trans hsub) hs fun a ha b hb h => ⟨?_, h⟩
    exact ((hown a).mp ha).2.1.trans ((hown b).mp hb).2.1.symm
  · refine nodup_other (List.filter_sublist.trans hsub) hs fun a ha b hb h => ⟨h, ?_⟩
    exact ((hother a).mp ha).2.2.1.trans ((hother b).mp hb).2.2.1.symm
  · ext v
    simp only [List.mem_toFinset, List.mem_map, hown, Finset.mem_filter, mem_added]
    grind
  · ext v
    simp only [List.mem_toFinset, List.mem_map, hother, Finset.mem_filter, mem_addedBy]
    grind

/-- **A user is listed once for each request.** -/
theorem length_listContactRoster (hs : s.RowsOk) (u : Id) : (s.listContactRoster u).length =
    ((s.added u).filter fun v => s.isBlockedBetween u v = false).card +
      ((s.addedBy u).filter fun v => s.isBlockedBetween u v = false).card := by
  obtain ⟨l₁, l₂, hperm, h₁, h₂, heq₁, heq₂⟩ := roster_perm hs u
  rw [← heq₁, ← heq₂, List.toFinset_card_of_nodup h₁, List.toFinset_card_of_nodup h₂,
    ← List.length_append, ← hperm.length_eq, List.length_map]

/-- The cap counts what the roster lists exactly if as many with a block are counted as others
are listed twice. -/
theorem countRoster_iff (hs : s.RowsOk) (u : Id) :
    s.countRoster u = (s.listContactRoster u).length ↔
      (s.blockedBuddies u).card = (s.doubled u).card := by
  have hunion : ((s.added u).filter fun v => s.isBlockedBetween u v = false).card +
      ((s.addedBy u).filter fun v => s.isBlockedBetween u v = false).card =
        ((s.added u ∪ s.addedBy u).filter fun v => s.isBlockedBetween u v = false).card +
          (s.doubled u).card := by
    rw [doubled, Finset.filter_union, Finset.filter_inter_distrib, Finset.card_union_add_card_inter]
  have hsplit : ((s.added u ∪ s.addedBy u).filter fun v => s.isBlockedBetween u v = false).card +
      (s.blockedBuddies u).card = (s.added u ∪ s.addedBy u).card := by
    rw [blockedBuddies, ← Finset.card_filter_add_card_filter_not (s := s.added u ∪ s.addedBy u)
      (fun v => s.isBlockedBetween u v = false)]
    simp only [Bool.not_eq_false]
  rw [countRoster_eq, length_listContactRoster hs, hunion]
  omega

/-- Nobody is listed twice, in the roster or among those who are told of the user's presence. -/
structure ListedOnce (s : AppState) (u : Id) : Prop where
  roster : ((s.listContactRoster u).map ContactRosterEntry.userId).Nodup
  contacts : (s.listAcceptedContactUserIds u).Nodup

theorem listedOnce_iff (hs : s.RowsOk) (u : Id) : s.ListedOnce u ↔ s.doubled u = ∅ := by
  obtain ⟨l₁, l₂, hperm, h₁, h₂, heq₁, heq₂⟩ := roster_perm hs u
  have hdoubled : s.doubled u = l₁.toFinset ∩ l₂.toFinset := by
    rw [heq₁, heq₂, doubled, Finset.filter_inter_distrib]
  have hroster : ((s.listContactRoster u).map ContactRosterEntry.userId).Nodup ↔ s.doubled u = ∅ := by
    rw [hperm.nodup_iff, List.nodup_append', hdoubled, ← Finset.disjoint_iff_inter_eq_empty,
      List.disjoint_toFinset_iff_disjoint]
    exact ⟨fun h => h.2.2, fun h => ⟨h₁, h₂, h⟩⟩
  refine ⟨fun h => hroster.mp h.roster, fun h => ⟨hroster.mpr h, ?_⟩⟩
  -- whoever is told is listed
  have hsub : (s.listAcceptedContactUserIds u).Sublist ((s.rosterRows u).map fun cr => cr.peer u) := by
    refine List.Sublist.map _ (List.monotone_filter_right _ fun cr hcr => ?_)
    obtain ⟨hu, hstatus, hblock⟩ := of_decide_eq_true hcr
    exact decide_eq_true ⟨hu, .inl hstatus, hblock⟩
  exact ((roster_userIds hs u).nodup_iff.mp (hroster.mpr h)).sublist hsub

/-! ## Steps that keep the requests apart -/

/-- Who has added whom after a step. -/
theorem added_cases {r : RelayOp} (h : v ∈ (serve r s).2.added u) :
    v ∈ s.added u ∨ r = .createContactRequest u v := by
  obtain ⟨cr, hcr, rfl, rfl, hstatus⟩ := mem_added.mp h
  cases serve_requests r s hcr with
  | kept hbefore _ _ => exact .inl (mem_added.mpr ⟨cr, hbefore, rfl, rfl, hstatus⟩)
  | requested hr _ => exact .inr hr
  | accepted _ _ hbefore => exact .inl (mem_added.mpr ⟨_, hbefore, rfl, rfl, fun h => nomatch h⟩)
  | rejected hrejected => exact absurd hrejected hstatus

theorem addedBy_cases {r : RelayOp} (h : v ∈ (serve r s).2.addedBy u) :
    v ∈ s.addedBy u ∨ ∃ cr ∈ s.contactRequests, r = .acceptContactRequest cr.id u ∧
      Answerable cr.id u cr = true ∧ cr.fromId = v := by
  obtain ⟨cr, hcr, rfl, rfl, hstatus, hne⟩ := mem_addedBy.mp h
  cases serve_requests r s hcr with
  | kept hbefore _ _ => exact .inl (mem_addedBy.mpr ⟨cr, hbefore, rfl, rfl, hstatus, hne⟩)
  | requested _ hpending =>
    rw [hstatus] at hpending
    cases hpending
  | accepted hr _ hbefore => exact .inr ⟨_, hbefore, hr, decide_eq_true ⟨rfl, rfl, rfl⟩, rfl⟩
  | rejected hrejected =>
    rw [hstatus] at hrejected
    cases hrejected

/-- Nobody has a request accepted by one whom he has added himself. -/
def OneWay (s : AppState) : Prop := ∀ u, ∀ v ∈ s.added u, v ∉ s.addedBy u

/-- A request is created only towards one whose own request is not accepted, and is accepted only
by one who has not added the other himself. -/
def KeepsOneWay (s : AppState) : RelayOp → Prop
  | .createContactRequest f t => t ∉ s.addedBy f
  | .acceptContactRequest id t => ∀ cr ∈ s.contactRequests, Answerable id t cr = true → cr.fromId ∉ s.added t
  | _ => True

theorem OneWay.serve (hs : s.OneWay) {r : RelayOp} (hr : s.KeepsOneWay r) : (Server.serve r s).2.OneWay := by
  intro u v hadded hby
  rcases added_cases hadded with hold | rfl
  · rcases addedBy_cases hby with hby | ⟨cr, hcr, rfl, hanswerable, rfl⟩
    · exact hs u v hold hby
    · exact hr cr hcr hanswerable hold
  · rcases addedBy_cases hby with hby | ⟨cr, -, hreq, -⟩
    · exact hr hby
    · cases hreq

theorem added_outside (s : AppState) (e : RelayEvent) (u : Id) :
    (s.outside e).added u = s.added u ∧ (s.outside e).addedBy u = s.addedBy u := by
  rw [added, addedBy, (outside_contacts s e).1]
  exact ⟨rfl, rfl⟩

theorem OneWay.outside (hs : s.OneWay) (e : RelayEvent) : (s.outside e).OneWay := by
  intro u v
  rw [(added_outside s e u).1, (added_outside s e u).2]
  exact hs u v

theorem OneWay.doubled (hs : s.OneWay) (u : Id) : s.doubled u = ∅ := by
  rw [AppState.doubled, Finset.filter_eq_empty_iff]
  intro v hv
  obtain ⟨hadded, hby⟩ := Finset.mem_inter.mp hv
  exact absurd hby (hs u v hadded)

/-- Nobody has added one with a block between the two. -/
def Unblocked (s : AppState) : Prop := ∀ u, ∀ v ∈ s.added u, s.isBlockedBetween u v = false

/-- A request is created only where there is no block, and a block only where neither has added the
other. -/
def KeepsUnblocked (s : AppState) : RelayOp → Prop
  | .createContactRequest f t => s.isBlockedBetween f t = false
  | .createBlock a b => b ∉ s.added a ∧ a ∉ s.added b
  | _ => True

theorem Unblocked.serve (hs : s.Unblocked) {r : RelayOp} (hr : s.KeepsUnblocked r) :
    (Server.serve r s).2.Unblocked := by
  intro u v hadded
  by_contra hcontra
  rcases blocked_cases (Bool.eq_true_of_not_eq_false hcontra) with hblocked | ⟨hcreated, -⟩
  · rcases added_cases hadded with hold | rfl
    · rw [hs u v hold] at hblocked
      cases hblocked
    · rw [show s.isBlockedBetween u v = false from hr] at hblocked
      cases hblocked
  · rcases added_cases hadded with hold | rfl
    · rcases hcreated with rfl | rfl
      · exact hr.1 hold
      · exact hr.2 hold
    · rcases hcreated with h | h <;> cases h

theorem Unblocked.outside (hs : s.Unblocked) (e : RelayEvent) : (s.outside e).Unblocked := by
  intro u v
  rw [(added_outside s e u).1, isBlockedBetween_congr (outside_contacts s e).2.1]
  exact hs u v

theorem Unblocked.blockedBuddies (hs : s.Unblocked) (u : Id) : s.blockedBuddies u = ∅ := by
  rw [AppState.blockedBuddies, Finset.filter_eq_empty_iff]
  intro v hv
  rw [Bool.not_eq_true]
  rcases Finset.mem_union.mp hv with hv | hv
  · exact hs u v hv
  · rw [isBlockedBetween_comm]
    exact hs v u (mem_added_of_addedBy hv)

end AppState

namespace Relay
variable {F : Formats}

/-- The steps of connections are such that `P` holds of what they come to. -/
def Steps (P : AppState → RelayOp → Prop) (s : Relay) : RelayEvent → Prop
  | .step i => ∀ r ∈ s.waiting i, P s.state r
  | _ => True

/-- The states that the relay comes to by such steps. -/
def ReachedBy (F : Formats) (P : AppState → RelayOp → Prop) (s : Relay) : Prop :=
  ∃ start, Transitions.Reaches (Relay.next F) (fun s e => s.InTime e ∧ s.Steps P e) (init start) s

/-- What such steps keep holds in every state reached. -/
theorem ReachedBy.invariant {P : AppState → RelayOp → Prop} {I : AppState → Prop} {s : Relay}
    (hs : s.ReachedBy F P) (hinit : ∀ start, I (.init start)) (houtside : ∀ t e, I t → I (t.outside e))
    (hserve : ∀ t r, I t → P t r → I (serve r t).2) : I s.state := by
  obtain ⟨start, hreach⟩ := hs
  refine run_invariant (fun socket => handleSocket_looks socket) hreach (I := fun s : Relay => I s.state)
    (hinit start) (fun _ _ _ h => h) (fun s e h _ => houtside s.state e h) ?_
  intro s i r k _ hs hallowed hp _
  exact hserve s.state r hs (hallowed.2 r (Threads.Pool.waiting_eq hp))

/-! ## The results -/

/-- **The cap counts what the roster shows** exactly if as many with a block are counted as others
are listed twice; and always, if requests and blocks are made so that there are none. -/
theorem counted_as_shown {s : Relay} (hs : s.Reached F) (u : Id) :
    (s.state.countRoster u = (s.state.listContactRoster u).length ↔
      (s.state.blockedBuddies u).card = (s.state.doubled u).card) ∧
    (s.ReachedBy F (fun t r => t.KeepsOneWay r ∧ t.KeepsUnblocked r) →
      s.state.countRoster u = (s.state.listContactRoster u).length) := by
  obtain ⟨start, hreach⟩ := hs
  have hiff := AppState.countRoster_iff (rowsOk hreach) u
  refine ⟨hiff, fun hby => hiff.mpr ?_⟩
  have hkept : s.state.OneWay ∧ s.state.Unblocked :=
    hby.invariant (I := fun t => t.OneWay ∧ t.Unblocked)
      (fun _ => ⟨fun _ _ h => (nomatch h), fun _ _ h => nomatch h⟩)
      (fun t e h => ⟨h.1.outside e, h.2.outside e⟩)
      fun t r h hr => ⟨h.1.serve hr.1, h.2.serve hr.2⟩
  rw [hkept.1.doubled, hkept.2.blockedBuddies]

namespace Sample

/-- Bob accepts the request of Ada, and blocks her. -/
def contactBlocked : List RelayEvent :=
  accounts ++ connected 0 23 "ada's token" [commandFrame "add_contact" "bob#0002"] ++
    connected 1 28 "bob's token" [answerFrame "accept_contact" 3, commandFrame "block_user" "ada#0001"]

instance (s : AppState) (r : RelayOp) : Decidable (s.KeepsOneWay r) := by
  unfold AppState.KeepsOneWay
  split <;> infer_instance

instance (s : AppState) (r : RelayOp) : Decidable (s.KeepsUnblocked r) := by
  unfold AppState.KeepsUnblocked
  split <;> infer_instance

instance (P : AppState → RelayOp → Prop) [∀ t r, Decidable (P t r)] (s : Relay) :
    ∀ e, Decidable (s.Steps P e)
  | .step i => inferInstanceAs (Decidable (∀ r ∈ s.waiting i, P s.state r))
  | .connect _ => isTrue trivial
  | .forward _ => isTrue trivial
  | .fail _ => isTrue trivial
  | .drop _ => isTrue trivial
  | .account _ => isTrue trivial
  | .supporter _ _ => isTrue trivial
  | .clock _ => isTrue trivial

theorem counted_as_shown_addedAndAccepted :
    (after addedAndAccepted).state.countRoster 1 =
      ((after addedAndAccepted).state.listContactRoster 1).length := by
  have hreach : (after addedAndAccepted).Reached formats := after_reached (by decide)
  exact (counted_as_shown hreach 1).2 ⟨start, Transitions.Admits.reaches (by decide)⟩

/-- Ada takes a slot of Bob's, and he does not see her in the roster. -/
theorem blocked_contact_counted :
    ¬ ∀ s : Relay, s.ReachedInTurn formats → ∀ u,
      s.state.countRoster u = (s.state.listContactRoster u).length := by
  intro h
  have hreach : (after contactBlocked).ReachedInTurn formats :=
    ⟨start, Transitions.Admits.reaches (by decide)⟩
  have hcount : (after contactBlocked).state.countRoster 1 ≠
      ((after contactBlocked).state.listContactRoster 1).length := by
    decide
  exact hcount (h _ hreach 1)

end Sample

/-- **Each buddy is listed once** exactly if no two requests are about one without a block; and
always, if requests are created and accepted one way only. -/
theorem listed_once {s : Relay} (hs : s.Reached F) (u : Id) :
    (s.state.ListedOnce u ↔ s.state.doubled u = ∅) ∧
      (s.ReachedBy F AppState.KeepsOneWay → s.state.ListedOnce u) := by
  obtain ⟨start, hreach⟩ := hs
  have hiff := AppState.listedOnce_iff (rowsOk hreach) u
  refine ⟨hiff, fun hby => hiff.mpr (AppState.OneWay.doubled ?_ u)⟩
  exact hby.invariant (fun _ _ _ h => nomatch h) (fun t e h => h.outside e) fun t r h hr => h.serve hr

namespace Sample

/-- Ada adds Bob; he adds her, and then accepts her request. -/
def addedEachOther : List RelayEvent :=
  accounts ++ connected 0 23 "ada's token" [commandFrame "add_contact" "bob#0002"] ++
    connected 1 31 "bob's token" [commandFrame "add_contact" "ada#0001", answerFrame "accept_contact" 3]

theorem listed_once_addedAndAccepted : (after addedAndAccepted).state.ListedOnce 1 := by
  have hreach : (after addedAndAccepted).Reached formats := after_reached (by decide)
  exact (listed_once hreach 1).2 ⟨start, Transitions.Admits.reaches (by decide)⟩

/-- Ada is in the roster of Bob twice. -/
theorem contact_listed_twice :
    ¬ ∀ s : Relay, s.ReachedInTurn formats → ∀ u, s.state.ListedOnce u := by
  intro h
  have hreach : (after addedEachOther).ReachedInTurn formats :=
    ⟨start, Transitions.Admits.reaches (by decide)⟩
  have htwice : ((after addedEachOther).state.listContactRoster 1).map ContactRosterEntry.userId =
      [0, 0] := by
    decide
  have hroster := (h _ hreach 1).roster
  rw [htwice] at hroster
  exact absurd hroster (by decide)

end Sample

end Relay
end Winkd.Server
