import Winkd.Rosters
import Winkd.Service

/-!
# The buddy cap

Adding a contact counts the roster of the user who adds and creates the request later, by
another statement: in between the roster can grow.  Accepting a request adds to the roster
of the user who accepts, and counts nothing.  So the roster stays within the cap exactly if
it has not grown since it was counted, and requests are accepted only below the cap
(`cap_kept_iff`).
-/

namespace Winkd.Server

/-! ## What a step adds to a roster -/

namespace AppState
variable {s : AppState} {u v : Id}

/-- Those that the cap counts. -/
def buddies (s : AppState) (u : Id) : Finset Id := s.added u ∪ s.addedBy u

theorem card_buddies (s : AppState) (u : Id) : (s.buddies u).card = s.countRoster u :=
  (countRoster_eq s u).symm

/-- The requests that a step makes count for the user. -/
def Counts (s : AppState) (u : Id) (v : Id) (r : RelayOp) : Prop :=
  r = .createContactRequest u v ∨ ∃ cr ∈ s.contactRequests, r = .acceptContactRequest cr.id u ∧
    Answerable cr.id u cr = true ∧ cr.fromId = v

theorem counts_accept {id : Id} {cr : ContactRequest} (hcr : cr ∈ s.contactRequests)
    (h : Answerable id u cr = true) : s.Counts u cr.fromId (.acceptContactRequest id u) := by
  obtain ⟨rfl, -⟩ : cr.id = id ∧ _ := of_decide_eq_true h
  exact .inr ⟨cr, hcr, rfl, h, rfl⟩

theorem buddies_cases {r : RelayOp} (h : v ∈ (serve r s).2.buddies u) : v ∈ s.buddies u ∨ s.Counts u v r := by
  rcases Finset.mem_union.mp h with h | h
  · exact (added_cases h).imp (Finset.mem_union_left _) .inl
  · exact (addedBy_cases h).imp (Finset.mem_union_right _) .inr

/-- What a row becomes when a request is created or accepted. -/
theorem row_kept {r : RelayOp} (hr : (∃ v, r = .createContactRequest u v) ∨ ∃ id, r = .acceptContactRequest id u)
    {cr : ContactRequest} (hcr : cr ∈ s.contactRequests) :
    ∃ cr' ∈ (serve r s).2.contactRequests, cr'.fromId = cr.fromId ∧ cr'.toId = cr.toId ∧
      (cr'.status = cr.status ∨ cr'.status = .accepted ∨ cr.fromId = u ∧ cr'.status = .pending) := by
  rcases hr with ⟨v, rfl⟩ | ⟨id, rfl⟩
  · simp only [serve, createContactRequest]
    split
    · refine ⟨_, List.mem_map_of_mem hcr, ?_⟩
      split
      · rename_i h
        exact ⟨rfl, rfl, .inr (.inr ⟨h.1, rfl⟩)⟩
      · exact ⟨rfl, rfl, .inl rfl⟩
    · exact ⟨cr, List.mem_append_left _ hcr, rfl, rfl, .inl rfl⟩
  · simp only [serve, answerContactRequest]
    split
    · refine ⟨_, List.mem_map_of_mem hcr, ?_⟩
      split
      · exact ⟨rfl, rfl, .inr (.inl rfl)⟩
      · exact ⟨rfl, rfl, .inl rfl⟩
    · exact ⟨cr, hcr, rfl, rfl, .inl rfl⟩

theorem mem_added_create (s : AppState) (u v : Id) :
    v ∈ (serve (.createContactRequest u v) s).2.added u := by
  simp only [mem_added, serve, createContactRequest]
  split
  · rename_i cr hfind
    have hends : cr.fromId = u ∧ cr.toId = v := by simpa using List.find?_some hfind
    refine ⟨_, List.mem_map_of_mem (List.mem_of_find?_eq_some hfind), ?_⟩
    rw [if_pos hends]
    exact ⟨hends.1, hends.2, by simp⟩
  · exact ⟨_, List.mem_append_right _ (List.mem_singleton_self _), rfl, rfl, by simp⟩

theorem mem_buddies_accept {cr : ContactRequest} (hcr : cr ∈ s.contactRequests)
    (h : Answerable cr.id u cr = true) :
    cr.fromId ∈ (serve (.acceptContactRequest cr.id u) s).2.buddies u := by
  have hto : cr.toId = u := (of_decide_eq_true h : _ ∧ _ ∧ _).2.1
  have hrow : { cr with status := .accepted } ∈
      (serve (.acceptContactRequest cr.id u) s).2.contactRequests := by
    simp only [serve, answerContactRequest]
    split
    · exact List.mem_map.mpr ⟨cr, hcr, if_pos h⟩
    · rename_i hnone
      exact absurd h (List.find?_eq_none.mp hnone cr hcr)
  by_cases hself : cr.fromId = u
  · refine Finset.mem_union_left _ (mem_added.mpr ⟨_, hrow, hself, ?_, by simp⟩)
    exact hto.trans hself.symm
  · exact Finset.mem_union_right _ (mem_addedBy.mpr ⟨_, hrow, rfl, hto, rfl, hself⟩)

/-- Whom such a step counts, it adds to the roster, and nobody leaves it. -/
theorem buddies_of_counts {r : RelayOp} (hr : s.Counts u v r) :
    insert v (s.buddies u) ⊆ (serve r s).2.buddies u := by
  have hkept : ∀ {cr}, cr ∈ s.contactRequests → ∃ cr' ∈ (serve r s).2.contactRequests,
      cr'.fromId = cr.fromId ∧ cr'.toId = cr.toId ∧
        (cr'.status = cr.status ∨ cr'.status = .accepted ∨ cr.fromId = u ∧ cr'.status = .pending) := by
    refine row_kept ?_
    rcases hr with h | ⟨cr, -, h, -⟩
    · exact .inl ⟨v, h⟩
    · exact .inr ⟨cr.id, h⟩
  intro w hw
  rcases Finset.mem_insert.mp hw with rfl | hw
  · rcases hr with rfl | ⟨cr, hcr, rfl, hanswerable, rfl⟩
    · exact Finset.mem_union_left _ (mem_added_create s u w)
    · exact mem_buddies_accept hcr hanswerable
  · rcases Finset.mem_union.mp hw with hw | hw
    · obtain ⟨cr, hcr, rfl, rfl, hstatus⟩ := mem_added.mp hw
      obtain ⟨cr', hcr', hfrom, hto, hor⟩ := hkept hcr
      refine Finset.mem_union_left _ (mem_added.mpr ⟨cr', hcr', hfrom, hto, ?_⟩)
      grind
    · obtain ⟨cr, hcr, rfl, rfl, hstatus, hne⟩ := mem_addedBy.mp hw
      obtain ⟨cr', hcr', hfrom, hto, hor⟩ := hkept hcr
      refine Finset.mem_union_right _ (mem_addedBy.mpr ⟨cr', hcr', hfrom, hto, ?_, hne⟩)
      grind

/-- The rows have distinct ids. -/
structure RequestIds (s : AppState) : Prop where
  distinct : (s.contactRequests.map ContactRequest.id).Nodup
  drawn : ∀ cr ∈ s.contactRequests, cr.id < s.db.drawn

/-- The ids of the rows after a step. -/
theorem serve_ids (r : RelayOp) (s : AppState) :
    (serve r s).2.contactRequests.map ContactRequest.id = s.contactRequests.map ContactRequest.id ∨
      (serve r s).2.contactRequests.map ContactRequest.id =
        s.contactRequests.map ContactRequest.id ++ [s.db.drawn] ∧
          (serve r s).2.db.drawn = s.db.drawn + 1 := by
  have hmap : ∀ f : ContactRequest → ContactRequest, (∀ cr, (f cr).id = cr.id) →
      (s.contactRequests.map f).map ContactRequest.id = s.contactRequests.map ContactRequest.id := by
    intro f hf
    rw [List.map_map]
    exact List.map_congr_left fun cr _ => hf cr
  have hanswer : ∀ id t status, (s.answerContactRequest id t status).2.contactRequests.map
      ContactRequest.id = s.contactRequests.map ContactRequest.id := by
    intro id t status
    rw [answerContactRequest]
    split
    · exact hmap _ fun cr => by split <;> rfl
    · rfl
  by_cases hw : r.writesRequests = true
  · cases r with
    | createContactRequest f t =>
      simp only [serve, createContactRequest]
      split
      · exact .inl (hmap _ fun cr => by split <;> rfl)
      · exact .inr ⟨List.map_append, rfl⟩
    | acceptContactRequest id t => exact .inl (hanswer id t .accepted)
    | rejectContactRequest id t => exact .inl (hanswer id t .rejected)
    | clearPendingContactRequestsBetween a b => exact .inl (hmap _ fun cr => by split <;> rfl)
    | _ => cases hw
  · exact .inl (congrArg _ ((serve_unwritten r s).contactRequests (Bool.eq_false_iff.mpr hw)))

theorem RequestIds.serve (hs : s.RequestIds) (r : RelayOp) : (Server.serve r s).2.RequestIds := by
  have hdrawn : ∀ id ∈ s.contactRequests.map ContactRequest.id, id < s.db.drawn := by
    intro id hid
    obtain ⟨cr, hcr, rfl⟩ := List.mem_map.mp hid
    exact hs.drawn cr hcr
  rcases serve_ids r s with heq | ⟨heq, hsucc⟩
  · refine ⟨heq ▸ hs.distinct, fun cr hcr => ?_⟩
    exact (hdrawn _ (heq ▸ List.mem_map_of_mem hcr)).trans_le (serve_drawn r s)
  · constructor
    · rw [heq]
      refine List.nodup_append.mpr ⟨hs.distinct, List.nodup_singleton _, fun a ha b hb => ?_⟩
      rw [List.mem_singleton.mp hb]
      exact Nat.ne_of_lt (hdrawn a ha)
    · intro cr hcr
      have hid := List.mem_map_of_mem (f := ContactRequest.id) hcr
      rw [heq] at hid
      rw [hsucc]
      rcases List.mem_append.mp hid with hid | hid
      · exact Nat.lt_succ_of_lt (hdrawn _ hid)
      · rw [List.mem_singleton.mp hid]
        exact Nat.lt_succ_self _

theorem RequestIds.outside (hs : s.RequestIds) (e : RelayEvent) : (s.outside e).RequestIds := by
  have hrows := (outside_contacts s e).1
  refine ⟨hrows ▸ hs.distinct, fun cr hcr => ?_⟩
  rw [hrows] at hcr
  have hle : s.db.drawn ≤ (s.outside e).db.drawn := by
    cases e with
    | account r => exact answer_drawn r s.db
    | _ => exact le_rfl
  exact (hs.drawn cr hcr).trans_le hle

/-- A step counts one other at most. -/
theorem RequestIds.counts_unique (hs : s.RequestIds) {w : Id} {r : RelayOp} (hv : s.Counts u v r)
    (hw : s.Counts u w r) : v = w := by
  rcases hv with rfl | ⟨cr, hcr, rfl, -, rfl⟩
  · rcases hw with h | ⟨cr, -, h, -⟩
    · cases h
      rfl
    · cases h
  · rcases hw with h | ⟨cr', hcr', h, -, rfl⟩
    · cases h
    · rw [List.inj_on_of_nodup_map hs.distinct hcr hcr' (RelayOp.acceptContactRequest.inj h).1]

/-- **What a step makes of the roster.** -/
theorem RequestIds.countRoster_serve (hs : s.RequestIds) (u : Id) (r : RelayOp) :
    (Server.serve r s).2.countRoster u ≤ s.countRoster u ∨
      ∃ v, s.Counts u v r ∧ v ∉ s.buddies u ∧ (Server.serve r s).2.countRoster u = s.countRoster u + 1 := by
  by_cases hnew : ∃ v, s.Counts u v r ∧ v ∉ s.buddies u
  · obtain ⟨v, hv, hnot⟩ := hnew
    refine .inr ⟨v, hv, hnot, ?_⟩
    have heq : (Server.serve r s).2.buddies u = insert v (s.buddies u) := by
      refine (buddies_of_counts hv).antisymm' fun w hw => ?_
      rcases buddies_cases hw with hw | hw
      · exact Finset.mem_insert_of_mem hw
      · rw [hs.counts_unique hw hv]
        exact Finset.mem_insert_self _ _
    rw [← card_buddies, ← card_buddies, heq, Finset.card_insert_of_notMem hnot]
  · refine .inl ?_
    rw [← card_buddies, ← card_buddies]
    refine Finset.card_le_card fun w hw => ?_
    rcases buddies_cases hw with hw | hw
    · exact hw
    · by_contra hnot
      exact hnew ⟨w, hw, hnot⟩

end AppState

/-! ## The cap of a user -/

namespace Member

theorem effectiveTier_congr {m m' : Member} (h : m.toSupporter = m'.toSupporter) (now : ℕ) :
    m.effectiveTier now = m'.effectiveTier now := by
  obtain ⟨_, _⟩ := m
  obtain ⟨_, _⟩ := m'
  cases h
  rfl

theorem buddyCap_free {m : Member} {now : ℕ} (h : m.effectiveTier now ≠ supporterPlus) :
    m.buddyCap now = some (freeBuddyCap + m.extraBuddySlots) := if_neg h

end Member

namespace AppState

/-- The user is not in the plus tier. -/
def IsFree (s : AppState) (u : Id) : Prop :=
  ∀ x ∈ s.db.users, x.id = u → (s.member x).effectiveTier s.db.now ≠ supporterPlus

/-- The roster of the user is below the cap. -/
def BelowCap (s : AppState) (u : Id) : Prop :=
  ∀ x ∈ s.db.users, x.id = u → ∀ cap ∈ (s.member x).buddyCap s.db.now, (s.countRoster u : ℤ) < cap

/-- The roster of the user is within the cap. -/
def WithinCap (s : AppState) (u : Id) : Prop :=
  ∀ x ∈ s.db.users, x.id = u → ∀ cap ∈ (s.member x).buddyCap s.db.now, (s.countRoster u : ℤ) ≤ cap

/-- The cap of a user who is not in the plus tier. -/
def slotCap (s : AppState) (u : Id) : ℤ := freeBuddyCap + (s.supporters u).extraBuddySlots

section Caps
variable {s t : AppState} {u : Id}

theorem buddyCap_of_free (hu : s.IsUser u) (hfree : s.IsFree u) {m : Member}
    (hm : m.toSupporter = s.supporters u) : m.buddyCap s.db.now = some (s.slotCap u) := by
  obtain ⟨_, x, hx, rfl, -⟩ := hu
  have htier : m.effectiveTier s.db.now = (s.member x).effectiveTier s.db.now :=
    Member.effectiveTier_congr hm _
  have hslots : m.extraBuddySlots = (s.supporters x.id).extraBuddySlots :=
    congrArg Supporter.extraBuddySlots hm
  rw [Member.buddyCap_free (htier ▸ hfree x hx rfl), hslots]
  rfl

theorem belowCap_iff (hu : s.IsUser u) (hfree : s.IsFree u) :
    s.BelowCap u ↔ (s.countRoster u : ℤ) < s.slotCap u := by
  obtain ⟨x, hfind, hx⟩ := hu.found
  constructor
  · intro h
    exact h x (List.mem_of_find?_eq_some hfind) hx _ (buddyCap_of_free hu hfree (by rw [← hx]; rfl))
  · intro h y _ hy cap hcap
    rw [buddyCap_of_free hu hfree (by rw [← hy]; rfl), Option.mem_some_iff] at hcap
    exact hcap ▸ h

/-- A step changes neither the cap nor the tier. -/
theorem withinCap_serve (r : RelayOp) (hu : s.IsUser u) (hfree : s.IsFree u) :
    (serve r s).2.WithinCap u ↔ ((serve r s).2.countRoster u : ℤ) ≤ s.slotCap u := by
  have hcap : ∀ y : User, y.id = u →
      ((serve r s).2.member y).buddyCap (serve r s).2.db.now = some (s.slotCap u) := by
    rintro y rfl
    rw [(serve_names r s).now]
    refine buddyCap_of_free hu hfree ?_
    rw [← serve_supporters r s]
    rfl
  obtain ⟨x, hfind, hx⟩ := (hu.serve r).found
  constructor
  · intro h
    exact h x (List.mem_of_find?_eq_some hfind) hx _ (hcap x hx)
  · intro h y _ hy cap hmem
    rw [hcap y hy, Option.mem_some_iff] at hmem
    exact hmem ▸ h

end Caps
end AppState

/-- A step that makes the roster of the user longer leaves it within the cap. -/
def CapKept (u : Id) (e : RelayEntry) : Prop :=
  e.before.countRoster u < (serve e.request e.before).2.countRoster u →
    (serve e.request e.before).2.WithinCap u

/-- Whom a step counts for the user he has already, or the roster has not grown since the handler
counted it, or it is below the cap. -/
def Checked (u : Id) (e : RelayEntry) (d : LookedUp) : Prop :=
  match e.request with
  | .createContactRequest f t => f = u → t ∈ e.before.buddies u ∨
      (∃ n ∈ d.counted, e.before.countRoster u ≤ n) ∨ e.before.BelowCap u
  | .acceptContactRequest id t => t = u → ∀ cr ∈ e.before.contactRequests,
      AppState.Answerable id u cr = true → cr.fromId ∈ e.before.buddies u ∨ e.before.BelowCap u
  | _ => True

namespace Relay
variable {F : Formats} {u : Id}

/-- The user is not in the plus tier at any step. -/
def FreeThroughout (u : Id) (l : List RelayEntry) : Prop := ∀ e ∈ l, e.before.IsFree u

/-- The cap that a handler has computed is the user's. -/
def CapsTrue (u : Id) (s : Relay) : Prop := FreeThroughout u s.trace →
  ∀ i m c, (s.waiting i).isSome = true → (s.lookedUp i).user = some m → m.id = u →
    (s.lookedUp i).cap = some c → c = some (s.state.slotCap u)

theorem CapsTrue.step {s : Relay} (hs : s.CapsTrue u) (hcopies : s.CopiesTrue) (hfound : s.FoundUsers)
    {i : ℕ} {r : RelayOp} {k : r.Reply → RelayProg Unit} (hp : s.tasks[i]? = some (.request r k)) :
    (s.answered i r k).CapsTrue u := by
  intro hfree j m c hopen hm hmu hc
  have hold := hs fun e he => hfree e (List.mem_cons_of_mem _ he)
  have hcap : (s.answered i r k).state.slotCap u = s.state.slotCap u := by
    rw [AppState.slotCap, AppState.slotCap]
    exact congrArg (fun f => (freeBuddyCap : ℤ) + (f u).extraBuddySlots) (serve_supporters r s.state)
  rw [hcap]
  by_cases hij : i = j
  · subst hij
    have hopen' : (s.waiting i).isSome = true := by rw [Threads.Pool.waiting_eq hp]; rfl
    rw [lookedUp_own] at hm hc
    cases r with
    | findUserBySession token => cases hc
    | utcNow =>
      have hm : (s.lookedUp i).user = some m := hm
      have hc : (s.lookedUp i).user.map (fun m => m.buddyCap s.state.db.now) = some c := hc
      rw [hm] at hc
      have huser := hfound.isUser hm
      rw [hmu] at huser
      rw [← Option.some.inj hc]
      exact AppState.buddyCap_of_free huser (hfree _ List.mem_cons_self)
        (hmu ▸ hcopies i m hopen' hm)
    | _ => exact hold i m c hopen' hm hmu hc
  · rw [lookedUp_other s hij] at hm hc
    refine hold j m c ?_ hm hmu hc
    rw [← hopen, waiting_other s hij]

theorem requestIds {allowed : Relay → RelayEvent → Prop} {start : Start} {s : Relay}
    (h : Transitions.Reaches (Relay.next F) allowed (init start) s) : s.state.RequestIds := by
  refine run_invariant (fun socket => handleSocket_looks socket) h
    (I := fun s : Relay => s.state.RequestIds) ?_ ?_ ?_ ?_
  · exact ⟨List.nodup_nil, fun _ h => nomatch h⟩
  · exact fun _ _ _ h => h
  · exact fun s e hs _ => hs.outside e
  · exact fun s i r k _ hs _ _ _ => hs.serve r

theorem CapsTrue.connect {s : Relay} (hs : s.CapsTrue u)
    (hf : s.Follows LookedUp.may LookedUp.seen .none fun _ => True) (p : RelayProg Unit) :
    CapsTrue u { s with tasks := s.tasks ++ [p] } := by
  intro hfree i m c hopen hm hmu hc
  exact hs hfree i m c (waiting_of_user hf hm hopen) hm hmu hc

theorem CapsTrue.outside {s : Relay} (hs : s.CapsTrue u) {e : RelayEvent} (he : s.BuysOffline e) :
    CapsTrue u { s with state := s.state.outside e } := by
  intro hfree i m c hopen hm hmu hc
  have hold := hs hfree i m c hopen hm hmu hc
  have hkept : (s.state.outside e).supporters u = s.state.supporters u := hmu ▸ he.supporters hopen hm
  rw [AppState.slotCap, hkept]
  exact hold

/-- **What a handler has computed and counted holds of the user**, in every state of such a run. -/
theorem ReachedBuyingOffline.capsTrue {s : Relay} (hs : s.ReachedBuyingOffline F) (u : Id) :
    s.CapsTrue u := by
  obtain ⟨start, hreach⟩ := hs
  refine run_invariant (fun socket => handleSocket_looks socket) hreach (I := CapsTrue u) ?_ ?_ ?_ ?_
  · exact fun _ _ _ _ h => nomatch h
  · exact fun s p hf hs => hs.connect hf p
  · exact fun s e hs he => hs.outside he.2
  · intro s i r k hreach hs _ hp _
    exact hs.step (ReachedBuyingOffline.copiesTrue ⟨start, hreach⟩) (foundUsers hreach) hp

/-- A handler that has counted the roster, and creates a request while it is no longer, does so
below the cap. -/
theorem belowCap_of_counted {s : Relay} (hcaps : s.CapsTrue u) (hfree : FreeThroughout u s.trace)
    (hnow : s.state.IsFree u) (hu : s.state.IsUser u) {i : ℕ} {t : Id}
    {k : Except DbError ContactRequest → RelayProg Unit}
    (hp : s.tasks[i]? = some (.request (.createContactRequest u t) k))
    (hr : (s.lookedUp i).may (.createContactRequest u t))
    (hn : ∃ n ∈ (s.lookedUp i).counted, s.state.countRoster u ≤ n) : s.state.BelowCap u := by
  obtain ⟨⟨m, hm, hmu⟩, -, cap, hcap, hslot⟩ := hr
  have hopen : (s.waiting i).isSome = true := by rw [Threads.Pool.waiting_eq hp]; rfl
  have hslotCap := hcaps hfree i m cap hopen hm hmu hcap
  obtain ⟨n, hn, hle⟩ := hn
  obtain ⟨n', hn', hlt⟩ := hslot _ hslotCap
  cases hn.symm.trans hn'
  rw [AppState.belowCap_iff hu hnow]
  omega

/-- **A step keeps the cap exactly if it is checked.** -/
theorem capKept_step {s : Relay} (hids : s.state.RequestIds) (hfound : s.FoundUsers)
    (hcaps : s.CapsTrue u) {i : ℕ} {r : RelayOp} {k : r.Reply → RelayProg Unit}
    (hp : s.tasks[i]? = some (.request r k)) (hr : (s.lookedUp i).may r)
    (hfree : FreeThroughout u (s.answered i r k).trace) :
    CapKept u (s.entry serve i r) ↔ Checked u (s.entry serve i r) (s.lookedUp i) := by
  have hnow : s.state.IsFree u := hfree _ List.mem_cons_self
  -- a request that is counted for the user is of a connection of his
  have huser : ∀ v, s.state.Counts u v r → s.state.IsUser u := by
    intro v hv
    have hhas : (s.lookedUp i).Has u := by
      rcases hv with rfl | ⟨cr, -, rfl, -⟩
      · exact hr.1
      · exact hr
    obtain ⟨m, hm, rfl⟩ := hhas
    exact hfound.isUser hm
  rcases hids.countRoster_serve u r with hle | ⟨v, hv, hnot, heq⟩
  · -- nobody is counted anew
    have hold : ∀ v, s.state.Counts u v r → v ∈ s.state.buddies u := by
      intro v hv
      by_contra hnot
      have hcard := Finset.card_le_card (AppState.buddies_of_counts hv)
      rw [Finset.card_insert_of_notMem hnot, AppState.card_buddies, AppState.card_buddies] at hcard
      omega
    refine iff_of_true (fun hlt => absurd hlt (Nat.not_lt.mpr hle)) ?_
    cases r with
    | createContactRequest f t =>
      rintro rfl
      exact .inl (hold t (.inl rfl))
    | acceptContactRequest id t =>
      rintro rfl cr hcr hanswerable
      exact .inl (hold _ (AppState.counts_accept hcr hanswerable))
    | _ => trivial
  · have hu := huser v hv
    have hkept : CapKept u (s.entry serve i r) ↔ s.state.BelowCap u := by
      rw [AppState.belowCap_iff hu hnow]
      show (s.state.countRoster u < (serve r s.state).2.countRoster u →
        (serve r s.state).2.WithinCap u) ↔ _
      rw [AppState.withinCap_serve r hu hnow, heq]
      constructor
      · intro h
        have := h (Nat.lt_succ_self _)
        omega
      · intro h _
        omega
    rw [hkept]
    rcases id hv with rfl | ⟨cr, hcr, rfl, hanswerable, rfl⟩
    · constructor
      · exact fun hbelow _ => .inr (.inr hbelow)
      · intro h
        rcases h rfl with hmem | hn | hbelow
        · exact absurd hmem hnot
        · exact belowCap_of_counted hcaps (fun e he => hfree e (List.mem_cons_of_mem _ he)) hnow hu hp hr hn
        · exact hbelow
    · constructor
      · exact fun hbelow _ _ _ _ => .inr hbelow
      · intro h
        exact (h rfl cr hcr hanswerable).resolve_left hnot

/-- **The cap is kept at every step of a run exactly if each of them is checked.** -/
theorem cap_kept_iff {s : Relay} (hs : s.ReachedBuyingOffline F) (hfree : FreeThroughout u s.trace) :
    (∀ e ∈ s.trace, CapKept u e) ↔ ∀ later e earlier, s.trace = later ++ e :: earlier →
      Checked u e (Threads.Pool.learned LookedUp.seen .none e.task earlier) := by
  obtain ⟨start, hreach⟩ := hs
  suffices h : FreeThroughout u s.trace → ∀ later e earlier, s.trace = later ++ e :: earlier →
      (CapKept u e ↔ Checked u e (Threads.Pool.learned LookedUp.seen .none e.task earlier)) by
    constructor
    · intro hkept later e earlier heq
      exact (h hfree later e earlier heq).mp (hkept e (by rw [heq]; simp))
    · intro hchecked e he
      obtain ⟨later, earlier, heq⟩ := List.append_of_mem he
      exact (h hfree later e earlier heq).mpr (hchecked later e earlier heq)
  refine run_invariant (fun socket => handleSocket_looks socket) hreach (I := fun s : Relay =>
    FreeThroughout u s.trace → ∀ later e earlier, s.trace = later ++ e :: earlier →
      (CapKept u e ↔ Checked u e (Threads.Pool.learned LookedUp.seen .none e.task earlier))) ?_ ?_ ?_ ?_
  · intro _ later e earlier heq
    exact absurd heq (by simp [Threads.Pool.idle])
  · exact fun _ _ _ h => h
  · exact fun _ _ h _ => h
  · intro s i r k hreach hs _ hp hr hfree later e earlier heq
    cases later with
    | nil =>
      obtain ⟨rfl, rfl⟩ := List.cons.inj heq
      exact capKept_step (requestIds hreach) (foundUsers hreach)
        (ReachedBuyingOffline.capsTrue ⟨start, hreach⟩ u) hp hr hfree
    | cons e' later =>
      obtain ⟨-, heq⟩ := List.cons.inj heq
      exact hs (fun e he => hfree e (List.mem_cons_of_mem _ he)) later e earlier heq

namespace Sample

instance (s : AppState) (u : Id) : Decidable (s.IsFree u) :=
  inferInstanceAs (Decidable (∀ x ∈ s.db.users, x.id = u → _))

instance (s : AppState) (u : Id) : Decidable (s.WithinCap u) :=
  inferInstanceAs (Decidable (∀ x ∈ s.db.users, x.id = u →
    ∀ cap ∈ (s.member x).buddyCap s.db.now, (s.countRoster u : ℤ) ≤ cap))

instance (u : Id) (e : RelayEntry) : Decidable (CapKept u e) := inferInstanceAs (Decidable (_ → _))

instance (u : Id) (l : List RelayEntry) : Decidable (FreeThroughout u l) :=
  inferInstanceAs (Decidable (∀ e ∈ l, _))

instance (d : LookedUp) (u : Id) : Decidable (d.Has u) :=
  inferInstanceAs (Decidable (∃ m ∈ d.user, m.id = u))

instance (s : Relay) : ∀ e, Decidable (s.BuysOffline e)
  | .supporter u _ => inferInstanceAs (Decidable (∀ i < s.tasks.length,
      (s.waiting i).isSome = true → ¬ (s.lookedUp i).Has u))
  | .connect _ => isTrue trivial
  | .step _ => isTrue trivial
  | .forward _ => isTrue trivial
  | .fail _ => isTrue trivial
  | .drop _ => isTrue trivial
  | .account _ => isTrue trivial
  | .clock _ => isTrue trivial

theorem cap_kept_iff_addedAndAccepted :
    (∀ e ∈ (after addedAndAccepted).trace, CapKept 0 e) ↔
      ∀ later e earlier, (after addedAndAccepted).trace = later ++ e :: earlier →
        Checked 0 e (Threads.Pool.learned LookedUp.seen .none e.task earlier) := by
  have hreach : (after addedAndAccepted).ReachedBuyingOffline formats :=
    ⟨start, Transitions.Admits.reaches (by decide)⟩
  exact cap_kept_iff hreach (by decide +kernel)

/-- The Winkd IDs of 25 others. -/
def others : List Text :=
  (List.range 25).map fun n => ['b', Char.ofNat ('a'.toNat + n), '#', '0', '0', '0', '1']

/-- A command that adds a user. -/
def addFrame (winkdId : Text) : Frame :=
  .text (some (.obj [("command", .ofString "add_contact"), ("payload", .obj [("winkd_id", .str winkdId)])]))

/-- Bob adds Ada.  She adds 25 others, and then accepts his request. -/
def acceptedAtCap : List RelayEvent :=
  accounts ++ connected 0 23 "bob's token" [commandFrame "add_contact" "ada#0001"] ++
    others.map (fun w => .account (.createUser w w w none none)) ++
    connected 1 218 "ada's token" (others.map addFrame ++ [answerFrame "accept_contact" 3])

theorem roster_over_cap :
    ¬ ∀ s : Relay, s.ReachedBuyingOffline formats → ∀ u, FreeThroughout u s.trace →
      ∀ e ∈ s.trace, CapKept u e := by
  intro h
  have hreach : (after acceptedAtCap).ReachedBuyingOffline formats :=
    ⟨start, Transitions.Admits.reaches (by decide +kernel)⟩
  have hfree : FreeThroughout 0 (after acceptedAtCap).trace := by decide +kernel
  have hover : ∃ e ∈ (after acceptedAtCap).trace, ¬ CapKept 0 e := by decide +kernel
  obtain ⟨e, he, hnot⟩ := hover
  exact hnot (h _ hreach 0 hfree e he)

end Sample

end Relay
end Winkd.Server
