import Winkd.RelayRuns
import Winkd.Contacts

/-!
# Adding a contact again

A contact request has a direction, being contacts has none.  Adding sets the request of the
user who adds to pending, also when it had been accepted: then the two are contacts no
more, unless the request the other way is accepted too (`add_keeps_contact_iff`).
-/

namespace Winkd.Server

namespace AppState

/-- Whose request a command of `user` creates, or sets to pending: the user with the id in
the payload, if that is another, the roster has a slot and there is no block. -/
def addsContact (s : AppState) (user : Member) (payload : Json) : Option Id :=
  match addTargetId payload with
  | none => none
  | some targetId =>
    if targetId = user.winkdId then none
    else if (user.buddyCap s.db.now).any fun cap => cap ≤ (s.countRoster user.id : ℤ) then none
    else match s.findUserByWinkdId targetId with
      | some target => if s.isBlockedBetween user.id target.id then none else some target.id
      | none => none

/-- The state once it has. -/
def afterAdd (s : AppState) (userId : Id) : Option Id → AppState
  | some targetId => (s.createContactRequest userId targetId).2
  | none => s

/-- `v` sees `w` in the roster as an accepted contact. -/
def InRoster (s : AppState) (v w : Id) : Bool :=
  (s.listContactRoster v).any fun e => e.userId = w ∧ e.accepted

/-- The same contacts, blocks and users. -/
structure SameContacts (s t : AppState) : Prop where
  contactRequests : t.contactRequests = s.contactRequests
  blocks : t.blocks = s.blocks
  users : t.db.users = s.db.users

theorem SameContacts.refl (s : AppState) : SameContacts s s := ⟨rfl, rfl, rfl⟩

end AppState

/-! ## What the command does to the contacts -/

/-- The points at which a command tells of what it has done. -/
def RelayOp.tells : RelayOp → Bool
  | .clientsGet _ => true
  | .utcNow => true
  | .send _ _ => true
  | _ => false

theorem sameContacts_tells (r : RelayOp) (s : AppState) (hr : r.tells = true) :
    AppState.SameContacts s (serve r s).2 := by
  cases r with
  | clientsGet u => exact .refl s
  | utcNow => exact .refl s
  | send c item =>
    obtain ⟨channels, h⟩ := send_state s c item
    simp only [serve, h]
    exact ⟨rfl, rfl, rfl⟩
  | _ => cases hr

/-- A program that comes only to such points. -/
def Tells {α : Type} (p : RelayProg α) : Prop := p.Asks fun r => r.tells = true

theorem tells_push (tx : ℕ) (text : Json) : Tells (push tx text) :=
  Prog.asks_bind (Prog.asks_ask rfl) fun _ => Prog.asks_pure ()

theorem tells_sendErr (tx : ℕ) (message : Text) : Tells (sendErr tx message) := tells_push tx _

theorem tells_notify (userId : Id) (text : Json) : Tells (notify userId text) := by
  refine Prog.asks_bind (Prog.asks_ask rfl) fun session => ?_
  cases session with
  | none => exact Prog.asks_pure ()
  | some session => exact tells_push session.sender text

/-- The program ends with the contacts of `s`. -/
abbrev EndsAs (s : AppState) {α : Type} (p : RelayProg α) (t : AppState) : Prop :=
  p.wp serve (fun _ => AppState.SameContacts s) (fun _ => AppState.SameContacts s) t

/-- A program that only tells leaves the contacts as they are. -/
theorem Tells.endsAs {α : Type} {p : RelayProg α} (hp : Tells p) {s t : AppState}
    (h : AppState.SameContacts s t) : EndsAs s p t := by
  refine hp.wp (fun r u hr hu => ?_) h
  have hstep := sameContacts_tells r u hr
  exact ⟨hstep.contactRequests.trans hu.contactRequests, hstep.blocks.trans hu.blocks,
    hstep.users.trans hu.users⟩

section Command
variable {F : Formats}

theorem requestContact_ends (user : Member) (tx : ℕ) (targetId : Text) (target : Member)
    (s : AppState) : EndsAs (s.createContactRequest user.id target.id).2
      (requestContact F user tx targetId target) s := by
  simp only [requestContact, EndsAs, Prog.wp_bind, Prog.wp_ask, serve]
  rw [← Prog.wp_bind]
  exact Tells.endsAs (Prog.asks_bind (tells_push tx _) fun _ => tells_notify target.id _) (.refl _)

/-- Whose request is created, once the id is known and the roster has a slot. -/
theorem addTarget_ends (user : Member) (tx : ℕ) (targetId : Text) (s : AppState) :
    EndsAs (s.afterAdd user.id (match s.findUserByWinkdId targetId with
      | some target => if s.isBlockedBetween user.id target.id then none else some target.id
      | none => none)) (addTarget F user tx targetId) s := by
  simp only [addTarget, EndsAs, Prog.wp_bind, Prog.wp_ask, serve]
  cases s.findUserByWinkdId targetId with
  | none => exact (tells_sendErr tx _).endsAs (.refl s)
  | some target =>
    simp only [Prog.wp_bind, Prog.wp_ask, serve]
    cases s.isBlockedBetween user.id target.id with
    | true => exact (tells_sendErr tx _).endsAs (.refl s)
    | false => exact requestContact_ends user tx targetId target s

/-- **What a command leaves of the contacts.** -/
theorem addContact_ends (user : Member) (tx : ℕ) (payload : Json) (s : AppState) :
    EndsAs (s.afterAdd user.id (s.addsContact user payload)) (addContact F user tx payload) s := by
  rw [addContact, AppState.addsContact]
  -- each early return leaves the contacts as they are
  cases addTargetId payload with
  | none => exact (tells_sendErr tx _).endsAs (.refl s)
  | some targetId =>
    dsimp only
    by_cases hself : targetId = user.winkdId
    · rw [if_pos hself, if_pos hself]
      exact (tells_sendErr tx _).endsAs (.refl s)
    · rw [if_neg hself, if_neg hself]
      simp only [EndsAs, Prog.wp_bind, Prog.wp_ask, serve]
      cases user.buddyCap s.db.now with
      | none => exact addTarget_ends user tx targetId s
      | some cap =>
        simp only [Prog.wp_bind, Prog.wp_ask, serve, Option.any_some, decide_eq_true_eq]
        by_cases hfull : cap ≤ (s.countRoster user.id : ℤ)
        · rw [if_pos hfull, if_pos hfull]
          exact (tells_sendErr tx _).endsAs (.refl s)
        · rw [if_neg hfull, if_neg hfull]
          exact addTarget_ends user tx targetId s

/-- The state after a command. -/
theorem addContact_run (user : Member) (tx : ℕ) (payload : Json) (s : AppState) :
    AppState.SameContacts (s.afterAdd user.id (s.addsContact user payload))
      ((addContact F user tx payload).run serve s).2 :=
  Prog.run_of_wp (addContact_ends user tx payload s)

end Command

/-! ## What remains accepted -/

theorem accepted_createContactRequest (s : AppState) (f t a b : Id) :
    (s.createContactRequest f t).2.Accepted a b = true ↔
      s.Accepted a b = true ∧ ¬ (a = f ∧ b = t) := by
  constructor
  · intro h
    obtain ⟨cr, hcr, hstatus, rfl, rfl⟩ := AppState.accepted_iff.mp h
    cases serve_requests (.createContactRequest f t) s hcr with
    | kept hbefore hne _ =>
      refine ⟨AppState.accepted_iff.mpr ⟨cr, hbefore, hstatus, rfl, rfl⟩, ?_⟩
      rintro ⟨rfl, rfl⟩
      exact hne rfl
    | requested _ hpending =>
      rw [hstatus] at hpending
      cases hpending
    | accepted hr _ _ => cases hr
    | rejected hrejected =>
      rw [hstatus] at hrejected
      cases hrejected
  · rintro ⟨h, hne⟩
    obtain ⟨cr, hcr, hstatus, rfl, rfl⟩ := AppState.accepted_iff.mp h
    refine AppState.accepted_iff.mpr ⟨cr, ?_, hstatus, rfl, rfl⟩
    rw [AppState.createContactRequest]
    split
    · -- the upsert changes the row of `f` and `t` only
      exact List.mem_map.mpr ⟨cr, hcr, if_neg hne⟩
    · exact List.mem_append_left _ hcr

/-- Whose request it is decides whether two contacts remain accepted. -/
theorem acceptedBetween_createContactRequest {s : AppState} {f t a b : Id} (hab : b ≠ a)
    (hf : f = a) (h : s.AcceptedBetween a b = true) :
    (s.createContactRequest f t).2.AcceptedBetween a b = true ↔ (t = b → s.Accepted b a = true) := by
  subst hf
  simp only [AppState.AcceptedBetween, Bool.or_eq_true, accepted_createContactRequest] at h ⊢
  grind

namespace AppState

theorem peer_eq_iff {cr : ContactRequest} {v w : Id} (hvw : v ≠ w) :
    (cr.fromId = v ∨ cr.toId = v) ∧ cr.peer v = w ↔
      (cr.fromId = v ∧ cr.toId = w) ∨ (cr.fromId = w ∧ cr.toId = v) := by
  unfold ContactRequest.peer
  grind

theorem id_of_findUserById {b : Backend} {id : Id} {u : User} (h : b.findUserById id = some u) :
    u.id = id := by simpa using List.find?_some h

/-- Who is in the roster of whom. -/
theorem inRoster_iff {s : AppState} {v w : Id} (hvw : v ≠ w) : s.InRoster v w = true ↔
    s.AcceptedBetween v w = true ∧ s.isBlockedBetween v w = false ∧
      (s.db.findUserById w).isSome = true := by
  have hrows : s.AcceptedBetween v w = true ↔ ∃ cr ∈ s.contactRequests, cr.status = .accepted ∧
      (cr.fromId = v ∨ cr.toId = v) ∧ cr.peer v = w := by
    simp only [AcceptedBetween, Bool.or_eq_true, accepted_iff, peer_eq_iff hvw]
    grind
  rw [hrows]
  simp only [InRoster, listContactRoster, List.any_eq_true, List.mem_filterMap,
    List.mem_insertionSort, List.mem_filter, decide_eq_true_eq, Option.map_eq_some_iff]
  constructor
  · rintro ⟨e, ⟨cr, ⟨hcr, hof, -, hblock⟩, u, hu, rfl⟩, hw, hstatus⟩
    have hpeer : cr.peer v = w := (id_of_findUserById hu).symm.trans hw
    rw [hpeer] at hblock hu
    exact ⟨⟨cr, hcr, of_decide_eq_true hstatus, hof, hpeer⟩, hblock, by rw [hu]; rfl⟩
  · rintro ⟨⟨cr, hcr, hstatus, hof, hpeer⟩, hblock, huser⟩
    obtain ⟨u, hu⟩ := Option.isSome_iff_exists.mp huser
    refine ⟨_, ⟨cr, ⟨hcr, hof, .inl hstatus, ?_⟩, u, ?_, rfl⟩, id_of_findUserById hu, ?_⟩
    · rw [hpeer]
      exact hblock
    · rw [hpeer]
      exact hu
    · exact decide_eq_true hstatus

/-- The two are accepted contacts in `t`, and in the roster of the other as they were. -/
structure ContactsKept (s t : AppState) (a b : Id) : Prop where
  accepted : t.AcceptedBetween a b = true
  own : s.InRoster a b = true → t.InRoster a b = true
  other : s.InRoster b a = true → t.InRoster b a = true

/-- Two contacts are kept where they remain accepted, the blocks and the users being the
same. -/
theorem contactsKept_iff {s t : AppState} {a b : Id} (hab : b ≠ a) (hblocks : t.blocks = s.blocks)
    (husers : t.db.users = s.db.users) :
    ContactsKept s t a b ↔ t.AcceptedBetween a b = true := by
  constructor
  · exact ContactsKept.accepted
  · intro h
    have hblocked := isBlockedBetween_congr (s := s) (t := t) hblocks
    have hfind : ∀ id, t.db.findUserById id = s.db.findUserById id := by
      intro id
      rw [Backend.findUserById, husers, Backend.findUserById]
    refine ⟨h, ?_, ?_⟩
    · rw [inRoster_iff hab.symm, inRoster_iff hab.symm, hblocked, hfind]
      exact fun hold => ⟨h, hold.2⟩
    · rw [inRoster_iff hab, inRoster_iff hab, hblocked, hfind, acceptedBetween_comm t]
      exact fun hold => ⟨h, hold.2⟩

end AppState

/-! ## The result -/

/-- **Adding a contact keeps an accepted contact exactly if** the command does not create a
request to that contact, or the request of that contact is accepted too. -/
theorem add_keeps_contact_iff {F : Formats} (s : AppState) (user : Member) (tx : ℕ) (payload : Json)
    {b : Id} (hb : b ≠ user.id) (h : s.AcceptedBetween user.id b = true) :
    AppState.ContactsKept s ((addContact F user tx payload).run serve s).2 user.id b ↔
      (s.addsContact user payload = some b → s.Accepted b user.id = true) := by
  have hrun := addContact_run (F := F) user tx payload s
  have hafter : (s.afterAdd user.id (s.addsContact user payload)).blocks = s.blocks ∧
      (s.afterAdd user.id (s.addsContact user payload)).db.users = s.db.users := by
    cases s.addsContact user payload with
    | none => exact ⟨rfl, rfl⟩
    | some t =>
      simp only [AppState.afterAdd, AppState.createContactRequest]
      split <;> exact ⟨rfl, rfl⟩
  rw [AppState.contactsKept_iff hb (hrun.blocks.trans hafter.1) (hrun.users.trans hafter.2),
    AppState.acceptedBetween_congr hrun.contactRequests]
  cases hadds : s.addsContact user payload with
  | none => exact ⟨fun _ h => (by cases h), fun _ => h⟩
  | some t =>
    refine (acceptedBetween_createContactRequest hb rfl h).trans ?_
    rw [Option.some_inj]

namespace Relay.Sample

/-- The payload of a command that adds a user. -/
def addPayload (winkdId : String) : Json := .obj [("winkd_id", .ofString winkdId)]

/-- Bob adds Ada too. -/
theorem add_keeps_contact_iff_crossing :
    ∃ u ∈ (after addedAndAccepted).state.db.users, u.id = 1 ∧
      (after addedAndAccepted).state.addsContact ((after addedAndAccepted).state.member u)
        (addPayload "ada#0001") = some 0 ∧
      AppState.ContactsKept (after addedAndAccepted).state
        ((addContact formats ((after addedAndAccepted).state.member u) 1 (addPayload "ada#0001")).run
          serve (after addedAndAccepted).state).2 u.id 0 := by
  have hbob : ∃ u ∈ (after addedAndAccepted).state.db.users, u.id = 1 ∧
      (after addedAndAccepted).state.addsContact ((after addedAndAccepted).state.member u)
        (addPayload "ada#0001") = some 0 := by
    decide +kernel
  have haccepted : (after addedAndAccepted).state.AcceptedBetween 1 0 = true ∧
      (after addedAndAccepted).state.Accepted 0 1 = true := by
    decide +kernel
  obtain ⟨u, hu, hid, hadds⟩ := hbob
  refine ⟨u, hu, hid, hadds, (add_keeps_contact_iff (after addedAndAccepted).state
    ((after addedAndAccepted).state.member u) 1 (addPayload "ada#0001") ?_ ?_).mpr fun _ => ?_⟩
  · show 0 ≠ u.id
    rw [hid]
    decide
  · show (after addedAndAccepted).state.AcceptedBetween u.id 0 = true
    rw [hid]
    exact haccepted.1
  · show (after addedAndAccepted).state.Accepted 0 u.id = true
    rw [hid]
    exact haccepted.2

/-- Ada adds Bob again, and they are contacts no more. -/
theorem add_removes_contact :
    ¬ ∀ s : Relay, s.Reached formats → ∀ u ∈ s.state.db.users, ∀ tx payload b, b ≠ u.id →
      s.state.AcceptedBetween u.id b = true →
        ((addContact formats (s.state.member u) tx payload).run serve s.state).2.AcceptedBetween u.id b =
          true := by
  intro h
  have hreach : (after addedAndAccepted).Reached formats := after_reached (by decide)
  have hada : ∃ u ∈ (after addedAndAccepted).state.db.users, u.id = 0 ∧
      ((addContact formats ((after addedAndAccepted).state.member u) 0 (addPayload "bob#0002")).run serve
        (after addedAndAccepted).state).2.AcceptedBetween 0 1 = false := by
    decide +kernel
  obtain ⟨u, hu, hid, hlost⟩ := hada
  have hkept := h _ hreach u hu 0 (addPayload "bob#0002") 1 (by rw [hid]; decide)
    (by rw [hid]; decide +kernel)
  rw [hid, hlost] at hkept
  cases hkept

end Relay.Sample
end Winkd.Server
