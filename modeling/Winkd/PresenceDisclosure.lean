import Winkd.Known
import Winkd.Channels
import Winkd.Names

/-!
# Who is shown whose presence

Presence leaves the relay in two events.  A `presence` event goes to the accepted contacts
of its user.  A `contacts_snapshot` has an entry for each user of the roster, and the
roster is of the accepted contacts and of those whom the user has only asked, with the
presence of both.  It discloses nothing if those who were only asked look offline
(`presence_only_to_contacts`).
-/

namespace Winkd.Server

/-! ## What a connection knows of names and channels -/

/-- The entries of a roster have the names of users. -/
theorem hasName_roster {s : AppState} {u : Id} {e : ContactRosterEntry}
    (h : e ∈ s.listContactRoster u) : s.db.HasName e.userId e.winkdId :=
  (AppState.of_mem_listContactRoster h).1

namespace Known

/-- Whose name it knows. -/
theorem seen_name {d : Known} {r : RelayOp} {s : AppState} {u : Id} {w : Text}
    (h : (d.seen r (serve r s).1).user = some (u, w)) : d.user = some (u, w) ∨ s.db.HasName u w := by
  rcases d.seen_user r (serve r s).1 with heq | heq
  · exact .inl (heq.symm.trans h)
  · obtain ⟨m, hm, hmu⟩ := Option.map_eq_some_iff.mp (heq.symm.trans h)
    cases r with
    | findUserBySession token =>
      refine .inr ?_
      obtain ⟨x, hx, rfl⟩ := Option.map_eq_some_iff.mp hm
      obtain ⟨row, -, hrow⟩ := Option.bind_eq_some_iff.mp hx
      exact ⟨x, List.mem_of_find?_eq_some hrow, (Prod.mk.inj hmu).1, (Prod.mk.inj hmu).2⟩
    | _ => cases hm

theorem seen_roster {d : Known} {r : RelayOp} {s : AppState} {e : ContactRosterEntry}
    (h : e ∈ (d.seen r (serve r s).1).roster) :
    e ∈ d.roster ∨ ∃ u, r = .listContactRoster u ∧ e ∈ s.listContactRoster u := by
  cases r with
  | listContactRoster u => exact .inr ⟨u, rfl, h⟩
  | send c item =>
    obtain ⟨text, label⟩ := item
    cases label <;> exact .inl h
  | presenceGet u =>
    simp only [seen] at h
    split at h <;> exact .inl h
  | _ => first | exact .inl h | cases h

/-- Whose channel it has. -/
theorem seen_channel {d : Known} {r : RelayOp} {s : AppState} {c : ℕ}
    (h : (d.seen r (serve r s).1).channel = some c) :
    (∃ u, r = .unboundedChannel u ∧ c = s.channels.length) ∨
      d.channel = some c ∧ (d.seen r (serve r s).1).user = d.user := by
  cases r with
  | unboundedChannel u => exact .inl ⟨u, rfl, (Option.some.inj h).symm⟩
  | send c' item =>
    obtain ⟨text, label⟩ := item
    cases label <;> exact .inr ⟨h, rfl⟩
  | presenceGet u =>
    simp only [seen] at h ⊢
    split at h <;> split <;> exact .inr ⟨h, rfl⟩
  | _ => first | exact .inr ⟨h, rfl⟩ | cases h

end Known

theorem AppState.BelongsTo.outside {s : AppState} {c : ℕ} {u : Id} (h : s.BelongsTo c u)
    (e : RelayEvent) : (s.outside e).BelongsTo c u := by
  cases e with
  | forward c' => exact h.modify rfl Channel.user_forward
  | fail c' => exact h.modify rfl Channel.user_fail
  | drop c' => exact h.modify rfl Channel.user_drop
  | _ => exact h

namespace Relay
variable {F : Formats}

/-- What the connections know of names and of their channels is true, in every state of a
run. -/
structure Named (s : Relay) : Prop where
  unique : s.state.db.NamesUnique
  user : ∀ i u w, (s.known i).user = some (u, w) → s.state.db.HasName u w
  roster : ∀ i, ∀ e ∈ (s.known i).roster, s.state.db.HasName e.userId e.winkdId
  channel : ∀ i c, (s.known i).channel = some c → ∃ u, (s.known i).ActsFor u ∧ s.state.BelongsTo c u

theorem Named.step {s : Relay} (hs : s.Named) {i : ℕ} {r : RelayOp} {k : r.Reply → RelayProg Unit}
    (hr : (s.known i).may r)
    (hchannels : ∀ c u, s.state.BelongsTo c u → (serve r s.state).2.BelongsTo c u) :
    (s.answered i r k).Named := by
  have hnames := serve_names r s.state
  have hother : ∀ {j}, i ≠ j → (s.answered i r k).known j = s.known j := fun hij =>
    known_other s hij r k
  refine ⟨hnames.unique hs.unique, ?_, ?_, ?_⟩
  · intro j u w h
    refine hnames.kept u w ?_
    by_cases hij : i = j
    · subst hij
      rw [known_own] at h
      exact (Known.seen_name h).elim (hs.user i u w) id
    · rw [hother hij] at h
      exact hs.user j u w h
  · intro j e he
    refine hnames.kept _ _ ?_
    by_cases hij : i = j
    · subst hij
      rw [known_own] at he
      rcases Known.seen_roster he with he | ⟨u, -, he⟩
      · exact hs.roster i e he
      · exact hasName_roster he
    · rw [hother hij] at he
      exact hs.roster j e he
  · intro j c hc
    by_cases hij : i = j
    · subst hij
      rw [known_own] at hc ⊢
      rcases Known.seen_channel hc with ⟨u, rfl, rfl⟩ | ⟨hc, huser⟩
      · -- the channel that it opens is its user's
        refine ⟨u, hr, ⟨u, [], .notSpawned, []⟩, ?_, rfl⟩
        show (s.state.channels ++ [_])[s.state.channels.length]? = _
        rw [List.getElem?_concat_length]
      · obtain ⟨u, hu, hb⟩ := hs.channel i c hc
        refine ⟨u, ?_, hchannels c u hb⟩
        rw [Known.ActsFor, huser]
        exact hu
    · rw [hother hij] at hc ⊢
      obtain ⟨u, hu, hb⟩ := hs.channel j c hc
      exact ⟨u, hu, hchannels c u hb⟩

theorem named {allowed : Relay → RelayEvent → Prop} {start : Start} {s : Relay}
    (h : Transitions.Reaches (Relay.next F) allowed (init start) s) : s.Named := by
  refine run_invariant (fun socket => handleSocket_minds socket) h ?_ ?_ ?_ ?_
  · exact ⟨List.nodup_nil, fun _ _ _ h => (nomatch h), fun _ _ h => (nomatch h),
      fun _ _ h => nomatch h⟩
  · intro s p _ hs
    exact ⟨hs.unique, hs.user, hs.roster, hs.channel⟩
  · intro s e hs _
    have hname := fun u w => outside_hasName (u := u) (w := w) s.state e
    refine ⟨outside_namesUnique s.state e hs.unique, fun i u w h => hname u w (hs.user i u w h),
      fun i e he => hname _ _ (hs.roster i e he), fun i c hc => ?_⟩
    obtain ⟨u, hu, hb⟩ := hs.channel i c hc
    exact ⟨u, hu, hb.outside e⟩
  · intro s i r k hreach hs _ hp hr
    have hcustody := (disciplined hreach).may_issue hp
    exact hs.step hr fun _ _ => (serve_channels r s.state hcustody).belongsTo

end Relay

/-! ## What is disclosed -/

/-- The channels that a step sends to, each with the event. -/
def RelayOp.sends (s : AppState) : RelayOp → List (ℕ × Item)
  | .send c item => [(c, item)]
  | .sendToAll ids item => ids.filterMap fun u =>
      (s.clients u).map fun session => (session.sender, item)
  | _ => []

/-- A step shows the presence of contacts only: of whom it shows it to the user of a channel,
the two are accepted contacts, and neither has blocked the other. -/
def DisclosesToContacts (s : AppState) (r : RelayOp) : Prop :=
  ∀ p ∈ r.sends s, ∀ ch, s.channels[p.1]? = some ch → ∀ w ∈ p.2.text.shows,
    ∀ x ∈ s.db.users, x.winkdId = w →
      s.AcceptedBetween x.id ch.user = true ∧ s.isBlockedBetween x.id ch.user = false

/-- Those in the roster of a user who are no accepted contacts look offline. -/
def AppState.RosterOffline (s : AppState) (v : Id) : Prop :=
  ∀ e ∈ s.listContactRoster v, s.AcceptedBetween v e.userId = true ∨
    shownStatus (s.presence e.userId) = "offline"

/-- What the connection has been told is true, and those in the roster who are no accepted
contacts look offline. -/
def Known.Discreet (d : Known) (s : AppState) : Prop :=
  d.IsTrue s ∧ ∀ u, d.ActsFor u → ∀ e ∈ d.roster, s.AcceptedBetween u e.userId = true ∨
    shownStatus (s.presence e.userId) = "offline"

theorem Known.Discreet.forget (d : Known) (s : AppState) : d.forget.Discreet s :=
  ⟨.forget d s, fun _ _ _ h => nomatch h⟩

theorem Known.Discreet.step {d : Known} {r : RelayOp} {s : AppState} (hr : d.may r)
    (hroster : ∀ u, r = .listContactRoster u → s.RosterOffline u)
    (hd : r.isNextFrame = false → d.Discreet s) :
    (d.seen r (serve r s).1).Discreet (serve r s).2 := by
  refine ⟨Known.IsTrue.step hr fun hn => (hd hn).1, ?_⟩
  intro u hu e he
  by_cases hf : Known.forgetsAfter r = true
  · -- what writes the contacts forgets the roster
    have hnone : (d.seen r (serve r s).1).roster = [] := by
      cases r <;> first | rfl | cases hf
    rw [hnone] at he
    cases he
  · have hf : Known.forgetsAfter r = false := Bool.eq_false_iff.mpr hf
    simp only [Known.forgetsAfter, Bool.or_eq_false_iff] at hf
    have hun := serve_unwritten r s
    rw [AppState.acceptedBetween_congr (hun.contactRequests hf.1.1.1), hun.presence hf.1.2]
    rcases d.seen_user r (serve r s).1 with heq | heq
    · have hu : d.ActsFor u := by
        rw [Known.ActsFor, ← heq]
        exact hu
      rcases Known.seen_roster he with he | ⟨v, rfl, he⟩
      · exact (hd hf.2).2 u hu e he
      · rw [show u = v from hu.unique hr]
        exact hroster v rfl e he
    · -- a connection that authenticates has no roster yet
      obtain ⟨w, hw⟩ := hu
      obtain ⟨m, hm, -⟩ := Option.map_eq_some_iff.mp (heq.symm.trans hw)
      cases r with
      | findUserBySession token => cases he
      | _ => cases hm

namespace Relay
variable {F : Formats}

/-- A connection gets the roster only while those in it who are no accepted contacts look
offline. -/
def RostersOffline (s : Relay) : RelayEvent → Prop
  | .step i =>
    match s.waiting i with
    | some (.listContactRoster v) => s.state.RosterOffline v
    | _ => True
  | _ => True

/-- The states that the relay comes to by handlers that are carried out one after the other
and get such rosters. -/
def ReachedOffline (F : Formats) (s : Relay) : Prop :=
  ∃ start, Transitions.Reaches (Relay.next F)
    (fun s e => s.InTime e ∧ s.InTurn e ∧ s.RostersOffline e) (init start) s

theorem ReachedOffline.knows {s : Relay} (hs : s.ReachedOffline F) :
    Threads.Pool.Knows Known.Discreet RelayOp.isNextFrame Known.seen .none s := by
  obtain ⟨start, hreach⟩ := hs
  refine Relay.knows hreach (fun _ _ h => h.2.1) ?_ ?_ ?_
  · exact fun t => .forget .none t
  · rintro d t e ⟨htrue, hroster⟩
    obtain ⟨hrequests, hblocks, hpresence⟩ := outside_contacts t e
    refine ⟨htrue.congr hrequests hblocks hpresence, fun u hu c hc => ?_⟩
    rw [AppState.acceptedBetween_congr hrequests, hpresence]
    exact hroster u hu c hc
  · rintro s i r ⟨-, -, hrosters⟩ hw hr hd
    refine Known.Discreet.step hr ?_ hd
    rintro v rfl
    simpa only [RostersOffline, hw] using hrosters

/-- Names are of one user. -/
theorem Named.eq {s : Relay} (hs : s.Named) {x : User} (hx : x ∈ s.state.db.users) {u : Id} {w : Text}
    (hw : x.winkdId = w) (h : s.state.db.HasName u w) : x.id = u := by
  obtain ⟨y, hy, rfl, hyw⟩ := h
  rw [List.inj_on_of_nodup_map hs.unique hx hy (hw.trans hyw.symm)]

/-- What a handler that moves alone sends discloses presence to contacts only. -/
theorem discloses_step {s : Relay} (hn : s.Named) (ha : s.Addressed) {i : ℕ} {r : RelayOp}
    (hr : (s.known i).may r) (hd : r.isNextFrame = false → (s.known i).Discreet s.state) :
    DisclosesToContacts s.state r := by
  rintro p hp ch hch w hw x hx hxw
  cases r with
  | send c item =>
    obtain rfl := List.mem_singleton.mp hp
    obtain ⟨hc, e, he, hew, hlive⟩ := hr.2 w hw
    obtain ⟨htrue, hdiscreet⟩ := hd rfl
    obtain ⟨u, hu, ch', hch', rfl⟩ := hn.channel i c hc
    obtain rfl := Option.some.inj (hch.symm.trans hch')
    -- who does not look offline is an accepted contact
    have haccepted := (hdiscreet ch.user hu e he).resolve_right (htrue.live e.userId hlive)
    rw [hn.eq hx hxw (hew ▸ hn.roster i e he), AppState.acceptedBetween_comm,
      AppState.isBlockedBetween_comm]
    exact ⟨haccepted, (htrue.roster ch.user hu e he).2⟩
  | sendToAll ids item =>
    obtain ⟨-, rfl, huser⟩ := hr
    obtain ⟨u, hu⟩ := huser w (by
      obtain ⟨v, -, hv⟩ := List.mem_filterMap.mp hp
      obtain ⟨session, -, rfl⟩ := Option.map_eq_some_iff.mp hv
      exact hw)
    -- the channel is of one of the contacts that were listed
    obtain ⟨v, hv, hsession⟩ := List.mem_filterMap.mp hp
    obtain ⟨session, hclients, rfl⟩ := Option.map_eq_some_iff.mp hsession
    obtain ⟨ch', hch', rfl⟩ := ha.registered v session hclients
    obtain rfl := Option.some.inj (hch.symm.trans hch')
    rw [hn.eq hx hxw (hn.user i u w hu)]
    exact (hd rfl).1.contacts u ⟨w, hu⟩ ch.user hv
  | _ => cases hp

/-- **Presence is disclosed only to accepted contacts**, in every run whose handlers are carried
out one after the other, if those in a roster who are no accepted contacts look offline. -/
theorem presence_only_to_contacts {s : Relay} (hs : s.ReachedOffline F) :
    ∀ e ∈ s.trace, DisclosesToContacts e.before e.request := by
  obtain ⟨start, hreach⟩ := hs
  refine run_invariant (fun socket => handleSocket_minds socket) hreach (I := fun s : Relay =>
    ∀ e ∈ s.trace, DisclosesToContacts e.before e.request) ?_ ?_ ?_ ?_
  · exact fun _ h => nomatch h
  · exact fun _ _ _ h => h
  · exact fun _ _ h _ => h
  · intro s i r k hreach hs _ hp hr e he
    rcases List.mem_cons.mp he with rfl | he
    · exact discloses_step (named hreach) (addressed hreach) hr
        fun hn => ReachedOffline.knows ⟨start, hreach⟩ i _ hp hn
    · exact hs e he

/-! ## The presence of a user who was only asked -/

namespace Sample

instance (s : AppState) (r : RelayOp) : Decidable (DisclosesToContacts s r) :=
  inferInstanceAs (Decidable (∀ p ∈ r.sends s, ∀ ch ∈ s.channels[p.1]?, ∀ w ∈ p.2.text.shows,
    ∀ x ∈ s.db.users, x.winkdId = w →
      s.AcceptedBetween x.id ch.user = true ∧ s.isBlockedBetween x.id ch.user = false))

instance (s : AppState) (v : Id) : Decidable (s.RosterOffline v) :=
  inferInstanceAs (Decidable (∀ e ∈ s.listContactRoster v, s.AcceptedBetween v e.userId = true ∨
    shownStatus (s.presence e.userId) = "offline"))

instance (s : Relay) : ∀ e, Decidable (s.RostersOffline e)
  | .step i => by
    unfold RostersOffline
    dsimp only
    induction s.waiting i using Option.casesOn with
    | none => exact isTrue trivial
    | some r => induction r using RelayOp.casesOn <;> dsimp only <;> infer_instance
  | .connect _ => isTrue trivial
  | .forward _ => isTrue trivial
  | .fail _ => isTrue trivial
  | .drop _ => isTrue trivial
  | .account _ => isTrue trivial
  | .supporter _ _ => isTrue trivial
  | .clock _ => isTrue trivial

/-- Ada and Bob are contacts, and he connects again. -/
def contactReconnects : List RelayEvent := addedAndAccepted ++ connected 2 17 "bob's token" []

set_option maxRecDepth 4096 in
theorem presence_only_to_contacts_contactReconnects :
    (∃ e ∈ (after contactReconnects).trace, ∃ p ∈ e.request.sends e.before, p.2.text.shows ≠ []) ∧
      ∀ e ∈ (after contactReconnects).trace, DisclosesToContacts e.before e.request := by
  have hreach : (after contactReconnects).ReachedOffline formats :=
    ⟨start, Transitions.Admits.reaches (by decide)⟩
  exact ⟨by decide, presence_only_to_contacts hreach⟩

/-- Bob is connected.  Ada adds him and connects again: her roster shows that he is online. -/
def askedAndReconnects : List RelayEvent :=
  accounts ++ connected 0 15 "bob's token" [] ++
    connected 1 24 "ada's token" [commandFrame "add_contact" "bob#0002"] ++
    connected 2 16 "ada's token" []

theorem presence_disclosed_to_requester :
    ¬ ∀ s : Relay, s.ReachedInTurn formats →
      ∀ e ∈ s.trace, DisclosesToContacts e.before e.request := by
  intro h
  have hreach : (after askedAndReconnects).ReachedInTurn formats :=
    ⟨start, Transitions.Admits.reaches (by decide)⟩
  have hdisclosed := h _ hreach
  revert hdisclosed
  decide

end Sample

end Relay
end Winkd.Server
