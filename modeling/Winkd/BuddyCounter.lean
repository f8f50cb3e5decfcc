import Winkd.AppCore
import Winkd.Transitions

/-!
# The buddy counter

`buddyUsed` is set by `auth_ok` and by a snapshot, and counts up and down with some of the events that
add and remove contacts.  It is the number of the contacts throughout just if `auth_ok` brings that
number, a snapshot has no request that is still `pending_outbound`, and no contact is added by a
message or by a request that was accepted (`buddyUsed_eq_iff`).
-/

namespace Winkd.Web
open UnicodeText Winkd.Server Transitions

namespace AppCore
variable {numberText : Text → CodeUnits} {toLowerCase : Text → Text} {me : Identity} {s : AppCore}

/-- The counter is the number of the contacts. -/
def Balanced (s : AppCore) : Prop := s.buddyUsed = s.contacts.length

instance (s : AppCore) : Decidable s.Balanced := inferInstanceAs (Decidable (_ = _))

/-- Where an event of the server adds contacts, it counts them. -/
def CountsContacts (toLowerCase : Text → Text) (s : AppCore) (payload : Json) :
    Option ServerEvent → Prop
  | some .contactsSnapshot => ∀ c ∈ snapshotContacts payload, c.counts = true
  | some .contactAccepted =>
    ∀ wid, payload.getStr "winkd_id" = some wid → s.contacts.any (sameId toLowerCase wid) = true
  | some .message =>
    ∀ conversationId senderId, Chats.conversationOf payload = some (.str conversationId) →
      payload.firstTruthy ["senderId", "sender_id"] = some senderId →
      s.hasContact conversationId = true
  | _ => True

def Counts (toLowerCase : Text → Text) (s : AppCore) : Event → Prop
  | .authOk envelope =>
    ∀ used, (envelope.get "buddy_used").bind Json.asI64 = some used → used.toNat = s.contacts.length
  | .received envelope _ => s.CountsContacts toLowerCase (payloadOf envelope) (eventOf envelope)
  | _ => True

/-! ## Handler by handler -/

theorem length_modifyFirst (p : Contact → Bool) (f : Contact → Contact) (contacts : List Contact) :
    (modifyFirst p f contacts).length = contacts.length := List.length_modify ..

/-- The counter and the number of the contacts are as before. -/
theorem Balanced.same {t : AppCore} (hbalanced : s.Balanced) (hused : t.buddyUsed = s.buddyUsed)
    (hlength : t.contacts.length = s.contacts.length) : t.Balanced :=
  hused.trans (hbalanced.trans hlength.symm)

/-- One contact is added, and counted. -/
theorem Balanced.add {t : AppCore} (hbalanced : s.Balanced) {c : Contact}
    (hused : t.buddyUsed = s.buddyUsed + 1) (hcontacts : t.contacts = s.contacts ++ [c]) :
    t.Balanced := by
  rw [Balanced, hused, hcontacts, hbalanced, List.length_append]
  rfl

/-- One contact is added, and not counted. -/
theorem Balanced.not_add {t : AppCore} (hbalanced : s.Balanced) (hused : t.buddyUsed = s.buddyUsed)
    (hlength : t.contacts.length = s.contacts.length + 1) : ¬ t.Balanced := by
  rw [Balanced, hused, hlength, hbalanced]
  omega

theorem balanced_authOk_iff (hbalanced : s.Balanced) (envelope : Json) :
    (s.applyServerLimits envelope).Balanced ↔
      ∀ used, (envelope.get "buddy_used").bind Json.asI64 = some used →
        used.toNat = s.contacts.length := by
  unfold applyServerLimits Balanced
  dsimp only
  cases (envelope.get "buddy_used").bind Json.asI64 with
  | none => exact iff_of_true hbalanced nofun
  | some used =>
    refine ⟨fun h used' hused' => ?_, fun h => h used rfl⟩
    obtain rfl := Option.some.inj hused'
    exact h

/-- A snapshot counts the contacts with some statuses. -/
theorem balanced_snapshot_iff (s : AppCore) (payload : Json) :
    (s.handleContactsSnapshot payload).Balanced ↔ ∀ c ∈ snapshotContacts payload, c.counts = true :=
  List.length_filter_eq_length_iff

theorem balanced_requestSent (hbalanced : s.Balanced) (payload : Json) :
    (s.handleContactRequestSent toLowerCase payload).Balanced := by
  unfold handleContactRequestSent
  dsimp only
  split
  · exact hbalanced
  · exact hbalanced.add rfl rfl

theorem balanced_accepted_iff (hbalanced : s.Balanced) (payload : Json) :
    (s.handleContactAccepted toLowerCase payload).Balanced ↔
      ∀ wid, payload.getStr "winkd_id" = some wid →
        s.contacts.any (sameId toLowerCase wid) = true := by
  unfold handleContactAccepted
  split
  · rename_i hnone
    refine iff_of_true hbalanced fun wid hwid => ?_
    rw [hnone] at hwid
    cases hwid
  · rename_i wid hwid
    dsimp only
    split
    · rename_i hsame
      refine iff_of_true (hbalanced.same rfl (length_modifyFirst ..)) fun wid' hwid' => ?_
      obtain rfl := Option.some.inj (hwid.symm.trans hwid')
      exact hsame
    · rename_i hnone
      refine iff_of_false ?_ fun h => hnone (h wid hwid)
      rw [if_neg]
      · exact hbalanced.not_add rfl List.length_append
      · rw [hasContactByWinkdId, Bool.and_eq_true]
        exact fun h => hnone h.2

theorem balanced_blocked (hbalanced : s.Balanced) (payload : Json) :
    (s.handleContactBlocked payload).Balanced := by
  unfold handleContactBlocked
  dsimp only
  split
  · exact hbalanced
  · rw [Balanced]
    dsimp only
    rw [List.length_eraseP, hbalanced]
    rfl

theorem balanced_unblocked (hbalanced : s.Balanced) (payload : Json) :
    (s.handleContactUnblocked payload).Balanced := by
  unfold handleContactUnblocked
  dsimp only
  split
  · exact hbalanced
  · split
    · exact hbalanced
    · split
      · exact hbalanced
      · exact hbalanced.add rfl rfl

variable (numberText me) in
/-- A message adds the contact that is missing, and leaves the counter. -/
theorem relayed_counts {payload sender : Json} {k : Text}
    (hk : Chats.conversationOf payload = some (.str k))
    (hsender : payload.firstTruthy ["senderId", "sender_id"] = some sender) (ts : Text) :
    (s.handleRelayedMessage numberText me payload ts).buddyUsed = s.buddyUsed ∧
      (s.handleRelayedMessage numberText me payload ts).contacts.length =
        if s.hasContact k then s.contacts.length else s.contacts.length + 1 := by
  have hlength : (if s.hasContact k then s.contacts
      else s.contacts ++ [fallbackContact k]).length =
        if s.hasContact k then s.contacts.length else s.contacts.length + 1 := by
    rw [apply_ite List.length, List.length_append]
    rfl
  unfold handleRelayedMessage
  rw [hk, hsender]
  dsimp only
  split
  · exact ⟨rfl, hlength⟩
  · refine ⟨rfl, ?_⟩
    dsimp only
    split
    · exact hlength
    · rw [length_modifyFirst]
      exact hlength

theorem balanced_relayed_iff (hbalanced : s.Balanced) (payload : Json) (ts : Text) :
    (s.handleRelayedMessage numberText me payload ts).Balanced ↔
      ∀ conversationId senderId, Chats.conversationOf payload = some (.str conversationId) →
        payload.firstTruthy ["senderId", "sender_id"] = some senderId →
        s.hasContact conversationId = true := by
  by_cases h : ∃ k sender, Chats.conversationOf payload = some (.str k) ∧
      payload.firstTruthy ["senderId", "sender_id"] = some sender
  · obtain ⟨k, sender, hk, hsender⟩ := h
    obtain ⟨hused, hlength⟩ : _ ∧ _ := relayed_counts numberText me hk hsender ts
    by_cases hcontact : s.hasContact k = true
    · rw [if_pos hcontact] at hlength
      refine iff_of_true (hbalanced.same hused hlength) fun k' sender' hk' _ => ?_
      obtain rfl : k = k' := by
        rw [hk] at hk'
        injection hk' with hk'
        injection hk'
      exact hcontact
    · rw [if_neg hcontact] at hlength
      exact iff_of_false (hbalanced.not_add hused hlength) fun h => hcontact (h k sender hk hsender)
  · have hsame : s.handleRelayedMessage numberText me payload ts = s := by
      unfold handleRelayedMessage
      split
      · rename_i k sender hk hsender
        exact absurd ⟨k, sender, hk, hsender⟩ h
      · rfl
    rw [hsame]
    exact iff_of_true hbalanced fun k sender hk hsender => absurd ⟨k, sender, hk, hsender⟩ h

/-- **The events of the server that keep the counter right.** -/
theorem balanced_handle_iff (hbalanced : s.Balanced) (event : Option ServerEvent) (payload : Json)
    (ts : Text) : (s.handleServerEvent numberText toLowerCase me event payload ts).Balanced ↔
      s.CountsContacts toLowerCase payload event := by
  cases event with
  | none => exact iff_of_true hbalanced trivial
  | some event =>
    cases event with
    | contactsSnapshot => exact balanced_snapshot_iff s payload
    | presence =>
      refine iff_of_true ?_ trivial
      show (s.handlePresence payload).Balanced
      unfold handlePresence
      split
      · exact hbalanced.same rfl (length_modifyFirst ..)
      · exact hbalanced
    | contactRequestSent => exact iff_of_true (balanced_requestSent hbalanced payload) trivial
    | contactRequest =>
      refine iff_of_true ?_ trivial
      show (s.handleInboundContactRequest payload).Balanced
      unfold handleInboundContactRequest
      dsimp only
      split <;> exact hbalanced
    | contactAccepted => exact balanced_accepted_iff hbalanced payload
    | contactRequestRejected =>
      refine iff_of_true ?_ trivial
      show (s.handleContactRequestRejected payload).Balanced
      unfold handleContactRequestRejected
      dsimp only
      split <;> exact hbalanced
    | contactBlocked => exact iff_of_true (balanced_blocked hbalanced payload) trivial
    | blockedList => exact iff_of_true hbalanced trivial
    | contactUnblocked => exact iff_of_true (balanced_unblocked hbalanced payload) trivial
    | message => exact balanced_relayed_iff hbalanced payload ts
    | error => exact iff_of_true hbalanced trivial

theorem balanced_next_iff (hbalanced : s.Balanced) (e : Event) :
    (s.next numberText toLowerCase me e).Balanced ↔ s.Counts toLowerCase e := by
  cases e with
  | authOk envelope => exact balanced_authOk_iff hbalanced envelope
  | received envelope ts => exact balanced_handle_iff hbalanced (eventOf envelope) _ ts
  | rendered payload ts =>
    refine iff_of_true ?_ trivial
    show (s.locallyRenderOutgoing numberText payload ts).Balanced
    unfold locallyRenderOutgoing
    split
    · dsimp only
      split <;> exact hbalanced
    · exact hbalanced
  | selectContact id => exact iff_of_true (hbalanced.same rfl (length_modifyFirst ..)) trivial
  | leave => exact iff_of_true hbalanced trivial

/-- **The counter is right from a snapshot on**, whatever the page was before, just if the requests in
the snapshot count, and every event counts the contacts that it adds. -/
theorem buddyUsed_eq_iff (numberText : Text → CodeUnits) (toLowerCase : Text → Text) (me : Identity)
    (s : AppCore) (snapshot : Json) (events : List Event) :
    Throughout (next numberText toLowerCase me) Balanced (s.handleContactsSnapshot snapshot) events ↔
      (∀ c ∈ snapshotContacts snapshot, c.counts = true) ∧
        Admits (next numberText toLowerCase me) (Counts toLowerCase)
          (s.handleContactsSnapshot snapshot) events := by
  have hrun : (s.handleContactsSnapshot snapshot).Balanced →
      (Throughout (next numberText toLowerCase me) Balanced (s.handleContactsSnapshot snapshot) events ↔
        Admits (next numberText toLowerCase me) (Counts toLowerCase)
          (s.handleContactsSnapshot snapshot) events) := fun hbalanced =>
    throughout_iff_admits (P := Balanced) (J := fun _ => True) (fun _ _ _ _ => trivial)
      (fun _ e _ hbalanced => balanced_next_iff hbalanced e) trivial hbalanced events
  rw [← balanced_snapshot_iff s snapshot]
  constructor
  · intro h
    exact ⟨h.start, (hrun h.start).mp h⟩
  · rintro ⟨hbalanced, h⟩
    exact (hrun hbalanced).mpr h

namespace Sample

/-- A request from Ada that the user accepts. -/
def adaAccepted : Event :=
  .received (.event "contact_accepted" [("winkd_id", .ofString "ada#0001"),
    ("display_name", .ofString "Ada"), ("avatar_data", .null), ("mood_message", .ofString "")]) []

end Sample

/-- Ada is added to an empty list, and not counted. -/
theorem accepted_contact_not_counted :
    ¬ ∀ (numberText : Text → CodeUnits) (toLowerCase : Text → Text) (me : Identity) (s : AppCore)
      (snapshot : Json) (events : List Event),
        Throughout (next numberText toLowerCase me) Balanced (s.handleContactsSnapshot snapshot)
          events := by
  intro h
  have hbalanced := (h units id ⟨"me#0001".toList, nofun⟩ (load fun _ => none)
    (.obj [("contacts", .arr [])]) [Sample.adaAccepted]).last
  exact absurd hbalanced (by decide)

end AppCore
end Winkd.Web
