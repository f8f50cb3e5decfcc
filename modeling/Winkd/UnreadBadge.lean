import Winkd.ChatHistory

/-!
# The unread badge

The badge of a contact is a field of its record, and records are made anew by snapshots and by the
events that add contacts, with no unread messages.  A ghost beside the page has the inbound messages
that were appended to each conversation since its contact was the selected one.  The badge is their
number throughout just if no record is made where there are such messages, and each message finds one
record to count it (`unread_eq_iff`).
-/

namespace Winkd.Web
open UnicodeText Winkd.Server Transitions

namespace AppCore

/-- The page, and a ghost. -/
structure Watch where
  app : AppCore
  /-- The distinct inbound messages that were appended to a conversation since its contact was last
  the active one. -/
  since : Text → List UiMessage

section
variable (numberText : Text → CodeUnits) (toLowerCase : Text → Text) (me : Identity)

/-- The conversation of an inbound message. -/
def inbound (payload : Json) : Option Text :=
  match Chats.conversationOf payload, payload.firstTruthy ["senderId", "sender_id"] with
  | some (.str conversationId), some senderId =>
    if senderId.asStr = some me.winkdId then none else some conversationId
  | _, _ => none

def Event.inbound : Event → Option Text
  | .received envelope _ =>
    if eventOf envelope = some .message then AppCore.inbound me (payloadOf envelope) else none
  | _ => none

/-- What was appended to a conversation. -/
def appended (s t : AppCore) (id : Text) : List UiMessage :=
  (t.convos.messages id).drop (s.convos.messages id).length

/-- A message is the same as another if both have one id. -/
def addDistinct (messages : List UiMessage) (m : UiMessage) : List UiMessage :=
  if hasMessage numberText messages m.id then messages else messages ++ [m]

namespace Watch

def next (w : Watch) (e : Event) : Watch :=
  let app := w.app.next numberText toLowerCase me e
  { app := app
    since := fun id =>
      if app.activeContact = some id then []
      else if e.inbound me = some id then
        (appended w.app app id).foldl (addDistinct numberText) (w.since id)
      else w.since id }

/-- The page when it is loaded. -/
def load (convos : Convos) : Watch := ⟨AppCore.load convos, fun _ => []⟩

/-- The badge of every contact but the active one is the number of its messages. -/
def Badged (w : Watch) : Prop :=
  ∀ c ∈ w.app.contacts, w.app.activeContact ≠ some c.id → c.unread = (w.since c.id).length

/-- Nothing was appended since the contact was active. -/
def Fresh (w : Watch) (id : Text) : Prop := w.app.activeContact = some id ∨ w.since id = []

/-- The message is inbound, and it is appended to its conversation. -/
def Counted (w : Watch) (payload : Json) (conversationId : Text) : Prop :=
  inbound me payload = some conversationId ∧
    hasMessage numberText (w.app.convos.messages conversationId) (payload.firstTruthy ["id"]) = false

/-- A message of a conversation that is not the active one finds one record that counts it; or it makes
the record, and is the only one to count. -/
def CountsMessage (w : Watch) (payload : Json) (conversationId : Text) : Prop :=
  let counted := w.Counted numberText me payload conversationId
  let again :=
    hasMessage numberText (w.since conversationId) (payload.firstTruthy ["id"]) = true
  if w.app.hasContact conversationId then
    counted → ¬ again ∧ w.app.contacts.countP (fun c => c.id = conversationId) = 1
  else w.since conversationId = [] ∨ (counted ∧ again ∧ (w.since conversationId).length = 1)

/-- The records of a contact have no unread messages. -/
def AllRead (contacts : List Contact) (id : Text) : Prop := ∀ c ∈ contacts, c.id = id → c.unread = 0

def CountsUnread (w : Watch) (payload : Json) : Option ServerEvent → Prop
  | some .contactsSnapshot => ∀ c ∈ snapshotContacts payload, w.Fresh c.id
  | some .contactRequestSent =>
    let wid := textOf payload "to_winkd_id"
    wid = [] ∨ w.app.hasContactByWinkdId toLowerCase wid = true ∨ w.Fresh wid
  | some .contactAccepted =>
    ∀ wid, payload.getStr "winkd_id" = some wid →
      w.app.contacts.any (sameId toLowerCase wid) = true ∨ w.Fresh wid
  | some .contactBlocked =>
    let wid := textOf payload "winkd_id"
    wid ≠ [] → w.app.activeContact = some wid →
      AllRead (w.app.contacts.eraseP fun c => c.id = wid) wid
  | some .contactUnblocked =>
    ∀ user, (w.app.blockedUsers.find? fun u => textOf u "user_id" = textOf payload "user_id") =
        some user → textOf payload "user_id" = [] ∨ textOf user "winkd_id" = [] ∨
      w.app.hasContact (textOf user "winkd_id") = true ∨ w.Fresh (textOf user "winkd_id")
  | some .message =>
    ∀ conversationId senderId, Chats.conversationOf payload = some (.str conversationId) →
      payload.firstTruthy ["senderId", "sender_id"] = some senderId →
      w.app.activeContact ≠ some conversationId → w.CountsMessage numberText me payload conversationId
  | _ => True

/-- The event counts what it appends, and makes no record of a contact with messages to count. -/
def Counts (w : Watch) : Event → Prop
  | .received envelope _ =>
    w.CountsUnread numberText toLowerCase me (payloadOf envelope) (eventOf envelope)
  | .selectContact id =>
    ∀ id', w.app.activeContact = some id' → id' ≠ id → AllRead w.app.contacts id'
  | .leave => ∀ id, w.app.activeContact = some id → AllRead w.app.contacts id
  | _ => True

end Watch
end

namespace Watch
variable {numberText : Text → CodeUnits} {toLowerCase : Text → Text} {me : Identity}
variable {w : Watch} {app : AppCore}

/-! ## What an event does to the badges -/

/-- Nothing is unread of the contact that is active. -/
def Quiet (w : Watch) : Prop := ∀ id, w.app.activeContact = some id → w.since id = []

theorem Quiet.next (w : Watch) (e : Event) : (w.next numberText toLowerCase me e).Quiet :=
  fun _ hactive => if_pos hactive

/-- An event that brings no inbound message, and leaves the active contact, leaves the ghost. -/
theorem next_eq (hquiet : w.Quiet) {e : Event} (hnone : e.inbound me = none)
    (hactive : (w.app.next numberText toLowerCase me e).activeContact = w.app.activeContact) :
    w.next numberText toLowerCase me e = ⟨w.app.next numberText toLowerCase me e, w.since⟩ := by
  unfold next
  refine congrArg (Watch.mk _) (funext fun id => ?_)
  rw [hnone, hactive]
  split
  · rename_i hid
    exact (hquiet id hid).symm
  · exact if_neg nofun

def badge (c : Contact) : Text × ℕ := (c.id, c.unread)

theorem badged_iff : w.Badged ↔ ∀ b ∈ w.app.contacts.map badge,
    w.app.activeContact ≠ some b.1 → b.2 = (w.since b.1).length := by
  rw [List.forall_mem_map]
  rfl

theorem Badged.same (hbadged : w.Badged) (hbadges : app.contacts.map badge = w.app.contacts.map badge)
    (hactive : app.activeContact = w.app.activeContact) : Badged ⟨app, w.since⟩ := by
  rw [badged_iff] at hbadged ⊢
  dsimp only
  rw [hbadges, hactive]
  exact hbadged

/-- A record with no unread messages is right just if there are none to count. -/
theorem fresh_iff {c : Contact} (hread : c.unread = 0) :
    (w.app.activeContact ≠ some c.id → c.unread = (w.since c.id).length) ↔ w.Fresh c.id := by
  rw [hread, eq_comm, List.length_eq_zero_iff]
  exact Decidable.or_iff_not_imp_left.symm

/-- A record is made, with no unread messages. -/
theorem badged_add_iff (hbadged : w.Badged) {c : Contact}
    (hcontacts : app.contacts = w.app.contacts ++ [c]) (hread : c.unread = 0)
    (hactive : app.activeContact = w.app.activeContact) : Badged ⟨app, w.since⟩ ↔ w.Fresh c.id := by
  unfold Badged
  dsimp only
  rw [hcontacts, hactive, List.forall_mem_append, List.forall_mem_singleton, fresh_iff hread]
  exact and_iff_right hbadged

variable (app) in
/-- The active contact is left, and the other records with a badge are as before. -/
theorem badged_leave_iff (hbadged : w.Badged) (hquiet : w.Quiet) {since : Text → List UiMessage}
    {id : Text} (hactive : w.app.activeContact = some id) (hleft : app.activeContact ≠ some id)
    (hsince : ∀ k, app.activeContact ≠ some k → since k = w.since k)
    (hothers : ∀ c ∈ app.contacts, c.id ≠ id → app.activeContact ≠ some c.id → c ∈ w.app.contacts) :
    Badged ⟨app, since⟩ ↔ AllRead app.contacts id := by
  have hnone : since id = [] := (hsince id hleft).trans (hquiet id hactive)
  constructor
  · intro h c hc hid
    have hcount := h c hc (hid ▸ hleft)
    dsimp only at hcount
    rw [hcount, hid, hnone]
    rfl
  · intro hread c hc hactive'
    dsimp only at hc hactive' ⊢
    by_cases hid : c.id = id
    · rw [hread c hc hid, hid, hnone]
      rfl
    · rw [hsince c.id hactive']
      refine hbadged c (hothers c hc hid hactive') ?_
      rw [hactive]
      exact fun h => hid (Option.some.inj h).symm

/-! ## Messages -/

/-- The contacts with the one of a conversation. -/
def withContact (s : AppCore) (conversationId : Text) : List Contact :=
  if s.hasContact conversationId then s.contacts
  else s.contacts ++ [fallbackContact conversationId]

variable (numberText me) in
/-- **What a message does**: the contact is there, and where the message is not, it is appended, and
counted if it is inbound and the conversation not active. -/
theorem relayed_eq (s : AppCore) {payload sender : Json} {k : Text}
    (hk : Chats.conversationOf payload = some (.str k))
    (hsender : payload.firstTruthy ["senderId", "sender_id"] = some sender) (ts : Text) :
    ∃ m : UiMessage, m.id = payload.firstTruthy ["id"] ∧
      s.handleRelayedMessage numberText me payload ts =
        if hasMessage numberText (s.convos.messages k) m.id = true then
          { s with contacts := withContact s k, convos := s.convos.ensure k }
        else
          { s with
            contacts :=
              if s.activeContact = some k ∨ inbound me payload ≠ some k then withContact s k
              else modifyFirst (fun c => c.id = k) (fun c => { c with unread := c.unread + 1 })
                (withContact s k)
            convos := (s.convos.ensure k).push k m } := by
  refine ⟨payloadToUiMessage payload (((withContact s k).find? fun c => c.id = k).map Contact.name)
    (sender.asStr = some me.winkdId) ts, rfl, ?_⟩
  have hinbound : inbound me payload ≠ some k ↔ sender.asStr = some me.winkdId := by
    unfold inbound
    rw [hk, hsender]
    dsimp only
    split
    · rename_i hme
      exact iff_of_true nofun hme
    · rename_i hother
      exact iff_of_false (fun h => h rfl) hother
  unfold handleRelayedMessage
  rw [hk, hsender]
  dsimp only
  rw [Convos.messages_ensure]
  simp only [hinbound, decide_eq_true_eq]
  rfl

theorem inbound_eq_some {payload : Json} {k id : Text}
    (hk : Chats.conversationOf payload = some (.str k)) (h : inbound me payload = some id) : id = k := by
  unfold inbound at h
  split at h
  · rename_i k' sender hk' _
    obtain rfl : k = k' := by
      rw [hk] at hk'
      injection hk' with hk'
      injection hk'
    split at h
    · cases h
    · exact (Option.some.inj h).symm
  · cases h

/-- What is appended to the conversations of a message. -/
theorem appended_relayed {s t : AppCore} {k : Text} {m : UiMessage}
    (ht : t.convos = (s.convos.ensure k).push k m) : appended s t k = [m] := by
  unfold appended
  rw [ht, Convos.push, Convos.messages_update_self, Convos.messages_ensure]
  exact List.drop_left

theorem appended_ensure {s t : AppCore} {k : Text} (ht : t.convos = s.convos.ensure k) (id : Text) :
    appended s t id = [] := by
  unfold appended
  rw [ht, Convos.messages_ensure]
  exact List.drop_length

variable (numberText toLowerCase me) in
theorem message_next (hquiet : w.Quiet) {envelope sender : Json} {k : Text}
    (hevent : eventOf envelope = some .message)
    (hk : Chats.conversationOf (payloadOf envelope) = some (.str k))
    (hsender : (payloadOf envelope).firstTruthy ["senderId", "sender_id"] = some sender) (ts : Text) :
    ∃ m : UiMessage, m.id = (payloadOf envelope).firstTruthy ["id"] ∧
      (w.next numberText toLowerCase me (.received envelope ts)).app.activeContact =
        w.app.activeContact ∧
      (∀ id, id ≠ k →
        (w.next numberText toLowerCase me (.received envelope ts)).since id = w.since id) ∧
      (w.app.activeContact = some k ∨ ¬ w.Counted numberText me (payloadOf envelope) k →
        (w.next numberText toLowerCase me (.received envelope ts)).app.contacts = withContact w.app k ∧
        (w.next numberText toLowerCase me (.received envelope ts)).since k = w.since k) ∧
      (w.app.activeContact ≠ some k → w.Counted numberText me (payloadOf envelope) k →
        (w.next numberText toLowerCase me (.received envelope ts)).app.contacts =
          modifyFirst (fun c => c.id = k) (fun c => { c with unread := c.unread + 1 })
            (withContact w.app k) ∧
        (w.next numberText toLowerCase me (.received envelope ts)).since k =
          addDistinct numberText (w.since k) m) := by
  obtain ⟨m, hid, heq⟩ := relayed_eq numberText me w.app hk hsender ts
  have happ : (w.next numberText toLowerCase me (.received envelope ts)).app =
      w.app.handleRelayedMessage numberText me (payloadOf envelope) ts := by
    show w.app.handleServerEvent numberText toLowerCase me (eventOf envelope) _ ts = _
    rw [hevent]
    rfl
  have hsince : ∀ id, (w.next numberText toLowerCase me (.received envelope ts)).since id =
      if (w.next numberText toLowerCase me (.received envelope ts)).app.activeContact = some id then []
      else if inbound me (payloadOf envelope) = some id then
        (appended w.app (w.next numberText toLowerCase me (.received envelope ts)).app id).foldl
          (addDistinct numberText) (w.since id)
      else w.since id := by
    intro id
    have hinbound : Event.inbound me (.received envelope ts) = inbound me (payloadOf envelope) :=
      if_pos hevent
    rw [← hinbound]
    rfl
  generalize w.next numberText toLowerCase me (.received envelope ts) = w' at happ hsince ⊢
  rw [heq] at happ
  have hactive : w'.app.activeContact = w.app.activeContact := by
    rw [happ]
    split <;> rfl
  -- only the badge of an inbound message that is not being read moves
  have hkept : ∀ id, w.app.activeContact = some id ∨ inbound me (payloadOf envelope) ≠ some id →
      w'.since id = w.since id := by
    intro id h
    rw [hsince, hactive]
    split
    · rename_i hactive'
      exact (hquiet id hactive').symm
    · rename_i hactive'
      exact if_neg (h.resolve_left hactive')
  refine ⟨m, hid, hactive, fun id hne => hkept id (.inr fun h => hne (inbound_eq_some hk h)), ?_, ?_⟩
  · intro h
    -- a message that the conversation has is not appended, so nothing is counted
    by_cases hnew : hasMessage numberText (w.app.convos.messages k) m.id = true
    · rw [if_pos hnew] at happ
      refine ⟨by rw [happ], ?_⟩
      rw [hsince, appended_ensure (t := w'.app) (by rw [happ]), hactive]
      split
      · rename_i hactive'
        exact (hquiet k hactive').symm
      · exact ite_self _
    · rw [if_neg hnew] at happ
      have hor : w.app.activeContact = some k ∨ inbound me (payloadOf envelope) ≠ some k := by
        refine h.imp_right fun hcounted hinbound => hcounted ⟨hinbound, ?_⟩
        rw [← hid]
        exact Bool.eq_false_iff.mpr hnew
      refine ⟨?_, hkept k hor⟩
      rw [happ]
      exact if_pos hor
  · rintro hinactive ⟨hinbound, hnew⟩
    rw [← hid] at hnew
    rw [if_neg (by rw [hnew]; exact nofun)] at happ
    constructor
    · rw [happ]
      exact if_neg fun h => h.elim hinactive fun hne => hne hinbound
    · rw [hsince, hactive, if_neg hinactive, if_pos hinbound, appended_relayed (m := m) (by rw [happ])]
      rfl

/-- A record counts a message just if it is the only one, and the message comes for the first time. -/
theorem badged_counted_iff (hbadged : w.Badged) {w' : Watch} {k : Text} {m : UiMessage}
    (hinactive : w.app.activeContact ≠ some k)
    (hactive : w'.app.activeContact = w.app.activeContact)
    (hothers : ∀ id, id ≠ k → w'.since id = w.since id)
    (hcontacts : w'.app.contacts =
      modifyFirst (fun c => c.id = k) (fun c => { c with unread := c.unread + 1 }) w.app.contacts)
    (hsince : w'.since k = addDistinct numberText (w.since k) m) (hk : w.app.hasContact k = true) :
    w'.Badged ↔ ¬ hasMessage numberText (w.since k) m.id = true ∧
      w.app.contacts.countP (fun c => c.id = k) = 1 := by
  have hsplit : ∃ before c after, w.app.contacts = before ++ c :: after ∧ decide (c.id = k) = true ∧
      modifyFirst (fun c => c.id = k) (fun c => { c with unread := c.unread + 1 }) w.app.contacts =
        before ++ { c with unread := c.unread + 1 } :: after := modifyFirst_of_any _ hk
  obtain ⟨before, c, after, hw, hc, hmodified⟩ := hsplit
  have hcid : c.id = k := of_decide_eq_true hc
  rw [hmodified] at hcontacts
  have hunread : ∀ x ∈ w.app.contacts, x.id = k → x.unread = (w.since k).length := by
    rintro x hx rfl
    exact hbadged x hx hinactive
  -- the record that is counted is the first of its id, and the others keep their badge
  have hone : w.app.contacts.countP (fun c => c.id = k) = 1 ↔ ∀ x ∈ before ++ after, x.id ≠ k := by
    have hcons : (c :: after).countP (fun c => c.id = k) = after.countP (fun c => c.id = k) + 1 :=
      List.countP_cons_of_pos hc
    have hzero : (before ++ after).countP (fun c => c.id = k) = 0 ↔ ∀ x ∈ before ++ after, x.id ≠ k := by
      rw [List.countP_eq_zero]
      simp only [decide_eq_true_eq, ne_eq]
    rw [← hzero, hw, List.countP_append, List.countP_append, hcons]
    omega
  have hmem : ∀ x, x ∈ w.app.contacts ↔ x ∈ before ++ after ∨ x = c := by
    intro x
    rw [hw, List.mem_append, List.mem_cons, List.mem_append]
    tauto
  have hmem' : ∀ x, x ∈ w'.app.contacts ↔
      x ∈ before ++ after ∨ x = { c with unread := c.unread + 1 } := by
    intro x
    rw [hcontacts, List.mem_append, List.mem_cons, List.mem_append]
    tauto
  have hcunread := hunread c ((hmem c).mpr (.inr rfl)) hcid
  have hinactive' : w'.app.activeContact ≠ some k := hactive ▸ hinactive
  constructor
  · intro h
    have hcount : ∀ x ∈ w'.app.contacts, x.id = k → x.unread = (w'.since k).length := by
      rintro x hx rfl
      exact h x hx hinactive'
    have hlength : c.unread + 1 = (w'.since k).length := hcount _ ((hmem' _).mpr (.inr rfl)) hcid
    rw [hsince, addDistinct] at hlength
    constructor
    · intro hagain
      rw [if_pos hagain] at hlength
      omega
    · rw [hone]
      intro x hx hxid
      have hbefore := hunread x ((hmem x).mpr (.inl hx)) hxid
      have hafter := hcount x ((hmem' x).mpr (.inl hx)) hxid
      rw [hsince, addDistinct] at hafter
      omega
  · rintro ⟨hnew, hcount⟩ x hx hxactive
    rw [hone] at hcount
    rcases (hmem' x).mp hx with hx | rfl
    · rw [hothers x.id (hcount x hx)]
      exact hbadged x ((hmem x).mpr (.inl hx)) (hactive ▸ hxactive)
    · dsimp only
      rw [hcid, hsince, addDistinct, if_neg hnew, List.length_append, hcunread]
      rfl

/-- A contact that a message makes has one message to count, or none. -/
theorem badged_fallback_iff (hbadged : w.Badged) {w' : Watch} {k : Text} {c : Contact}
    (hinactive : w.app.activeContact ≠ some k)
    (hactive : w'.app.activeContact = w.app.activeContact)
    (hothers : ∀ id, id ≠ k → w'.since id = w.since id)
    (hcontacts : w'.app.contacts = w.app.contacts ++ [c]) (hc : c.id = k)
    (hk : w.app.hasContact k = false) : w'.Badged ↔ c.unread = (w'.since k).length := by
  unfold Badged
  rw [hcontacts, hactive, List.forall_mem_append, List.forall_mem_singleton, hc]
  constructor
  · rintro ⟨-, h⟩
    exact h hinactive
  · intro h
    refine ⟨fun x hx hxactive => ?_, fun _ => h⟩
    have hxk : x.id ≠ k := fun h => List.any_eq_false.mp hk x hx (decide_eq_true h)
    rw [hothers x.id hxk]
    exact hbadged x hx hxactive

/-- A message that no ghost takes may still make a record. -/
theorem badged_uncounted_iff (hbadged : w.Badged) {w' : Watch} {k : Text} {payload : Json}
    (hcase : w.app.activeContact = some k ∨ ¬ w.Counted numberText me payload k)
    (hactive : w'.app.activeContact = w.app.activeContact)
    (hothers : ∀ id, id ≠ k → w'.since id = w.since id)
    (hcontacts : w'.app.contacts = withContact w.app k) (hsince : w'.since k = w.since k) :
    w'.Badged ↔ (w.app.activeContact ≠ some k → w.CountsMessage numberText me payload k) := by
  have hw' : w' = ⟨w'.app, w.since⟩ := by
    refine congrArg (Watch.mk w'.app) (funext fun id => ?_)
    by_cases hid : id = k
    · exact hid ▸ hsince
    · exact hothers id hid
  rw [hw']
  unfold CountsMessage
  cases hhas : w.app.hasContact k with
  | true =>
    rw [withContact, hhas, if_pos rfl] at hcontacts
    refine iff_of_true (hbadged.same (by rw [hcontacts]) hactive) fun hinactive => ?_
    rw [if_pos rfl]
    exact fun hcounted => absurd hcounted (hcase.resolve_left hinactive)
  | false =>
    rw [withContact, hhas, if_neg nofun] at hcontacts
    rw [badged_add_iff hbadged hcontacts rfl hactive, if_neg nofun]
    constructor
    · intro hfresh hinactive
      exact .inl (hfresh.resolve_left hinactive)
    · intro h
      refine Decidable.or_iff_not_imp_left.mpr fun hinactive => ?_
      exact (h hinactive).resolve_right fun h => hcase.resolve_left hinactive h.1

/-- A message that the ghost takes is counted by the record it finds, or makes. -/
theorem badged_taken_iff (hbadged : w.Badged) {w' : Watch} {k : Text} {payload : Json} {m : UiMessage}
    (hinactive : w.app.activeContact ≠ some k) (hcount : w.Counted numberText me payload k)
    (hid : m.id = payload.firstTruthy ["id"])
    (hactive : w'.app.activeContact = w.app.activeContact)
    (hothers : ∀ id, id ≠ k → w'.since id = w.since id)
    (hcontacts : w'.app.contacts =
      modifyFirst (fun c => c.id = k) (fun c => { c with unread := c.unread + 1 }) (withContact w.app k))
    (hsince : w'.since k = addDistinct numberText (w.since k) m) :
    w'.Badged ↔ w.CountsMessage numberText me payload k := by
  unfold CountsMessage
  cases hhas : w.app.hasContact k with
  | true =>
    rw [withContact, hhas, if_pos rfl] at hcontacts
    rw [badged_counted_iff hbadged hinactive hactive hothers hcontacts hsince hhas, if_pos rfl, hid]
    exact ⟨fun h _ => h, fun h => h hcount⟩
  | false =>
    have hone : w'.app.contacts = w.app.contacts ++ [{ fallbackContact k with unread := 1 }] := by
      rw [hcontacts, withContact, hhas]
      exact modifyFirst_append hhas (decide_eq_true rfl)
    rw [badged_fallback_iff hbadged hinactive hactive hothers hone rfl hhas, if_neg nofun, hsince,
      addDistinct, hid]
    constructor
    · intro hlength
      split at hlength
      · rename_i hagain
        exact .inr ⟨hcount, hagain, hlength.symm⟩
      · rw [List.length_append] at hlength
        exact .inl (List.length_eq_zero_iff.mp (Nat.succ.inj hlength).symm)
    · rintro (hnil | ⟨-, hagain, hlength⟩)
      · rw [hnil, if_neg]
        · rfl
        · unfold hasMessage
          cases payload.firstTruthy ["id"] <;> exact nofun
      · rw [if_pos hagain, hlength]

/-- A message without a conversation or a sender changes nothing. -/
theorem next_unaddressed (hquiet : w.Quiet) {envelope : Json} (hevent : eventOf envelope = some .message)
    (hno : ¬ ∃ k sender, Chats.conversationOf (payloadOf envelope) = some (.str k) ∧
      (payloadOf envelope).firstTruthy ["senderId", "sender_id"] = some sender) (ts : Text) :
    w.next numberText toLowerCase me (.received envelope ts) = w := by
  have hnone : Event.inbound me (.received envelope ts) = none := by
    show (if eventOf envelope = some ServerEvent.message then inbound me _ else none) = none
    rw [if_pos hevent]
    unfold inbound
    split
    · rename_i k sender hk hsender
      exact absurd ⟨k, sender, hk, hsender⟩ hno
    · rfl
  have hsame : w.app.next numberText toLowerCase me (.received envelope ts) = w.app := by
    show w.app.handleServerEvent numberText toLowerCase me (eventOf envelope) _ ts = _
    rw [hevent]
    show w.app.handleRelayedMessage numberText me _ ts = w.app
    unfold handleRelayedMessage
    split
    · rename_i k sender hk hsender
      exact absurd ⟨k, sender, hk, hsender⟩ hno
    · rfl
  rw [next_eq hquiet hnone (by rw [hsame]), hsame]

theorem badged_message_iff (hbadged : w.Badged) (hquiet : w.Quiet) {envelope : Json}
    (hevent : eventOf envelope = some .message) (ts : Text) :
    (w.next numberText toLowerCase me (.received envelope ts)).Badged ↔
      ∀ conversationId senderId, Chats.conversationOf (payloadOf envelope) = some (.str conversationId) →
        (payloadOf envelope).firstTruthy ["senderId", "sender_id"] = some senderId →
        w.app.activeContact ≠ some conversationId →
        w.CountsMessage numberText me (payloadOf envelope) conversationId := by
  by_cases h : ∃ k sender, Chats.conversationOf (payloadOf envelope) = some (.str k) ∧
      (payloadOf envelope).firstTruthy ["senderId", "sender_id"] = some sender
  · obtain ⟨k, sender, hk, hsender⟩ := h
    have hone : (∀ conversationId senderId,
        Chats.conversationOf (payloadOf envelope) = some (.str conversationId) →
        (payloadOf envelope).firstTruthy ["senderId", "sender_id"] = some senderId →
        w.app.activeContact ≠ some conversationId →
        w.CountsMessage numberText me (payloadOf envelope) conversationId) ↔
        (w.app.activeContact ≠ some k → w.CountsMessage numberText me (payloadOf envelope) k) := by
      refine ⟨fun h => h k sender hk hsender, fun h k' _ hk' _ => ?_⟩
      obtain rfl : k = k' := by
        rw [hk] at hk'
        injection hk' with hk'
        injection hk'
      exact h
    rw [hone]
    obtain ⟨m, hid, hactive, hothers, hleft, hcounted⟩ :=
      message_next numberText toLowerCase me hquiet hevent hk hsender ts
    by_cases hcase : w.app.activeContact = some k ∨ ¬ w.Counted numberText me (payloadOf envelope) k
    · obtain ⟨hcontacts, hsince⟩ := hleft hcase
      exact badged_uncounted_iff hbadged hcase hactive hothers hcontacts hsince
    · obtain ⟨hinactive, hcount⟩ := not_or.mp hcase
      have hcount := not_not.mp hcount
      obtain ⟨hcontacts, hsince⟩ := hcounted hinactive hcount
      rw [badged_taken_iff hbadged hinactive hcount hid hactive hothers hcontacts hsince,
        imp_iff_right hinactive]
  · rw [next_unaddressed hquiet hevent h]
    exact iff_of_true hbadged fun k sender hk hsender => absurd ⟨k, sender, hk, hsender⟩ h

/-! ## The other events -/

theorem handlePresence_same (app : AppCore) (payload : Json) :
    (app.handlePresence payload).contacts.map badge = app.contacts.map badge ∧
      (app.handlePresence payload).activeContact = app.activeContact := by
  unfold handlePresence
  split
  · exact ⟨map_modifyFirst fun c => rfl, rfl⟩
  · exact ⟨rfl, rfl⟩

theorem handleInboundContactRequest_same (app : AppCore) (payload : Json) :
    (app.handleInboundContactRequest payload).contacts = app.contacts ∧
      (app.handleInboundContactRequest payload).activeContact = app.activeContact := by
  unfold handleInboundContactRequest
  dsimp only
  split <;> exact ⟨rfl, rfl⟩

theorem handleContactRequestRejected_same (app : AppCore) (payload : Json) :
    (app.handleContactRequestRejected payload).contacts = app.contacts ∧
      (app.handleContactRequestRejected payload).activeContact = app.activeContact := by
  unfold handleContactRequestRejected
  dsimp only
  split <;> exact ⟨rfl, rfl⟩

theorem activeContact_handleContactAccepted (toLowerCase : Text → Text) (app : AppCore) (payload : Json) :
    (app.handleContactAccepted toLowerCase payload).activeContact = app.activeContact := by
  unfold handleContactAccepted
  dsimp only
  split
  · rfl
  · split
    · rfl
    · split <;> rfl

theorem activeContact_handleContactUnblocked (app : AppCore) (payload : Json) :
    (app.handleContactUnblocked payload).activeContact = app.activeContact := by
  unfold handleContactUnblocked
  dsimp only
  split
  · rfl
  · split
    · rfl
    · split <;> rfl

theorem badged_snapshot_iff (s : AppCore) (payload : Json)
    (hs : s = w.app.handleContactsSnapshot payload) :
    Badged ⟨s, w.since⟩ ↔ ∀ c ∈ snapshotContacts payload, w.Fresh c.id := by
  subst hs
  refine forall₂_congr fun c hc => fresh_iff (w := w) ?_
  obtain ⟨item, -, rfl⟩ := List.mem_map.mp hc
  rfl

theorem badged_requestSent_iff (hbadged : w.Badged) (payload : Json) :
    Badged ⟨w.app.handleContactRequestSent toLowerCase payload, w.since⟩ ↔
      textOf payload "to_winkd_id" = [] ∨
        w.app.hasContactByWinkdId toLowerCase (textOf payload "to_winkd_id") = true ∨
          w.Fresh (textOf payload "to_winkd_id") := by
  unfold handleContactRequestSent
  dsimp only
  split
  · rename_i hsame
    rw [Bool.or_eq_true, decide_eq_true_eq] at hsame
    exact iff_of_true hbadged (hsame.imp_right .inl)
  · rename_i hnew
    rw [Bool.or_eq_true, decide_eq_true_eq, not_or] at hnew
    rw [or_iff_right hnew.1, or_iff_right hnew.2]
    exact badged_add_iff (c := newContact ..) hbadged rfl rfl rfl

theorem badged_accepted_iff (hbadged : w.Badged) (payload : Json) :
    Badged ⟨w.app.handleContactAccepted toLowerCase payload, w.since⟩ ↔
      ∀ wid, payload.getStr "winkd_id" = some wid →
        w.app.contacts.any (sameId toLowerCase wid) = true ∨ w.Fresh wid := by
  unfold handleContactAccepted
  split
  · rename_i hnone
    refine iff_of_true hbadged fun wid hwid => ?_
    rw [hnone] at hwid
    cases hwid
  · rename_i wid hwid
    have hone : (∀ wid', payload.getStr "winkd_id" = some wid' →
        w.app.contacts.any (sameId toLowerCase wid') = true ∨ w.Fresh wid') ↔
        w.app.contacts.any (sameId toLowerCase wid) = true ∨ w.Fresh wid := by
      refine ⟨fun h => h wid hwid, fun h wid' hwid' => ?_⟩
      obtain rfl := Option.some.inj (hwid.symm.trans hwid')
      exact h
    rw [hone]
    dsimp only
    split
    · rename_i hsame
      exact iff_of_true (hbadged.same (map_modifyFirst fun c => rfl) rfl) (.inl hsame)
    · rename_i hnone
      rw [or_iff_right hnone, if_neg]
      · exact badged_add_iff (c := newContact ..) hbadged rfl rfl rfl
      · rw [hasContactByWinkdId, Bool.and_eq_true]
        exact fun h => hnone h.2

theorem badged_unblocked_iff (hbadged : w.Badged) (payload : Json) :
    Badged ⟨w.app.handleContactUnblocked payload, w.since⟩ ↔
      ∀ user, (w.app.blockedUsers.find? fun u => textOf u "user_id" = textOf payload "user_id") =
          some user → textOf payload "user_id" = [] ∨ textOf user "winkd_id" = [] ∨
        w.app.hasContact (textOf user "winkd_id") = true ∨ w.Fresh (textOf user "winkd_id") := by
  unfold handleContactUnblocked
  dsimp only
  split
  · rename_i hnil
    exact iff_of_true hbadged fun user _ => .inl hnil
  · rename_i hsome
    cases hfind : w.app.blockedUsers.find? fun u => textOf u "user_id" = textOf payload "user_id" with
    | none => exact iff_of_true hbadged nofun
    | some user =>
      have hone : (∀ user', some user = some user' → textOf payload "user_id" = [] ∨
          textOf user' "winkd_id" = [] ∨ w.app.hasContact (textOf user' "winkd_id") = true ∨
            w.Fresh (textOf user' "winkd_id")) ↔
          textOf user "winkd_id" = [] ∨ w.app.hasContact (textOf user "winkd_id") = true ∨
            w.Fresh (textOf user "winkd_id") := by
        refine ⟨fun h => (h user rfl).resolve_left hsome, fun h user' huser' => .inr ?_⟩
        obtain rfl := Option.some.inj huser'
        exact h
      rw [hone]
      dsimp only
      split
      · rename_i hsame
        rw [Bool.or_eq_true, decide_eq_true_eq] at hsame
        exact iff_of_true hbadged (hsame.imp_right .inl)
      · rename_i hnew
        rw [Bool.or_eq_true, decide_eq_true_eq, not_or] at hnew
        have hnone : ¬ w.app.hasContact (textOf user "winkd_id") = true := hnew.2
        rw [or_iff_right hnew.1, or_iff_right hnone]
        exact badged_add_iff (c := newContact ..) hbadged rfl rfl rfl

/-- A block takes one record away, and may leave the active contact. -/
theorem badged_blocked_iff (hbadged : w.Badged) (hquiet : w.Quiet) {since : Text → List UiMessage}
    (payload : Json) (hsince : ∀ k, (w.app.handleContactBlocked payload).activeContact ≠ some k →
      since k = w.since k) :
    Badged ⟨w.app.handleContactBlocked payload, since⟩ ↔
      (textOf payload "winkd_id" ≠ [] → w.app.activeContact = some (textOf payload "winkd_id") →
        AllRead (w.app.contacts.eraseP fun c => c.id = textOf payload "winkd_id")
          (textOf payload "winkd_id")) := by
  by_cases hwid : textOf payload "winkd_id" = []
  · have happ : (w.app.handleContactBlocked payload).contacts = w.app.contacts ∧
        (w.app.handleContactBlocked payload).activeContact = w.app.activeContact := by
      unfold handleContactBlocked
      dsimp only
      rw [if_pos hwid]
      exact ⟨rfl, rfl⟩
    refine iff_of_true (fun c hc hactive => ?_) fun h => absurd hwid h
    dsimp only at hc hactive ⊢
    rw [hsince c.id hactive]
    rw [happ.1] at hc
    exact hbadged c hc (happ.2 ▸ hactive)
  · have hcontacts : (w.app.handleContactBlocked payload).contacts =
        w.app.contacts.eraseP fun c => c.id = textOf payload "winkd_id" := by
      unfold handleContactBlocked
      dsimp only
      rw [if_neg hwid]
    have hactive : (w.app.handleContactBlocked payload).activeContact =
        if w.app.activeContact = some (textOf payload "winkd_id") then none
        else w.app.activeContact := by
      unfold handleContactBlocked
      dsimp only
      rw [if_neg hwid]
    -- the block of the active contact ends reading
    by_cases hwas : w.app.activeContact = some (textOf payload "winkd_id")
    · rw [if_pos hwas] at hactive
      rw [← hcontacts, badged_leave_iff _ hbadged hquiet hwas (by rw [hactive]; exact nofun) hsince
        fun c hc _ _ => List.mem_of_mem_eraseP (hcontacts ▸ hc)]
      exact ⟨fun h _ _ => h, fun h => h hwid hwas⟩
    · rw [if_neg hwas] at hactive
      refine iff_of_true (fun c hc hinactive => ?_) fun _ h => absurd h hwas
      dsimp only at hc hinactive ⊢
      rw [hsince c.id hinactive]
      rw [hcontacts] at hc
      exact hbadged c (List.mem_of_mem_eraseP hc) (hactive ▸ hinactive)

/-- **The events of the server that keep the badges right.** -/
theorem badged_received_iff (hbadged : w.Badged) (hquiet : w.Quiet) (envelope : Json) (ts : Text) :
    (w.next numberText toLowerCase me (.received envelope ts)).Badged ↔
      w.CountsUnread numberText toLowerCase me (payloadOf envelope) (eventOf envelope) := by
  -- but for messages and blocks, the ghost and the active contact are as before
  have hnext : ∀ {event : Option ServerEvent}, eventOf envelope = event → event ≠ some .message →
      (w.app.handleServerEvent numberText toLowerCase me event (payloadOf envelope) ts).activeContact =
        w.app.activeContact →
      w.next numberText toLowerCase me (.received envelope ts) =
        ⟨w.app.handleServerEvent numberText toLowerCase me event (payloadOf envelope) ts, w.since⟩ := by
    rintro event rfl hmessage hactive
    exact next_eq hquiet (if_neg hmessage) hactive
  cases hevent : eventOf envelope with
  | none =>
    rw [hnext hevent nofun rfl]
    exact iff_of_true hbadged trivial
  | some event =>
    cases event with
    | contactsSnapshot =>
      rw [hnext hevent nofun rfl]
      exact badged_snapshot_iff _ _ rfl
    | presence =>
      obtain ⟨hbadges, hactive⟩ := handlePresence_same w.app (payloadOf envelope)
      rw [hnext hevent nofun hactive]
      exact iff_of_true (hbadged.same hbadges hactive) trivial
    | contactRequestSent =>
      rw [hnext hevent nofun (by exact (apply_ite AppCore.activeContact _ _ _).trans (ite_self _))]
      exact badged_requestSent_iff hbadged _
    | contactRequest =>
      obtain ⟨hcontacts, hactive⟩ := handleInboundContactRequest_same w.app (payloadOf envelope)
      rw [hnext hevent nofun hactive]
      exact iff_of_true (hbadged.same (congrArg (List.map badge) hcontacts) hactive) trivial
    | contactAccepted =>
      rw [hnext hevent nofun (activeContact_handleContactAccepted toLowerCase w.app _)]
      exact badged_accepted_iff hbadged _
    | contactRequestRejected =>
      obtain ⟨hcontacts, hactive⟩ := handleContactRequestRejected_same w.app (payloadOf envelope)
      rw [hnext hevent nofun hactive]
      exact iff_of_true (hbadged.same (congrArg (List.map badge) hcontacts) hactive) trivial
    | contactBlocked =>
      have happ : w.app.next numberText toLowerCase me (.received envelope ts) =
          w.app.handleContactBlocked (payloadOf envelope) := by
        show w.app.handleServerEvent numberText toLowerCase me (eventOf envelope) _ ts = _
        rw [hevent]
        rfl
      have hnone : Event.inbound me (.received envelope ts) = none := by
        refine if_neg ?_
        rw [hevent]
        exact nofun
      unfold Watch.next
      rw [happ, hnone]
      refine badged_blocked_iff hbadged hquiet _ fun k hk => ?_
      rw [if_neg hk]
      exact if_neg nofun
    | blockedList =>
      rw [hnext hevent nofun rfl]
      exact iff_of_true hbadged trivial
    | contactUnblocked =>
      rw [hnext hevent nofun (activeContact_handleContactUnblocked w.app _)]
      exact badged_unblocked_iff hbadged _
    | message => exact badged_message_iff hbadged hquiet hevent ts
    | error =>
      rw [hnext hevent nofun rfl]
      exact iff_of_true hbadged trivial

/-- **The events that keep the badges right.** -/
theorem badged_next_iff (hquiet : w.Quiet) (hbadged : w.Badged) (e : Event) :
    (w.next numberText toLowerCase me e).Badged ↔ w.Counts numberText toLowerCase me e := by
  cases e with
  | authOk envelope =>
    rw [next_eq hquiet rfl rfl]
    exact iff_of_true hbadged trivial
  | received envelope ts => exact badged_received_iff hbadged hquiet envelope ts
  | rendered payload ts =>
    have hsame : (w.app.locallyRenderOutgoing numberText payload ts).contacts = w.app.contacts ∧
        (w.app.locallyRenderOutgoing numberText payload ts).activeContact = w.app.activeContact := by
      unfold locallyRenderOutgoing
      split
      · dsimp only
        split <;> exact ⟨rfl, rfl⟩
      · exact ⟨rfl, rfl⟩
    rw [next_eq (e := .rendered payload ts) hquiet rfl hsame.2]
    exact iff_of_true (hbadged.same (congrArg (List.map badge) hsame.1) hsame.2) trivial
  | selectContact id =>
    -- to select a contact reads it, and changes no other record
    have hread : ∀ c : Contact, c.id ≠ id → (c ∈ (w.app.selectContact id).contacts ↔
        c ∈ w.app.contacts) := by
      intro c hc
      have hp : decide (c.id = id) = false := decide_eq_false hc
      exact mem_modifyFirst_iff (p := fun c => decide (c.id = id))
        (f := fun c => { c with unread := 0 }) (fun _ h => h) hp
    -- whoever was selected before is no longer being read, so its records must show nothing
    by_cases hleft : ∃ id', w.app.activeContact = some id' ∧ id' ≠ id
    · obtain ⟨id', hactive, hne⟩ := hleft
      have hone : (∀ id'', w.app.activeContact = some id'' → id'' ≠ id →
          AllRead w.app.contacts id'') ↔ AllRead (w.app.selectContact id).contacts id' := by
        constructor
        · rintro h c hc rfl
          exact h c.id hactive hne c ((hread c hne).mp hc) rfl
        · rintro h id'' hid'' - c hc rfl
          obtain rfl := Option.some.inj (hactive.symm.trans hid'')
          exact h c ((hread c hne).mpr hc) rfl
      refine (badged_leave_iff _ hbadged hquiet hactive ?_ (fun k hk => ?_) fun c hc _ hk => ?_).trans
        hone.symm
      · exact fun h => hne (Option.some.inj h).symm
      · exact (if_neg hk).trans (if_neg nofun)
      · exact (hread c fun h => hk (congrArg some h.symm)).mp hc
    · refine iff_of_true (fun c hc hk => ?_) fun id' hactive hne => absurd ⟨id', hactive, hne⟩ hleft
      have hid : c.id ≠ id := fun h => hk (congrArg some h.symm)
      have hsince : (w.next numberText toLowerCase me (.selectContact id)).since c.id = w.since c.id :=
        (if_neg hk).trans (if_neg nofun)
      rw [hsince]
      refine hbadged c ((hread c hid).mp hc) fun hactive => hleft ⟨c.id, hactive, hid⟩
  | leave =>
    cases hactive : w.app.activeContact with
    | none =>
      rw [next_eq (e := .leave) hquiet rfl hactive.symm]
      refine iff_of_true (hbadged.same rfl hactive.symm) fun id hid => ?_
      rw [hactive] at hid
      cases hid
    | some id =>
      have hone : (∀ id', w.app.activeContact = some id' → AllRead w.app.contacts id') ↔
          AllRead w.app.contacts id := by
        refine ⟨fun h => h id hactive, fun h id' hid' => ?_⟩
        obtain rfl := Option.some.inj (hactive.symm.trans hid')
        exact h
      let left : AppCore := { w.app with activeContact := none }
      have hleft : left.activeContact ≠ some id := nofun
      exact (badged_leave_iff left hbadged hquiet hactive hleft
        (fun k hk => (if_neg hk).trans (if_neg nofun)) fun c hc _ _ => hc).trans hone.symm

end Watch

/-- **The badges are right throughout** just if no event makes a record of a contact with messages to
count, every message that is to be counted finds one record, and the records of a contact that is left
are read. -/
theorem unread_eq_iff (numberText : Text → CodeUnits) (toLowerCase : Text → Text) (me : Identity)
    (convos : Convos) (events : List Event) :
    Throughout (Watch.next numberText toLowerCase me) Watch.Badged (Watch.load convos) events ↔
      Admits (Watch.next numberText toLowerCase me) (Watch.Counts numberText toLowerCase me)
        (Watch.load convos) events :=
  throughout_iff_admits (P := Watch.Badged) (J := Watch.Quiet) (fun w e _ _ => Watch.Quiet.next w e)
    (fun _ e hquiet hbadged => Watch.badged_next_iff hquiet hbadged e) (fun _ _ => rfl)
    (fun _ hc => absurd hc List.not_mem_nil) events

namespace Sample

/-- Ada, who is a contact, writes; then the page connects again. -/
def connectedAgain : List Event :=
  [event "contacts_snapshot" [("contacts", .arr [ada])],
    event "message" [("id", .ofString "m1"), ("conversationId", .ofString "ada#0001"),
      ("senderId", .ofString "ada#0001"), ("body", .ofString "hello")],
    event "contacts_snapshot" [("contacts", .arr [ada])]]

end Sample

/-- The snapshot that comes with a reconnect takes the badge away. -/
theorem snapshot_clears_badges :
    ¬ ∀ (numberText : Text → CodeUnits) (toLowerCase : Text → Text) (me : Identity) (convos : Convos)
      (events : List Event),
        Throughout (Watch.next numberText toLowerCase me) Watch.Badged (Watch.load convos) events := by
  intro h
  have hbadged := (h units id Sample.user (fun _ => none) Sample.connectedAgain).last
  exact absurd (hbadged (snapshotContact Sample.ada) (by decide) (by decide)) (by decide)

end AppCore
end Winkd.Web
