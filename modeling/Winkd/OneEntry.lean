import Winkd.Chats

/-!
# One entry for each message

A message comes into a conversation when its sender renders it, when the relay forwards it,
live or from the queue, and when the relay echoes it.  All of them leave a conversation as it is
that has an entry with the message's id, so there is never more than one; and as nothing but a
request, an acceptance or a block takes entries away, a message that was rendered or echoed has
one (`one_entry`).
-/

namespace Winkd.Web
open UnicodeText Winkd.Server

/-! ## Entries -/

/-- The id is this string. -/
def isId (i : Text) : Option Json → Bool
  | some (.str t) => t = i
  | _ => false

theorem isId_iff {i : Text} {id : Option Json} : isId i id = true ↔ id = some (.str i) := by
  unfold isId
  split
  · rename_i t
    rw [decide_eq_true_eq]
    exact ⟨fun h => h ▸ rfl, fun h => by cases h; rfl⟩
  · rename_i hne
    exact iff_of_false nofun fun h => hne i h

namespace Convos

/-- How many entries of a conversation have an id. -/
def entries (convos : Convos) (k i : Text) : ℕ := (convos.messages k).countP fun m => isId i m.id

theorem messages_ensure (convos : Convos) (k k' : Text) :
    (convos.ensure k).messages k' = convos.messages k' := by
  unfold ensure messages
  split
  · rfl
  · rename_i hnone
    by_cases hk : k' = k
    · subst hk
      rw [Function.update_self, Option.not_isSome_iff_eq_none.mp hnone]
      rfl
    · rw [Function.update_of_ne hk]

theorem entries_ensure (convos : Convos) (k k' i : Text) :
    (convos.ensure k).entries k' i = convos.entries k' i := by
  rw [entries, messages_ensure, entries]

theorem entries_push (convos : Convos) (k : Text) (m : UiMessage) (k' i : Text) :
    (convos.push k m).entries k' i =
      convos.entries k' i + if k' = k ∧ isId i m.id = true then 1 else 0 := by
  unfold entries push messages
  by_cases hk : k' = k
  · subst hk
    rw [Function.update_self, Option.getD_some, List.countP_append, List.countP_singleton]
    simp only [true_and]
  · rw [Function.update_of_ne hk, if_neg fun h => hk h.1]
    rfl

end Convos

section
variable (numberText : Text → CodeUnits)

/-- A message with a string for its id is there if an entry has that id. -/
theorem hasMessage_str (messages : List UiMessage) (i : Text) :
    hasMessage numberText messages (some (.str i)) = messages.any fun m => isId i m.id := by
  unfold hasMessage
  rw [Option.any_some]
  refine congrArg (List.any messages) (funext fun m => ?_)
  cases hid : m.id with
  | none => rfl
  | some j => cases j <;> rfl

/-- What a message does to the conversations, if it has an id that is there or not. -/
def Convos.added (convos : Convos) (k : Text) (m : UiMessage) : Convos :=
  if hasMessage numberText ((convos.ensure k).messages k) m.id then convos.ensure k
  else (convos.ensure k).push k m

/-- **A message makes an entry where there is none.** -/
theorem Convos.entries_added (convos : Convos) (k : Text) (m : UiMessage) (k' i : Text) :
    (convos.added numberText k m).entries k' i =
      if (k' = k ∧ isId i m.id = true) ∧ convos.entries k' i = 0 then 1
      else convos.entries k' i := by
  unfold added
  by_cases hid : k' = k ∧ isId i m.id = true
  · obtain ⟨rfl, hid⟩ := hid
    have hany : hasMessage numberText ((convos.ensure k').messages k') m.id = true ↔
        convos.entries k' i ≠ 0 := by
      rw [isId_iff.mp hid, hasMessage_str, messages_ensure, entries, ← Nat.pos_iff_ne_zero,
        List.countP_pos_iff, List.any_eq_true]
    by_cases hzero : convos.entries k' i = 0
    · rw [if_neg fun h => hany.mp h hzero, entries_push, entries_ensure, hzero, if_pos ⟨rfl, hid⟩,
        if_pos ⟨⟨rfl, hid⟩, rfl⟩]
    · rw [if_pos (hany.mpr hzero), entries_ensure, if_neg fun h => hzero h.2]
  · have hnone : ¬ ((k' = k ∧ isId i m.id = true) ∧ convos.entries k' i = 0) := fun h => hid h.1
    rw [if_neg hnone]
    split
    · exact entries_ensure convos k k' i
    · rw [entries_push, entries_ensure, if_neg hid, Nat.add_zero]

/-- A message that is there changes nothing. -/
theorem Convos.added_of_entry {convos : Convos} {k : Text} {m : UiMessage} {i : Text}
    (hid : m.id = some (.str i)) (hentry : convos.entries k i ≠ 0) :
    convos.added numberText k m = convos := by
  have hsome : (convos k).isSome = true := by
    by_contra hnone
    rw [entries, messages, Option.not_isSome_iff_eq_none.mp hnone] at hentry
    exact hentry rfl
  have hsame : convos.ensure k = convos := if_pos hsome
  unfold added
  rw [hsame, hid, hasMessage_str, if_pos]
  rw [List.any_eq_true]
  exact List.countP_pos_iff.mp (Nat.pos_of_ne_zero hentry)

end

/-! ## Event by event -/

namespace Chats

/-- The message belongs to a conversation, and has an id. -/
structure Addressed (payload : Json) (k i : Text) : Prop where
  conversation : conversationOf payload = some (.str k)
  id : payload.firstTruthy ["id"] = some (.str i)

/-- A request, an acceptance or a block of the one with whom the conversation is. -/
def Event.Touches (k : Text) : Event → Prop
  | .contactRequestSent toWinkdId _ => toWinkdId = k
  | .contactAccepted winkdId _ => winkdId = k
  | .contactBlocked winkdId => winkdId = k
  | _ => False

section
variable {numberText : Text → CodeUnits} {toLowerCase : Text → Text} {me : Identity} {s : Chats}

theorem rendered_convos {payload : Json} {k : Text} (hk : conversationOf payload = some (.str k))
    (ts : Text) : ∃ m : UiMessage, m.id = payload.firstTruthy ["id"] ∧
      (s.locallyRenderOutgoing numberText payload ts).convos = s.convos.added numberText k m := by
  refine ⟨payloadToUiMessage payload ((s.contacts.find? (·.id = k)).map Buddy.name) true ts, rfl, ?_⟩
  unfold locallyRenderOutgoing
  rw [hk]
  exact apply_ite Chats.convos _ _ _

/-- A message that cannot be rendered changes nothing. -/
theorem rendered_of_not_str {payload : Json} (h : ∀ k, conversationOf payload ≠ some (.str k))
    (ts : Text) : s.locallyRenderOutgoing numberText payload ts = s := by
  unfold locallyRenderOutgoing
  split
  · rename_i k hk
    exact absurd hk (h k)
  · rfl

theorem relayed_convos {payload sender : Json} {k : Text}
    (hk : conversationOf payload = some (.str k))
    (hsender : payload.firstTruthy ["senderId", "sender_id"] = some sender) (ts : Text) :
    ∃ m : UiMessage, m.id = payload.firstTruthy ["id"] ∧
      (s.handleRelayedMessage numberText me payload ts).convos = s.convos.added numberText k m := by
  have hcontacts : ∃ contacts : List Buddy,
      (s.handleRelayedMessage numberText me payload ts).convos = s.convos.added numberText k
        (payloadToUiMessage payload ((contacts.find? (·.id = k)).map Buddy.name)
          (sender.asStr = some me.winkdId) ts) := by
    unfold handleRelayedMessage
    rw [hk, hsender]
    exact ⟨_, apply_ite Chats.convos _ _ _⟩
  obtain ⟨contacts, hconvos⟩ := hcontacts
  exact ⟨_, rfl, hconvos⟩

theorem relayed_of_not_str {payload : Json}
    (h : ∀ k sender, conversationOf payload = some (.str k) →
      payload.firstTruthy ["senderId", "sender_id"] ≠ some sender) (ts : Text) :
    s.handleRelayedMessage numberText me payload ts = s := by
  unfold handleRelayedMessage
  split
  · rename_i k sender hk hsender
    exact absurd hsender (h k sender hk)
  · rfl

/-- The entries with an id are left as they are, or the first is made, or all of them are taken
away. -/
def Changes (touches : Prop) (k i : Text) (convos convos' : Convos) : Prop :=
  convos'.entries k i = convos.entries k i ∨
    (convos.entries k i = 0 ∧ convos'.entries k i = 1) ∨ (touches ∧ convos'.entries k i = 0)

theorem changes_added (touches : Prop) (k i : Text) (convos : Convos) (k' : Text) (m : UiMessage) :
    Changes touches k i convos (convos.added numberText k' m) := by
  unfold Changes
  rw [Convos.entries_added]
  split
  · rename_i h
    exact .inr (.inl ⟨h.2, rfl⟩)
  · exact .inl rfl

theorem changes_update (k i : Text) (convos : Convos) (k' : Text) {ms : Option (List UiMessage)}
    (hms : ∀ m ∈ ms.getD [], isId i m.id = false) :
    Changes (k' = k) k i convos (Function.update convos k' ms) := by
  by_cases hk : k = k'
  · subst hk
    refine .inr (.inr ⟨rfl, ?_⟩)
    rw [Convos.entries, Convos.messages, Function.update_self, List.countP_eq_zero]
    exact fun m hm => Bool.eq_false_iff.mp (hms m hm)
  · refine .inl ?_
    rw [Convos.entries, Convos.messages, Function.update_of_ne hk, Convos.entries, Convos.messages]

/-- **What an event does to the entries with an id.** -/
theorem changes_next (s : Chats) (e : Event) (k i : Text) :
    Changes (e.Touches k) k i s.convos (s.next numberText toLowerCase me e).convos := by
  -- the lines that the client writes itself have no id
  have hsystem : ∀ (text : Text), ∀ m ∈ (some [systemMessage text]).getD [], isId i m.id = false := by
    intro text m hm
    obtain rfl := List.mem_singleton.mp hm
    rfl
  cases e with
  | rendered payload ts =>
    show Changes _ k i s.convos (s.locallyRenderOutgoing numberText payload ts).convos
    by_cases hk : ∃ k', conversationOf payload = some (.str k')
    · obtain ⟨k', hk⟩ := hk
      have hconvos : ∃ m : UiMessage, m.id = payload.firstTruthy ["id"] ∧
          (s.locallyRenderOutgoing numberText payload ts).convos = s.convos.added numberText k' m :=
        rendered_convos hk ts
      obtain ⟨m, -, hconvos⟩ := hconvos
      rw [hconvos]
      exact changes_added _ k i s.convos k' m
    · rw [rendered_of_not_str (fun k' hk' => hk ⟨k', hk'⟩) ts]
      exact .inl rfl
  | relayed payload ts =>
    show Changes _ k i s.convos (s.handleRelayedMessage numberText me payload ts).convos
    by_cases hk : ∃ k' sender, conversationOf payload = some (.str k') ∧
        payload.firstTruthy ["senderId", "sender_id"] = some sender
    · obtain ⟨k', sender, hk, hsender⟩ := hk
      have hconvos : ∃ m : UiMessage, m.id = payload.firstTruthy ["id"] ∧
          (s.handleRelayedMessage numberText me payload ts).convos = s.convos.added numberText k' m :=
        relayed_convos hk hsender ts
      obtain ⟨m, -, hconvos⟩ := hconvos
      rw [hconvos]
      exact changes_added _ k i s.convos k' m
    · rw [relayed_of_not_str (fun k' sender hk' h => hk ⟨k', sender, hk', h⟩) ts]
      exact .inl rfl
  | contactsSnapshot items =>
    refine .inl ?_
    show Convos.entries ((items.filter _).foldl _ s.convos) k i = _
    -- the snapshot makes conversations, and puts nothing in them
    refine List.foldlRecOn (motive := fun convos : Convos =>
      convos.entries k i = s.convos.entries k i) _ _ rfl fun convos h item _ => ?_
    rw [Convos.entries_ensure, h]
  | contactRequestSent toWinkdId toDisplayName =>
    show Changes _ k i s.convos
      (s.handleContactRequestSent toLowerCase toWinkdId toDisplayName).convos
    unfold handleContactRequestSent
    split
    · exact .inl rfl
    · exact changes_update k i s.convos toWinkdId (hsystem _)
  | contactAccepted winkdId displayName =>
    show Changes _ k i s.convos (s.handleContactAccepted toLowerCase winkdId displayName).convos
    unfold handleContactAccepted
    dsimp only
    split_ifs with hsame hsome hknown
    · refine .inl ?_
      rw [Convos.entries_push, if_neg (fun h => nomatch h.2), Nat.add_zero]
    · exact .inl rfl
    · exact .inl rfl
    · exact changes_update k i s.convos winkdId (hsystem _)
  | contactBlocked winkdId =>
    show Changes _ k i s.convos (s.handleContactBlocked winkdId).convos
    unfold handleContactBlocked
    split
    · exact .inl rfl
    · exact changes_update k i s.convos winkdId fun _ hm => nomatch hm
  | contactUnblocked winkdId displayName =>
    show Changes _ k i s.convos (s.handleContactUnblocked winkdId displayName).convos
    unfold handleContactUnblocked
    split
    · exact .inl rfl
    · exact .inl rfl
  | selectContact id => exact .inl rfl
  | leave => exact .inl rfl

/-! ## Runs -/

theorem entries_next_le_one (h : ∀ k i, s.convos.entries k i ≤ 1) (e : Event) (k i : Text) :
    (s.next numberText toLowerCase me e).convos.entries k i ≤ 1 := by
  have hle := h k i
  have hchanges : Changes (e.Touches k) k i s.convos (s.next numberText toLowerCase me e).convos :=
    changes_next s e k i
  rcases hchanges with heq | ⟨-, heq⟩ | ⟨-, heq⟩ <;> omega

/-- An entry stays where the conversation is not touched. -/
theorem entries_next_ne_zero {e : Event} {k i : Text} (htouches : ¬ e.Touches k)
    (h : s.convos.entries k i ≠ 0) :
    (s.next numberText toLowerCase me e).convos.entries k i ≠ 0 := by
  have hchanges : Changes (e.Touches k) k i s.convos (s.next numberText toLowerCase me e).convos :=
    changes_next s e k i
  rcases hchanges with heq | ⟨hzero, -⟩ | ⟨htouch, -⟩
  · exact heq ▸ h
  · exact absurd hzero h
  · exact absurd htouch htouches

theorem entries_added_ne_zero (convos : Convos) {k i : Text} {m : UiMessage}
    (hid : m.id = some (.str i)) : (convos.added numberText k m).entries k i ≠ 0 := by
  rw [Convos.entries_added]
  split
  · exact Nat.one_ne_zero
  · rename_i h
    exact fun hzero => h ⟨⟨rfl, isId_iff.mpr hid⟩, hzero⟩

/-- What the relay takes for the recipient. -/
def recipientOf (payload : Json) : Option Text :=
  (payload.getAny ["conversationId", "conversation_id", "recipient_winkd_id", "recipientId",
    "recipient_id"]).bind Json.asStr

/-- A payload is rendered by its sender, or the relay echoes it to him. -/
def Event.Sends (me : Identity) (payload : Json) : Event → Prop
  | .rendered p _ => p = payload
  | .relayed p _ => ∃ (user : Member) (recipientWinkdId : Text) (delivered : Bool),
      user.winkdId = me.winkdId ∧ recipientOf payload = some recipientWinkdId ∧
        p = senderPayload user recipientWinkdId payload delivered
  | _ => False

/-- **The echo of a message belongs to its conversation**, and has its id. -/
theorem addressed_echo {payload : Json} {k i r : Text} (h : Addressed payload k i)
    (hr : recipientOf payload = some r) (user : Member) (delivered : Bool) :
    Addressed (senderPayload user r payload delivered) k i := by
  obtain ⟨hconversation, hid⟩ := h
  cases payload with
  | obj fields =>
    have hget : ∀ key, key ∉ ["conversationId", "senderId", "delivered"] →
        (senderPayload user r (.obj fields) delivered).get key = (Json.obj fields).get key := by
      intro key hkey
      obtain ⟨h₁, h₂, h₃⟩ : key ≠ "conversationId" ∧ key ≠ "senderId" ∧ key ≠ "delivered" := by
        simpa using hkey
      exact (get_setField h₃ _ _).trans ((get_setField h₂ _ _).trans (get_setField h₁ _ _))
    have hself : (senderPayload user r (.obj fields) delivered).get "conversationId" =
        some (.str r) :=
      (get_setField (by decide) _ _).trans ((get_setField (by decide) _ _).trans
        (get_setField_self _ _ _))
    constructor
    · rw [conversationOf, firstTruthy_pair] at hconversation ⊢
      rw [hself, hget "conversation_id" (by decide)]
      rw [recipientOf, Json.getAny, List.findSome?_cons] at hr
      cases hfirst : (Json.obj fields).get "conversationId" with
      | some v =>
        rw [hfirst] at hconversation hr
        -- the relay takes the first name, and it is a string
        cases v <;> cases hr
        exact hconversation
      | none =>
        rw [hfirst] at hconversation hr
        have hsecond : ((Json.obj fields).get "conversation_id").filter Json.truthy =
            some (.str k) := hconversation
        obtain ⟨hget', htruthy⟩ := Option.filter_eq_some_iff.mp hsecond
        rw [List.findSome?_cons, hget'] at hr
        obtain rfl : k = r := Option.some.inj hr
        rw [Option.filter_some_pos htruthy]
        rfl
    · rw [Json.firstTruthy, List.findSome?_cons] at hid ⊢
      rw [hget "id" (by decide)]
      exact hid
  | _ => cases hid

/-- The relay says who sends. -/
theorem sender_echo {fields : List (String × Json)} {user : Member} (huser : user.winkdId ≠ [])
    (r : Text) (delivered : Bool) :
    (senderPayload user r (.obj fields) delivered).firstTruthy ["senderId", "sender_id"] =
      some (.str user.winkdId) := by
  have hget : (senderPayload user r (.obj fields) delivered).get "senderId" =
      some (.str user.winkdId) := (get_setField (by decide) _ _).trans (get_setField_self _ _ _)
  have htruthy : (Json.str user.winkdId).truthy = true := by
    simpa [Json.truthy] using huser
  rw [firstTruthy_pair, hget, Option.filter_some_pos htruthy]
  rfl

/-- A message that is rendered or echoed has an entry. -/
theorem entries_next_of_sends {payload : Json} {k i : Text} (h : Addressed payload k i) {e : Event}
    (he : e.Sends me payload) :
    (s.next numberText toLowerCase me e).convos.entries k i ≠ 0 := by
  cases e with
  | rendered p ts =>
    obtain rfl : p = payload := he
    have hconvos : ∃ m : UiMessage, m.id = p.firstTruthy ["id"] ∧
        (s.locallyRenderOutgoing numberText p ts).convos = s.convos.added numberText k m :=
      rendered_convos h.conversation ts
    obtain ⟨m, hid, hconvos⟩ := hconvos
    show (s.locallyRenderOutgoing numberText p ts).convos.entries k i ≠ 0
    rw [hconvos]
    exact entries_added_ne_zero s.convos (hid.trans h.id)
  | relayed p ts =>
    obtain ⟨user, r, delivered, huser, hr, rfl⟩ := he
    have hecho := addressed_echo h hr user delivered
    obtain ⟨fields, rfl⟩ : ∃ fields, payload = .obj fields := by
      cases payload with
      | obj fields => exact ⟨fields, rfl⟩
      | _ => cases h.id
    have hsender : (senderPayload user r (.obj fields) delivered).firstTruthy
        ["senderId", "sender_id"] = some (.str user.winkdId) :=
      sender_echo (huser ▸ me.ne_nil) r delivered
    have hconvos : ∃ m : UiMessage,
        m.id = (senderPayload user r (.obj fields) delivered).firstTruthy ["id"] ∧
        (s.handleRelayedMessage numberText me (senderPayload user r (.obj fields) delivered) ts).convos =
          s.convos.added numberText k m := relayed_convos hecho.conversation hsender ts
    obtain ⟨m, hid, hconvos⟩ := hconvos
    show (s.handleRelayedMessage numberText me _ ts).convos.entries k i ≠ 0
    rw [hconvos]
    exact entries_added_ne_zero s.convos (hid.trans hecho.id)
  | _ => exact he.elim

/-- **A message that is there changes no conversation**, rendered or relayed. -/
theorem convos_next_of_entry {payload : Json} {k i : Text} (h : Addressed payload k i)
    (hentry : s.convos.entries k i ≠ 0) (ts : Text) :
    (s.locallyRenderOutgoing numberText payload ts).convos = s.convos ∧
      (s.handleRelayedMessage numberText me payload ts).convos = s.convos := by
  constructor
  · have hconvos : ∃ m : UiMessage, m.id = payload.firstTruthy ["id"] ∧
        (s.locallyRenderOutgoing numberText payload ts).convos = s.convos.added numberText k m :=
      rendered_convos h.conversation ts
    obtain ⟨m, hid, hconvos⟩ := hconvos
    rw [hconvos, Convos.added_of_entry numberText (hid.trans h.id) hentry]
  · cases hsender : payload.firstTruthy ["senderId", "sender_id"] with
    | none =>
      have hnone : ∀ k' sender, conversationOf payload = some (.str k') →
          payload.firstTruthy ["senderId", "sender_id"] ≠ some sender := by
        intro k' sender _ hsome
        rw [hsender] at hsome
        cases hsome
      rw [relayed_of_not_str hnone ts]
    | some sender =>
      have hconvos : ∃ m : UiMessage, m.id = payload.firstTruthy ["id"] ∧
          (s.handleRelayedMessage numberText me payload ts).convos = s.convos.added numberText k m :=
        relayed_convos h.conversation hsender ts
      obtain ⟨m, hid, hconvos⟩ := hconvos
      rw [hconvos, Convos.added_of_entry numberText (hid.trans h.id) hentry]

end

section
variable (numberText : Text → CodeUnits) (toLowerCase : Text → Text) (me : Identity)

theorem entries_run_le_one (events : List Event) (k i : Text) :
    (run numberText toLowerCase me events).convos.entries k i ≤ 1 := by
  have hrun : ∀ k i, (run numberText toLowerCase me events).convos.entries k i ≤ 1 := by
    refine List.foldlRecOn (motive := fun s : Chats => ∀ k i, s.convos.entries k i ≤ 1) events _
      (fun _ _ => Nat.zero_le 1) fun s hs e _ => entries_next_le_one hs e
  exact hrun k i

/-- A message that was rendered or echoed keeps its entry. -/
theorem entries_run_of_sends {payload : Json} {k i : Text} (h : Addressed payload k i)
    {events : List Event} (htouches : ∀ e ∈ events, ¬ e.Touches k)
    (hsends : ∃ e ∈ events, e.Sends me payload) :
    (run numberText toLowerCase me events).convos.entries k i ≠ 0 := by
  obtain ⟨e, he, hsends⟩ := hsends
  obtain ⟨before, after, rfl⟩ := List.append_of_mem he
  rw [run, List.foldl_append, List.foldl_cons]
  refine List.foldlRecOn (motive := fun s : Chats => s.convos.entries k i ≠ 0) after _
    (entries_next_of_sends h hsends) fun s hs e' he' => entries_next_ne_zero (htouches e' ?_) hs
  exact List.mem_append_right before (List.mem_cons_of_mem e he')

end
end Chats

/-- **Every message has one entry.**  In every run from empty conversations no two entries of a
conversation have the same id; a message whose id is there changes no conversation, rendered or
relayed; and a message that was rendered or echoed, as often as may be and in any order, has one
entry, if no request, acceptance or block touches its conversation. -/
theorem one_entry (numberText : Text → CodeUnits) (toLowerCase : Text → Text) (me : Identity)
    (events : List Chats.Event) :
    (∀ k i, (Chats.run numberText toLowerCase me events).convos.entries k i ≤ 1) ∧
      (∀ payload k i, Chats.Addressed payload k i →
        (Chats.run numberText toLowerCase me events).convos.entries k i ≠ 0 →
        ∀ ts, ∀ e ∈ [Chats.Event.rendered payload ts, .relayed payload ts],
          ((Chats.run numberText toLowerCase me events).next numberText toLowerCase me e).convos =
            (Chats.run numberText toLowerCase me events).convos) ∧
      (∀ payload k i, Chats.Addressed payload k i → (∀ e ∈ events, ¬ e.Touches k) →
        (∃ e ∈ events, e.Sends me payload) →
        (Chats.run numberText toLowerCase me events).convos.entries k i = 1) := by
  refine ⟨Chats.entries_run_le_one numberText toLowerCase me events, ?_, ?_⟩
  · intro payload k i h hentry ts e he
    obtain ⟨hrendered, hrelayed⟩ := Chats.convos_next_of_entry h hentry ts
    simp only [List.mem_cons, List.not_mem_nil, or_false] at he
    rcases he with rfl | rfl
    · exact hrendered
    · exact hrelayed
  · intro payload k i h htouches hsends
    have hle := Chats.entries_run_le_one numberText toLowerCase me events k i
    have hne := Chats.entries_run_of_sends numberText toLowerCase me h htouches hsends
    omega

namespace Chats.Sample

def ada : Identity := ⟨"ada#0001".toList, by decide⟩

def greeting : Json :=
  .obj [("id", .ofString "m1"), ("conversationId", .ofString "bob#0002"), ("body", .ofString "hi")]

/-- The echo comes before the message is rendered, and once more. -/
def events : List Event :=
  let echo := senderPayload ReceivedSize.Sample.ada "bob#0002".toList greeting true
  [.relayed echo [], .rendered greeting [], .relayed echo []]

theorem greeting_one_entry :
    (run units id ada events).convos.entries "bob#0002".toList "m1".toList = 1 := by
  refine (one_entry units id ada events).2.2 greeting _ _ ⟨rfl, rfl⟩ ?_ ?_
  · intro e he
    simp only [events, List.mem_cons, List.not_mem_nil, or_false] at he
    rcases he with rfl | rfl | rfl <;> exact id
  · exact ⟨.rendered greeting [], by simp [events], rfl⟩

end Chats.Sample
end Winkd.Web
