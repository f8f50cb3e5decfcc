import Winkd.AppCore
import Winkd.OneEntry
import Winkd.Transitions
import Mathlib.Data.List.Infix

/-!
# Chat history

A conversation is appended to, and taken away when the contact is blocked.  Two events seed it: a
request that was sent, and a request that was accepted, make it anew where the contact is not in the
list, whatever it has by then.  Every entry stays until its contact is blocked just if both find a
conversation that is empty, or has their line only (`history_kept_iff`).
-/

namespace Winkd.Web
open UnicodeText Winkd.Server Transitions

namespace Convos

theorem messages_update_self (convos : Convos) (k : Text) (ms : List UiMessage) :
    Convos.messages (Function.update convos k (some ms)) k = ms := by
  rw [messages, Function.update_self]
  rfl

theorem messages_update_of_ne {k k' : Text} (h : k' ≠ k) (convos : Convos)
    (ms : Option (List UiMessage)) :
    Convos.messages (Function.update convos k ms) k' = convos.messages k' := by
  rw [messages, Function.update_of_ne h, messages]

theorem prefix_push (convos : Convos) (k : Text) (m : UiMessage) (k' : Text) :
    convos.messages k' <+: (convos.push k m).messages k' := by
  unfold push
  by_cases hk : k' = k
  · rw [hk, messages_update_self]
    exact List.prefix_append _ _
  · rw [messages_update_of_ne hk]

theorem prefix_added (numberText : Text → CodeUnits) (convos : Convos) (k : Text) (m : UiMessage)
    (k' : Text) : convos.messages k' <+: (convos.added numberText k m).messages k' := by
  unfold added
  split
  · rw [messages_ensure]
  · rw [← messages_ensure convos k k']
    exact prefix_push _ k m k'

theorem messages_ensureAll (convos : Convos) (ks : List Text) (k : Text) :
    (ks.foldl ensure convos).messages k = convos.messages k := by
  induction ks generalizing convos with
  | nil => rfl
  | cons k' ks ih => exact (ih _).trans (messages_ensure convos k' k)

end Convos

namespace AppCore
variable {numberText : Text → CodeUnits} {toLowerCase : Text → Text} {me : Identity} {s : AppCore}

/-- A conversation may be made anew with one line: it is empty, or has the line only. -/
def Seedable (s : AppCore) (wid : Text) (line : UiMessage) : Prop :=
  s.convos.messages wid = [] ∨ s.convos.messages wid = [line]

/-- An event of the server makes no conversation anew that has entries. -/
def SparesConvos (toLowerCase : Text → Text) (s : AppCore) (payload : Json) : Option ServerEvent → Prop
  | some .contactRequestSent =>
    let wid := textOf payload "to_winkd_id"
    wid = [] ∨ s.hasContactByWinkdId toLowerCase wid = true ∨ s.Seedable wid (requestSentLine wid)
  | some .contactAccepted =>
    ∀ wid, payload.getStr "winkd_id" = some wid → s.contacts.any (sameId toLowerCase wid) = true ∨
      s.Seedable wid (connectedLine (Chats.nameOr (textOf payload "display_name") wid))
  | _ => True

def Spares (toLowerCase : Text → Text) (s : AppCore) : Event → Prop
  | .received envelope _ => s.SparesConvos toLowerCase (payloadOf envelope) (eventOf envelope)
  | _ => True

/-- The one with whom the conversation is gets blocked. -/
def BlocksId (id : Text) (payload : Json) (event : Option ServerEvent) : Prop :=
  event = some .contactBlocked ∧ textOf payload "winkd_id" = id

def Event.Blocks (id : Text) : Event → Prop
  | .received envelope _ => BlocksId id (payloadOf envelope) (eventOf envelope)
  | _ => False

/-- The entries of a conversation stay where they are. -/
def Keeps (id : Text) (s t : AppCore) : Prop := s.convos.messages id <+: t.convos.messages id

theorem Keeps.of_eq {id : Text} {t : AppCore} (h : t.convos = s.convos) : Keeps id s t := by
  rw [Keeps, h]

/-! ## Handler by handler -/

/-- A conversation that is made anew keeps its entries just if it may be. -/
theorem keeps_seed_iff (s t : AppCore) {wid : Text} {line : UiMessage}
    (ht : t.convos = Function.update s.convos wid (some [line])) :
    (∀ id, Keeps id s t) ↔ s.Seedable wid line := by
  have hseed : Keeps wid s t ↔ s.Seedable wid line := by
    rw [Keeps, ht, Convos.messages_update_self, Seedable]
    cases hms : s.convos.messages wid with
    | nil => exact iff_of_true List.nil_prefix (.inl rfl)
    | cons m ms => simp [List.cons_prefix_cons]
  rw [← hseed]
  refine ⟨fun h => h wid, fun h id => ?_⟩
  by_cases hid : id = wid
  · exact hid ▸ h
  · rw [Keeps, ht, Convos.messages_update_of_ne hid]

theorem keeps_rendered (payload : Json) (ts id : Text) :
    Keeps id s (s.locallyRenderOutgoing numberText payload ts) := by
  unfold locallyRenderOutgoing
  split
  · rename_i k _
    have hconvos : ∀ m : UiMessage, m.id = payload.firstTruthy ["id"] →
        (if hasMessage numberText ((s.convos.ensure k).messages k) (payload.firstTruthy ["id"]) = true then
            { s with convos := s.convos.ensure k }
          else { s with convos := (s.convos.ensure k).push k m } : AppCore).convos =
          s.convos.added numberText k m := by
      intro m hm
      unfold Convos.added
      rw [hm]
      exact apply_ite AppCore.convos _ _ _
    rw [Keeps, hconvos _ rfl]
    exact Convos.prefix_added numberText s.convos k _ id
  · exact .of_eq rfl

theorem keeps_relayed (payload : Json) (ts id : Text) :
    Keeps id s (s.handleRelayedMessage numberText me payload ts) := by
  unfold handleRelayedMessage
  split
  · dsimp only
    split
    · rw [Keeps, Convos.messages_ensure]
    · rename_i k _ _ _ _
      rw [Keeps, ← Convos.messages_ensure s.convos k id]
      exact Convos.prefix_push _ k _ id
  · exact .of_eq rfl

theorem keeps_snapshot (payload : Json) (id : Text) : Keeps id s (s.handleContactsSnapshot payload) := by
  have hconvos : (s.handleContactsSnapshot payload).convos =
      ((snapshotContacts payload).map Contact.id).foldl Convos.ensure s.convos := by
    rw [List.foldl_map]
    rfl
  rw [Keeps, hconvos, Convos.messages_ensureAll]

theorem keeps_requestSent_iff (payload : Json) :
    (∀ id, Keeps id s (s.handleContactRequestSent toLowerCase payload)) ↔
      textOf payload "to_winkd_id" = [] ∨
        s.hasContactByWinkdId toLowerCase (textOf payload "to_winkd_id") = true ∨
          s.Seedable (textOf payload "to_winkd_id") (requestSentLine (textOf payload "to_winkd_id")) := by
  unfold handleContactRequestSent
  dsimp only
  split
  · rename_i hsame
    rw [Bool.or_eq_true, decide_eq_true_eq] at hsame
    exact iff_of_true (fun id => .of_eq rfl) (hsame.imp_right .inl)
  · rename_i hnew
    rw [Bool.or_eq_true, decide_eq_true_eq, not_or] at hnew
    rw [keeps_seed_iff s _ rfl, or_iff_right hnew.1, or_iff_right hnew.2]

theorem keeps_accepted_iff (payload : Json) :
    (∀ id, Keeps id s (s.handleContactAccepted toLowerCase payload)) ↔
      ∀ wid, payload.getStr "winkd_id" = some wid → s.contacts.any (sameId toLowerCase wid) = true ∨
        s.Seedable wid (connectedLine (Chats.nameOr (textOf payload "display_name") wid)) := by
  unfold handleContactAccepted
  split
  · rename_i hnone
    refine iff_of_true (fun id => .of_eq rfl) fun wid hwid => ?_
    rw [hnone] at hwid
    cases hwid
  · rename_i wid hwid
    rw [hwid]
    have hone : ∀ P : Text → Prop, (∀ wid', some wid = some wid' → P wid') ↔ P wid := by
      intro P
      refine ⟨fun h => h wid rfl, fun h wid' hwid' => ?_⟩
      obtain rfl := Option.some.inj hwid'
      exact h
    rw [hone]
    dsimp only
    split
    · rename_i hsame
      refine iff_of_true (fun id => ?_) (.inl hsame)
      rw [Keeps]
      dsimp only
      split
      · exact Convos.prefix_push s.convos wid _ id
      · exact List.prefix_rfl
    · rename_i hnone
      rw [or_iff_right hnone, if_neg]
      · exact keeps_seed_iff s _ rfl
      · rw [hasContactByWinkdId, Bool.and_eq_true]
        exact fun h => hnone h.2

theorem keeps_blocked (payload : Json) {id : Text} (hid : textOf payload "winkd_id" ≠ id) :
    Keeps id s (s.handleContactBlocked payload) := by
  unfold handleContactBlocked
  dsimp only
  split
  · exact .of_eq rfl
  · rw [Keeps, Convos.messages_update_of_ne (Ne.symm hid)]

theorem keeps_unblocked (payload : Json) (id : Text) :
    Keeps id s (s.handleContactUnblocked payload) := by
  unfold handleContactUnblocked
  dsimp only
  split
  · exact .of_eq rfl
  · split
    · exact .of_eq rfl
    · split
      · exact .of_eq rfl
      · exact .of_eq rfl

/-- **What an event of the server keeps.** -/
theorem keeps_handle_iff (s : AppCore) (event : Option ServerEvent) (payload : Json) (ts : Text) :
    (∀ id, ¬ BlocksId id payload event →
        Keeps id s (s.handleServerEvent numberText toLowerCase me event payload ts)) ↔
      s.SparesConvos toLowerCase payload event := by
  have hall : ∀ {t : AppCore}, event ≠ some .contactBlocked →
      ((∀ id, ¬ BlocksId id payload event → Keeps id s t) ↔ ∀ id, Keeps id s t) :=
    fun h => ⟨fun h' id => h' id fun hblocks => h hblocks.1, fun h' id _ => h' id⟩
  cases event with
  | none => exact iff_of_true (fun id _ => .of_eq rfl) trivial
  | some event =>
    cases event with
    | contactsSnapshot => exact iff_of_true (fun id _ => keeps_snapshot payload id) trivial
    | presence =>
      refine iff_of_true (fun id _ => .of_eq ?_) trivial
      show (s.handlePresence payload).convos = s.convos
      unfold handlePresence
      split <;> rfl
    | contactRequestSent => exact (hall nofun).trans (keeps_requestSent_iff payload)
    | contactRequest =>
      refine iff_of_true (fun id _ => .of_eq ?_) trivial
      exact (apply_ite AppCore.convos _ _ _).trans (ite_self _)
    | contactAccepted => exact (hall nofun).trans (keeps_accepted_iff payload)
    | contactRequestRejected =>
      refine iff_of_true (fun id _ => .of_eq ?_) trivial
      exact (apply_ite AppCore.convos _ _ _).trans (ite_self _)
    | contactBlocked =>
      exact iff_of_true (fun id hid => keeps_blocked payload fun h => hid ⟨rfl, h⟩) trivial
    | blockedList => exact iff_of_true (fun id _ => .of_eq rfl) trivial
    | contactUnblocked => exact iff_of_true (fun id _ => keeps_unblocked payload id) trivial
    | message => exact iff_of_true (fun id _ => keeps_relayed payload ts id) trivial
    | error => exact iff_of_true (fun id _ => .of_eq rfl) trivial

theorem keeps_next_iff (s : AppCore) (e : Event) :
    (∀ id, ¬ e.Blocks id → Keeps id s (s.next numberText toLowerCase me e)) ↔
      s.Spares toLowerCase e := by
  cases e with
  | authOk envelope => exact iff_of_true (fun id _ => .of_eq rfl) trivial
  | received envelope ts => exact keeps_handle_iff s (eventOf envelope) (payloadOf envelope) ts
  | rendered payload ts => exact iff_of_true (fun id _ => keeps_rendered payload ts id) trivial
  | selectContact id => exact iff_of_true (fun id _ => .of_eq rfl) trivial
  | leave => exact iff_of_true (fun id _ => .of_eq rfl) trivial

/-- **Every entry stays until its contact is blocked** just if every request that was sent, and every
request that was accepted, of one who is not in the list finds the conversation empty. -/
theorem history_kept_iff (numberText : Text → CodeUnits) (toLowerCase : Text → Text) (me : Identity)
    (convos : Convos) (events : List Event) :
    Lasting (next numberText toLowerCase me) Keeps Event.Blocks (load convos) events ↔
      Admits (next numberText toLowerCase me) (Spares toLowerCase) (load convos) events :=
  lasting_iff_admits (K := Keeps) (fun _ _ => List.prefix_rfl) (fun _ _ _ _ h h' => h.trans h')
    keeps_next_iff events

namespace Sample

def user : Identity := ⟨"me#0001".toList, nofun⟩

def event (name : String) (payload : List (String × Json)) : Event :=
  .received (.event name payload) []

def ada : Json := .obj [("winkd_id", .ofString "ada#0001"), ("display_name", .ofString "Ada")]

/-- Ada, who is a contact, writes; then a snapshot comes without her. -/
def adaGone : List Event :=
  [event "contacts_snapshot" [("contacts", .arr [ada])],
    event "message" [("id", .ofString "m1"), ("conversationId", .ofString "ada#0001"),
      ("senderId", .ofString "ada#0001"), ("body", .ofString "hello")],
    event "contacts_snapshot" [("contacts", .arr [])]]

def askAgain : Event := event "contact_request_sent" [("to_winkd_id", .ofString "ada#0001")]

end Sample

/-- Ada's message is gone once a request to her has been sent again. -/
theorem request_discards_history :
    ¬ ∀ (numberText : Text → CodeUnits) (toLowerCase : Text → Text) (me : Identity) (convos : Convos)
      (events : List Event),
        Lasting (next numberText toLowerCase me) Keeps Event.Blocks (load convos) events := by
  intro h
  have hunblocked : ∀ e ∈ [Sample.askAgain], ¬ e.Blocks "ada#0001".toList := by
    intro e he hblocks
    obtain rfl := List.mem_singleton.mp he
    obtain ⟨hevent, -⟩ : BlocksId _ _ _ := hblocks
    exact absurd hevent (by decide)
  have hkeeps := h units id Sample.user (fun _ => none) (Sample.adaGone ++ [Sample.askAgain])
    Sample.adaGone [Sample.askAgain] [] "ada#0001".toList rfl hunblocked
  have hbefore : ((Sample.adaGone.foldl (next units id Sample.user) (load fun _ => none)).convos.messages
      "ada#0001".toList).any (fun m => m.id.isSome) = true := by decide
  have hafter : (((Sample.adaGone ++ [Sample.askAgain]).foldl (next units id Sample.user)
      (load fun _ => none)).convos.messages "ada#0001".toList).any (fun m => m.id.isSome) = false := by
    decide
  obtain ⟨m, hm, hid⟩ := List.any_eq_true.mp hbefore
  exact absurd hid (List.any_eq_false.mp hafter m (hkeeps.subset hm))

end AppCore
end Winkd.Web
