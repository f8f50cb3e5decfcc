import Winkd.UseSocket
import Winkd.RelayRuns
import Winkd.Transitions

/-!
# Delivered stays delivered

A message that its sender sees has `delivered` false, until the relay's echo or the receipt of its
recipient says otherwise.  The echo replaces the entry, also one that a receipt has marked before; and
a receipt that finds no entry is lost.  What was delivered stays so, and is so once both have come, just
if every echo of a message that is marked, or has had its receipt, says so itself, and receipts find
their entries (`delivered_iff`).  The relay can send the receipt before the echo
(`echo_after_receipt_reverts`).
-/

namespace Winkd.React
open UnicodeText Winkd.Web Winkd.Server Transitions

namespace ChatStore

/-- Whether the first entry with an id is delivered. -/
def delivered (s : ChatStore) (k i : CodeUnits) : Option Bool :=
  ((s.messages k).find? fun m => m.id = i).map Message.delivered

theorem delivered_congr {s t : ChatStore} {k : CodeUnits} (h : t.messages k = s.messages k)
    (i : CodeUnits) : t.delivered k i = s.delivered k i := by
  rw [delivered, h, delivered]

theorem messages_append (s : ChatStore) (msg : Message) (k : CodeUnits) :
    (s.append msg).messages k =
      if k = msg.conversationId then s.messages k ++ [msg] else s.messages k := by
  unfold append
  split
  · rename_i c hc
    rw [messages_put]
    split
    · rename_i hk
      rw [hk, messages, hc]
      rfl
    · rfl
  · rename_i hnone
    rw [messages_put]
    split
    · rename_i hk
      rw [hk, messages, hnone]
      rfl
    · rfl

/-- A message that is sent does not touch the entries that are there. -/
theorem delivered_append {s : ChatStore} {msg : Message} {k i : CodeUnits} {d : Bool}
    (h : s.delivered k i = some d) : (s.append msg).delivered k i = some d := by
  unfold delivered at h ⊢
  rw [messages_append]
  split
  · obtain ⟨m, hm, hd⟩ := Option.map_eq_some_iff.mp h
    rw [List.find?_append, hm]
    exact congrArg some hd
  · exact h

/-- The first entry with an id is replaced, or made. -/
theorem find?_replaced (messages : List Message) (message : Message) (i : CodeUnits) :
    (if messages.findIdx (fun m => m.id = message.id) < messages.length then
        messages.modify (messages.findIdx fun m => m.id = message.id) fun m => merge m message
      else messages ++ [message]).find? (fun m => m.id = i) =
      if i = message.id then some message else messages.find? fun m => m.id = i := by
  induction messages with
  | nil => by_cases h : message.id = i <;> simp [h, eq_comm]
  | cons m messages ih =>
    rw [List.findIdx_cons]
    by_cases hm : m.id = message.id
    · -- the entry is the first
      rw [decide_eq_true hm]
      simp only [cond_true, List.length_cons, Nat.zero_lt_succ, if_pos, List.modify_zero_cons, merge,
        List.find?_cons, hm]
      by_cases hi : i = message.id
      · rw [if_pos hi, hi, decide_eq_true rfl]
      · rw [if_neg hi, decide_eq_false (Ne.symm hi)]
    · rw [decide_eq_false hm]
      simp only [cond_false, List.length_cons, Nat.add_lt_add_iff_right, List.modify_succ_cons]
      have hcons : (if messages.findIdx (fun m => m.id = message.id) < messages.length then
            m :: messages.modify (messages.findIdx fun m => m.id = message.id) fun m => merge m message
          else m :: messages ++ [message]) =
          m :: (if messages.findIdx (fun m => m.id = message.id) < messages.length then
            messages.modify (messages.findIdx fun m => m.id = message.id) fun m => merge m message
          else messages ++ [message]) := by
        split <;> rfl
      rw [hcons, List.find?_cons, ih, List.find?_cons]
      by_cases hi : m.id = i
      · have hne : i ≠ message.id := fun h => hm (hi.trans h)
        rw [decide_eq_true hi]
        exact (if_neg hne).symm
      · rw [decide_eq_false hi]

theorem delivered_receiveMessage (s : ChatStore) (message : Message) (k i : CodeUnits) :
    (s.receiveMessage message).delivered k i =
      if k = message.conversationId ∧ i = message.id then some message.delivered
      else s.delivered k i := by
  unfold delivered receiveMessage
  rw [messages_put]
  by_cases hk : k = message.conversationId
  · rw [if_pos hk, find?_replaced]
    by_cases hi : i = message.id
    · rw [if_pos hi, if_pos ⟨hk, hi⟩]
      rfl
    · rw [if_neg hi, if_neg fun h => hi h.2, hk]
  · rw [if_neg hk, if_neg fun h => hk h.1]

/-- What does not change the ids keeps the place of an id. -/
theorem find?_map_marked (messages : List Message) (i' i : CodeUnits) :
    ((messages.map fun m => if m.id = i' then { m with delivered := true } else m).find?
        fun m => m.id = i).map Message.delivered =
      if i = i' then ((messages.find? fun m => m.id = i).map Message.delivered).map fun _ => true
      else (messages.find? fun m => m.id = i).map Message.delivered := by
  rw [List.find?_map]
  have hid : ((fun m : Message => decide (m.id = i)) ∘
      fun m : Message => if m.id = i' then { m with delivered := true } else m) =
        fun m : Message => decide (m.id = i) := by
    funext m
    show decide ((if m.id = i' then ({ m with delivered := true } : Message) else m).id = i) = _
    split <;> rfl
  rw [hid]
  cases hfind : messages.find? fun m => m.id = i with
  | none => split <;> rfl
  | some m =>
    have hm : m.id = i :=
      of_decide_eq_true (List.find?_some (p := fun m : Message => decide (m.id = i)) hfind)
    by_cases hi : i = i'
    · rw [if_pos hi, Option.map_some, if_pos (hm.trans hi)]
      rfl
    · rw [if_neg hi, Option.map_some, if_neg fun h => hi (hm.symm.trans h)]

theorem delivered_markMessageDelivered (s : ChatStore) (k' i' k i : CodeUnits) :
    (s.markMessageDelivered k' i').delivered k i =
      if k = k' ∧ i = i' then (s.delivered k i).map fun _ => true else s.delivered k i := by
  unfold markMessageDelivered
  split
  · rename_i hnone
    split
    · rename_i h
      rw [delivered, messages, h.1, hnone]
      rfl
    · rfl
  · rename_i conv hconv
    unfold delivered
    rw [messages_put]
    by_cases hk : k = k'
    · have hmessages : s.messages k = conv.messages := by
        rw [messages, hk, hconv]
        rfl
      rw [if_pos hk, find?_map_marked, hmessages]
      simp only [hk, true_and]
    · rw [if_neg hk, if_neg fun h => hk h.1]

/-- A conversation is made anew if none is with the contact. -/
theorem messages_openConversation (s : ChatStore) (contactId k : CodeUnits) :
    (s.openConversation contactId).messages k =
      if k = contactId ∧ ∀ c ∈ s.conversations, c.2.contactId ≠ some contactId then []
      else s.messages k := by
  unfold openConversation
  split
  · rename_i existing hfind
    rw [if_neg]
    · rfl
    · rintro ⟨-, hnone⟩
      exact hnone existing (List.mem_of_find?_eq_some hfind)
        (of_decide_eq_true (List.find?_some
          (p := fun c : CodeUnits × Conversation => decide (c.2.contactId = some contactId)) hfind))
  · rename_i hnone
    have hall : ∀ c ∈ s.conversations, c.2.contactId ≠ some contactId := fun c hc =>
      of_decide_eq_false (Bool.eq_false_iff.mpr (List.find?_eq_none.mp hnone c hc))
    show (s.put contactId ⟨some contactId, some contactId, [], false⟩).messages k = _
    rw [messages_put]
    exact if_congr (and_iff_left hall).symm rfl rfl

theorem delivered_openConversation (s : ChatStore) (contactId k i : CodeUnits) :
    (s.openConversation contactId).delivered k i =
      if k = contactId ∧ ∀ c ∈ s.conversations, c.2.contactId ≠ some contactId then none
      else s.delivered k i := by
  unfold delivered
  rw [messages_openConversation]
  split <;> rfl

end ChatStore

/-! ## Runs of the client -/

namespace Client

/-- What the user does, and what comes in. -/
inductive Event where
  | openConversation (contactId : CodeUnits)
  | closeConversation
  | sendText (conversationId body id sentAt : CodeUnits)
  | sendAttachment (conversationId : CodeUnits) (attachment : ChatStore.Attachment)
      (id sentAt : CodeUnits)
  | sendWinkd (conversationId id sentAt : CodeUnits)
  | sendNudge (conversationId id sentAt : CodeUnits)
  | clearShaking (conversationId : CodeUnits)
  | received (envelope : Json) (now : CodeUnits)

section
variable (numberText : Text → CodeUnits) (winkdId : CodeUnits)

def next (s : Client) : Event → Client
  | .openConversation contactId => { s with chat := s.chat.openConversation contactId }
  | .closeConversation => { s with chat := s.chat.closeConversation }
  | .sendText conversationId body id sentAt =>
      { s with chat := s.chat.sendText conversationId winkdId body id sentAt }
  | .sendAttachment conversationId attachment id sentAt =>
      { s with chat := s.chat.sendAttachment conversationId winkdId attachment id sentAt }
  | .sendWinkd conversationId id sentAt =>
      { s with chat := s.chat.sendWinkd conversationId winkdId id sentAt }
  | .sendNudge conversationId id sentAt =>
      { s with chat := s.chat.sendNudge conversationId winkdId id sentAt }
  | .clearShaking conversationId => { s with chat := s.chat.clearShaking conversationId }
  | .received envelope now => s.onEnvelope numberText winkdId envelope now

/-- The event of an envelope, and its payload. -/
def eventOf (envelope : Json) : Option ServerEvent :=
  (envelope.getStr "event").bind ServerEvent.ofText

def payloadOf (envelope : Json) : Option Json := nullish (envelope.get "payload") none

/-- The message of an event, if it has one that can be read and comes to the store. -/
def messageIn (envelope : Json) (now : CodeUnits) : Option Message :=
  if eventOf envelope = some .message then
    (readMessage numberText ((payloadOf envelope).getD .null) now).filter fun msg =>
      ¬(msg.id = [] ∨ msg.conversationId = [] ∨ msg.senderId = [])
  else none

/-- The conversation and the message that a receipt is of. -/
def receiptIn (envelope : Json) : Option (CodeUnits × CodeUnits) :=
  if eventOf envelope = some .deliveryReceipt then do
    let payload ← payloadOf envelope
    let messageId ← (payload.getStr "message_id").filter (· ≠ [])
    let conversationId ← (payload.getStr "conversation_id").filter (· ≠ [])
    some (units conversationId, units messageId)
  else none

/-- The conversation and the message that an echo is of. -/
def echoIn (envelope : Json) (now : CodeUnits) : Option (CodeUnits × CodeUnits) :=
  ((messageIn numberText envelope now).filter fun msg => msg.senderId = winkdId).map fun msg =>
    (msg.conversationId, msg.id)

/-- The client, and ghosts: the messages whose echo or receipt has been handled. -/
structure Watch where
  client : Client
  echoed : List (CodeUnits × CodeUnits)
  receipted : List (CodeUnits × CodeUnits)

namespace Watch

def empty : Watch := ⟨.empty, [], []⟩

def next (w : Watch) (e : Event) : Watch :=
  { client := w.client.next numberText winkdId e
    echoed := match e with
      | .received envelope now => w.echoed ++ (echoIn numberText winkdId envelope now).toList
      | _ => w.echoed
    receipted := match e with
      | .received envelope _ => w.receipted ++ (receiptIn envelope).toList
      | _ => w.receipted }

/-- The message is delivered. -/
def Delivered (w : Watch) (p : CodeUnits × CodeUnits) : Prop :=
  w.client.chat.delivered p.1 p.2 = some true

/-- A message whose echo and whose receipt have been handled is delivered. -/
def Settled (w : Watch) : Prop := ∀ p, p ∈ w.echoed → p ∈ w.receipted → w.Delivered p

/-- What was delivered is delivered. -/
def Keeps (p : CodeUnits × CodeUnits) (w w' : Watch) : Prop := w.Delivered p → w'.Delivered p

/-- A message that comes in says that it is delivered, if the store says so already or the receipt has
come; a receipt of a message that was echoed finds it; and no conversation is made anew with a message
that is delivered. -/
def Upgrades (w : Watch) : Event → Prop
  | .openConversation contactId =>
    (∃ c ∈ w.client.chat.conversations, c.2.contactId = some contactId) ∨
      ∀ i, ¬ w.Delivered (contactId, i)
  | .received envelope now =>
    (∀ msg, messageIn numberText envelope now = some msg →
      w.Delivered (msg.conversationId, msg.id) ∨
        (msg.senderId = winkdId ∧ (msg.conversationId, msg.id) ∈ w.receipted) →
      msg.delivered = true) ∧
      ∀ p, receiptIn envelope = some p → p ∈ w.echoed → w.client.chat.delivered p.1 p.2 ≠ none
  | _ => True

end Watch
end

section Step
variable {numberText : Text → CodeUnits} {winkdId : CodeUnits} {s : Client} {envelope : Json}
variable {now : CodeUnits}

/-! ## What an event does to the conversations -/

variable (winkdId) in
theorem chat_of_message {msg : Message} (h : messageIn numberText envelope now = some msg) :
    (s.onEnvelope numberText winkdId envelope now).chat = s.chat.receiveMessage msg ∧
      receiptIn envelope = none := by
  unfold messageIn at h
  split at h
  · rename_i hevent
    obtain ⟨hread, hfilled⟩ := Option.filter_eq_some_iff.mp h
    constructor
    · show (s.onEvent numberText winkdId (eventOf envelope) (payloadOf envelope) now).chat = _
      rw [hevent]
      show (s.onMessage numberText winkdId ((payloadOf envelope).getD .null) now).chat = _
      unfold onMessage
      rw [hread]
      show (if msg.id = [] ∨ msg.conversationId = [] ∨ msg.senderId = [] then s else _).chat = _
      rw [if_neg (of_decide_eq_true hfilled)]
    · refine if_neg ?_
      rw [hevent]
      exact nofun
  · cases h

theorem chat_of_receipt {p : CodeUnits × CodeUnits} (h : receiptIn envelope = some p) :
    (s.onEnvelope numberText winkdId envelope now).chat = s.chat.markMessageDelivered p.1 p.2 ∧
      messageIn numberText envelope now = none := by
  unfold receiptIn at h
  split at h
  · rename_i hevent
    obtain ⟨payload, hpayload, h⟩ := Option.bind_eq_some_iff.mp h
    obtain ⟨messageId, hmessage, h⟩ := Option.bind_eq_some_iff.mp h
    obtain ⟨conversationId, hconversation, h⟩ := Option.bind_eq_some_iff.mp h
    obtain rfl := (Option.some.inj h).symm
    constructor
    · show (s.onEvent numberText winkdId (eventOf envelope) (payloadOf envelope) now).chat = _
      rw [hevent, hpayload]
      show (s.onDeliveryReceipt payload).chat = _
      unfold onDeliveryReceipt
      rw [hmessage, hconversation]
    · refine if_neg ?_
      rw [hevent]
      exact nofun
  · cases h

/-- No other event touches a conversation. -/
theorem chat_of_neither (hmessage : messageIn numberText envelope now = none)
    (hreceipt : receiptIn envelope = none) :
    (s.onEnvelope numberText winkdId envelope now).chat.conversations = s.chat.conversations := by
  show (s.onEvent numberText winkdId (eventOf envelope) (payloadOf envelope) now).chat.conversations = _
  unfold messageIn at hmessage
  unfold receiptIn at hreceipt
  cases hevent : eventOf envelope with
  | none => rfl
  | some event =>
    rw [hevent] at hmessage hreceipt
    cases event with
    | message =>
      rw [if_pos rfl] at hmessage
      show (s.onMessage numberText winkdId ((payloadOf envelope).getD .null) now).chat.conversations = _
      unfold onMessage
      cases hread : readMessage numberText ((payloadOf envelope).getD .null) now with
      | none => rfl
      | some msg =>
        rw [hread, Option.filter_some] at hmessage
        show (if msg.id = [] ∨ msg.conversationId = [] ∨ msg.senderId = [] then s
          else _).chat.conversations = _
        rw [if_pos]
        -- with all three filled in it would be a message
        by_contra hfilled
        rw [if_pos (decide_eq_true hfilled)] at hmessage
        cases hmessage
    | deliveryReceipt =>
      rw [if_pos rfl] at hreceipt
      cases hpayload : payloadOf envelope with
      | none => rfl
      | some payload =>
        rw [hpayload] at hreceipt
        show (s.onDeliveryReceipt payload).chat.conversations = _
        unfold onDeliveryReceipt
        split
        · rename_i messageId conversationId hid hconversation
          -- with both ids it would be a receipt
          simp only [Option.bind_eq_bind, Option.bind_some, hid, hconversation] at hreceipt
          cases hreceipt
        · rfl
    | contactBlocked =>
      cases payloadOf envelope with
      | none => rfl
      | some payload =>
        show (s.onContactBlocked payload).chat.conversations = _
        unfold onContactBlocked
        dsimp only
        split <;> rfl
    | contactsSnapshot =>
      cases payloadOf envelope with
      | none => rfl
      | some payload =>
        show (s.onContactsSnapshot payload).chat.conversations = _
        unfold onContactsSnapshot
        split <;> rfl
    | blockedList =>
      cases payloadOf envelope with
      | none => rfl
      | some payload =>
        show (s.onBlockedList payload).chat.conversations = _
        unfold onBlockedList
        split <;> rfl
    | _ => cases payloadOf envelope <;> rfl

end Step

namespace Watch
section
variable {numberText : Text → CodeUnits} {winkdId : CodeUnits} {w : Watch}

/-! ## Step by step -/

/-- A step that leaves the ghosts, and takes no mark away. -/
theorem step_of_keeps {w' : Watch} (hechoed : w'.echoed = w.echoed)
    (hreceipted : w'.receipted = w.receipted) (hkeeps : ∀ p, Keeps p w w') (hsettled : w.Settled) :
    (∀ p, Keeps p w w') ∧ w'.Settled := by
  refine ⟨hkeeps, fun p hecho hreceipt => hkeeps p (hsettled p ?_ ?_)⟩
  · rwa [hechoed] at hecho
  · rwa [hreceipted] at hreceipt

theorem step_message_iff (hsettled : w.Settled) {envelope : Json} {now : CodeUnits} {msg : Message}
    (hmessage : messageIn numberText envelope now = some msg) :
    ((∀ p, Keeps p w (w.next numberText winkdId (.received envelope now))) ∧
        (w.next numberText winkdId (.received envelope now)).Settled) ↔
      (w.Delivered (msg.conversationId, msg.id) ∨
        (msg.senderId = winkdId ∧ (msg.conversationId, msg.id) ∈ w.receipted) →
      msg.delivered = true) := by
  obtain ⟨hchat, hnone⟩ : (w.client.onEnvelope numberText winkdId envelope now).chat =
      w.client.chat.receiveMessage msg ∧ receiptIn envelope = none := chat_of_message _ hmessage
  have hdelivered : ∀ k i, (w.next numberText winkdId (.received envelope now)).client.chat.delivered k i =
      if k = msg.conversationId ∧ i = msg.id then some msg.delivered
      else w.client.chat.delivered k i := by
    intro k i
    show (w.client.onEnvelope numberText winkdId envelope now).chat.delivered k i = _
    rw [hchat, ChatStore.delivered_receiveMessage]
  have hreceipted : (w.next numberText winkdId (.received envelope now)).receipted = w.receipted := by
    show w.receipted ++ (receiptIn envelope).toList = w.receipted
    rw [hnone]
    exact List.append_nil _
  have hechoed : ∀ p, p ∈ (w.next numberText winkdId (.received envelope now)).echoed ↔
      p ∈ w.echoed ∨ (msg.senderId = winkdId ∧ p = (msg.conversationId, msg.id)) := by
    intro p
    show p ∈ w.echoed ++ (echoIn numberText winkdId envelope now).toList ↔ _
    rw [List.mem_append, echoIn, hmessage]
    refine or_congr_right ?_
    by_cases hsender : msg.senderId = winkdId <;> simp [Option.filter_some, hsender]
  generalize w.next numberText winkdId (.received envelope now) = w' at hdelivered hreceipted hechoed ⊢
  -- the message takes the place of those with its id
  have hself : w'.Delivered (msg.conversationId, msg.id) ↔ msg.delivered = true := by
    rw [Delivered, hdelivered, if_pos ⟨rfl, rfl⟩, Option.some_inj]
  have hother : ∀ p, p ≠ (msg.conversationId, msg.id) → (w'.Delivered p ↔ w.Delivered p) := by
    rintro ⟨k, i⟩ hne
    rw [Delivered, hdelivered, if_neg]
    · exact Iff.rfl
    · rintro ⟨rfl, rfl⟩
      exact hne rfl
  constructor
  · rintro ⟨hkeeps, hsettled'⟩ (hbefore | ⟨hsender, hreceipt⟩)
    · exact hself.mp (hkeeps _ hbefore)
    · refine hself.mp (hsettled' _ ((hechoed _).mpr (.inr ⟨hsender, rfl⟩)) ?_)
      rwa [hreceipted]
  · intro h
    constructor
    · intro p hp
      by_cases heq : p = (msg.conversationId, msg.id)
      · subst heq
        exact hself.mpr (h (.inl hp))
      · exact (hother p heq).mpr hp
    · intro p hecho hreceipt
      rw [hreceipted] at hreceipt
      by_cases heq : p = (msg.conversationId, msg.id)
      · subst heq
        refine hself.mpr (h ?_)
        rcases (hechoed _).mp hecho with hecho | ⟨hsender, -⟩
        · exact .inl (hsettled _ hecho hreceipt)
        · exact .inr ⟨hsender, hreceipt⟩
      · refine (hother p heq).mpr (hsettled p ?_ hreceipt)
        exact ((hechoed p).mp hecho).resolve_right fun h => heq h.2

theorem step_receipt_iff (hsettled : w.Settled) {envelope : Json} {now : CodeUnits}
    {q : CodeUnits × CodeUnits} (hreceipt : receiptIn envelope = some q) :
    ((∀ p, Keeps p w (w.next numberText winkdId (.received envelope now))) ∧
        (w.next numberText winkdId (.received envelope now)).Settled) ↔
      (q ∈ w.echoed → w.client.chat.delivered q.1 q.2 ≠ none) := by
  obtain ⟨hchat, hnone⟩ : (w.client.onEnvelope numberText winkdId envelope now).chat =
      w.client.chat.markMessageDelivered q.1 q.2 ∧ messageIn numberText envelope now = none :=
    chat_of_receipt hreceipt
  have hdelivered : ∀ k i, (w.next numberText winkdId (.received envelope now)).client.chat.delivered k i =
      if k = q.1 ∧ i = q.2 then (w.client.chat.delivered k i).map fun _ => true
      else w.client.chat.delivered k i := by
    intro k i
    show (w.client.onEnvelope numberText winkdId envelope now).chat.delivered k i = _
    rw [hchat, ChatStore.delivered_markMessageDelivered]
  have hechoed : (w.next numberText winkdId (.received envelope now)).echoed = w.echoed := by
    show w.echoed ++ (echoIn numberText winkdId envelope now).toList = w.echoed
    rw [echoIn, hnone]
    exact List.append_nil _
  have hreceipted : ∀ p, p ∈ (w.next numberText winkdId (.received envelope now)).receipted ↔
      p ∈ w.receipted ∨ p = q := by
    intro p
    show p ∈ w.receipted ++ (receiptIn envelope).toList ↔ _
    rw [hreceipt, List.mem_append]
    exact or_congr_right List.mem_singleton
  generalize w.next numberText winkdId (.received envelope now) = w' at hdelivered hreceipted hechoed ⊢
  -- a receipt marks the message if it is there, and else is lost
  have hself : w'.Delivered q ↔ w.client.chat.delivered q.1 q.2 ≠ none := by
    rw [Delivered, hdelivered, if_pos ⟨rfl, rfl⟩]
    cases w.client.chat.delivered q.1 q.2 <;> simp
  have hother : ∀ p, p ≠ q → (w'.Delivered p ↔ w.Delivered p) := by
    intro p hne
    rw [Delivered, hdelivered, if_neg fun h => hne (Prod.ext h.1 h.2), Delivered]
  constructor
  · rintro ⟨-, hsettled'⟩ hecho
    exact hself.mp (hsettled' q (hechoed ▸ hecho) ((hreceipted q).mpr (.inr rfl)))
  · intro h
    constructor
    · intro p hp
      by_cases heq : p = q
      · subst heq
        refine hself.mpr fun hnone => ?_
        rw [Delivered, hnone] at hp
        cases hp
      · exact (hother p heq).mpr hp
    · intro p hecho hreceipt'
      rw [hechoed] at hecho
      by_cases heq : p = q
      · subst heq
        exact hself.mpr (h hecho)
      · exact (hother p heq).mpr (hsettled p hecho (((hreceipted p).mp hreceipt').resolve_right heq))

/-- A message of the user's own is added. -/
theorem keeps_append {w' : Watch} {msg : Message}
    (hchat : w'.client.chat = w.client.chat.append msg) (p : CodeUnits × CodeUnits) : Keeps p w w' := by
  intro hp
  rw [Delivered, hchat]
  exact ChatStore.delivered_append hp

theorem keeps_of_messages {w' : Watch}
    (hmessages : ∀ k, w'.client.chat.messages k = w.client.chat.messages k)
    (p : CodeUnits × CodeUnits) : Keeps p w w' := by
  intro hp
  rw [Delivered, ChatStore.delivered_congr (hmessages p.1)]
  exact hp

/-- **The steps after which all is as it should be.** -/
theorem step_iff (w : Watch) (e : Event) (hsettled : w.Settled) :
    ((∀ p, Keeps p w (w.next numberText winkdId e)) ∧ (w.next numberText winkdId e).Settled) ↔
      w.Upgrades numberText winkdId e := by
  cases e with
  | openConversation contactId =>
    -- opening puts an empty conversation where no record names the contact
    have hdelivered : ∀ k i, (w.next numberText winkdId (.openConversation contactId)).Delivered (k, i) ↔
        ¬(k = contactId ∧ ∀ c ∈ w.client.chat.conversations, c.2.contactId ≠ some contactId) ∧
          w.Delivered (k, i) := by
      intro k i
      show (w.client.chat.openConversation contactId).delivered k i = some true ↔ _
      rw [ChatStore.delivered_openConversation]
      split
      · rename_i hnew
        exact iff_of_false nofun fun h => h.1 hnew
      · rename_i hnew
        exact (and_iff_right hnew).symm
    constructor
    · rintro ⟨hkeeps, -⟩
      refine or_iff_not_imp_left.mpr fun hnone i hi => ?_
      refine ((hdelivered contactId i).mp (hkeeps (contactId, i) hi)).1 ⟨rfl, fun c hc hcontact => ?_⟩
      exact hnone ⟨c, hc, hcontact⟩
    · intro h
      refine step_of_keeps rfl rfl (fun p hp => (hdelivered p.1 p.2).mpr ⟨?_, hp⟩) hsettled
      rintro ⟨hk, hnew⟩
      rcases h with ⟨c, hc, hcontact⟩ | hnone
      · exact hnew c hc hcontact
      · exact hnone p.2 (hk ▸ hp)
  | closeConversation =>
    exact iff_of_true (step_of_keeps rfl rfl (keeps_of_messages fun _ => rfl) hsettled) trivial
  | sendText conversationId body id sentAt =>
    -- what is sent goes to the end of a conversation
    exact iff_of_true (step_of_keeps rfl rfl (keeps_append rfl) hsettled) trivial
  | sendAttachment conversationId attachment id sentAt =>
    exact iff_of_true (step_of_keeps rfl rfl (keeps_append rfl) hsettled) trivial
  | sendWinkd conversationId id sentAt =>
    exact iff_of_true (step_of_keeps rfl rfl (keeps_append rfl) hsettled) trivial
  | sendNudge conversationId id sentAt =>
    exact iff_of_true (step_of_keeps rfl rfl (keeps_append rfl) hsettled) trivial
  | clearShaking conversationId =>
    refine iff_of_true (step_of_keeps rfl rfl (keeps_of_messages fun k => ?_) hsettled) trivial
    show (w.client.chat.clearShaking conversationId).messages k = _
    unfold ChatStore.clearShaking
    split
    · rfl
    · rename_i conv hconv
      rw [ChatStore.messages_put]
      split
      · rename_i hk
        rw [hk, ChatStore.messages, hconv]
        rfl
      · rfl
  | received envelope now =>
    show _ ↔ (∀ msg, messageIn numberText envelope now = some msg → _) ∧
      ∀ q, receiptIn envelope = some q → _
    -- an envelope is a message, a receipt, or neither, and never two of them
    cases hmessage : messageIn numberText envelope now with
    | some msg =>
      obtain ⟨-, hnone⟩ : _ ∧ receiptIn envelope = none :=
        chat_of_message winkdId (s := w.client) hmessage
      rw [step_message_iff hsettled hmessage, hnone]
      constructor
      · intro h
        refine ⟨fun msg' hmsg' => ?_, nofun⟩
        obtain rfl := Option.some.inj hmsg'
        exact h
      · rintro ⟨h, -⟩
        exact h msg rfl
    | none =>
      cases hreceipt : receiptIn envelope with
      | some q =>
        rw [step_receipt_iff hsettled hreceipt]
        constructor
        · intro h
          refine ⟨nofun, fun q' hq' => ?_⟩
          obtain rfl := Option.some.inj hq'
          exact h
        · rintro ⟨-, h⟩
          exact h q rfl
      | none =>
        refine iff_of_true (step_of_keeps ?_ ?_ (keeps_of_messages fun k => ?_) hsettled)
          ⟨nofun, nofun⟩
        · show w.echoed ++ (echoIn numberText winkdId envelope now).toList = w.echoed
          rw [echoIn, hmessage]
          exact List.append_nil _
        · show w.receipted ++ (receiptIn envelope).toList = w.receipted
          rw [hreceipt]
          exact List.append_nil _
        · show (w.client.onEnvelope numberText winkdId envelope now).chat.messages k = _
          rw [ChatStore.messages, ChatStore.conversation, chat_of_neither hmessage hreceipt]
          rfl

end
end Watch

/-- **Delivered stays delivered**, and what has been echoed and has had its receipt is delivered, just if
messages that come in upgrade the entries, receipts find them, and no conversation is made anew that has
messages that are delivered. -/
theorem delivered_iff (numberText : Text → CodeUnits) (winkdId : CodeUnits) (events : List Event) :
    (Lasting (Watch.next numberText winkdId) Watch.Keeps (fun _ _ => False) .empty events ∧
        Throughout (Watch.next numberText winkdId) Watch.Settled .empty events) ↔
      Admits (Watch.next numberText winkdId) (Watch.Upgrades numberText winkdId) .empty events := by
  refine lasting_and_throughout_iff (K := Watch.Keeps) (fun _ _ h => h) (fun _ _ _ _ h h' hp => h' (h hp))
    (fun w e hsettled => ?_) (fun p hp => absurd hp List.not_mem_nil) events
  rw [← Watch.step_iff w e hsettled]
  exact and_congr_left fun _ => ⟨fun h p => h p not_false, fun h p _ => h p⟩

namespace Sample
open Relay.Sample (accounts connected messageFrame after after_reached formats)

/-- Ada's message to Bob is queued; before her handler shows it to her, Bob connects, and his
connection sends her the receipt. -/
def receiptFirst : List RelayEvent :=
  accounts ++ connected 0 21 "ada's token" [messageFrame "m1" "hi"] ++
    connected 1 18 "bob's token" [] ++ .step 0 :: List.replicate 3 (.forward 0)

def ada : CodeUnits := units "ada#0001".toList

def bob : CodeUnits := units "bob#0002".toList

def now : CodeUnits := units "2026-01-01T00:00:00.000Z".toList

/-- Ada sends the message, and what has been written to her socket comes in. -/
def adasEvents : List Event :=
  .sendText bob (units "hi".toList) (units "m1".toList) now ::
    (((after receiptFirst).state.channels[0]?.map Channel.written).getD []).map
      fun item => .received item.text now

end Sample

/-- **The relay can send the receipt before the echo**, and the echo takes the mark away. -/
theorem echo_after_receipt_reverts :
    (Relay.Sample.after Sample.receiptFirst).Reached Relay.Sample.formats ∧
      ¬ (Lasting (Watch.next units Sample.ada) Watch.Keeps (fun _ _ => False) .empty Sample.adasEvents ∧
        Throughout (Watch.next units Sample.ada) Watch.Settled .empty Sample.adasEvents) := by
  refine ⟨Relay.Sample.after_reached (by decide), ?_⟩
  rintro ⟨hlasting, -⟩
  have hkeeps := hlasting (Sample.adasEvents.take 3) (Sample.adasEvents.drop 3) []
    (Sample.bob, units "m1".toList) (by rw [List.append_nil, List.take_append_drop]) fun _ _ => id
  rw [List.take_append_drop] at hkeeps
  have hbefore : ((Sample.adasEvents.take 3).foldl (Watch.next units Sample.ada)
      .empty).client.chat.delivered Sample.bob (units "m1".toList) = some true := by decide +kernel
  have hafter : (Sample.adasEvents.foldl (Watch.next units Sample.ada)
      .empty).client.chat.delivered Sample.bob (units "m1".toList) = some false := by decide +kernel
  exact absurd ((hkeeps hbefore).symm.trans hafter) (by decide)

end Client
end Winkd.React
