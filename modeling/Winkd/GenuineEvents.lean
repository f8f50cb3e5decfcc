import Winkd.RelayRules
import Winkd.Contacts
import Winkd.Channels
import Winkd.ReceivedSize
import Winkd.Commands

/-!
# Whose doing an event is

A client believes what its socket brings: that a message is from its `senderId`, that a request
was made by the user it names, that a contact has accepted, that a message has been delivered,
that a contact is online.  Every event on a channel is of this kind, or an echo of a message of
the client's own, or says nothing of others' acts, and it is genuine (`channels_genuine`): the user it names has done it, on a connection that had
authenticated with a session of that user's.  A message is addressed to the user of the channel,
and there was no block between the two when it was accepted.
-/

namespace Winkd.Server
open Threads

/-- The event waits in the channel, or has been written. -/
def Channel.Has (c : Channel) (item : Item) : Prop := item ∈ c.queue ∨ item ∈ c.written

namespace Relay

/-! ## Genuine events -/

section Genuine
variable (F : Formats) (sockets : ℕ → Socket) (l : List RelayEntry)

/-- Connection `i` has authenticated with a session of the user's. -/
def SignedIn (i : ℕ) (user : Member) : Prop :=
  ∃ token, (sockets i).token = some token ∧
    Pool.Seen l i fun b => (b.db.findUserBySession token).map b.member = some user

/-- The message came in on connection `i`, from its user, and was addressed to the recipient.  There
was no block between the two, and it was within the limits. -/
def Sent (i : ℕ) (m : Relayed) (payload : Json) : Prop :=
  ∃ user cmd winkdId recipient, SignedIn sockets l i user ∧ m.senderId = user.id ∧
    (sockets i).Commands cmd ∧ cmd.command.sends = true ∧ cmd.payload.recipient = some winkdId ∧
    (Pool.Seen l i fun b => b.findUserByWinkdId winkdId = some recipient) ∧
    m.recipientId = recipient.id ∧
    (Pool.Seen l i fun b => b.isBlockedBetween user.id recipient.id = false) ∧
    (Pool.Seen l i fun b =>
      validateSendPayload cmd.payload (limitsFor (user.effectiveTier b.db.now)) = .ok ()) ∧
    payload = forwardedPayload user cmd.payload

/-- The user has done this, on a connection that had authenticated as the user. -/
def Did (u : Id) (P : RelayEntry → Prop) : Prop :=
  ∃ e ∈ l, P e ∧ ∃ user, SignedIn sockets l e.task user ∧ user.id = u

/-- The user has asked the other to be a contact. -/
def Asked (u v : Id) : Prop := Did sockets l u fun e => e.request = .createContactRequest u v

/-- The user has accepted the request of the other. -/
def AcceptedFrom (u v : Id) : Prop :=
  Asked sockets l v u ∧ Did sockets l u fun e => ∃ id, e.request = .acceptContactRequest id u ∧
    ∃ cr ∈ e.before.contactRequests, cr.id = id ∧ cr.fromId = v ∧ cr.toId = u ∧ cr.status = .pending

/-- The columns of the user, at some time. -/
def Columns (u : Id) (user : Member) : Prop :=
  user.id = u ∧ ∃ e ∈ l, ∃ x ∈ e.before.db.users, e.before.member x = user

/-- The event is genuine, for the user who is told. -/
inductive Genuine (v : Id) : Json → Prop
  | message (i : ℕ) (m : Relayed) (payload : Json) (sent : Sent sockets l i m payload)
      (addressed : m.recipientId = v) : Genuine v (messageEvent payload)
  | echo (i : ℕ) (user : Member) (signed : SignedIn sockets l i user) (id : user.id = v)
      (cmd : ClientCommand) (received : (sockets i).Commands cmd) (sends : cmd.command.sends = true)
      (winkdId : Text) (addressed : cmd.payload.recipient = some winkdId) (delivered : Bool) :
      Genuine v (messageEvent (senderPayload user winkdId cmd.payload delivered))
  | request (u : Id) (asked : Asked sockets l u v) (user : Member) (columns : Columns l u user)
      (id : Id) : Genuine v (contactRequestEvent F id user.winkdId user.displayName user.avatarData)
  | accepted (u : Id) (accepted : AcceptedFrom sockets l u v ∨ AcceptedFrom sockets l v u)
      (user : Member) (columns : Columns l u user) : Genuine v (contactAccepted user)
  | receipt (i : ℕ) (m : Relayed) (payload : Json) (sent : Sent sockets l i m payload)
      (sender : m.senderId = v) (id : Text) (named : payload.getStr "id" = some id) (j : ℕ)
      (user : Member) (signed : SignedIn sockets l j user) (recipient : user.id = m.recipientId)
      (drained : ∃ e ∈ l, e.task = j ∧ e.request = .drainPendingMessages user.id) :
      Genuine v (.event "delivery_receipt" [("message_id", .str id),
        ("conversation_id", .str user.winkdId)])
  | presence (i : ℕ) (user : Member) (signed : SignedIn sockets l i user)
      (contact : Pool.Seen l i fun b => v ∈ b.listAcceptedContactUserIds user.id) (status : Text) :
      Genuine v (.event "presence" [("user_id", .str user.winkdId), ("status", .str status)])
  | other (name : String) (payload : List (String × Json)) (h : name ∉ peerEvents) :
      Genuine v (.event name payload)

end Genuine

section Kept
variable {F : Formats} {sockets : ℕ → Socket} {l l' : List RelayEntry}

theorem SignedIn.mono {i : ℕ} {user : Member} (h : SignedIn sockets l i user) (hl : l ⊆ l') :
    SignedIn sockets l' i user := by
  obtain ⟨token, htoken, hseen⟩ := h
  exact ⟨token, htoken, hseen.mono hl⟩

theorem Sent.mono {i : ℕ} {m : Relayed} {payload : Json} (h : Sent sockets l i m payload)
    (hl : l ⊆ l') : Sent sockets l' i m payload := by
  obtain ⟨user, cmd, winkdId, recipient, hsigned, hsender, hcmd, hrelays, hto, hfound, hrecipient,
    hunblocked, hvalid, hpayload⟩ := h
  exact ⟨user, cmd, winkdId, recipient, hsigned.mono hl, hsender, hcmd, hrelays, hto, hfound.mono hl,
    hrecipient, hunblocked.mono hl, hvalid.mono hl, hpayload⟩

theorem Did.mono {u : Id} {P : RelayEntry → Prop} (h : Did sockets l u P) (hl : l ⊆ l') :
    Did sockets l' u P := by
  obtain ⟨e, he, hP, user, hsigned, hid⟩ := h
  exact ⟨e, hl he, hP, user, hsigned.mono hl, hid⟩

theorem AcceptedFrom.mono {u v : Id} (h : AcceptedFrom sockets l u v) (hl : l ⊆ l') :
    AcceptedFrom sockets l' u v := ⟨h.1.mono hl, h.2.mono hl⟩

theorem Columns.mono {u : Id} {user : Member} (h : Columns l u user) (hl : l ⊆ l') :
    Columns l' u user := by
  obtain ⟨hid, e, he, hx⟩ := h
  exact ⟨hid, e, hl he, hx⟩

theorem Genuine.mono {v : Id} {text : Json} (h : Genuine F sockets l v text) (hl : l ⊆ l') :
    Genuine F sockets l' v text := by
  cases h with
  | message i m payload hsent hto => exact .message i m payload (hsent.mono hl) hto
  | echo i user hsigned hid cmd hcmd hsends winkdId hto delivered =>
    exact .echo i user (hsigned.mono hl) hid cmd hcmd hsends winkdId hto delivered
  | request u hasked user hcolumns id => exact .request u (hasked.mono hl) user (hcolumns.mono hl) id
  | accepted u haccepted user hcolumns =>
    exact .accepted u (haccepted.imp (·.mono hl) (·.mono hl)) user (hcolumns.mono hl)
  | receipt i m payload hsent hsender id hnamed j user hsigned hrecipient hdrained =>
    obtain ⟨e, he, hrest⟩ := hdrained
    exact .receipt i m payload (hsent.mono hl) hsender id hnamed j user (hsigned.mono hl) hrecipient
      ⟨e, hl he, hrest⟩
  | presence i user hsigned hcontact status =>
    exact .presence i user (hsigned.mono hl) (hcontact.mono hl) status
  | other name payload h => exact .other name payload h

end Kept

/-! ## In a run -/

/-- What connection `i` has asked and been answered. -/
abbrev heard (s : Relay) (i : ℕ) : Heard := Pool.history i s.trace

section Runs
variable {F : Formats} {sockets : ℕ → Socket} {s : Relay}

theorem next_act (F : Formats) (s : Relay) (e : RelayEvent) :
    ∃ a, next F s e = Pool.next serve s a := ⟨s.act F e, rfl⟩

/-- Every connection obeys the rule. -/
theorem abiding {start : Start} (hs : Transitions.Reaches (next F) (Serves sockets) (init start) s) :
    s.Abiding (fun i => Heard.May F (sockets i)) (fun _ _ _ => True) fun _ _ _ => True := by
  refine hs.invariant (Pool.Abiding.idle _) ?_
  intro s e hs he
  refine Pool.Abiding.next (h := serve) hs (a := s.act F e) fun p hp => ?_
  cases e with
  | connect socket =>
    cases hp
    have hsocket : sockets s.tasks.length = socket := he
    rw [hsocket]
    exact handleSocket_obeys F socket
  | _ => cases hp

/-- **At its moment each point was allowed** by what its connection had been told. -/
theorem ReachedServing.moment (hs : s.ReachedServing F sockets) {e : RelayEntry}
    {earlier : List RelayEntry} (he : e :: earlier <:+ s.trace) :
    ∃ t : Relay, t.ReachedServing F sockets ∧ t.trace = earlier ∧ t.state = e.before ∧
      Heard.May F (sockets e.task) (Pool.history e.task earlier) e.request := by
  obtain ⟨start, hreach⟩ := hs
  obtain ⟨t, ht, hrest⟩ := Pool.allowed_moment (next_act F) (fun t ht => abiding ht) hreach rfl he
  exact ⟨t, ⟨start, ht⟩, hrest⟩

theorem ReachedServing.answered (hs : s.ReachedServing F sockets) : Pool.Answered serve s.trace := by
  obtain ⟨start, hreach⟩ := hs
  exact Pool.answered_trace (next_act F) hreach rfl

theorem ReachedServing.addressed (hs : s.ReachedServing F sockets) : s.Addressed := by
  obtain ⟨start, hreach⟩ := hs
  exact Relay.addressed hreach

/-- What only the points of connections put in the state, one of them has put there. -/
theorem ReachedServing.recorded {ρ : Type} (hs : s.ReachedServing F sockets)
    (held : AppState → ρ → Prop) (made : RelayEntry → ρ → Prop)
    (hanswer : ∀ i r b x, held (serve r b).2 x → held b x ∨ made ⟨i, b, r, (serve r b).1⟩ x)
    (houtside : ∀ b e x, held (AppState.outside b e) x → held b x)
    (hinit : ∀ start x, ¬ held (.init start) x) {x : ρ} (hx : held s.state x) :
    ∃ e ∈ s.trace, made e x := by
  obtain ⟨start, hreach⟩ := hs
  refine Pool.recorded (h := serve) _ _ hanswer ?_ hreach (hinit start) hx
  intro s e _
  cases e with
  | connect socket => exact .inr ⟨rfl, fun _ h => h⟩
  | step i => exact .inl ⟨i, rfl⟩
  | forward c => exact .inr ⟨rfl, fun x => houtside s.state (.forward c) x⟩
  | fail c => exact .inr ⟨rfl, fun x => houtside s.state (.fail c) x⟩
  | drop c => exact .inr ⟨rfl, fun x => houtside s.state (.drop c) x⟩
  | account r => exact .inr ⟨rfl, fun x => houtside s.state (.account r) x⟩
  | supporter u columns => exact .inr ⟨rfl, fun x => houtside s.state (.supporter u columns) x⟩
  | clock now => exact .inr ⟨rfl, fun x => houtside s.state (.clock now) x⟩

end Runs

/-! ### Rows are put in the tables by connections -/

theorem pending_answer {r : RelayOp} {b : AppState} {row : PendingMessage}
    (h : row ∈ (serve r b).2.pendingMessages) : row ∈ b.pendingMessages ∨
      r = .queuePendingMessage ⟨row.serial, row.senderId, row.recipientId⟩ row.clientMsgId row.payload := by
  by_cases hw : r.writesQueue = true
  · cases r with
    | queuePendingMessage m clientMsgId payload =>
      simp only [serve, AppState.queuePendingMessage_state] at h
      split at h
      · exact .inl h
      · rcases List.mem_append.mp h with h | h
        · exact .inl h
        · obtain rfl := List.mem_singleton.mp h
          exact .inr rfl
    | drainPendingMessages u => exact .inl (List.mem_of_mem_filter h)
    | _ => cases hw
  · rw [(serve_unwritten r b).pendingMessages (Bool.eq_false_iff.mpr hw)] at h
    exact .inl h

/-- There is a request from the first to the second. -/
def requested (b : AppState) (p : Id × Id) : Prop :=
  ∃ cr ∈ b.contactRequests, cr.fromId = p.1 ∧ cr.toId = p.2

theorem requested_map {b : AppState} {f : ContactRequest → ContactRequest} {l : List ContactRequest}
    (hf : ∀ c, (f c).fromId = c.fromId ∧ (f c).toId = c.toId) (hl : l = b.contactRequests.map f)
    {p : Id × Id} (h : ∃ cr ∈ l, cr.fromId = p.1 ∧ cr.toId = p.2) : requested b p := by
  obtain ⟨cr, hcr, hfrom, hto⟩ := h
  rw [hl] at hcr
  obtain ⟨c, hc, rfl⟩ := List.mem_map.mp hcr
  exact ⟨c, hc, (hf c).1.symm.trans hfrom, (hf c).2.symm.trans hto⟩

theorem requested_answer {r : RelayOp} {b : AppState} {p : Id × Id} (h : requested (serve r b).2 p) :
    requested b p ∨ r = .createContactRequest p.1 p.2 := by
  by_cases hw : r.writesRequests = true
  · have hanswered : ∀ id t status, requested (b.answerContactRequest id t status).2 p →
        requested b p := by
      intro id t status h
      unfold AppState.answerContactRequest at h
      split at h
      · refine requested_map (fun c => ?_) rfl h
        split <;> exact ⟨rfl, rfl⟩
      · exact h
    cases r with
    | createContactRequest f t =>
      simp only [serve, AppState.createContactRequest, requested] at h
      split at h
      · refine .inl (requested_map (fun c => ?_) rfl h)
        split <;> exact ⟨rfl, rfl⟩
      · obtain ⟨cr, hcr, hfrom, hto⟩ := h
        rcases List.mem_append.mp hcr with hcr | hcr
        · exact .inl ⟨cr, hcr, hfrom, hto⟩
        · obtain rfl := List.mem_singleton.mp hcr
          exact .inr (by rw [← hfrom, ← hto])
    | acceptContactRequest id t => exact .inl (hanswered id t _ h)
    | rejectContactRequest id t => exact .inl (hanswered id t _ h)
    | clearPendingContactRequestsBetween u v =>
      refine .inl (requested_map (fun c => ?_) rfl h)
      split <;> exact ⟨rfl, rfl⟩
    | _ => cases hw
  · obtain ⟨cr, hcr, hfrom, hto⟩ := h
    rw [(serve_unwritten r b).contactRequests (Bool.eq_false_iff.mpr hw)] at hcr
    exact .inl ⟨cr, hcr, hfrom, hto⟩

/-! ### Events are put on channels by connections -/

/-- The event is on channel `c`, which is user `u`'s. -/
def Holds (b : AppState) (c : ℕ) (u : Id) (item : Item) : Prop :=
  ∃ ch, b.channels[c]? = some ch ∧ ch.user = u ∧ ch.Has item

theorem belongsTo_of_update {b : AppState} {i : ℕ} {f : Channel → Channel} {c : ℕ} {u : Id}
    (h : (b.updateChannel i f).BelongsTo c u) (hf : ∀ ch, (f ch).user = ch.user) :
    b.BelongsTo c u := by
  obtain ⟨ch, hch, hu⟩ := h
  rw [AppState.updateChannel, List.getElem?_modify] at hch
  obtain ⟨ch', hch', rfl⟩ := Option.map_eq_some_iff.mp hch
  refine ⟨ch', hch', ?_⟩
  split at hu
  · exact (hf ch').symm.trans hu
  · exact hu

/-- Changing a channel puts on it what `f` puts there. -/
theorem holds_of_update {b : AppState} {i : ℕ} {f : Channel → Channel} {c : ℕ} {u : Id} {item : Item}
    (h : Holds (b.updateChannel i f) c u item) (hf : ∀ ch, (f ch).user = ch.user) :
    Holds b c u item ∨ i = c ∧ ∃ ch, b.channels[c]? = some ch ∧ ch.user = u ∧ (f ch).Has item := by
  obtain ⟨ch, hch, hu, hitem⟩ := h
  rw [AppState.updateChannel, List.getElem?_modify] at hch
  obtain ⟨ch', hch', rfl⟩ := Option.map_eq_some_iff.mp hch
  by_cases hc : i = c
  · rw [if_pos hc] at hu hitem
    exact .inr ⟨hc, ch', hch', (hf ch').symm.trans hu, hitem⟩
  · rw [if_neg hc] at hu hitem
    exact .inl ⟨ch', hch', hu, hitem⟩

theorem holds_of_update_of {b : AppState} {i : ℕ} {f : Channel → Channel} {c : ℕ} {u : Id} {item : Item}
    (h : Holds (b.updateChannel i f) c u item) (hf : ∀ ch, (f ch).user = ch.user)
    (hhas : ∀ ch : Channel, (f ch).Has item → ch.Has item) : Holds b c u item := by
  rcases holds_of_update h hf with h | ⟨-, ch, hch, hu, hitem⟩
  · exact h
  · exact ⟨ch, hch, hu, hhas ch hitem⟩

theorem holds_of_send {b : AppState} {c c' : ℕ} {u : Id} {item item' : Item}
    (h : Holds (b.send c item).2 c' u item') :
    Holds b c' u item' ∨ c' = c ∧ item' = item ∧ b.BelongsTo c' u := by
  unfold AppState.send at h
  split at h
  · rcases holds_of_update h fun _ => rfl with h | ⟨rfl, ch, hch, hu, hitem | hitem⟩
    · exact .inl h
    · rcases List.mem_append.mp hitem with hitem | hitem
      · exact .inl ⟨ch, hch, hu, .inl hitem⟩
      · exact .inr ⟨rfl, List.mem_singleton.mp hitem, ch, hch, hu⟩
    · exact .inl ⟨ch, hch, hu, .inr hitem⟩
  · exact .inl h

theorem belongsTo_of_send {b : AppState} {c c' : ℕ} {u : Id} {item : Item}
    (h : (b.send c item).2.BelongsTo c' u) : b.BelongsTo c' u := by
  unfold AppState.send at h
  split at h
  · exact belongsTo_of_update h fun _ => rfl
  · exact h

theorem holds_of_sendToAll {ids : List Id} {b : AppState} {c : ℕ} {u : Id} {item item' : Item}
    (h : Holds (b.sendToAll ids item) c u item') :
    Holds b c u item' ∨ item' = item ∧ b.BelongsTo c u ∧
      ∃ v ∈ ids, ∃ session, b.clients v = some session ∧ session.sender = c := by
  unfold AppState.sendToAll at h
  induction ids generalizing b with
  | nil => exact .inl h
  | cons v ids ih =>
    rw [List.foldl_cons] at h
    split at h
    · rename_i session hsession
      obtain ⟨channels, hsent⟩ := send_state b session.sender item
      rcases ih h with hheld | ⟨rfl, hbelongs, w, hw, session', hsession', hsender⟩
      · rcases holds_of_send hheld with hheld | ⟨rfl, rfl, hbelongs⟩
        · exact .inl hheld
        · exact .inr ⟨rfl, hbelongs, v, List.mem_cons_self, session, hsession, rfl⟩
      · rw [hsent] at hsession'
        exact .inr ⟨rfl, belongsTo_of_send hbelongs, w, List.mem_cons_of_mem _ hw, session', hsession',
          hsender⟩
    · rcases ih h with hheld | ⟨rfl, hbelongs, w, hw, hrest⟩
      · exact .inl hheld
      · exact .inr ⟨rfl, hbelongs, w, List.mem_cons_of_mem _ hw, hrest⟩

/-- The entry puts the event on channel `c`, which is user `u`'s. -/
def Puts (e : RelayEntry) (c : ℕ) (u : Id) (item : Item) : Prop :=
  e.before.BelongsTo c u ∧ (e.request = .send c item ∨
    ∃ ids v session, e.request = .sendToAll ids item ∧ v ∈ ids ∧
      e.before.clients v = some session ∧ session.sender = c)

theorem holds_answer {r : RelayOp} {b : AppState} {c : ℕ} {u : Id} {item : Item} {i : ℕ}
    (h : Holds (serve r b).2 c u item) :
    Holds b c u item ∨ Puts ⟨i, b, r, (serve r b).1⟩ c u item := by
  by_cases ht : r.onlyTables = true
  · obtain ⟨db, contactRequests, blocks, hs⟩ := serve_onlyTables ht b
    rw [hs] at h
    exact .inl h
  cases r with
  | send c' item' =>
    rcases holds_of_send h with h | ⟨rfl, rfl, hbelongs⟩
    · exact .inl h
    · exact .inr ⟨hbelongs, .inl rfl⟩
  | sendToAll ids item' =>
    rcases holds_of_sendToAll h with h | ⟨rfl, hbelongs, v, hv, session, hsession, hsender⟩
    · exact .inl h
    · exact .inr ⟨hbelongs, .inr ⟨ids, v, session, rfl, hv, hsession, hsender⟩⟩
  | unboundedChannel u' =>
    obtain ⟨ch, hch, hu, hitem⟩ := h
    rcases Nat.lt_or_ge c b.channels.length with hlt | hge
    · rw [show (serve (.unboundedChannel u') b).2.channels = b.channels ++ _ from rfl,
        List.getElem?_append_left hlt] at hch
      exact .inl ⟨ch, hch, hu, hitem⟩
    · rw [show (serve (.unboundedChannel u') b).2.channels = b.channels ++ _ from rfl,
        List.getElem?_append_right hge] at hch
      obtain rfl := List.mem_singleton.mp (List.mem_of_getElem? hch)
      exact absurd hitem (by simp [Channel.Has])
  | spawnSendTask c' => exact .inl (holds_of_update_of h (fun _ => rfl) fun _ h => h)
  | abortSendTask c' => exact .inl (holds_of_update_of h (fun _ => rfl) fun _ h => h)
  | queuePendingMessage m clientMsgId payload =>
    simp only [serve, AppState.queuePendingMessage_state] at h
    split at h <;> exact .inl h
  | drainPendingMessages u' => exact .inl h
  | clientsInsert u' session => exact .inl h
  | clientsRemove u' sessionId =>
    simp only [serve, AppState.clientsRemove] at h
    split at h <;> exact .inl h
  | presenceSet u' entry => exact .inl h
  | presenceRemove u' => exact .inl h
  | nextFrame => exact .inl h
  | _ => exact absurd rfl ht

/-- The forwarding tasks put nothing on the channels. -/
theorem holds_outside {b : AppState} {e : RelayEvent} {c : ℕ} {u : Id} {item : Item}
    (h : Holds (b.outside e) c u item) : Holds b c u item := by
  cases e with
  | forward c' =>
    refine holds_of_update_of h Channel.user_forward fun ch hitem => ?_
    rcases ch.forward_cases with heq | ⟨first, queue, hqueue, -, heq⟩
    · rwa [heq] at hitem
    · rw [heq] at hitem
      rcases hitem with hitem | hitem
      · exact .inl (hqueue ▸ List.mem_cons_of_mem _ hitem)
      · rcases List.mem_append.mp hitem with hitem | hitem
        · exact .inr hitem
        · exact .inl (by rw [hqueue, List.mem_singleton.mp hitem]; exact List.mem_cons_self)
  | fail c' =>
    refine holds_of_update_of h Channel.user_fail fun ch hitem => ?_
    unfold Channel.fail at hitem
    split at hitem
    · exact hitem.imp_left fun hmem => absurd hmem List.not_mem_nil
    · exact hitem
  | drop c' =>
    refine holds_of_update_of h Channel.user_drop fun ch hitem => ?_
    unfold Channel.drop at hitem
    split at hitem
    · exact hitem.imp_left fun hmem => absurd hmem List.not_mem_nil
    · exact hitem
  | _ => exact h

/-! ### The channels that a connection knows -/

theorem subset_channels (d : Custody) (r : RelayOp) (x : r.Reply) :
    d.channels ⊆ (d.seen r x).channels := by
  cases r with
  | clientsGet u =>
    cases x with
    | none => exact List.Subset.refl _
    | some session => exact List.subset_cons_self _ _
  | unboundedChannel u => exact List.subset_cons_self _ _
  | send c item =>
    obtain ⟨text, label⟩ := item
    cases label with
    | live m =>
      simp only [Custody.seen]
      split <;> exact List.Subset.refl _
    | _ => exact List.Subset.refl _
  | _ => exact List.Subset.refl _

/-- A channel that a reply has named is known. -/
theorem channel_known {i : ℕ} {l : List RelayEntry} {p : Id × ℕ} {r : RelayOp} {x : r.Reply}
    (hp : ∀ d : Custody, p ∈ (d.seen r x).channels) (h : (Pool.history i l).Told r x) :
    p ∈ (Pool.learned Custody.seen .none i l).channels := by
  obtain ⟨e, he, htask, hexchange⟩ := Pool.mem_history.mp h
  induction l with
  | nil => cases he
  | cons e' l ih =>
    by_cases htask' : e'.task = i
    · rw [Pool.learned_own htask']
      rcases List.mem_cons.mp he with rfl | he
      · obtain ⟨j, b, r', x'⟩ := e
        cases hexchange
        exact hp _
      · exact subset_channels _ _ _ (ih (Pool.mem_history.mpr ⟨e, he, htask, hexchange⟩) he)
    · rw [Pool.learned_other htask']
      rcases List.mem_cons.mp he with rfl | he
      · exact absurd htask htask'
      · exact ih (Pool.mem_history.mpr ⟨e, he, htask, hexchange⟩) he

section Runs
variable {F : Formats} {sockets : ℕ → Socket} {s : Relay} {i c : ℕ} {u : Id}

theorem ReachedServing.own_channel (hs : s.ReachedServing F sockets)
    (h : (s.heard i).Told (.unboundedChannel u) c) : s.state.BelongsTo c u :=
  hs.addressed.known i (u, c) (channel_known (fun _ => List.mem_cons_self) h)

theorem ReachedServing.found_channel (hs : s.ReachedServing F sockets) {session : ClientSession}
    (h : (s.heard i).Told (.clientsGet u) (some session)) :
    s.state.BelongsTo session.sender u :=
  hs.addressed.known i (u, session.sender) (channel_known (fun _ => List.mem_cons_self) h)

theorem belongsTo_unique {b : AppState} {v : Id} (hu : b.BelongsTo c u) (hv : b.BelongsTo c v) :
    u = v := by
  obtain ⟨ch, hch, rfl⟩ := hu
  obtain ⟨ch', hch', rfl⟩ := hv
  cases hch.symm.trans hch'
  rfl

/-! ### From what a connection was told to how the tables were -/

theorem ReachedServing.signedIn (hs : s.ReachedServing F sockets) {user : Member}
    (h : (s.heard i).ActsAs (sockets i) user) : SignedIn sockets s.trace i user := by
  obtain ⟨token, htoken, htold⟩ := h
  exact ⟨token, htoken, (Pool.seen_of_told hs.answered htold).imp fun _ hb => Except.ok.inj hb⟩

theorem ReachedServing.sent (hs : s.ReachedServing F sockets) {m : Relayed} {payload : Json}
    (h : (s.heard i).Relays (sockets i) m payload) : Sent sockets s.trace i m payload := by
  obtain ⟨user, cmd, winkdId, recipient, now, hacts, hsender, hcmd, hrelays, hto, hfound, hrecipient,
    hunblocked, hnow, hvalid, hpayload⟩ := h
  have hseen := hs.answered
  have hlimits : Pool.Seen s.trace i fun b =>
      validateSendPayload cmd.payload (limitsFor (user.effectiveTier b.db.now)) = .ok () := by
    refine (Pool.seen_of_told hseen hnow).imp fun b hb => ?_
    have hnow : b.db.now = now := hb
    rw [hnow]
    exact hvalid
  exact ⟨user, cmd, winkdId, recipient, hs.signedIn hacts, hsender, hcmd, hrelays, hto,
    (Pool.seen_of_told hseen hfound).imp fun _ hb => Except.ok.inj hb, hrecipient,
    (Pool.seen_of_told hseen hunblocked).imp fun _ hb => Except.ok.inj hb, hlimits, hpayload⟩

/-- A user who has signed in has columns. -/
theorem SignedIn.columns {l : List RelayEntry} {user : Member} (h : SignedIn sockets l i user) :
    Columns l user.id user := by
  obtain ⟨token, -, e, he, -, hfound⟩ := h
  obtain ⟨x, hx, hmember⟩ := Option.map_eq_some_iff.mp hfound
  obtain ⟨row, -, hx⟩ := Option.bind_eq_some_iff.mp hx
  exact ⟨rfl, e, he, x, mem_of_findUserById hx, hmember⟩

theorem ReachedServing.columns (hs : s.ReachedServing F sockets) {user : Member}
    (h : (s.heard i).Told (.findUserById u) (.ok (some user))) :
    Columns s.trace u user := by
  obtain ⟨e, he, -, hfound⟩ := Pool.seen_of_told hs.answered h
  obtain ⟨x, hx, rfl⟩ := Option.map_eq_some_iff.mp (Except.ok.inj hfound)
  have hid := List.find?_some hx
  exact ⟨of_decide_eq_true hid, e, he, x, mem_of_findUserById hx, rfl⟩

/-- **A queued message was sent** by the user that its row names. -/
theorem ReachedServing.queued_sent (hs : s.ReachedServing F sockets) {row : PendingMessage}
    (hrow : row ∈ s.state.pendingMessages) :
    ∃ i, Sent sockets s.trace i ⟨row.serial, row.senderId, row.recipientId⟩ row.payload := by
  obtain ⟨e, he, hrequest⟩ := hs.recorded (fun b row => row ∈ b.pendingMessages)
    (fun e row => e.request = .queuePendingMessage ⟨row.serial, row.senderId, row.recipientId⟩
      row.clientMsgId row.payload)
    (fun _ _ _ _ h => pending_answer h) (fun _ e _ h => by cases e <;> exact h)
    (fun _ _ h => List.not_mem_nil h) hrow
  obtain ⟨earlier, hsuffix⟩ := Pool.exists_suffix he
  obtain ⟨t, ht, rfl, -, hmay⟩ := hs.moment hsuffix
  rw [hrequest] at hmay
  exact ⟨e.task, (ht.sent hmay).mono ((List.suffix_cons _ _).trans hsuffix).subset⟩

theorem ReachedServing.drained_sent (hs : s.ReachedServing F sockets)
    {rows : List PendingMessageDelivery} {msg : PendingMessageDelivery} (hmsg : msg ∈ rows)
    (h : (s.heard i).Told (.drainPendingMessages u) (.ok rows)) :
    ∃ i, Sent sockets s.trace i ⟨msg.serial, msg.senderId, u⟩ msg.payload := by
  obtain ⟨e, he, -, hdrained⟩ := Pool.seen_of_told hs.answered h
  have hrows := Except.ok.inj hdrained
  rw [← hrows] at hmsg
  obtain ⟨row, hrow, rfl⟩ := List.mem_map.mp hmsg
  obtain ⟨hrow, hrecipient⟩ := List.mem_filter.mp ((List.mem_insertionSort _).mp hrow)
  obtain ⟨earlier, hsuffix⟩ := Pool.exists_suffix he
  obtain ⟨t, ht, rfl, hstate, -⟩ := hs.moment hsuffix
  obtain ⟨j, hsent⟩ := ht.queued_sent (hstate ▸ hrow)
  have hid : row.recipientId = u := of_decide_eq_true hrecipient
  exact ⟨j, hid ▸ hsent.mono ((List.suffix_cons _ _).trans hsuffix).subset⟩

/-- **A request in the table was made** by the user that its row names. -/
theorem ReachedServing.asked (hs : s.ReachedServing F sockets) {cr : ContactRequest}
    (hcr : cr ∈ s.state.contactRequests) : Asked sockets s.trace cr.fromId cr.toId := by
  obtain ⟨e, he, hrequest⟩ := hs.recorded requested
    (fun e p => e.request = .createContactRequest p.1 p.2)
    (fun _ _ _ _ h => requested_answer h) (fun _ e _ h => by cases e <;> exact h)
    (fun _ _ h => by obtain ⟨cr, hcr, -⟩ := h; cases hcr) (x := (cr.fromId, cr.toId)) ⟨cr, hcr, rfl, rfl⟩
  obtain ⟨earlier, hsuffix⟩ := Pool.exists_suffix he
  obtain ⟨t, ht, rfl, -, hmay⟩ := hs.moment hsuffix
  rw [hrequest] at hmay
  obtain ⟨⟨user, hacts, hid⟩, -⟩ := hmay
  exact ⟨e, he, hrequest, user,
    (ht.signedIn hacts).mono ((List.suffix_cons _ _).trans hsuffix).subset, hid⟩

theorem ReachedServing.accepted (hs : s.ReachedServing F sockets) {user : Member} {id : Id}
    {req : ContactRequest} (hacts : (s.heard i).ActsAs (sockets i) user)
    (h : (s.heard i).Told (.acceptContactRequest id user.id) (.ok req)) :
    AcceptedFrom sockets s.trace user.id req.fromId := by
  obtain ⟨⟨j, b, r, x⟩, he, rfl, hexchange⟩ := Pool.mem_history.mp h
  cases hexchange
  have hreply := hs.answered _ he
  obtain ⟨earlier, hsuffix⟩ := Pool.exists_suffix he
  obtain ⟨t, ht, rfl, hstate, -⟩ := hs.moment hsuffix
  have hbefore : t.state = b := hstate
  simp only [serve, AppState.answerContactRequest] at hreply
  split at hreply
  · rename_i cr hfind
    obtain rfl := Except.ok.inj hreply
    have hcr := List.mem_of_find?_eq_some hfind
    have hanswerable : cr.id = id ∧ cr.toId = user.id ∧ cr.status = .pending := by
      simpa [AppState.Answerable] using List.find?_some hfind
    have hasked := (ht.asked (hbefore ▸ hcr)).mono ((List.suffix_cons _ _).trans hsuffix).subset
    rw [hanswerable.2.1] at hasked
    exact ⟨hasked, _, he, ⟨id, rfl, cr, hcr, hanswerable.1, rfl, hanswerable.2⟩, user,
      hs.signedIn hacts, rfl⟩
  · cases hreply

/-! ### What a connection may send is genuine -/

theorem ReachedServing.genuine_tells (hs : s.ReachedServing F sockets) {item : Item}
    (h : (s.heard i).Tells F (sockets i) u item) : Genuine F sockets s.trace u item.text := by
  cases h with
  | message m payload hrelays hto => exact .message i m payload (hs.sent hrelays) hto
  | request user hacts req hasked =>
    have hsigned := hs.signedIn hacts
    obtain ⟨⟨j, b, r, x⟩, he, rfl, hexchange⟩ := Pool.mem_history.mp hasked
    cases hexchange
    exact .request user.id ⟨_, he, rfl, user, hsigned, rfl⟩ user hsigned.columns req.id
  | accepted user hacts id req haccepted requester hfound hto =>
    have hsigned := hs.signedIn hacts
    have hrequester : req.fromId = u := (hs.columns hfound).1.symm.trans hto
    exact .accepted user.id (.inl (hrequester ▸ hs.accepted hacts haccepted)) user hsigned.columns
  | receipt user hacts rows hdrained msg hmem hto id hnamed =>
    obtain ⟨j, hsent⟩ := hs.drained_sent hmem hdrained
    obtain ⟨⟨k, b, r, x⟩, he, rfl, hexchange⟩ := Pool.mem_history.mp hdrained
    cases hexchange
    exact .receipt j _ msg.payload hsent hto id hnamed _ user (hs.signedIn hacts) rfl
      ⟨_, he, rfl, rfl⟩

theorem ReachedServing.genuine_shows (hs : s.ReachedServing F sockets) {item : Item}
    (hacts : (s.heard i).ActsFor (sockets i) u) (h : (s.heard i).Shows F (sockets i) u item) :
    Genuine F sockets s.trace u item.text := by
  cases h with
  | echo user hacts hid m cmd hcmd hsends winkdId hto delivered =>
    exact .echo i user (hs.signedIn hacts) hid cmd hcmd hsends winkdId hto delivered
  | queued rows hdrained msg hmem =>
    obtain ⟨j, hsent⟩ := hs.drained_sent hmem hdrained
    exact .message j _ msg.payload hsent rfl
  | request rows hlisted req hmem =>
    obtain ⟨e, he, -, hrows⟩ := Pool.seen_of_told hs.answered hlisted
    rw [← Except.ok.inj hrows] at hmem
    obtain ⟨cr, hcr, hx⟩ := List.mem_filterMap.mp hmem
    obtain ⟨x, hfound, rfl⟩ := Option.map_eq_some_iff.mp hx
    obtain ⟨hcr, hcond⟩ := List.mem_filter.mp ((List.mem_insertionSort _).mp hcr)
    obtain ⟨hto, -⟩ := of_decide_eq_true hcond
    obtain ⟨earlier, hsuffix⟩ := Pool.exists_suffix he
    obtain ⟨t, ht, rfl, hstate, -⟩ := hs.moment hsuffix
    have hasked := (ht.asked (hstate ▸ hcr)).mono ((List.suffix_cons _ _).trans hsuffix).subset
    rw [hto] at hasked
    have hid := List.find?_some hfound
    exact .request cr.fromId hasked (e.before.member x)
      ⟨of_decide_eq_true hid, e, he, x, mem_of_findUserById hfound, rfl⟩ cr.id
  | accepted id req haccepted requester hfound =>
    obtain ⟨user, hacts, rfl⟩ := hacts
    exact .accepted req.fromId (.inr (hs.accepted hacts haccepted)) requester (hs.columns hfound)
  | other name payload h => exact .other name payload h

/-- **Every event on a channel is genuine.** -/
theorem channels_genuine (hs : s.ReachedServing F sockets) {ch : Channel}
    (hch : ch ∈ s.state.channels) {item : Item} (hitem : ch.Has item) :
    Genuine F sockets s.trace ch.user item.text := by
  obtain ⟨c, hc⟩ := List.mem_iff_getElem?.mp hch
  obtain ⟨e, he, hbelongs, hputs⟩ := hs.recorded (fun b (x : ℕ × Id × Item) => Holds b x.1 x.2.1 x.2.2)
    (fun e x => Puts e x.1 x.2.1 x.2.2) (fun _ _ _ _ h => holds_answer h)
    (fun _ _ _ h => holds_outside h) (fun _ _ h => by obtain ⟨ch, hch, -⟩ := h; cases hch)
    (x := (c, ch.user, item)) ⟨ch, hc, rfl, hitem⟩
  obtain ⟨earlier, hsuffix⟩ := Pool.exists_suffix he
  obtain ⟨t, ht, rfl, hstate, hmay⟩ := hs.moment hsuffix
  have hsub : t.trace ⊆ s.trace := ((List.suffix_cons _ _).trans hsuffix).subset
  rw [← hstate] at hbelongs
  rcases hputs with hsend | ⟨ids, v, session, hsend, hv, hsession, hsender⟩
  · rw [hsend] at hmay
    rcases hmay with ⟨u, hacts, hown, hshows⟩ | ⟨v, session, hfound, rfl, htells⟩
    · obtain rfl := belongsTo_unique hbelongs (ht.own_channel hown)
      exact (ht.genuine_shows hacts hshows).mono hsub
    · obtain rfl := belongsTo_unique hbelongs (ht.found_channel hfound)
      exact (ht.genuine_tells htells).mono hsub
  · rw [hsend] at hmay
    obtain ⟨user, status, hacts, hlisted, rfl⟩ := hmay
    rw [← hstate] at hsession
    have hregistered := ht.addressed.registered v session hsession
    rw [hsender] at hregistered
    obtain rfl := belongsTo_unique hbelongs hregistered
    have hcontact : Pool.Seen t.trace e.task fun b => ch.user ∈ b.listAcceptedContactUserIds user.id := by
      refine (Pool.seen_of_told ht.answered hlisted).imp fun b hb => ?_
      rw [Except.ok.inj hb]
      exact hv
    exact (Genuine.presence e.task user (ht.signedIn hacts) hcontact status).mono hsub

end Runs

/-! ## The sender of a message -/

theorem senderId_forwarded (user : Member) {payload : Json} {w : Text}
    (hto : payload.recipient = some w) :
    (forwardedPayload user payload).getStr "senderId" = some user.winkdId := by
  cases payload with
  | obj fields =>
    have hget : (forwardedPayload user (.obj fields)).get "senderId" = some (.str user.winkdId) :=
      (get_setField (by decide) _ _).trans (get_setField_self _ _ _)
    rw [Json.getStr, hget]
    rfl
  | _ => cases hto

theorem senderId_shown (user : Member) {payload : Json} {w : Text} (hto : payload.recipient = some w)
    (delivered : Bool) : (senderPayload user w payload delivered).getStr "senderId" =
      some user.winkdId := by
  cases payload with
  | obj fields =>
    have hget : (senderPayload user w (.obj fields) delivered).get "senderId" =
        some (.str user.winkdId) := (get_setField (by decide) _ _).trans (get_setField_self _ _ _)
    rw [Json.getStr, hget]
    rfl
  | _ => cases hto

theorem not_message {name : String} (hname : name ≠ "message") (fields : List (String × Json)) :
    (Json.event name fields).getStr "event" ≠ some "message".toList := by
  rw [getStr_event]
  exact fun h => hname (String.toList_injective (Option.some.inj h))

variable {F : Formats} {sockets : ℕ → Socket} {s : Relay}

/-- What a client gets is the message of a command: of another user, to the client's own, as it was
accepted; or of the client's own user, with what became of it. -/
inductive MessageOf (sockets : ℕ → Socket) (l : List RelayEntry) (v : Id) (i : ℕ) (user : Member)
    (cmd : ClientCommand) (winkdId : Text) : Json → Prop
  | forwarded (recipient : Member)
      (found : Pool.Seen l i fun b => b.findUserByWinkdId winkdId = some recipient)
      (addressed : recipient.id = v)
      (unblocked : Pool.Seen l i fun b => b.isBlockedBetween user.id recipient.id = false) :
      MessageOf sockets l v i user cmd winkdId (forwardedPayload user cmd.payload)
  | own (id : user.id = v) (delivered : Bool) :
      MessageOf sockets l v i user cmd winkdId (senderPayload user winkdId cmd.payload delivered)

/-- **Nobody can send in another's name.**  A message that a client gets is that of a command which
came in on a connection; it has the Winkd ID of the account whose session that connection has shown,
and it is the client's own, or addressed to it. -/
theorem sender_shown (hs : s.ReachedServing F sockets) {ch : Channel} (hch : ch ∈ s.state.channels)
    {item : Item} (hitem : ch.Has item) (hevent : item.text.getStr "event" = some "message".toList)
    {payload : Json} (hpayload : item.text.get "payload" = some payload) :
    ∃ i user cmd winkdId, SignedIn sockets s.trace i user ∧ (sockets i).Commands cmd ∧
      cmd.command.sends = true ∧ cmd.payload.recipient = some winkdId ∧
      MessageOf sockets s.trace ch.user i user cmd winkdId payload ∧
      payload.getStr "senderId" = some user.winkdId := by
  have hgenuine := channels_genuine hs hch hitem
  obtain ⟨text, label⟩ := item
  dsimp only at hgenuine hevent hpayload
  cases hgenuine with
  | message i m forwarded hsent hto =>
    obtain ⟨user, cmd, winkdId, recipient, hsigned, -, hcmd, hsends, haddressed, hfound, hrecipient,
      hunblocked, -, rfl⟩ := hsent
    obtain rfl := Option.some.inj hpayload
    exact ⟨i, user, cmd, winkdId, hsigned, hcmd, hsends, haddressed,
      .forwarded recipient hfound (hrecipient.symm.trans hto) hunblocked,
      senderId_forwarded user haddressed⟩
  | echo i user hsigned hid cmd hcmd hsends winkdId hto delivered =>
    obtain rfl := Option.some.inj hpayload
    exact ⟨i, user, cmd, winkdId, hsigned, hcmd, hsends, hto, .own hid delivered,
      senderId_shown user hto delivered⟩
  | other name fields h =>
    refine absurd hevent (not_message ?_ _)
    rintro rfl
    exact h (by decide)
  | request u hasked user hcolumns id => exact absurd hevent (not_message (by decide) _)
  | accepted u haccepted user hcolumns => exact absurd hevent (not_message (by decide) _)
  | receipt i m forwarded hsent hsender id hnamed j user hsigned hrecipient hdrained =>
    exact absurd hevent (not_message (by decide) _)
  | presence i user hsigned hcontact status => exact absurd hevent (not_message (by decide) _)

/-! ## Two runs -/

namespace Sample

/-- The sockets of `queuedThenLive`. -/
def messageSockets (i : ℕ) : Socket :=
  if i = 0 then ⟨authFrame "ada's token" :: [messageFrame "m1" "hi", messageFrame "m2" "there"], true⟩
  else ⟨authFrame "bob's token" :: [], true⟩

theorem addedAndAccepted_serving : (after addedAndAccepted).ReachedServing formats contactSockets :=
  ⟨start, serves_addedAndAccepted.reaches⟩

theorem serves_queuedThenLive :
    Transitions.Admits (Relay.next formats) (Serves messageSockets) (init start) queuedThenLive := by
  have hqueued : Transitions.Admits (Relay.next formats) (Serves messageSockets) (init start)
      (accounts ++ connected 0 23 "ada's token" [messageFrame "m1" "hi", messageFrame "m2" "there"]) :=
    serves_accounts.append (serves_connected 0 23 "ada's token" _ rfl)
  refine (hqueued.append (serves_connected 1 18 "bob's token" _ ?_)).append (serves_steps 0 6)
  rw [show List.length _ = 1 by decide +kernel]
  rfl

theorem queuedThenLive_serving : (after queuedThenLive).ReachedServing formats messageSockets :=
  ⟨start, serves_queuedThenLive.reaches⟩

end Sample

/-- Bob gets a message from the queue, and Ada is told so. -/
theorem channels_genuine_queuedThenLive : ∃ ch ∈ (Sample.after Sample.queuedThenLive).state.channels,
    ∃ item, ch.Has item ∧ item.text.getStr "event" = some "delivery_receipt".toList ∧
      Genuine Sample.formats Sample.messageSockets (Sample.after Sample.queuedThenLive).trace ch.user
        item.text := by
  have hreceipt : ∃ ch ∈ (Sample.after Sample.queuedThenLive).state.channels, ∃ item ∈ ch.queue ++ ch.written,
      item.text.getStr "event" = some "delivery_receipt".toList := by decide +kernel
  obtain ⟨ch, hch, item, hitem, hevent⟩ := hreceipt
  have hhas : ch.Has item := List.mem_append.mp hitem
  exact ⟨ch, hch, item, hhas, hevent, channels_genuine Sample.queuedThenLive_serving hch hhas⟩

theorem sender_shown_queuedThenLive : ∃ ch ∈ (Sample.after Sample.queuedThenLive).state.channels,
    ∃ item, ch.Has item ∧ ∃ payload, item.text.get "payload" = some payload ∧
      ∃ i user cmd winkdId,
        SignedIn Sample.messageSockets (Sample.after Sample.queuedThenLive).trace i user ∧
        (Sample.messageSockets i).Commands cmd ∧ cmd.command.sends = true ∧
        cmd.payload.recipient = some winkdId ∧
        MessageOf Sample.messageSockets (Sample.after Sample.queuedThenLive).trace ch.user i user cmd
          winkdId payload ∧
        payload.getStr "senderId" = some user.winkdId := by
  have hmessage : ∃ ch ∈ (Sample.after Sample.queuedThenLive).state.channels, ∃ item ∈ ch.queue ++ ch.written,
      item.text.getStr "event" = some "message".toList ∧ (item.text.get "payload").isSome = true := by
    decide +kernel
  obtain ⟨ch, hch, item, hitem, hevent, hpayload⟩ := hmessage
  obtain ⟨payload, hpayload⟩ := Option.isSome_iff_exists.mp hpayload
  have hhas : ch.Has item := List.mem_append.mp hitem
  exact ⟨ch, hch, item, hhas, payload, hpayload,
    sender_shown Sample.queuedThenLive_serving hch hhas hevent hpayload⟩

end Relay
end Winkd.Server
