import Winkd.GenuineEvents

/-!
# Whose rows they are

A connection acts for one user, and so what is in the relay's tables and maps is the doing of the
users that it names: a block was made by the blocker, a request by its sender, an acceptance by its
recipient, a queued message by its sender; who is registered or present has registered
(`state_owned`).  A point of a connection reads or writes for the user who has signed in on it, and
for nobody else (`acts_for_user`).
-/

namespace Winkd.Server

/-- For whom a point reads or writes. -/
def RelayOp.actor : RelayOp → Option Id
  | .countRoster u => some u
  | .listContactRoster u => some u
  | .listAcceptedContactUserIds u => some u
  | .listPendingInbound u => some u
  | .listBlockedUsers u => some u
  | .createContactRequest u _ => some u
  | .acceptContactRequest _ u => some u
  | .rejectContactRequest _ u => some u
  | .isBlockedBetween u _ => some u
  | .createBlock u _ => some u
  | .removeBlock u _ => some u
  | .clearPendingContactRequestsBetween u _ => some u
  | .updateUserMood u _ => some u
  | .updateUserDisplayName u _ _ _ => some u
  | .updateUserAvatar u _ => some u
  | .updateUserProfileStyle u _ _ => some u
  | .queuePendingMessage m _ _ => some m.senderId
  | .drainPendingMessages u => some u
  | .clientsInsert u _ => some u
  | .clientsRemove u _ => some u
  | .presenceSet u _ => some u
  | .presenceRemove u => some u
  | .unboundedChannel u => some u
  | _ => none

namespace Relay
open Threads

section Points
variable {F : Formats} {sockets : ℕ → Socket} {s : Relay}

/-- The rule lets a connection act for its own user only. -/
theorem actsFor_of_may {socket : Socket} {past : Heard} {r : RelayOp} {u : Id}
    (hmay : past.May F socket r) (hu : r.actor = some u) : past.ActsFor socket u := by
  cases r with
  | createContactRequest f t => cases hu; exact hmay.1
  | clientsInsert f session => cases hu; exact hmay.1
  | queuePendingMessage m clientMsgId payload =>
    cases hu
    obtain ⟨user, cmd, winkdId, recipient, now, hacts, hsender, -⟩ := hmay
    exact ⟨user, hacts, hsender.symm⟩
  | send c item => cases hu
  | sendToAll ids item => cases hu
  | findUserBySession token => cases hu
  | findUserById id => cases hu
  | findUserByWinkdId w => cases hu
  | clientsGet v => cases hu
  | presenceGet v => cases hu
  | newSessionId => cases hu
  | spawnSendTask c => cases hu
  | abortSendTask c => cases hu
  | nextFrame => cases hu
  | write message succeeds => cases hu
  | utcNow => cases hu
  | _ =>
    obtain rfl := Option.some.inj hu
    exact hmay

/-- **A point reads or writes for the user who has signed in on its connection**, before. -/
theorem acts_for_user (hs : s.ReachedServing F sockets) {e : RelayEntry} {earlier : List RelayEntry}
    (he : e :: earlier <:+ s.trace) {u : Id} (hu : e.request.actor = some u) :
    ∃ user, SignedIn sockets earlier e.task user ∧ user.id = u := by
  obtain ⟨t, ht, rfl, -, hmay⟩ := hs.moment he
  obtain ⟨user, hacts, hid⟩ := actsFor_of_may hmay hu
  exact ⟨user, ht.signedIn hacts, hid⟩

theorem did_of_mem (hs : s.ReachedServing F sockets) {e : RelayEntry} (he : e ∈ s.trace) {u : Id}
    (hu : e.request.actor = some u) {P : RelayEntry → Prop} (hP : P e) : Did sockets s.trace u P := by
  obtain ⟨earlier, hsuffix⟩ := Pool.exists_suffix he
  obtain ⟨user, hsigned, hid⟩ := acts_for_user hs hsuffix hu
  exact ⟨e, he, hP, user, hsigned.mono ((List.suffix_cons _ _).trans hsuffix).subset, hid⟩

end Points

/-! ## Rows, registrations and presence -/

theorem block_answer {r : RelayOp} {b : AppState} {x : Block} (h : x ∈ (serve r b).2.blocks) :
    x ∈ b.blocks ∨ r = .createBlock x.blockerId x.blockedId := by
  by_cases hw : r.writesBlocks = true
  · cases r with
    | createBlock u v =>
      simp only [serve, AppState.createBlock] at h
      split at h
      · exact .inl h
      · split at h
        · exact .inl h
        · rcases List.mem_append.mp h with h | h
          · exact .inl h
          · obtain rfl := List.mem_singleton.mp h
            exact .inr rfl
    | removeBlock u v => exact .inl (List.mem_of_mem_filter h)
    | _ => cases hw
  · rw [(serve_unwritten r b).blocks (Bool.eq_false_iff.mpr hw)] at h
    exact .inl h

/-- There is an accepted request from the first to the second. -/
def acceptedRow (b : AppState) (p : Id × Id) : Prop :=
  ∃ cr ∈ b.contactRequests, cr.fromId = p.1 ∧ cr.toId = p.2 ∧ cr.status = .accepted

/-- The entry accepts the request from the first, as the second. -/
def Accepts (e : RelayEntry) (p : Id × Id) : Prop :=
  ∃ id, e.request = .acceptContactRequest id p.2 ∧ ∃ cr ∈ e.before.contactRequests, cr.id = id ∧
    cr.fromId = p.1 ∧ cr.toId = p.2 ∧ cr.status = .pending

theorem accepted_answer {r : RelayOp} {b : AppState} {p : Id × Id} {i : ℕ}
    (h : acceptedRow (serve r b).2 p) : acceptedRow b p ∨ Accepts ⟨i, b, r, (serve r b).1⟩ p := by
  obtain ⟨cr, hcr, hfrom, hto, hstatus⟩ := h
  cases serve_requests r b hcr with
  | kept hcr _ _ => exact .inl ⟨cr, hcr, hfrom, hto, hstatus⟩
  | requested _ hpending => cases hpending.symm.trans hstatus
  | rejected hrejected => cases hrejected.symm.trans hstatus
  | accepted hr _ hbefore =>
    exact .inr ⟨cr.id, hto ▸ hr, _, hbefore, rfl, hfrom, hto, rfl⟩

theorem presence_answer {r : RelayOp} {b : AppState} {u : Id}
    (h : ((serve r b).2.presence u).isSome = true) : (b.presence u).isSome = true ∨
      ∃ entry, r = .presenceSet u entry := by
  by_cases hw : r.writesPresence = true
  · cases r with
    | presenceSet v entry =>
      by_cases huv : u = v
      · exact .inr ⟨entry, huv ▸ rfl⟩
      · exact .inl (by simpa [serve, Function.update_of_ne huv] using h)
    | presenceRemove v =>
      by_cases huv : u = v
      · simp [serve, huv] at h
      · exact .inl (by simpa [serve, Function.update_of_ne huv] using h)
    | _ => cases hw
  · rw [(serve_unwritten r b).presence (Bool.eq_false_iff.mpr hw)] at h
    exact .inl h

/-- **What is in the tables and the maps is the doing of the users that it names.** -/
structure Owned (sockets : ℕ → Socket) (s : Relay) : Prop where
  /-- A block is of the blocker. -/
  blocks : ∀ x ∈ s.state.blocks,
    Did sockets s.trace x.blockerId fun e => e.request = .createBlock x.blockerId x.blockedId
  /-- A request is of its sender. -/
  requests : ∀ cr ∈ s.state.contactRequests, Asked sockets s.trace cr.fromId cr.toId
  /-- An acceptance is of its recipient. -/
  accepted : ∀ cr ∈ s.state.contactRequests, cr.status = .accepted →
    AcceptedFrom sockets s.trace cr.toId cr.fromId
  /-- A queued message is of its sender, for its recipient. -/
  queued : ∀ row ∈ s.state.pendingMessages,
    ∃ i, Sent sockets s.trace i ⟨row.serial, row.senderId, row.recipientId⟩ row.payload
  /-- A registered session is of its user, and so is its channel. -/
  registered : ∀ u session, s.state.clients u = some session → s.state.BelongsTo session.sender u ∧
    Did sockets s.trace u fun e => e.request = .clientsInsert u session
  present : ∀ u, (s.state.presence u).isSome = true →
    Did sockets s.trace u fun e => ∃ entry, e.request = .presenceSet u entry

theorem state_owned {F : Formats} {sockets : ℕ → Socket} {s : Relay}
    (hs : s.ReachedServing F sockets) : s.Owned sockets where
  blocks x hx := by
    obtain ⟨e, he, hrequest⟩ := hs.recorded (fun b x => x ∈ b.blocks)
      (fun e x => e.request = .createBlock x.blockerId x.blockedId)
      (fun _ _ _ _ h => block_answer h) (fun _ e _ h => by cases e <;> exact h)
      (fun _ _ h => List.not_mem_nil h) hx
    exact did_of_mem hs he (congrArg RelayOp.actor hrequest) hrequest
  requests cr hcr := hs.asked hcr
  accepted cr hcr hstatus := by
    obtain ⟨e, he, id, hrequest, hrow⟩ := hs.recorded acceptedRow Accepts
      (fun _ _ _ _ h => accepted_answer h) (fun _ e _ h => by cases e <;> exact h)
      (fun _ _ h => by obtain ⟨cr, hcr, -⟩ := h; cases hcr) (x := (cr.fromId, cr.toId))
      ⟨cr, hcr, rfl, rfl, hstatus⟩
    exact ⟨hs.asked hcr, did_of_mem hs he (congrArg RelayOp.actor hrequest) ⟨id, hrequest, hrow⟩⟩
  queued row hrow := hs.queued_sent hrow
  registered u session hsession := by
    obtain ⟨e, he, hrequest⟩ := hs.recorded
      (fun b (x : Id × ClientSession) => b.clients x.1 = some x.2)
      (fun e x => e.request = .clientsInsert x.1 x.2) (fun _ r b _ h => serve_clients r b h)
      (fun _ e _ h => by cases e <;> exact h) (fun _ _ h => by cases h) (x := (u, session)) hsession
    exact ⟨hs.addressed.registered u session hsession,
      did_of_mem hs he (congrArg RelayOp.actor hrequest) hrequest⟩
  present u hu := by
    obtain ⟨e, he, entry, hrequest⟩ := hs.recorded (fun b u => (b.presence u).isSome = true)
      (fun e u => ∃ entry, e.request = .presenceSet u entry) (fun _ _ _ _ h => presence_answer h)
      (fun _ e _ h => by cases e <;> exact h) (fun _ _ h => by cases h) hu
    exact did_of_mem hs he (congrArg RelayOp.actor hrequest) ⟨entry, hrequest⟩

/-- Ada has asked Bob, who has accepted; the sockets are those of `addedAndAccepted`. -/
theorem state_owned_addedAndAccepted : (Sample.after Sample.addedAndAccepted).Owned Sample.contactSockets ∧
    (Sample.after Sample.addedAndAccepted).state.contactRequests.map
      (fun cr => (cr.fromId, cr.toId, cr.status)) = [(0, 1, .accepted)] :=
  ⟨state_owned Sample.addedAndAccepted_serving, by decide +kernel⟩

theorem acts_for_user_addedAndAccepted : ∃ e earlier,
    e :: earlier <:+ (Sample.after Sample.addedAndAccepted).trace ∧ e.request.actor = some 1 ∧
      ∃ user, SignedIn Sample.contactSockets earlier e.task user ∧ user.id = 1 := by
  have hacted : ∃ e ∈ (Sample.after Sample.addedAndAccepted).trace, e.request.actor = some 1 := by
    decide +kernel
  obtain ⟨e, he, hactor⟩ := hacted
  obtain ⟨earlier, hsuffix⟩ := Pool.exists_suffix he
  exact ⟨e, earlier, hsuffix, hactor, acts_for_user Sample.addedAndAccepted_serving hsuffix hactor⟩

end Relay
end Winkd.Server
