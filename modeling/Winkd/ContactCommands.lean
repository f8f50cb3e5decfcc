import Winkd.RosterTables

/-!
# The commands about contacts

What handling each of them does to the tables, and whom it tells.  A command comes to an effect
(`ContactCommand.effect`), which can be told from the tables before it; `handled` says what the
state is after it, in each case.  Only a request and its acceptance are told to the other user.
-/

namespace Winkd.Server
open AppState

/-- A command about contacts, with its payload.  The list of the blocked is asked for without one. -/
inductive ContactCommand where
  | addContact (payload : Json)
  | acceptContact (payload : Json)
  | rejectContact (payload : Json)
  | blockContact (payload : Json)
  | blockUser (payload : Json)
  | unblockContact (payload : Json)
  | listBlocked

def ContactCommand.command : ContactCommand → ClientCommand
  | .addContact payload => ⟨.addContact, payload⟩
  | .acceptContact payload => ⟨.acceptContact, payload⟩
  | .rejectContact payload => ⟨.rejectContact, payload⟩
  | .blockContact payload => ⟨.blockContact, payload⟩
  | .blockUser payload => ⟨.blockUser, payload⟩
  | .unblockContact payload => ⟨.unblockContact, payload⟩
  | .listBlocked => ⟨.listBlocked, .obj []⟩

/-! ## Whom it is about -/

/-- The id in a field of the payload. -/
def idIn (F : Formats) (payload : Json) (field : String) : Option Id :=
  (payload.getStr field).bind F.parseUuid

namespace AppState

/-- The request that a command answers. -/
def requestIn (s : AppState) (F : Formats) (user : Member) (payload : Json) : Option ContactRequest :=
  (idIn F payload "request_id").bind fun rid => s.pendingRequest rid user.id

/-- Whom `block_user` blocks. -/
def blocksUser (s : AppState) (user : Member) (payload : Json) : Option Id :=
  match (payload.getStr "winkd_id").map Text.trim with
  | none => none
  | some targetWinkdId =>
    if targetWinkdId = user.winkdId then none
    else (s.findUserByWinkdId targetWinkdId).map fun target => target.id

end AppState

/-- What a command of a user comes to. -/
def ContactCommand.effect (F : Formats) (s : AppState) (user : Member) : ContactCommand → ContactEffect
  | .addContact payload => ((s.addsContact user payload).map ContactEffect.asks).getD .nothing
  | .acceptContact payload =>
      ((s.requestIn F user payload).map fun cr => .accepts cr.fromId).getD .nothing
  | .rejectContact payload =>
      ((s.requestIn F user payload).map fun cr => .rejects cr.fromId).getD .nothing
  | .blockContact payload =>
      ((s.requestIn F user payload).map fun cr => .blocks cr.fromId).getD .nothing
  | .blockUser payload => ((s.blocksUser user payload).map ContactEffect.blocks).getD .nothing
  | .unblockContact payload => ((idIn F payload "user_id").map ContactEffect.unblocks).getD .nothing
  | .listBlocked => .nothing

/-! ## Who is told -/

namespace AppState

/-- The state after `push`. -/
def pushed (s : AppState) (tx : ℕ) (text : Json) : AppState := (s.send tx ⟨text, .other⟩).2

/-- The state after `notify`. -/
def notified (s : AppState) (userId : Id) (text : Json) : AppState :=
  match s.clients userId with
  | some session => s.pushed session.sender text
  | none => s

end AppState

def requestSent (F : Formats) (requestId : Id) (targetId : Text) (target : Member) : Json :=
  .event "contact_request_sent" [("request_id", .str (F.uuid requestId)),
    ("to_winkd_id", .str targetId), ("to_display_name", .str target.displayName),
    ("to_avatar_data", .ofText target.avatarData)]

def requestRejected (F : Formats) (requestId : Id) : Json :=
  .event "contact_request_rejected" [("request_id", .str (F.uuid requestId))]

def userBlocked (F : Formats) (fields : List (String × Json)) (blockedId : Id)
    (winkdId displayName : Text) (avatarData : Option Text) (now : ℤ) : Json :=
  .event "contact_blocked" (fields ++ [("user_id", .str (F.uuid blockedId)),
    ("winkd_id", .str winkdId), ("display_name", .str displayName),
    ("avatar_data", .ofText avatarData), ("blocked_at", .str (F.rfc3339 now))])

def userUnblocked (F : Formats) (blockedId : Id) : Json :=
  .event "contact_unblocked" [("user_id", .str (F.uuid blockedId))]

/-- An entry of the list of those whom a user has blocked. -/
def BlockedUser.json (F : Formats) (u : BlockedUser) : Json :=
  .obj [("user_id", .str (F.uuid u.userId)), ("winkd_id", .str u.winkdId),
    ("display_name", .str u.displayName), ("avatar_data", .ofText u.avatarData),
    ("blocked_at", .str (F.rfc3339 u.blockedAt))]

def blockedList (F : Formats) (users : List BlockedUser) : Json :=
  .event "blocked_list" [("users", .arr (users.map (BlockedUser.json F)))]

/-- What `contact_blocked` begins with: the request that was answered so, or nothing. -/
inductive BlockFields (F : Formats) (s : AppState) (user : Member) (blockedId : Id) :
    List (String × Json) → Prop
  | none : BlockFields F s user blockedId []
  | request {rid : Id} {cr : ContactRequest} (pending : s.pendingRequest rid user.id = some cr)
      (sender : cr.fromId = blockedId) :
      BlockFields F s user blockedId [("request_id", .str (F.uuid rid))]

/-- What a command with an effect makes of the state, and whom it tells of that. -/
inductive HandledAs (F : Formats) (s : AppState) (user : Member) (tx : ℕ) : ContactEffect → AppState → Prop
  | ignored : HandledAs F s user tx .nothing s
  | refused (message : Text) :
      HandledAs F s user tx .nothing (s.pushed tx (.event "error" [("message", .str message)]))
  | listed : HandledAs F s user tx .nothing (s.pushed tx (blockedList F (s.listBlockedUsers user.id)))
  | asks {targetId : Text} {target : Member} (found : s.findUserByWinkdId targetId = some target)
      (other : targetId ≠ user.winkdId) (unblocked : s.isBlockedBetween user.id target.id = false) :
      HandledAs F s user tx (.asks target.id)
        (((s.createContactRequest user.id target.id).2.pushed tx
          (requestSent F (s.createContactRequest user.id target.id).1.id targetId target)).notified target.id
            (contactRequestEvent F (s.createContactRequest user.id target.id).1.id user.winkdId
              user.displayName user.avatarData))
  | accepts {rid : Id} {cr : ContactRequest} {requester : User}
      (pending : s.pendingRequest rid user.id = some cr)
      (found : s.db.findUserById cr.fromId = some requester) :
      HandledAs F s user tx (.accepts cr.fromId)
        (((s.answerContactRequest rid user.id .accepted).2.pushed tx
          (contactAccepted (s.member requester))).notified requester.id (contactAccepted user))
  | rejects {rid : Id} {cr : ContactRequest} (pending : s.pendingRequest rid user.id = some cr) :
      HandledAs F s user tx (.rejects cr.fromId)
        ((s.answerContactRequest rid user.id .rejected).2.pushed tx (requestRejected F rid))
  | blocks {fields : List (String × Json)} {blocked : User} (found : blocked ∈ s.db.users)
      (other : user.id ≠ blocked.id) (hfields : BlockFields F s user blocked.id fields) (now : ℤ) :
      HandledAs F s user tx (.blocks blocked.id)
        (((s.createBlock user.id blocked.id).2.clearPendingContactRequestsBetween user.id blocked.id).pushed
          tx (userBlocked F fields blocked.id blocked.winkdId blocked.displayName blocked.avatarData now))
  | unblocks (blocked : Id) :
      HandledAs F s user tx (.unblocks blocked)
        ((s.removeBlock user.id blocked).pushed tx (userUnblocked F blocked))

/-! ## Command by command -/

section Commands
variable {F : Formats} {s : AppState} {user : Member} {tx : ℕ} {payload : Json}

theorem run_await {α : Type} (r : RelayOp) (f : r.Reply → RelayProg α) (s : AppState) :
    (await r >>= f).run serve s = (f (serve r s).1).run serve (serve r s).2 := rfl

theorem run_push_bind {α : Type} (tx : ℕ) (text : Json) (f : Unit → RelayProg α) (s : AppState) :
    (push tx text >>= f).run serve s = (f ()).run serve (s.pushed tx text) := rfl

theorem run_notify (userId : Id) (text : Json) (s : AppState) :
    (notify userId text).run serve s = (.ok (), s.notified userId text) := by
  rw [notify, run_await]
  simp only [serve, notified]
  cases s.clients userId with
  | none => rfl
  | some session => rfl

/-- A command ends with an error message. -/
theorem handled_sendErr (message : Text) :
    HandledAs F s user tx .nothing ((sendErr tx message).run serve s).2 := .refused message

theorem handled_addTarget {targetId : Text} (hother : targetId ≠ user.winkdId) : HandledAs F s user tx
    (((match s.findUserByWinkdId targetId with
      | some target => if s.isBlockedBetween user.id target.id then none else some target.id
      | none => none).map ContactEffect.asks).getD .nothing)
    ((addTarget F user tx targetId).run serve s).2 := by
  rw [addTarget, run_await]
  simp only [serve]
  cases hfound : s.findUserByWinkdId targetId with
  | none => exact handled_sendErr _
  | some target =>
    dsimp only
    rw [run_await]
    simp only [serve]
    cases hblocked : s.isBlockedBetween user.id target.id with
    | true => exact handled_sendErr _
    | false =>
      dsimp only
      rw [requestContact, run_await]
      simp only [serve]
      rw [run_push_bind, run_notify]
      exact .asks hfound hother hblocked

theorem handled_addContact : HandledAs F s user tx
    ((ContactCommand.addContact payload).effect F s user)
    ((addContact F user tx payload).run serve s).2 := by
  rw [ContactCommand.effect, addContact, AppState.addsContact]
  cases addTargetId payload with
  | none => exact handled_sendErr _
  | some targetId =>
    dsimp only
    by_cases hself : targetId = user.winkdId
    · rw [if_pos hself, if_pos hself]
      exact handled_sendErr _
    · rw [if_neg hself, if_neg hself, run_await]
      simp only [serve]
      cases user.buddyCap s.db.now with
      | none => exact handled_addTarget hself
      | some cap =>
        dsimp only
        rw [run_await]
        simp only [serve, Option.any_some, decide_eq_true_eq]
        -- the roster is counted, and may be full
        by_cases hfull : cap ≤ (s.countRoster user.id : ℤ)
        · rw [if_pos hfull, if_pos hfull]
          exact handled_sendErr _
        · rw [if_neg hfull, if_neg hfull]
          exact handled_addTarget hself

/-- The id in a field, for a command that needs one. -/
theorem run_withId {field message : String} {k : Id → RelayProg Unit} {effect : Option ContactEffect}
    (hnone : idIn F payload field = none → effect = none)
    (hsome : ∀ id, idIn F payload field = some id →
      HandledAs F s user tx (effect.getD .nothing) ((k id).run serve s).2) :
    HandledAs F s user tx (effect.getD .nothing) ((withId F tx payload field message k).run serve s).2 := by
  rw [withId]
  rw [idIn] at hnone hsome
  cases hfield : payload.getStr field with
  | none =>
    rw [hfield] at hnone
    rw [hnone rfl]
    exact .ignored
  | some text =>
    rw [hfield, Option.bind_some] at hnone hsome
    dsimp only
    cases hparse : F.parseUuid text with
    | none =>
      rw [hnone hparse]
      exact handled_sendErr _
    | some id => exact hsome id hparse

theorem handled_acceptContact (hs : s.ContactsOk) : HandledAs F s user tx
    ((ContactCommand.acceptContact payload).effect F s user)
    ((acceptContact F user tx payload).run serve s).2 := by
  refine run_withId (fun h => by rw [requestIn, h]; rfl) fun rid hrid => ?_
  rw [requestIn, hrid, Option.bind_some, run_await]
  simp only [serve]
  cases hpending : s.pendingRequest rid user.id with
  | none =>
    rw [answerContactRequest_none hpending]
    exact handled_sendErr _
  | some cr =>
    obtain ⟨hcr, -⟩ := pendingRequest_spec hpending
    obtain ⟨requester, hfound, -⟩ := (hs.users _ (List.mem_map_of_mem hcr)).1.found
    have hanswer := answerContactRequest_of hpending .accepted
    have hdb : (s.answerContactRequest rid user.id .accepted).2.db = s.db := by rw [hanswer]
    have hmember : (s.answerContactRequest rid user.id .accepted).2.member = s.member := by rw [hanswer]; rfl
    have hreply : (s.answerContactRequest rid user.id .accepted).1 = .ok { cr with status := .accepted } := by
      rw [hanswer]
    rw [hreply]
    dsimp only
    rw [run_await]
    simp only [serve, hdb, hmember]
    rw [hfound]
    dsimp only [Option.map_some]
    rw [run_push_bind, run_notify]
    exact .accepts hpending hfound

theorem handled_rejectContact : HandledAs F s user tx
    ((ContactCommand.rejectContact payload).effect F s user)
    ((rejectContact F user tx payload).run serve s).2 := by
  refine run_withId (fun h => by rw [requestIn, h]; rfl) fun rid hrid => ?_
  rw [requestIn, hrid, Option.bind_some, run_await]
  simp only [serve]
  cases hpending : s.pendingRequest rid user.id with
  | none =>
    rw [answerContactRequest_none hpending]
    exact handled_sendErr _
  | some cr =>
    obtain ⟨-, rfl, -⟩ := pendingRequest_spec hpending
    have hreply : (s.answerContactRequest cr.id user.id .rejected).1 =
        .ok { cr with status := .rejected } := by
      rw [answerContactRequest_of hpending]
    rw [hreply]
    exact .rejects hpending

/-- A block is made, the pending requests are cleared, and the user is told. -/
theorem handled_block {fields : List (String × Json)} {blocked : User} (hfound : blocked ∈ s.db.users)
    (hother : user.id ≠ blocked.id) (hfields : BlockFields F s user blocked.id fields) :
    HandledAs F s user tx (.blocks blocked.id) ((block F user tx fields blocked.id blocked.winkdId
      blocked.displayName blocked.avatarData).run serve s).2 := by
  have hok := createBlock_ok (s := s) hother
  simp only [serve] at hok
  rw [block, run_await]
  simp only [serve]
  rw [hok]
  dsimp only
  rw [run_await, run_await]
  exact .blocks hfound hother hfields _

theorem handled_blockContact (hs : s.ContactsOk) : HandledAs F s user tx
    ((ContactCommand.blockContact payload).effect F s user)
    ((blockContact F user tx payload).run serve s).2 := by
  refine run_withId (fun h => by rw [requestIn, h]; rfl) fun rid hrid => ?_
  rw [requestIn, hrid, Option.bind_some, run_await]
  simp only [serve]
  cases hfind : (s.listPendingInbound user.id).find? fun r => r.requestId = rid with
  | none =>
    -- the list has all pending requests to the user
    have hnone : s.pendingRequest rid user.id = none := by
      cases hpending : s.pendingRequest rid user.id with
      | none => rfl
      | some cr =>
        obtain ⟨hasks, hid⟩ := asks_of_pendingRequest hs.toRowsOk hpending
        obtain ⟨e, he, heid⟩ := List.mem_map.mp ((mem_pending_iff hs).mpr ⟨_, hid, hasks⟩)
        exact absurd (decide_eq_true heid) (List.find?_eq_none.mp hfind e he)
    rw [hnone]
    exact handled_sendErr _
  | some req =>
    have hreq := List.mem_of_find?_eq_some hfind
    have hrid' : req.requestId = rid := by simpa using List.find?_some hfind
    obtain ⟨cr, hpending, x, hx, hxid, rfl⟩ := pendingRequest_of_mem hs hreq
    rw [hrid'] at hpending
    rw [hpending]
    obtain ⟨hcr, -, hto, -⟩ := pendingRequest_spec hpending
    have hne : user.id ≠ x.id := by
      rw [hxid, ← hto]
      exact (hs.others _ (List.mem_map_of_mem hcr)).symm
    show HandledAs F s user tx (.blocks cr.fromId) _
    rw [← hxid]
    exact handled_block hx hne (.request hpending hxid.symm)

theorem handled_blockUser (hs : s.ContactsOk) (huser : s.db.HasName user.id user.winkdId) :
    HandledAs F s user tx ((ContactCommand.blockUser payload).effect F s user)
      ((blockUser F user tx payload).run serve s).2 := by
  rw [ContactCommand.effect, blockUser, AppState.blocksUser]
  cases (payload.getStr "winkd_id").map Text.trim with
  | none => exact .ignored
  | some targetWinkdId =>
    dsimp only
    by_cases hself : targetWinkdId = user.winkdId
    · rw [if_pos hself, if_pos hself]
      exact handled_sendErr _
    · rw [if_neg hself, if_neg hself, run_await]
      simp only [serve]
      cases hfound : s.findUserByWinkdId targetWinkdId with
      | none => exact handled_sendErr _
      | some target =>
        obtain ⟨x, hx, rfl⟩ := Option.map_eq_some_iff.mp hfound
        have hxname : x.winkdId = targetWinkdId := by simpa using List.find?_some hx
        have hne : user.id ≠ x.id := by
          rintro heq
          refine hself (hs.accounts.name_eq huser ⟨x, List.mem_of_find?_eq_some hx, heq.symm, hxname⟩)
        exact handled_block (List.mem_of_find?_eq_some hx) hne .none

theorem handled_unblockContact : HandledAs F s user tx
    ((ContactCommand.unblockContact payload).effect F s user)
    ((unblockContact F user tx payload).run serve s).2 := by
  refine run_withId (fun h => by rw [h]; rfl) fun blocked hid => ?_
  rw [hid]
  exact .unblocks blocked

/-- **What a command makes of the state**, and whom it tells. -/
theorem handled (hs : s.ContactsOk) (huser : s.db.HasName user.id user.winkdId) (cmd : ContactCommand)
    (serial : ℕ) : HandledAs F s user tx (cmd.effect F s user)
      ((handleCommand F user tx serial cmd.command).run serve s).2 := by
  cases cmd with
  | addContact payload => exact handled_addContact
  | acceptContact payload => exact handled_acceptContact hs
  | rejectContact payload => exact handled_rejectContact
  | blockContact payload => exact handled_blockContact hs
  | blockUser payload => exact handled_blockUser hs huser
  | unblockContact payload => exact handled_unblockContact
  | listBlocked => exact .listed

end Commands
end Winkd.Server
