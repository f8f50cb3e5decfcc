import Winkd.AppCore
import Winkd.ContactCommands

/-!
# What a page shows of the relations

The page lists contacts by their Winkd IDs, and shows requests by theirs.  As long as they are those
of users and of requests to its user (`PageOk`), it shows a set of users (`shown`), and it mirrors
the roster and the list of the pending requests just if that is what the relations say
(`mirrors_iff_shows`).  What it makes of each event of the relay is said in these terms.
-/

namespace Winkd.Web
open UnicodeText Winkd.Server AppState

namespace AppCore
open Chats (nameOr)

def ids (app : AppCore) : List Text := app.contacts.map Contact.id

def requestIds (app : AppCore) : List Text := app.inboundRequests.map fun r => textOf r "request_id"

theorem ids_congr {app app' : AppCore} (h : app'.contacts = app.contacts) : app'.ids = app.ids := by
  rw [ids, h, ids]

/-! ## Event by event -/

section Events
variable {numberText : Text → CodeUnits} {toLowerCase : Text → Text} {me : Identity}

variable (numberText toLowerCase me) in
/-- A message of the relay. -/
def receive (app : AppCore) (text : Json) : AppCore := app.next numberText toLowerCase me (.received text [])

variable {F : Formats} {app : AppCore}

theorem receive_event (event : ServerEvent) (name : String) (fields : List (String × Json))
    (hname : ServerEvent.ofText name.toList = some event) :
    app.receive numberText toLowerCase me (.event name fields) =
      app.handleServerEvent numberText toLowerCase me (some event) (.obj fields) [] := by
  rw [← hname]
  rfl

theorem receive_error (fields : List (String × Json)) :
    app.receive numberText toLowerCase me (.event "error" fields) = app :=
  receive_event .error "error" fields (by decide)

theorem receive_blockedList (users : List Server.BlockedUser) :
    app.receive numberText toLowerCase me (blockedList F users) =
      { app with blockedUsers := users.map (Server.BlockedUser.json F) } :=
  receive_event .blockedList "blocked_list" _ (by decide)

variable (numberText toLowerCase me app) in
theorem receive_requestSent (rid : Id) {targetId : Text} (hne : targetId ≠ []) (target : Member) :
    (app.receive numberText toLowerCase me (requestSent F rid targetId target)).inboundRequests =
        app.inboundRequests ∧
      (app.receive numberText toLowerCase me (requestSent F rid targetId target)).blockedUsers =
        app.blockedUsers ∧
      (app.receive numberText toLowerCase me (requestSent F rid targetId target)).ids =
        if app.hasContactByWinkdId toLowerCase targetId then app.ids else app.ids ++ [targetId] := by
  have hwid : textOf (.obj [("request_id", .str (F.uuid rid)), ("to_winkd_id", .str targetId),
      ("to_display_name", .str target.displayName),
      ("to_avatar_data", .ofText target.avatarData)]) "to_winkd_id" = targetId := rfl
  rw [requestSent, receive_event .contactRequestSent _ _ (by decide)]
  simp only [handleServerEvent, handleContactRequestSent, hwid]
  cases hhas : app.hasContactByWinkdId toLowerCase targetId with
  | true => simp
  | false => simp [hne, ids, newContact]

variable (numberText toLowerCase me app) in
theorem receive_contactRequest (rid : Id) (hne : F.uuid rid ≠ []) (winkdId displayName : Text)
    (avatarData : Option Text) :
    (app.receive numberText toLowerCase me
        (contactRequestEvent F rid winkdId displayName avatarData)).contacts = app.contacts ∧
      (app.receive numberText toLowerCase me
        (contactRequestEvent F rid winkdId displayName avatarData)).blockedUsers = app.blockedUsers ∧
      (app.receive numberText toLowerCase me
        (contactRequestEvent F rid winkdId displayName avatarData)).inboundRequests =
        if F.uuid rid ∈ app.requestIds then app.inboundRequests
        else app.inboundRequests ++ [.obj [("request_id", .str (F.uuid rid)),
          ("from_winkd_id", .str winkdId), ("from_display_name", .str displayName),
          ("from_avatar_data", .ofText avatarData)]] := by
  have hrid : textOf (.obj [("request_id", .str (F.uuid rid)), ("from_winkd_id", .str winkdId),
      ("from_display_name", .str displayName),
      ("from_avatar_data", .ofText avatarData)]) "request_id" = F.uuid rid := rfl
  have hany : (app.inboundRequests.any fun r => textOf r "request_id" = F.uuid rid) =
      decide (F.uuid rid ∈ app.requestIds) := by
    rw [Bool.eq_iff_iff, List.any_eq_true, decide_eq_true_eq, requestIds, List.mem_map]
    simp only [decide_eq_true_eq]
  rw [contactRequestEvent, receive_event .contactRequest _ _ (by decide)]
  simp only [handleServerEvent, handleInboundContactRequest, hrid, hany]
  by_cases hmem : F.uuid rid ∈ app.requestIds
  · simp [hmem]
  · simp [hmem, hne]

variable (numberText toLowerCase me app) in
/-- One who is in the list is shown otherwise; the requests stay. -/
theorem receive_accepted_listed (m : Member)
    (hlisted : app.contacts.any (sameId toLowerCase m.winkdId) = true) :
    (app.receive numberText toLowerCase me (contactAccepted m)).ids = app.ids ∧
      (app.receive numberText toLowerCase me (contactAccepted m)).inboundRequests =
        app.inboundRequests ∧
      (app.receive numberText toLowerCase me (contactAccepted m)).blockedUsers = app.blockedUsers := by
  have hwid : (Json.obj [("winkd_id", .str m.winkdId), ("display_name", .str m.displayName),
      ("avatar_data", .ofText m.avatarData), ("mood_message", .str m.moodMessage)]).getStr "winkd_id" =
        some m.winkdId := rfl
  rw [contactAccepted, receive_event .contactAccepted _ _ (by decide)]
  simp only [handleServerEvent, handleContactAccepted, hwid, hlisted, if_true]
  exact ⟨map_modifyFirst fun _ => rfl, trivial, trivial⟩

variable (numberText toLowerCase me app) in
/-- One who is not is put into the list, and the first of his requests is dropped. -/
theorem receive_accepted_new (m : Member)
    (hlisted : app.contacts.any (sameId toLowerCase m.winkdId) = false) :
    (app.receive numberText toLowerCase me (contactAccepted m)).ids = app.ids ++ [m.winkdId] ∧
      (app.receive numberText toLowerCase me (contactAccepted m)).inboundRequests =
        (app.inboundRequests.eraseP fun r => r.getStr "from_winkd_id" = some m.winkdId) ∧
      (app.receive numberText toLowerCase me (contactAccepted m)).blockedUsers = app.blockedUsers := by
  have hwid : (Json.obj [("winkd_id", .str m.winkdId), ("display_name", .str m.displayName),
      ("avatar_data", .ofText m.avatarData), ("mood_message", .str m.moodMessage)]).getStr "winkd_id" =
        some m.winkdId := rfl
  have hhas : app.hasContactByWinkdId toLowerCase m.winkdId = false := by
    rw [hasContactByWinkdId, Bool.and_eq_false_iff]
    exact .inr hlisted
  rw [contactAccepted, receive_event .contactAccepted _ _ (by decide)]
  simp only [handleServerEvent, handleContactAccepted, hwid, hlisted, hhas, Bool.false_eq_true, if_false]
  exact ⟨List.map_append, trivial, trivial⟩

variable (numberText toLowerCase me app) in
theorem receive_rejected (rid : Id) (hne : F.uuid rid ≠ []) :
    app.receive numberText toLowerCase me (requestRejected F rid) =
      { app with inboundRequests := dropRequest (F.uuid rid) app.inboundRequests } := by
  have hrid : textOf (.obj [("request_id", .str (F.uuid rid))]) "request_id" = F.uuid rid := rfl
  rw [requestRejected, receive_event .contactRequestRejected _ _ (by decide)]
  simp only [handleServerEvent, handleContactRequestRejected, hrid, if_neg hne]

variable (numberText toLowerCase me app) in
/-- One who is blocked is taken out of the list once, and all his requests are dropped; so is the
request that is named. -/
theorem receive_blocked (huuid : ∀ id, F.uuid id ≠ []) {fields : List (String × Json)} (hfields : fields = [] ∨
      ∃ rid, fields = [("request_id", .str (F.uuid rid))]) (blockedId : Id) {winkdId : Text}
    (hne : winkdId ≠ []) (displayName : Text) (avatarData : Option Text) (now : ℤ) :
    (app.receive numberText toLowerCase me
        (userBlocked F fields blockedId winkdId displayName avatarData now)).contacts =
        (app.contacts.eraseP fun c => c.id = winkdId) ∧
      (app.receive numberText toLowerCase me
        (userBlocked F fields blockedId winkdId displayName avatarData now)).blockedUsers =
        app.blockedUsers ∧
      (app.receive numberText toLowerCase me
          (userBlocked F fields blockedId winkdId displayName avatarData now)).inboundRequests.Sublist
        app.inboundRequests ∧
      ∀ r, r ∈ (app.receive numberText toLowerCase me
          (userBlocked F fields blockedId winkdId displayName avatarData now)).inboundRequests ↔
        r ∈ app.inboundRequests ∧ r.getStr "from_winkd_id" ≠ some winkdId ∧
          ∀ rid, fields = [("request_id", .str (F.uuid rid))] → textOf r "request_id" ≠ F.uuid rid := by
  have hwid : ∀ fields : List (String × Json), (fields = [] ∨
      ∃ rid, fields = [("request_id", .str (F.uuid rid))]) →
      textOf (.obj (fields ++ [("user_id", .str (F.uuid blockedId)), ("winkd_id", .str winkdId),
        ("display_name", .str displayName), ("avatar_data", .ofText avatarData),
        ("blocked_at", .str (F.rfc3339 now))])) "winkd_id" = winkdId := by
    rintro fields (rfl | ⟨rid, rfl⟩) <;> rfl
  rw [userBlocked, receive_event .contactBlocked _ _ (by decide)]
  simp only [handleServerEvent, handleContactBlocked, hwid fields hfields, if_neg hne, true_and]
  refine ⟨?_, fun r => ?_⟩
  · split
    · exact List.filter_sublist
    · exact List.filter_sublist.trans List.filter_sublist
  -- the block names the request of its user, or none
  rcases hfields with rfl | ⟨rid, rfl⟩
  · have hrid : textOf (.obj ([] ++ [("user_id", .str (F.uuid blockedId)), ("winkd_id", .str winkdId),
        ("display_name", .str displayName), ("avatar_data", .ofText avatarData),
        ("blocked_at", .str (F.rfc3339 now))])) "request_id" = [] := rfl
    simp only [hrid, if_true, List.mem_filter, decide_eq_true_eq, List.nil_eq, reduceCtorEq, false_imp_iff,
      implies_true, and_true]
  · have hrid : textOf (.obj ([("request_id", .str (F.uuid rid))] ++
        [("user_id", .str (F.uuid blockedId)), ("winkd_id", .str winkdId),
        ("display_name", .str displayName), ("avatar_data", .ofText avatarData),
        ("blocked_at", .str (F.rfc3339 now))])) "request_id" = F.uuid rid := rfl
    simp only [hrid, List.mem_filter, decide_eq_true_eq, List.cons.injEq, Prod.mk.injEq, true_and,
      and_true, Json.str.injEq, if_neg (huuid rid), dropRequest]
    grind

/-- The entry of the list of the blocked with this id. -/
def blockedEntry (app : AppCore) (uid : Text) : Option Json :=
  app.blockedUsers.find? fun u => textOf u "user_id" = uid

variable (numberText toLowerCase me app) in
/-- One who is unblocked is put into the list, if he was in the list of the blocked. -/
theorem receive_unblocked {blockedId : Id} (hne : F.uuid blockedId ≠ []) :
    (app.receive numberText toLowerCase me (userUnblocked F blockedId)).inboundRequests =
        app.inboundRequests ∧
      (app.receive numberText toLowerCase me (userUnblocked F blockedId)).blockedUsers =
        (app.blockedUsers.filter fun u => textOf u "user_id" ≠ F.uuid blockedId) ∧
      (app.receive numberText toLowerCase me (userUnblocked F blockedId)).ids =
        match app.blockedEntry (F.uuid blockedId) with
        | none => app.ids
        | some user =>
          if textOf user "winkd_id" = [] || app.hasContact (textOf user "winkd_id") then app.ids
          else app.ids ++ [textOf user "winkd_id"] := by
  have heq : app.handleContactUnblocked (.obj [("user_id", .str (F.uuid blockedId))]) =
      let rest := app.blockedUsers.filter fun u => textOf u "user_id" ≠ F.uuid blockedId
      match app.blockedEntry (F.uuid blockedId) with
      | none => { app with blockedUsers := rest }
      | some user =>
        if textOf user "winkd_id" = [] || app.hasContact (textOf user "winkd_id") then
          { app with blockedUsers := rest }
        else
          { app with
            blockedUsers := rest
            contacts := app.contacts ++ [newContact (textOf user "winkd_id")
              (nameOr (textOf user "display_name") (textOf user "winkd_id")) [] "offline".toList
              (someTextOf user "avatar_data")]
            buddyUsed := app.buddyUsed + 1 } := if_neg hne
  rw [userUnblocked, receive_event .contactUnblocked _ _ (by decide)]
  simp only [handleServerEvent, heq]
  cases app.blockedEntry (F.uuid blockedId) with
  | none => exact ⟨rfl, rfl, rfl⟩
  | some user =>
    dsimp only
    split
    · exact ⟨rfl, rfl, rfl⟩
    · exact ⟨rfl, rfl, List.map_append⟩

theorem mem_ids_iff {id : Text} : id ∈ app.ids ↔ app.hasContact id = true := by
  rw [ids, List.mem_map, hasContact, List.any_eq_true]
  simp only [decide_eq_true_eq]

end Events
/-! ## What it shows of users -/

/-- The UUIDs are told apart by their texts, which are not empty. -/
structure UuidsOk (F : Formats) : Prop where
  injective : Function.Injective F.uuid
  ne_nil : ∀ id, F.uuid id ≠ []

/-- What is on the page of `u` is about users, and about requests to him. -/
structure PageOk (F : Formats) (s : AppState) (u : Id) (app : AppCore) : Prop where
  contacts : ∀ w ∈ app.ids, ∃ v, s.IsUser v ∧ s.winkdIdOf v = w
  requests : ∀ r ∈ app.inboundRequests, ∃ v rid, s.requestId v u = some rid ∧
    textOf r "request_id" = F.uuid rid ∧ r.getStr "from_winkd_id" = some (s.winkdIdOf v)
  distinct : app.requestIds.Nodup
  blocked : ∀ e ∈ app.blockedUsers, ∃ v, s.IsUser v ∧ textOf e "user_id" = F.uuid v ∧
    textOf e "winkd_id" = s.winkdIdOf v

/-- The page of `u` lists whom a fresh snapshot would, and shows just the pending requests to him. -/
structure Mirrors (F : Formats) (s : AppState) (u : Id) (app : AppCore) : Prop where
  contacts : ∀ id, id ∈ app.contacts.map Contact.id ↔
    id ∈ (s.listContactRoster u).map ContactRosterEntry.winkdId
  requests : ∀ rid, rid ∈ app.inboundRequests.map (fun r => textOf r "request_id") ↔
    rid ∈ (s.listPendingInbound u).map fun r => F.uuid r.requestId

/-- Whom the page of `u` lists, and whose requests it shows. -/
def shown (F : Formats) (s : AppState) (u : Id) (app : AppCore) : Relations.Shown where
  contacts v := s.IsUser v ∧ s.winkdIdOf v ∈ app.ids
  requests v := ∃ rid, s.requestId v u = some rid ∧ F.uuid rid ∈ app.requestIds

section Shown
variable {F : Formats} {s s' : AppState} {u v t : Id} {app app' : AppCore}

/-- **The page mirrors the tables** just if it shows what the relations say. -/
theorem mirrors_iff_shows (hF : UuidsOk F) (hs : s.ContactsOk) (hok : PageOk F s u app) :
    Mirrors F s u app ↔ s.relations.Shows u (app.shown F s u) := by
  have hpending : ∀ rid, rid ∈ ((s.listPendingInbound u).map fun r => F.uuid r.requestId) ↔
      ∃ v i, s.requestId v u = some i ∧ s.relations.Asks v u ∧ F.uuid i = rid := by
    intro rid
    have hmap : ((s.listPendingInbound u).map fun r => F.uuid r.requestId) =
        ((s.listPendingInbound u).map PendingContactRequest.requestId).map F.uuid := List.map_map.symm
    rw [hmap, List.mem_map]
    constructor
    · rintro ⟨i, hi, rfl⟩
      obtain ⟨v, hv, hasks⟩ := (mem_pending_iff hs).mp hi
      exact ⟨v, i, hv, hasks, rfl⟩
    · rintro ⟨v, i, hv, hasks, rfl⟩
      exact ⟨i, (mem_pending_iff hs).mpr ⟨v, hv, hasks⟩, rfl⟩
  constructor
  · intro h
    refine ⟨fun v => ?_, fun v => ?_⟩
    · constructor
      · rintro ⟨huser, hmem⟩
        -- an id of the roster is that of one user only
        obtain ⟨v', huser', hname, hlists⟩ := (mem_roster_iff hs).mp ((h.contacts _).mp hmem)
        exact winkdIdOf_inj hs huser' huser hname ▸ hlists
      · intro hlists
        have huser := isUser_of_related hs hlists.1
        exact ⟨huser, (h.contacts _).mpr ((mem_roster_iff hs).mpr ⟨v, huser, rfl, hlists⟩)⟩
    · constructor
      · rintro ⟨rid, hrid, hmem⟩
        obtain ⟨v', i, hi, hasks, heq⟩ := (hpending _).mp ((h.requests _).mp hmem)
        obtain rfl := hF.injective heq
        exact (requestId_inj hs hrid hi).1 ▸ hasks
      · intro hasks
        -- who asks has a request, and it has an id
        obtain ⟨rid, hrid⟩ := requestId_of_status hasks
        exact ⟨rid, hrid, (h.requests _).mpr ((hpending _).mpr ⟨v, rid, hrid, hasks, rfl⟩)⟩
  · intro h
    refine ⟨fun id => ?_, fun rid => ?_⟩
    · rw [mem_roster_iff hs]
      constructor
      · intro hmem
        obtain ⟨v, huser, rfl⟩ := hok.contacts id hmem
        exact ⟨v, huser, rfl, (h.contacts v).mp ⟨huser, hmem⟩⟩
      · rintro ⟨v, -, rfl, hlists⟩
        exact ((h.contacts v).mpr hlists).2
    · rw [hpending]
      constructor
      · intro hmem
        obtain ⟨r, hr, rfl⟩ := List.mem_map.mp hmem
        obtain ⟨v, i, hi, heq, -⟩ := hok.requests r hr
        exact ⟨v, i, hi, (h.requests v).mp ⟨i, hi, heq ▸ hmem⟩, heq.symm⟩
      · rintro ⟨v, i, hi, hasks, rfl⟩
        obtain ⟨j, hj, hmem⟩ := (h.requests v).mpr hasks
        obtain rfl := Option.some.inj (hi.symm.trans hj)
        exact hmem

/-- The users are the same, and the requests keep their ids. -/
structure Grows (s s' : AppState) : Prop where
  users : s'.db.users = s.db.users
  kept : ∀ a b rid, s.requestId a b = some rid → s'.requestId a b = some rid

theorem PageOk.mono (h : PageOk F s u app) (hg : Grows s s') : PageOk F s' u app where
  contacts w hw := by
    obtain ⟨v, huser, hname⟩ := h.contacts w hw
    exact ⟨v, (isUser_congr hg.users v).mpr huser, (winkdIdOf_congr hg.users v).trans hname⟩
  requests r hr := by
    obtain ⟨v, rid, hrid, heq, hfrom⟩ := h.requests r hr
    exact ⟨v, rid, hg.kept _ _ _ hrid, heq, (winkdIdOf_congr hg.users v).symm ▸ hfrom⟩
  distinct := h.distinct
  blocked e he := by
    obtain ⟨v, huser, heq, hname⟩ := h.blocked e he
    exact ⟨v, (isUser_congr hg.users v).mpr huser, heq, hname.trans (winkdIdOf_congr hg.users v).symm⟩

/-- The page, when it lists other contacts of users and fewer requests. -/
theorem PageOk.update (h : PageOk F s u app)
    (hids : ∀ w ∈ app'.ids, w ∈ app.ids ∨ ∃ v, s.IsUser v ∧ s.winkdIdOf v = w)
    (hinbound : app'.inboundRequests.Sublist app.inboundRequests)
    (hblocked : ∀ e ∈ app'.blockedUsers, e ∈ app.blockedUsers) : PageOk F s u app' where
  contacts w hw := (hids w hw).elim (h.contacts w) id
  requests r hr := h.requests r (hinbound.subset hr)
  distinct := h.distinct.sublist (hinbound.map _)
  blocked e he := h.blocked e (hblocked e he)

/-! ### Changes -/

theorem shown_contacts_same (hg : Grows s s') (hids : app'.ids = app.ids) (v : Id) :
    (app'.shown F s' u).contacts v ↔ (app.shown F s u).contacts v := by
  simp only [shown, hids, isUser_congr hg.users, winkdIdOf_congr hg.users]

theorem shown_contacts_added (hs : s.ContactsOk) (hg : Grows s s') (ht : s.IsUser t) (added : Prop)
    (hids : ∀ w, w ∈ app'.ids ↔ w ∈ app.ids ∨ (w = s.winkdIdOf t ∧ added)) (v : Id) :
    (app'.shown F s' u).contacts v ↔ (app.shown F s u).contacts v ∨ (v = t ∧ added) := by
  simp only [shown, hids, isUser_congr hg.users, winkdIdOf_congr hg.users]
  constructor
  · rintro ⟨hv, hmem | ⟨hname, hadded⟩⟩
    · exact .inl ⟨hv, hmem⟩
    · exact .inr ⟨winkdIdOf_inj hs hv ht hname, hadded⟩
  · rintro (⟨hv, hmem⟩ | ⟨rfl, hadded⟩)
    · exact ⟨hv, .inl hmem⟩
    · exact ⟨ht, .inr ⟨rfl, hadded⟩⟩

theorem shown_contacts_erased (hs : s.ContactsOk) (hg : Grows s s') (ht : s.IsUser t)
    (hcontacts : app'.contacts = app.contacts.eraseP fun c => c.id = s.winkdIdOf t) (v : Id) :
    (app'.shown F s' u).contacts v ↔ (app.shown F s u).contacts v ∧
      (v = t → 2 ≤ app.contacts.countP fun c => c.id = s.winkdIdOf t) := by
  have hmem : ∀ w, w ∈ app'.ids ↔ w ∈ app.ids ∧
      (w = s.winkdIdOf t → 2 ≤ app.contacts.countP fun c => c.id = s.winkdIdOf t) := by
    intro w
    rw [ids, hcontacts, List.mem_map, ids, List.mem_map]
    by_cases hw : w = s.winkdIdOf t
    · subst hw
      have htwice := exists_mem_eraseP_iff (p := fun c : Contact => decide (c.id = s.winkdIdOf t))
        (l := app.contacts)
      simp only [decide_eq_true_eq] at htwice
      rw [htwice]
      refine ⟨fun h => ⟨?_, fun _ => h⟩, fun h => h.2 rfl⟩
      obtain ⟨c, hc, hid⟩ := List.countP_pos_iff.mp (Nat.lt_of_lt_of_le Nat.zero_lt_two h)
      exact ⟨c, hc, of_decide_eq_true hid⟩
    · rw [and_iff_left fun h => absurd h hw]
      refine exists_congr fun c => and_congr_left ?_
      rintro rfl
      exact List.mem_eraseP_of_neg (by simpa using hw)
  simp only [shown, hmem, isUser_congr hg.users, winkdIdOf_congr hg.users, and_assoc]
  constructor
  · rintro ⟨hv, hin, himp⟩
    exact ⟨hv, hin, fun h => himp (h ▸ rfl)⟩
  · rintro ⟨hv, hin, himp⟩
    exact ⟨hv, hin, fun h => himp (winkdIdOf_inj hs hv ht h)⟩

theorem shown_requests_same (hids : ∀ v, s'.requestId v u = s.requestId v u)
    (hinbound : app'.inboundRequests = app.inboundRequests) (v : Id) :
    (app'.shown F s' u).requests v ↔ (app.shown F s u).requests v := by
  simp only [shown, hids, requestIds, hinbound]

/-- A request of `t` that is shown says so. -/
theorem shown_requests_iff (hF : UuidsOk F) (hs : s.ContactsOk) (hok : PageOk F s u app) (hv : s.IsUser v) :
    (app.shown F s u).requests v ↔
      ∃ r ∈ app.inboundRequests, r.getStr "from_winkd_id" = some (s.winkdIdOf v) := by
  constructor
  · rintro ⟨rid, hrid, hmem⟩
    obtain ⟨r, hr, heq⟩ := List.mem_map.mp hmem
    obtain ⟨v', i, hi, heq', hfrom⟩ := hok.requests r hr
    obtain rfl := hF.injective (heq.symm.trans heq')
    exact ⟨r, hr, (requestId_inj hs hrid hi).1 ▸ hfrom⟩
  · rintro ⟨r, hr, hfrom⟩
    obtain ⟨v', i, hi, heq, hfrom'⟩ := hok.requests r hr
    have hname := Option.some.inj (hfrom.symm.trans hfrom')
    obtain rfl := winkdIdOf_inj hs hv (users_of_requestId hs hi).1 hname
    exact ⟨i, hi, List.mem_map.mpr ⟨r, hr, heq⟩⟩

/-- All requests of `t` are dropped, and no others. -/
theorem shown_requests_dropped (hF : UuidsOk F) (hs : s.ContactsOk) (hs' : s'.ContactsOk)
    (hg : Grows s s') (hok : PageOk F s u app) (hok' : PageOk F s' u app') (ht : s.IsUser t)
    (hinbound : ∀ r, r ∈ app'.inboundRequests ↔
      r ∈ app.inboundRequests ∧ r.getStr "from_winkd_id" ≠ some (s.winkdIdOf t)) (v : Id) :
    (app'.shown F s' u).requests v ↔ (app.shown F s u).requests v ∧ v ≠ t := by
  by_cases hv : s.IsUser v
  · rw [shown_requests_iff hF hs' hok' ((isUser_congr hg.users v).mpr hv), shown_requests_iff hF hs hok hv,
      winkdIdOf_congr hg.users]
    constructor
    · rintro ⟨r, hr, hfrom⟩
      obtain ⟨hr, hne⟩ := (hinbound r).mp hr
      refine ⟨⟨r, hr, hfrom⟩, ?_⟩
      rintro rfl
      exact hne hfrom
    · rintro ⟨⟨r, hr, hfrom⟩, hne⟩
      refine ⟨r, (hinbound r).mpr ⟨hr, fun h => hne ?_⟩, hfrom⟩
      exact winkdIdOf_inj hs hv ht (Option.some.inj (hfrom.symm.trans h))
  · have hnone : ∀ {s : AppState} {app : AppCore}, s.ContactsOk → ¬ s.IsUser v →
        ¬ (app.shown F s u).requests v := by
      rintro s app hs hv ⟨rid, hrid, -⟩
      exact hv (users_of_requestId hs hrid).1
    exact iff_of_false (hnone hs' fun h => hv ((isUser_congr hg.users v).mp h)) fun h => hnone hs hv h.1

/-- Of the requests on a page, that of `t` has its id and his name. -/
theorem from_iff (hF : UuidsOk F) (hs : s.ContactsOk) (hok : PageOk F s u app) {rid : Id}
    (hrid : s.requestId t u = some rid) {r : Json} (hr : r ∈ app.inboundRequests) :
    r.getStr "from_winkd_id" = some (s.winkdIdOf t) ↔ textOf r "request_id" = F.uuid rid := by
  obtain ⟨v, i, hi, heq, hfrom⟩ := hok.requests r hr
  rw [hfrom, heq, Option.some_inj]
  constructor
  · intro hname
    obtain rfl := winkdIdOf_inj hs (users_of_requestId hs hi).1 (users_of_requestId hs hrid).1 hname
    rw [Option.some.inj (hi.symm.trans hrid)]
  · intro huuid
    obtain rfl := hF.injective huuid
    rw [(requestId_inj hs hrid hi).1]

/-- Without its only element of which it is true, a list has none. -/
theorem mem_eraseP_iff_of_unique {α β : Type} {p : α → Bool} {g : α → β} {l : List α} {k : β}
    (hp : ∀ a ∈ l, p a = true ↔ g a = k) (hnodup : (l.map g).Nodup) {a : α} :
    a ∈ l.eraseP p ↔ a ∈ l ∧ ¬ p a = true := by
  induction l with
  | nil => exact iff_of_false List.not_mem_nil fun h => List.not_mem_nil h.1
  | cons b l ih =>
    rw [List.map_cons, List.nodup_cons] at hnodup
    have hrest : ∀ a ∈ l, p a = true ↔ g a = k := fun a ha => hp a (List.mem_cons_of_mem b ha)
    by_cases hb : p b = true
    · rw [List.eraseP_cons_of_pos hb]
      have hk := (hp b List.mem_cons_self).mp hb
      constructor
      · intro ha
        refine ⟨List.mem_cons_of_mem b ha, fun hpa => hnodup.1 ?_⟩
        rw [hk, ← (hrest a ha).mp hpa]
        exact List.mem_map_of_mem ha
      · rintro ⟨ha, hpa⟩
        refine (List.mem_cons.mp ha).resolve_left ?_
        rintro rfl
        exact hpa hb
    · rw [List.eraseP_cons_of_neg hb, List.mem_cons, List.mem_cons, ih hrest hnodup.2]
      constructor
      · rintro (rfl | ⟨ha, hpa⟩)
        · exact ⟨.inl rfl, hb⟩
        · exact ⟨.inr ha, hpa⟩
      · rintro ⟨rfl | ha, hpa⟩
        · exact .inl rfl
        · exact .inr ⟨ha, hpa⟩

/-- The first request of `t` is the only one. -/
theorem mem_eraseP_from (hF : UuidsOk F) (hs : s.ContactsOk) (hok : PageOk F s u app) {rid : Id}
    (hrid : s.requestId t u = some rid) {r : Json} :
    r ∈ (app.inboundRequests.eraseP fun r => r.getStr "from_winkd_id" = some (s.winkdIdOf t)) ↔
      r ∈ app.inboundRequests ∧ r.getStr "from_winkd_id" ≠ some (s.winkdIdOf t) := by
  refine (mem_eraseP_iff_of_unique (g := fun r => textOf r "request_id") (k := F.uuid rid)
    (fun r hr => ?_) hok.distinct).trans ?_
  · rw [decide_eq_true_eq]
    exact from_iff hF hs hok hrid hr
  · rw [decide_eq_true_eq]

/-- A request that is new on the page. -/
theorem shown_requests_added (hs' : s'.ContactsOk) (hF : UuidsOk F) {rid : Id}
    (hrid : s'.requestId t u = some rid) (hids : ∀ v, v ≠ t → s'.requestId v u = s.requestId v u)
    (hrequests : ∀ id, id ∈ app'.requestIds ↔ id ∈ app.requestIds ∨ id = F.uuid rid)
    (hold : (app.shown F s u).requests t → s.requestId t u = some rid) (v : Id) :
    (app'.shown F s' u).requests v ↔ (app.shown F s u).requests v ∨ v = t := by
  simp only [shown, hrequests]
  by_cases hv : v = t
  · subst hv
    exact iff_of_true ⟨rid, hrid, .inr rfl⟩ (.inr rfl)
  · rw [or_iff_left hv, hids v hv]
    refine exists_congr fun i => and_congr_right fun hi => or_iff_left fun heq => hv ?_
    obtain rfl := hF.injective heq
    rw [← hids v hv] at hi
    exact (requestId_inj hs' hrid hi).1

/-! ### Events -/

section Events
variable {numberText : Text → CodeUnits} {toLowerCase : Text → Text} {me : Identity}

variable (numberText toLowerCase me) in
theorem PageOk.requestSent (h : PageOk F s u app) (hs : s.ContactsOk) (ht : s.IsUser t) (target : Member)
    (rid : Id) : PageOk F s u (app.receive numberText toLowerCase me
      (Server.requestSent F rid (s.winkdIdOf t) target)) := by
  obtain ⟨hinbound, hblocked, hids⟩ := receive_requestSent numberText toLowerCase me app (F := F) rid
    (winkdIdOf_ne_nil hs ht) target
  refine h.update (fun w hw => ?_) (by rw [hinbound]) (by rw [hblocked]; exact fun _ h => h)
  rw [hids] at hw
  split at hw
  · exact .inl hw
  · rcases List.mem_append.mp hw with hw | hw
    · exact .inl hw
    · exact .inr ⟨t, ht, (List.mem_singleton.mp hw).symm⟩

variable (numberText toLowerCase me) in
theorem PageOk.contactRequest (h : PageOk F s u app) (hF : UuidsOk F) {rid : Id}
    (hrid : s.requestId t u = some rid) (displayName : Text) (avatarData : Option Text) :
    PageOk F s u (app.receive numberText toLowerCase me
      (contactRequestEvent F rid (s.winkdIdOf t) displayName avatarData)) ∧
    ∀ id, id ∈ (app.receive numberText toLowerCase me
        (contactRequestEvent F rid (s.winkdIdOf t) displayName avatarData)).requestIds ↔
      id ∈ app.requestIds ∨ id = F.uuid rid := by
  obtain ⟨hcontacts, hblocked, hinbound⟩ := receive_contactRequest numberText toLowerCase me app rid
    (hF.ne_nil rid) (s.winkdIdOf t) displayName avatarData
  generalize app.receive numberText toLowerCase me
    (contactRequestEvent F rid (s.winkdIdOf t) displayName avatarData) = app' at *
  by_cases hmem : F.uuid rid ∈ app.requestIds
  · rw [if_pos hmem] at hinbound
    refine ⟨h.update (fun w hw => .inl ?_) (by rw [hinbound]) (by rw [hblocked]; exact fun _ h => h),
      fun id => ?_⟩
    · rw [ids, ← hcontacts]
      exact hw
    · rw [requestIds, hinbound]
      refine (or_iff_left_of_imp ?_).symm
      rintro rfl
      exact hmem
  · rw [if_neg hmem] at hinbound
    refine ⟨⟨?_, fun r hr => ?_, ?_, ?_⟩, fun id => ?_⟩
    · rw [ids, hcontacts]
      exact h.contacts
    · rw [hinbound] at hr
      rcases List.mem_append.mp hr with hr | hr
      · exact h.requests r hr
      · rw [List.mem_singleton.mp hr]
        exact ⟨t, rid, hrid, rfl, rfl⟩
    · rw [requestIds, hinbound, List.map_append, List.nodup_append]
      refine ⟨h.distinct, List.nodup_singleton _, ?_⟩
      rintro a ha b hb rfl
      obtain rfl : a = F.uuid rid := List.mem_singleton.mp hb
      exact hmem ha
    · rw [hblocked]
      exact h.blocked
    · rw [requestIds, hinbound, List.map_append, List.mem_append]
      exact or_congr_right List.mem_singleton

variable (numberText toLowerCase me) in
theorem PageOk.accepted (h : PageOk F s u app) {m : Member} (hm : s.IsUser t)
    (hname : s.winkdIdOf t = m.winkdId) :
    PageOk F s u (app.receive numberText toLowerCase me (contactAccepted m)) := by
  cases hlisted : app.contacts.any (sameId toLowerCase m.winkdId) with
  | true =>
    obtain ⟨hids, hinbound, hblocked⟩ := receive_accepted_listed numberText toLowerCase me app m
      hlisted
    exact h.update (fun w hw => .inl (hids ▸ hw)) (by rw [hinbound]) (by rw [hblocked]; exact fun _ h => h)
  | false =>
    obtain ⟨hids, hinbound, hblocked⟩ := receive_accepted_new numberText toLowerCase me app m
      hlisted
    refine h.update (fun w hw => ?_) ?_ (by rw [hblocked]; exact fun _ h => h)
    · rw [hids] at hw
      rcases List.mem_append.mp hw with hw | hw
      · exact .inl hw
      · exact .inr ⟨t, hm, hname.trans (List.mem_singleton.mp hw).symm⟩
    · rw [hinbound]
      exact List.eraseP_sublist

variable (numberText toLowerCase me) in
theorem PageOk.rejected (h : PageOk F s u app) (hF : UuidsOk F) (rid : Id) :
    PageOk F s u (app.receive numberText toLowerCase me (requestRejected F rid)) := by
  rw [receive_rejected _ _ _ _ rid (hF.ne_nil rid)]
  exact h.update (fun w hw => .inl hw) List.filter_sublist fun _ h => h

variable (numberText toLowerCase me) in
theorem PageOk.contactBlocked (h : PageOk F s u app) (hs : s.ContactsOk) (hF : UuidsOk F)
    {fields : List (String × Json)}
    (hfields : fields = [] ∨ ∃ rid, fields = [("request_id", .str (F.uuid rid))] ∧ s.requestId t u = some rid)
    (ht : s.IsUser t) (displayName : Text) (avatarData : Option Text) (now : ℤ) :
    PageOk F s u (app.receive numberText toLowerCase me
      (userBlocked F fields t (s.winkdIdOf t) displayName avatarData now)) ∧
    ∀ r, r ∈ (app.receive numberText toLowerCase me
        (userBlocked F fields t (s.winkdIdOf t) displayName avatarData now)).inboundRequests ↔
      r ∈ app.inboundRequests ∧ r.getStr "from_winkd_id" ≠ some (s.winkdIdOf t) := by
  obtain ⟨hcontacts, hblocked, hsublist, hinbound⟩ := receive_blocked numberText toLowerCase me app
    hF.ne_nil
    (hfields.imp_right fun ⟨rid, h, _⟩ => ⟨rid, h⟩) t (winkdIdOf_ne_nil hs ht) displayName avatarData now
  refine ⟨h.update (fun w hw => .inl ?_) hsublist (by rw [hblocked]; exact fun _ h => h), fun r => ?_⟩
  · rw [ids, hcontacts] at hw
    exact (List.eraseP_sublist.map _).subset hw
  · rw [hinbound]
    refine and_congr_right fun hr => and_iff_left_of_imp fun hne rid hrid => ?_
    -- the request that is named is his
    rcases hfields with rfl | ⟨rid', rfl, hrid'⟩
    · cases hrid
    · have hsame : F.uuid rid' = F.uuid rid := by simpa using hrid
      exact fun heq => hne ((from_iff hF hs h hrid' hr).mpr (heq.trans hsame.symm))

variable (numberText toLowerCase me) in
theorem PageOk.unblocked (h : PageOk F s u app) (hF : UuidsOk F) (blockedId : Id) :
    PageOk F s u (app.receive numberText toLowerCase me (userUnblocked F blockedId)) := by
  obtain ⟨hinbound, hblocked, hids⟩ := receive_unblocked numberText toLowerCase me app
    (hF.ne_nil blockedId)
  refine h.update (fun w hw => ?_) (by rw [hinbound]) fun e he => ?_
  · rw [hids] at hw
    split at hw
    · exact .inl hw
    · rename_i user hentry
      split at hw
      · exact .inl hw
      · rcases List.mem_append.mp hw with hw | hw
        · exact .inl hw
        · obtain ⟨v, hv, -, hname⟩ := h.blocked user (List.mem_of_find?_eq_some hentry)
          exact .inr ⟨v, hv, hname.symm.trans (List.mem_singleton.mp hw).symm⟩
  · rw [hblocked] at he
    exact List.mem_of_mem_filter he

variable (numberText toLowerCase me) in
/-- Who is in the list of the blocked is put among the contacts. -/
theorem ids_unblocked (hs : s.ContactsOk) (h : PageOk F s u app) (hF : UuidsOk F) (blockedId : Id) (w : Text) :
    w ∈ (app.receive numberText toLowerCase me (userUnblocked F blockedId)).ids ↔
      w ∈ app.ids ∨ (w = s.winkdIdOf blockedId ∧ (app.blockedEntry (F.uuid blockedId)).isSome = true) := by
  obtain ⟨-, -, hids⟩ := receive_unblocked numberText toLowerCase me app
    (hF.ne_nil blockedId)
  rw [hids]
  cases hentry : app.blockedEntry (F.uuid blockedId) with
  | none => simp
  | some user =>
    obtain ⟨v, hv, huuid, hname⟩ := h.blocked user (List.mem_of_find?_eq_some hentry)
    have hfound : textOf user "user_id" = F.uuid blockedId := by simpa using List.find?_some hentry
    obtain rfl := hF.injective (huuid.symm.trans hfound)
    simp only [hname, decide_eq_false (winkdIdOf_ne_nil hs hv), Bool.false_or, Option.isSome_some, and_true]
    by_cases hhas : app.hasContact (s.winkdIdOf v) = true
    · rw [if_pos hhas]
      refine (or_iff_left_of_imp ?_).symm
      rintro rfl
      exact mem_ids_iff.mpr hhas
    · rw [if_neg hhas, List.mem_append, List.mem_singleton]

theorem PageOk.blockedList (h : PageOk F s u app) (blockerId : Id) : PageOk F s u
    (app.receive numberText toLowerCase me (Server.blockedList F (s.listBlockedUsers blockerId))) := by
  rw [receive_blockedList]
  refine ⟨h.contacts, h.requests, h.distinct, fun e he => ?_⟩
  obtain ⟨b, hb, rfl⟩ := List.mem_map.mp he
  obtain ⟨bl, -, hbl⟩ := List.mem_filterMap.mp hb
  obtain ⟨x, hx, rfl⟩ := Option.map_eq_some_iff.mp hbl
  have hid : x.id = bl.blockedId := id_of_findUserById hx
  refine ⟨x.id, ⟨_, x, List.mem_of_find?_eq_some hx, rfl, rfl⟩, rfl, ?_⟩
  show x.winkdId = s.winkdIdOf x.id
  rw [winkdIdOf, hid, hx]
  rfl

end Events

end Shown
end AppCore
end Winkd.Web
