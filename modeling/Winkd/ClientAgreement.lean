import Winkd.ContactEvents
import Winkd.Transitions

/-!
# Both clients on the same events

`app.html` and the React client are told the same of their contacts, and read it each in its own way.
They agree if they list the same contacts, show the same of every contact that has accepted, and have the
same requests to answer.  They agree throughout just if every event is one that both read alike
(`agree_iff`).
-/

namespace Winkd.Web
open UnicodeText Winkd.Server Transitions

/-! ## Lists of contacts -/

namespace AppCore

/-- The contacts that stay, and the one that is changed. -/
theorem mem_modifyFirst {p : Contact → Bool} {f : Contact → Contact} {contacts : List Contact}
    {c : Contact} : c ∈ modifyFirst p f contacts ↔
      c ∈ contacts.eraseP p ∨ ∃ d, contacts.find? p = some d ∧ c = f d := by
  induction contacts with
  | nil => exact ⟨fun h => absurd h List.not_mem_nil, fun h => h.elim (fun h => h) nofun⟩
  | cons b contacts ih =>
    cases hb : p b with
    | true =>
      rw [modifyFirst_cons_pos hb, List.eraseP_cons_of_pos hb, List.find?_cons_of_pos hb, List.mem_cons]
      simp only [Option.some.injEq, exists_eq_left']
      exact or_comm
    | false =>
      have hneg : ¬ p b = true := Bool.eq_false_iff.mp hb
      rw [modifyFirst_cons_neg hb, List.eraseP_cons_of_neg hneg, List.find?_cons_of_neg hneg,
        List.mem_cons, List.mem_cons, ih, or_assoc]

end AppCore

namespace Clients
open React (ContactsState)

/-- A contact is replaced, wherever it is listed, or added. -/
theorem mem_addAcceptedContact {s : ContactsState} {contact c : React.Contact} :
    c ∈ (s.addAcceptedContact contact).contacts ↔
      (c ∈ s.contacts ∧ c.id ≠ contact.id) ∨ c = contact := by
  unfold ContactsState.addAcceptedContact
  split
  · rename_i hany
    obtain ⟨d, hd, hid⟩ := List.any_eq_true.mp hany
    rw [decide_eq_true_eq] at hid
    rw [List.mem_map]
    constructor
    · rintro ⟨b, hb, rfl⟩
      split
      · exact .inr rfl
      · rename_i hne
        exact .inl ⟨hb, hne⟩
    · rintro (⟨hc, hne⟩ | rfl)
      · exact ⟨c, hc, if_neg hne⟩
      · exact ⟨d, hd, if_pos hid⟩
  · rename_i hany
    have hnone : ∀ b ∈ s.contacts, b.id ≠ contact.id := fun b hb hid =>
      hany (List.any_eq_true.mpr ⟨b, hb, decide_eq_true hid⟩)
    rw [List.mem_append, List.mem_singleton]
    exact or_congr_left ⟨fun hc => ⟨hc, hnone c hc⟩, And.left⟩

end Clients

/-! ## The clients -/

/-- `app.html` and the React client of one user. -/
structure Clients where
  app : AppCore
  react : React.Client

namespace Clients
open React (ContactsState)
variable {fromOf : Filled → Filled}

/-- Both have no contacts yet; `app.html` may have stored conversations. -/
def start (convos : Convos) : Clients := ⟨AppCore.load convos, .empty⟩

/-- The request was accepted. -/
def Accepted (c : React.Contact) : Prop := c.requestStatus = some "accepted".toList

/-- The contact is shown as this; who is invisible looks offline. -/
def ShownAs (c : React.Contact) (status : Text) : Prop :=
  c.status.map AppCore.shownAs = some (AppCore.shownAs status)

def SameContacts (contacts : List AppCore.Contact) (contacts' : List React.Contact) : Prop :=
  ∀ id, id ∈ contacts.map AppCore.Contact.id ↔ some id ∈ contacts'.map React.Contact.id

def SameStatuses (contacts : List AppCore.Contact) (contacts' : List React.Contact) : Prop :=
  ∀ c ∈ contacts', Accepted c → ∀ d ∈ contacts, c.id = some d.id → ShownAs c d.status

def SameRequests (inbound : List Json) (pending : List React.PendingInvitation) : Prop :=
  ∀ rid, rid ∈ inbound.map (fun r => textOf r "request_id") ↔
    some rid ∈ pending.map React.PendingInvitation.requestId

/-- The two list the same contacts, show the same of those that have accepted, and have the same
requests to answer. -/
structure Agree (s : Clients) : Prop where
  contacts : SameContacts s.app.contacts s.react.contacts.contacts
  statuses : SameStatuses s.app.contacts s.react.contacts.contacts
  requests : SameRequests s.app.inboundRequests s.react.contacts.pendingInvitations

/-- Every contact that has accepted and has this id is shown as this. -/
def AllShownAs (s : Clients) (id status : Text) : Prop :=
  ∀ c ∈ s.react.contacts.contacts, Accepted c → c.id = some id → ShownAs c status

section
variable (toLowerCase : Text → Text)

/-- The contact that `contact_accepted` finds is the one that has accepted, and no other is left to
show; the request that it answers has no other beside it. -/
def AcceptedAlike (s : Clients) (wid : Text) : Prop :=
  let same := AppCore.sameId toLowerCase wid
  let fromWid := fun r : Json => decide (r.getStr "from_winkd_id" = some wid)
  if s.app.contacts.any same then
    s.app.hasContact wid = true ∧
      (∀ d ∈ s.app.contacts.eraseP same, d.id = wid → AppCore.shownAs d.status = "online".toList) ∧
      (∀ d, s.app.contacts.find? same = some d → d.id ≠ wid → s.AllShownAs d.id "online".toList) ∧
      s.app.inboundRequests.countP fromWid = 0
  else s.app.inboundRequests.countP fromWid ≤ 1

/-- The event is one that both clients read alike. -/
def Alike (s : Clients) : ContactEvent fromOf → Prop
  | .contactsSnapshot contacts =>
    ∀ c ∈ contacts, c.entry.accepted = true → ∀ d ∈ contacts, d.entry.winkdId = c.entry.winkdId →
      shownStatus d.presence = "online"
  | .presence winkdId status => status = [] ∨ s.AllShownAs winkdId.text status
  | .contactRequestSent _ toWinkdId _ _ =>
    s.app.hasContactByWinkdId toLowerCase toWinkdId.text = true →
      s.app.hasContact toWinkdId.text = true
  | .contactAccepted winkdId _ _ _ => s.AcceptedAlike toLowerCase winkdId.text
  | .contactBlocked requestId _ winkdId _ _ _ =>
    s.app.contacts.countP (fun c => c.id = winkdId.text) ≤ 1 ∧
      ∀ r ∈ s.app.inboundRequests, r.getStr "from_winkd_id" = some winkdId.text →
        ∃ rid, requestId = some rid ∧ textOf r "request_id" = rid.text
  | _ => True

variable (numberText : Text → CodeUnits) (me : Identity)

/-- Both are told the same. -/
def next (s : Clients) (e : ContactEvent fromOf) : Clients :=
  ⟨s.app.next numberText toLowerCase me (.received e.envelope []),
    s.react.onEnvelope numberText (units me.winkdId) e.envelope []⟩

end

/-! ## What both have -/

/-- Of every request it is known who sent it. -/
structure Inv (fromOf : Filled → Filled) (s : Clients) : Prop where
  blockedUsers : s.app.blockedUsers = []
  named : ∀ c ∈ s.react.contacts.contacts, c.id ≠ none
  inbound : ∀ r ∈ s.app.inboundRequests, ∃ rid : Filled,
    textOf r "request_id" = rid.text ∧ r.getStr "from_winkd_id" = some (fromOf rid).text
  pending : ∀ i ∈ s.react.contacts.pendingInvitations, ∃ rid : Filled,
    i.requestId = some rid.text ∧ i.fromWinkdId = some (fromOf rid).text

theorem inv_start (fromOf : Filled → Filled) (convos : Convos) : (start convos).Inv fromOf :=
  ⟨rfl, fun _ h => absurd h List.not_mem_nil, fun _ h => absurd h List.not_mem_nil,
    fun _ h => absurd h List.not_mem_nil⟩

theorem agree_start (convos : Convos) : (start convos).Agree where
  contacts _ := iff_of_false List.not_mem_nil List.not_mem_nil
  statuses _ h := absurd h List.not_mem_nil
  requests _ := iff_of_false List.not_mem_nil List.not_mem_nil

theorem Filled.eq {a b : Filled} (h : a.text = b.text) : a = b := by
  cases a
  cases b
  cases h
  rfl

section
variable {numberText : Text → CodeUnits} {toLowerCase : Text → Text} {me : Identity} {s : Clients}

/-! ## The handlers -/

/-- The handler of `app.html` for an event. -/
def appEvent : ContactEvent fromOf → ServerEvent
  | .contactsSnapshot _ => .contactsSnapshot
  | .presence _ _ => .presence
  | .contactRequest _ _ _ => .contactRequest
  | .contactRequestSent _ _ _ _ => .contactRequestSent
  | .contactAccepted _ _ _ _ => .contactAccepted
  | .contactRequestRejected _ => .contactRequestRejected
  | .contactBlocked _ _ _ _ _ _ => .contactBlocked
  | .contactUnblocked _ => .contactUnblocked

/-- That of the React client. -/
def reactEvent : ContactEvent fromOf → React.Client.ServerEvent
  | .contactsSnapshot _ => .contactsSnapshot
  | .presence _ _ => .presence
  | .contactRequest _ _ _ => .contactRequest
  | .contactRequestSent _ _ _ _ => .contactRequestSent
  | .contactAccepted _ _ _ _ => .contactAccepted
  | .contactRequestRejected _ => .contactRequestRejected
  | .contactBlocked _ _ _ _ _ _ => .contactBlocked
  | .contactUnblocked _ => .contactUnblocked

theorem ofText_appEvent (e : ContactEvent fromOf) :
    ServerEvent.ofText e.name.toList = some (appEvent e) := by
  have hnames : ∀ p ∈ ServerEvent.names, ServerEvent.ofText p.1.toList = some p.2 := by decide
  refine hnames (e.name, appEvent e) ?_
  cases e <;> simp [ContactEvent.name, appEvent, ServerEvent.names]

theorem ofText_reactEvent (e : ContactEvent fromOf) :
    React.Client.ServerEvent.ofText e.name.toList = some (reactEvent e) := by
  have hnames : ∀ p ∈ React.Client.ServerEvent.names,
      React.Client.ServerEvent.ofText p.1.toList = some p.2 := by decide
  refine hnames (e.name, reactEvent e) ?_
  cases e <;> simp [ContactEvent.name, reactEvent, React.Client.ServerEvent.names]

/-- Both clients find the handler of the event, and give it the event's fields. -/
theorem next_eq (e : ContactEvent fromOf) : s.next toLowerCase numberText me e =
    ⟨s.app.handleServerEvent numberText toLowerCase me (some (appEvent e)) (.obj e.fields) [],
      s.react.onEvent numberText (units me.winkdId) (some (reactEvent e)) (some (.obj e.fields)) []⟩ := by
  show Clients.mk (s.app.handleServerEvent numberText toLowerCase me (ServerEvent.ofText e.name.toList)
      (.obj e.fields) [])
    (s.react.onEvent numberText (units me.winkdId) (React.Client.ServerEvent.ofText e.name.toList)
      (some (.obj e.fields)) []) = _
  rw [ofText_appEvent, ofText_reactEvent]

/-! ## Event by event -/

theorem shownAs_idem (status : Text) :
    AppCore.shownAs (AppCore.shownAs status) = AppCore.shownAs status := by
  unfold AppCore.shownAs
  split
  · exact if_neg (by decide)
  · rfl

theorem shownAs_online : AppCore.shownAs "online".toList = "online".toList := by decide

theorem shownAs_online_iff {c : React.Contact} (h : c.status = some "online".toList) (status : Text) :
    ShownAs c status ↔ AppCore.shownAs status = "online".toList := by
  rw [ShownAs, h, Option.map_some, shownAs_online, Option.some.injEq]
  exact eq_comm

/-- What a snapshot makes of an entry, at `app.html`. -/
theorem app_snapshot (app : AppCore) (contacts : List SnapshotEntry) :
    (app.handleContactsSnapshot (.obj [("contacts", .arr (contacts.map SnapshotEntry.json))])).contacts =
      contacts.map fun c => AppCore.snapshotContact c.json := by
  show (((contacts.map SnapshotEntry.json).filter fun item => textOf item "winkd_id" ≠ []).map
    AppCore.snapshotContact) = _
  have hall : ∀ item ∈ contacts.map SnapshotEntry.json, decide (textOf item "winkd_id" ≠ []) = true := by
    intro item hitem
    obtain ⟨c, -, rfl⟩ := List.mem_map.mp hitem
    exact decide_eq_true c.ne_nil
  rw [List.filter_eq_self.mpr hall, List.map_map]
  rfl

theorem status_snapshot (c : SnapshotEntry) :
    AppCore.shownAs (AppCore.snapshotContact c.json).status = (shownStatus c.presence).toList := by
  have hstatus : ∀ t ∈ ["online", "away", "busy", "offline"],
      AppCore.shownAs (if t.toList = [] then "offline".toList else AppCore.shownAs t.toList) = t.toList := by
    decide
  refine hstatus (shownStatus c.presence) ?_
  rcases c.presence with _ | ⟨_ | _ | _ | _, _⟩ <;> simp [shownStatus]

theorem agree_snapshot_iff (h : s.Agree) (contacts : List SnapshotEntry) :
    Agree ⟨s.app.handleContactsSnapshot (.obj [("contacts", .arr (contacts.map SnapshotEntry.json))]),
      s.react.onContactsSnapshot (.obj [("contacts", .arr (contacts.map SnapshotEntry.json))])⟩ ↔
    ∀ c ∈ contacts, c.entry.accepted = true → ∀ d ∈ contacts, d.entry.winkdId = c.entry.winkdId →
      shownStatus d.presence = "online" := by
  have happ := app_snapshot s.app contacts
  have hreact : (s.react.onContactsSnapshot
      (.obj [("contacts", .arr (contacts.map SnapshotEntry.json))])).contacts.contacts =
      contacts.map fun c => React.Client.snapshotContact c.json := List.map_map ..
  have haccepted : ∀ c : SnapshotEntry, Accepted (React.Client.snapshotContact c.json) ↔
      c.entry.accepted = true := by
    intro c
    show some (String.toList (if c.entry.accepted = true then "accepted" else "pending_outbound")) =
      some "accepted".toList ↔ _
    cases c.entry.accepted <;> decide
  -- the React client shows who has accepted as online, whatever the presence
  have honline : ∀ c : SnapshotEntry, c.entry.accepted = true →
      (React.Client.snapshotContact c.json).status = some "online".toList :=
    fun c hc => if_pos ((haccepted c).mpr hc)
  have hshown : ∀ c : SnapshotEntry, c.entry.accepted = true → ∀ d : SnapshotEntry,
      (ShownAs (React.Client.snapshotContact c.json) (AppCore.snapshotContact d.json).status ↔
        shownStatus d.presence = "online") := by
    intro c hc d
    rw [shownAs_online_iff (honline c hc), status_snapshot, String.toList_inj]
  constructor
  · intro hagree c hc haccept d hd hid
    refine (hshown c haccept d).mp (hagree.statuses _ ?_ ((haccepted c).mpr haccept) _ ?_ ?_)
    · rw [hreact]
      exact List.mem_map_of_mem (f := fun c : SnapshotEntry => React.Client.snapshotContact c.json) hc
    · rw [happ]
      exact List.mem_map_of_mem (f := fun c : SnapshotEntry => AppCore.snapshotContact c.json) hd
    · exact congrArg some hid.symm
  · intro hall
    refine ⟨fun id => ?_, ?_, h.requests⟩
    · rw [happ, hreact, List.map_map, List.map_map, List.mem_map, List.mem_map]
      exact exists_congr fun c => and_congr_right fun _ => Option.some_inj.symm
    · intro c hc hc' d hd hid
      rw [hreact] at hc
      rw [happ] at hd
      obtain ⟨c, hmem, rfl⟩ := List.mem_map.mp hc
      obtain ⟨d, hmem', rfl⟩ := List.mem_map.mp hd
      have haccept := (haccepted c).mp hc'
      exact (hshown c haccept d).mpr (hall c hmem haccept d hmem' (Option.some.inj hid).symm)

/-! ### Presence -/

/-- The React client looks for a field that the relay does not send. -/
theorem react_presence (hinv : s.Inv fromOf) (wid : Filled) (status : Text) :
    (s.react.onPresence (.obj [("user_id", .str wid.text), ("status", .str status)])).contacts.contacts =
      s.react.contacts.contacts := by
  show s.react.contacts.contacts.map (fun c => if c.id = none then _ else c) = _
  rw [List.map_congr_left fun c hc => if_neg (hinv.named c hc), List.map_id']

/-- The first contact of an id is shown as it is at the React client just if all of that id are. -/
theorem statuses_presence_iff {contacts : List AppCore.Contact} {contacts' : List React.Contact}
    (hcontacts : SameContacts contacts contacts') (hstatuses : SameStatuses contacts contacts')
    (wid status : Text) :
    SameStatuses (AppCore.modifyFirst (fun c => c.id = wid)
        (fun c => { c with status := AppCore.shownAs status }) contacts) contacts' ↔
      ∀ c ∈ contacts', Accepted c → c.id = some wid → ShownAs c status := by
  have hfound : ∀ {d : AppCore.Contact}, contacts.find? (fun c => c.id = wid) = some d → d.id = wid :=
    fun hd => of_decide_eq_true (List.find?_some (p := fun c : AppCore.Contact => c.id = wid) hd)
  constructor
  · intro hsame c hc hc' hid
    -- the contact is at `app.html` too, and the first of its id is the one that is changed
    obtain ⟨d, hd, hdid⟩ := List.mem_map.mp ((hcontacts wid).mpr (List.mem_map.mpr ⟨c, hc, hid⟩))
    have hsome : (contacts.find? fun c => c.id = wid).isSome = true :=
      List.find?_isSome.mpr ⟨d, hd, decide_eq_true hdid⟩
    obtain ⟨d', hd'⟩ := Option.isSome_iff_exists.mp hsome
    have hd'id : d'.id = wid := hfound hd'
    have hshown := hsame c hc hc' _ (AppCore.mem_modifyFirst.mpr (.inr ⟨d', hd', rfl⟩))
      (hid.trans (congrArg some hd'id.symm))
    rw [ShownAs, shownAs_idem] at hshown
    exact hshown
  · intro hall c hc hc' d hd hid
    rcases AppCore.mem_modifyFirst.mp hd with hd | ⟨d', hd', rfl⟩
    · exact hstatuses c hc hc' d (List.mem_of_mem_eraseP hd) hid
    · have hd'id : d'.id = wid := hfound hd'
      have hshown := hall c hc hc' (hid.trans (congrArg some hd'id))
      rw [ShownAs, shownAs_idem]
      exact hshown

theorem agree_presence_iff (h : s.Agree) (hinv : s.Inv fromOf) (wid : Filled) (status : Text) :
    Agree ⟨s.app.handlePresence (.obj [("user_id", .str wid.text), ("status", .str status)]),
      s.react.onPresence (.obj [("user_id", .str wid.text), ("status", .str status)])⟩ ↔
    status = [] ∨ s.AllShownAs wid.text status := by
  have hreact := react_presence hinv wid status
  have hwid : (Json.obj [("user_id", .str wid.text), ("status", .str status)]).firstTruthy
      ["userId", "user_id"] = some (.str wid.text) := by
    simp [Json.firstTruthy, Json.get, Json.truthy, wid.ne_nil]
  have hstatus : someTextOf (.obj [("user_id", .str wid.text), ("status", .str status)]) "status" =
      if status = [] then none else some status := by
    show (some status).filter _ = _
    simp [Option.filter, ite_not]
  -- the React client never changes; without a status `app.html` does not either
  by_cases hnone : status = []
  · have happ : s.app.handlePresence (.obj [("user_id", .str wid.text), ("status", .str status)]) =
        s.app := by
      unfold AppCore.handlePresence
      rw [hwid, hstatus, if_pos hnone]
      rfl
    refine iff_of_true ⟨?_, ?_, ?_⟩ (.inl hnone)
    · rw [happ, hreact]
      exact h.contacts
    · rw [happ, hreact]
      exact h.statuses
    · rw [happ]
      exact h.requests
  · have happ : s.app.handlePresence (.obj [("user_id", .str wid.text), ("status", .str status)]) =
        { s.app with
          contacts := AppCore.modifyFirst (fun c => c.id = wid.text)
            (fun c => { c with status := AppCore.shownAs status }) s.app.contacts } := by
      unfold AppCore.handlePresence
      rw [hwid, hstatus, if_neg hnone]
      rfl
    rw [or_iff_right hnone]
    refine Iff.trans ?_ (statuses_presence_iff h.contacts h.statuses wid.text status)
    constructor
    · intro hagree
      have hstatuses := hagree.statuses
      rw [happ, hreact] at hstatuses
      exact hstatuses
    · intro hstatuses
      refine ⟨?_, ?_, ?_⟩
      · rw [happ, hreact]
        intro id
        rw [← h.contacts id]
        exact iff_of_eq (congrArg (id ∈ ·) (AppCore.map_modifyFirst fun _ => rfl))
      · rw [happ, hreact]
        exact hstatuses
      · rw [happ]
        exact h.requests

/-! ### Requests -/

/-- The requests are as before, or fewer, and no contact is without an id. -/
theorem Inv.fewer (hinv : s.Inv fromOf) {app : AppCore} {react : React.Client}
    (hblocked : app.blockedUsers = [])
    (hnamed : ∀ c ∈ react.contacts.contacts, c.id ≠ none)
    (hinbound : ∀ r ∈ app.inboundRequests, r ∈ s.app.inboundRequests)
    (hpending : ∀ i ∈ react.contacts.pendingInvitations, i ∈ s.react.contacts.pendingInvitations) :
    Inv fromOf ⟨app, react⟩ where
  blockedUsers := hblocked
  named := hnamed
  inbound r hr := hinv.inbound r (hinbound r hr)
  pending i hi := hinv.pending i (hpending i hi)

/-- What `app.html` makes of a request.  One whose id it has is dropped. -/
theorem app_request (app : AppCore) {payload : Json} {rid : Filled}
    (hrid : textOf payload "request_id" = rid.text) : app.handleInboundContactRequest payload =
      if (app.inboundRequests.any fun r => textOf r "request_id" = rid.text) = true then app
      else { app with inboundRequests := app.inboundRequests ++ [payload] } := by
  unfold AppCore.handleInboundContactRequest
  simp only [hrid, rid.ne_nil, decide_false, Bool.false_or]

theorem ids_app_request (app : AppCore) {payload : Json} {rid : Filled}
    (hrid : textOf payload "request_id" = rid.text) (rid' : Text) :
    rid' ∈ (app.handleInboundContactRequest payload).inboundRequests.map
        (fun r => textOf r "request_id") ↔
      rid' ∈ app.inboundRequests.map (fun r => textOf r "request_id") ∨ rid' = rid.text := by
  rw [app_request app hrid]
  split
  · rename_i hany
    obtain ⟨r, hr, hid⟩ := List.any_eq_true.mp hany
    refine ⟨.inl, fun h => h.elim id ?_⟩
    rintro rfl
    exact List.mem_map.mpr ⟨r, hr, of_decide_eq_true hid⟩
  · rw [List.map_append, List.mem_append, List.map_singleton, List.mem_singleton, hrid]

/-- What the React client makes of a request.  It takes the place of one of the same id. -/
theorem react_request (react : React.Client) {payload : Json} {rid sender : Filled}
    (hrid : payload.getStr "request_id" = some rid.text)
    (hfrom : payload.getStr "from_winkd_id" = some sender.text) :
    (react.onContactRequest payload).contacts.pendingInvitations =
      (react.contacts.pendingInvitations.filter fun i => i.requestId ≠ some rid.text) ++
        [⟨some rid.text, some sender.text, payload.getStr "from_display_name",
          payload.getStr "from_avatar_data"⟩] := by
  show (react.contacts.pendingInvitations.filter
    fun i => i.requestId ≠ payload.getStr "request_id") ++ [_] = _
  rw [hrid, hfrom]

theorem ids_react_request (react : React.Client) {payload : Json} {rid sender : Filled}
    (hrid : payload.getStr "request_id" = some rid.text)
    (hfrom : payload.getStr "from_winkd_id" = some sender.text) (rid' : Text) :
    some rid' ∈ (react.onContactRequest payload).contacts.pendingInvitations.map
        React.PendingInvitation.requestId ↔
      some rid' ∈ react.contacts.pendingInvitations.map React.PendingInvitation.requestId ∨
        rid' = rid.text := by
  rw [react_request react hrid hfrom, List.map_append, List.mem_append, List.map_singleton,
    List.mem_singleton, Option.some_inj]
  by_cases heq : rid' = rid.text
  · exact iff_of_true (.inr heq) (.inr heq)
  · rw [or_iff_left heq, or_iff_left heq, List.mem_map, List.mem_map]
    refine exists_congr fun i => and_congr_left fun hi => ?_
    rw [List.mem_filter, decide_eq_true_eq, hi, Ne, Option.some_inj]
    exact and_iff_left heq

variable (numberText toLowerCase me) in
/-- Both clients get a request to answer. -/
theorem request_next (h : s.Agree) (hinv : s.Inv fromOf) (rid : Filled) (displayName : Text)
    (avatarData : Option Text) :
    Agree (s.next toLowerCase numberText me
        (.contactRequest rid displayName avatarData : ContactEvent fromOf)) ∧
      Inv fromOf (s.next toLowerCase numberText me
        (.contactRequest rid displayName avatarData : ContactEvent fromOf)) := by
  rw [next_eq]
  generalize hfields : ContactEvent.fields
    (.contactRequest rid displayName avatarData : ContactEvent fromOf) = fields
  have hrid : textOf (.obj fields) "request_id" = rid.text := hfields ▸ rfl
  have hrid' : (Json.obj fields).getStr "request_id" = some rid.text := hfields ▸ rfl
  have hfrom : (Json.obj fields).getStr "from_winkd_id" = some (fromOf rid).text := hfields ▸ rfl
  clear hfields
  show Agree ⟨s.app.handleInboundContactRequest (.obj fields), s.react.onContactRequest (.obj fields)⟩ ∧
    Inv fromOf ⟨s.app.handleInboundContactRequest (.obj fields), s.react.onContactRequest (.obj fields)⟩
  constructor
  · refine ⟨?_, ?_, fun rid' => ?_⟩
    · rw [app_request s.app hrid]
      split
      · exact h.contacts
      · exact h.contacts
    · rw [app_request s.app hrid]
      split
      · exact h.statuses
      · exact h.statuses
    · rw [ids_app_request s.app hrid, ids_react_request s.react hrid' hfrom]
      exact or_congr_left (h.requests rid')
  · refine ⟨?_, hinv.named, ?_, ?_⟩
    · rw [app_request s.app hrid]
      split <;> exact hinv.blockedUsers
    · rw [app_request s.app hrid]
      intro r hr
      split at hr
      · exact hinv.inbound r hr
      · rcases List.mem_append.mp hr with hr | hr
        · exact hinv.inbound r hr
        · rw [List.mem_singleton.mp hr]
          exact ⟨rid, hrid, hfrom⟩
    · rw [react_request s.react hrid' hfrom]
      intro i hi
      rcases List.mem_append.mp hi with hi | hi
      · exact hinv.pending i (List.mem_filter.mp hi).1
      · rw [List.mem_singleton.mp hi]
        exact ⟨rid, rfl, rfl⟩

/-- Both clients drop the request that was answered. -/
theorem sameRequests_drop {inbound : List Json} {pending : List React.PendingInvitation}
    (h : SameRequests inbound pending) (rid : Text) :
    SameRequests (AppCore.dropRequest rid inbound)
      (pending.filter fun i => i.requestId ≠ some rid) := by
  intro rid'
  have happ : rid' ∈ (AppCore.dropRequest rid inbound).map (fun r => textOf r "request_id") ↔
      rid' ∈ inbound.map (fun r => textOf r "request_id") ∧ rid' ≠ rid := by
    rw [List.mem_map, List.mem_map, ← exists_and_right]
    refine exists_congr fun r => ?_
    rw [AppCore.dropRequest, List.mem_filter, decide_eq_true_eq]
    constructor
    · rintro ⟨⟨hr, hne⟩, rfl⟩
      exact ⟨⟨hr, rfl⟩, hne⟩
    · rintro ⟨⟨hr, rfl⟩, hne⟩
      exact ⟨⟨hr, hne⟩, rfl⟩
  have hreact : some rid' ∈ (pending.filter fun i => i.requestId ≠ some rid).map
      React.PendingInvitation.requestId ↔
      some rid' ∈ pending.map React.PendingInvitation.requestId ∧ rid' ≠ rid := by
    rw [List.mem_map, List.mem_map, ← exists_and_right]
    refine exists_congr fun i => ?_
    rw [List.mem_filter, decide_eq_true_eq]
    constructor
    · rintro ⟨⟨hi, hne⟩, heq⟩
      exact ⟨⟨hi, heq⟩, fun hrid => hne (heq.trans (congrArg some hrid))⟩
    · rintro ⟨⟨hi, heq⟩, hne⟩
      exact ⟨⟨hi, fun hrid => hne (Option.some.inj (heq.symm.trans hrid))⟩, heq⟩
  rw [happ, hreact, h rid']

variable (numberText toLowerCase me) in
theorem rejected_next (h : s.Agree) (hinv : s.Inv fromOf) (rid : Filled) :
    Agree (s.next toLowerCase numberText me (.contactRequestRejected rid : ContactEvent fromOf)) ∧
      Inv fromOf (s.next toLowerCase numberText me (.contactRequestRejected rid : ContactEvent fromOf)) := by
  rw [next_eq]
  have happ : s.app.handleContactRequestRejected (.obj [("request_id", .str rid.text)]) =
      { s.app with inboundRequests := AppCore.dropRequest rid.text s.app.inboundRequests } :=
    if_neg rid.ne_nil
  show Agree ⟨s.app.handleContactRequestRejected (.obj [("request_id", .str rid.text)]),
      s.react.onContactRequestRejected (.obj [("request_id", .str rid.text)])⟩ ∧
    Inv fromOf ⟨s.app.handleContactRequestRejected (.obj [("request_id", .str rid.text)]),
      s.react.onContactRequestRejected (.obj [("request_id", .str rid.text)])⟩
  rw [happ]
  exact ⟨⟨h.contacts, h.statuses, sameRequests_drop h.requests rid.text⟩,
    hinv.fewer hinv.blockedUsers hinv.named (fun _ hr => (List.mem_filter.mp hr).1)
      fun _ hi => (List.mem_filter.mp hi).1⟩

variable (numberText toLowerCase me) in
/-- No list of the blocked users was sent, so nobody is added to the contacts. -/
theorem unblocked_next (h : s.Agree) (hinv : s.Inv fromOf) (uid : Filled) :
    Agree (s.next toLowerCase numberText me (.contactUnblocked uid : ContactEvent fromOf)) ∧
      Inv fromOf (s.next toLowerCase numberText me (.contactUnblocked uid : ContactEvent fromOf)) := by
  rw [next_eq]
  have happ : s.app.handleContactUnblocked (.obj [("user_id", .str uid.text)]) = s.app := by
    refine (if_neg uid.ne_nil).trans ?_
    rw [hinv.blockedUsers]
    show { s.app with blockedUsers := [] } = s.app
    rw [← hinv.blockedUsers]
  show Agree ⟨s.app.handleContactUnblocked (.obj [("user_id", .str uid.text)]), _⟩ ∧
    Inv fromOf ⟨s.app.handleContactUnblocked (.obj [("user_id", .str uid.text)]), _⟩
  rw [happ]
  exact ⟨⟨h.contacts, h.statuses, h.requests⟩,
    hinv.fewer hinv.blockedUsers hinv.named (fun _ hr => hr) fun _ hi => hi⟩

/-! ### Contacts that are added -/

theorem ids_addAcceptedContact (s : ContactsState) (contact : React.Contact) (id : Text) :
    some id ∈ (s.addAcceptedContact contact).contacts.map React.Contact.id ↔
      some id ∈ s.contacts.map React.Contact.id ∨ contact.id = some id := by
  rw [List.mem_map, List.mem_map]
  constructor
  · rintro ⟨c, hc, hid⟩
    rcases mem_addAcceptedContact.mp hc with ⟨hc, -⟩ | rfl
    · exact .inl ⟨c, hc, hid⟩
    · exact .inr hid
  · rintro (⟨c, hc, hid⟩ | hid)
    · by_cases hsame : c.id = contact.id
      · exact ⟨contact, mem_addAcceptedContact.mpr (.inr rfl), hsame.symm.trans hid⟩
      · exact ⟨c, mem_addAcceptedContact.mpr (.inl ⟨hc, hsame⟩), hid⟩
    · exact ⟨contact, mem_addAcceptedContact.mpr (.inr rfl), hid⟩

theorem named_addAcceptedContact {s : ContactsState} (h : ∀ c ∈ s.contacts, c.id ≠ none)
    {contact : React.Contact} {wid : Text} (hid : contact.id = some wid) :
    ∀ c ∈ (s.addAcceptedContact contact).contacts, c.id ≠ none := by
  intro c hc
  rcases mem_addAcceptedContact.mp hc with ⟨hc, -⟩ | rfl
  · exact h c hc
  · rw [hid]
    exact nofun

/-- A contact that is added at both. -/
theorem sameContacts_add {contacts : List AppCore.Contact} {s : ContactsState}
    (h : SameContacts contacts s.contacts) {d : AppCore.Contact} {contact : React.Contact}
    (hid : contact.id = some d.id) :
    SameContacts (contacts ++ [d]) (s.addAcceptedContact contact).contacts := by
  intro id
  rw [ids_addAcceptedContact, ← h id, List.map_append, List.mem_append, List.map_singleton,
    List.mem_singleton, hid, Option.some_inj]
  exact or_congr_right eq_comm

/-- A contact that is added at the React client only must have been at the other. -/
theorem sameContacts_keep_iff {contacts : List AppCore.Contact} {s : ContactsState}
    (h : SameContacts contacts s.contacts) {wid : Text} {contact : React.Contact}
    (hid : contact.id = some wid) :
    SameContacts contacts (s.addAcceptedContact contact).contacts ↔
      wid ∈ contacts.map AppCore.Contact.id := by
  constructor
  · intro hsame
    exact (hsame wid).mpr ((ids_addAcceptedContact s contact wid).mpr (.inr hid))
  · intro hwid id
    rw [ids_addAcceptedContact, ← h id, hid, Option.some_inj]
    refine ⟨.inl, fun hor => hor.elim (fun hmem => hmem) ?_⟩
    rintro rfl
    exact hwid

theorem hasContact_iff (app : AppCore) (wid : Text) :
    app.hasContact wid = true ↔ wid ∈ app.contacts.map AppCore.Contact.id := by
  rw [AppCore.hasContact, List.any_eq_true, List.mem_map]
  simp only [decide_eq_true_eq]

/-- A contact that has not accepted is shown with no status, whatever `app.html` shows. -/
theorem sameStatuses_add (h : s.Agree) {contact : React.Contact} {wid : Text}
    (hid : contact.id = some wid) (hstatus : ¬ Accepted contact) {contacts : List AppCore.Contact}
    (hcontacts : ∀ d ∈ contacts, d ∈ s.app.contacts ∨ d.id = wid) :
    SameStatuses contacts (s.react.contacts.addAcceptedContact contact).contacts := by
  intro c hc hc' d hd hcd
  rcases mem_addAcceptedContact.mp hc with ⟨hc, hne⟩ | rfl
  · rcases hcontacts d hd with hd | hdid
    · exact h.statuses c hc hc' d hd hcd
    · exact absurd (hcd.trans ((congrArg some hdid).trans hid.symm)) hne
  · exact absurd hc' hstatus

theorem requestSent_next (h : s.Agree) (hinv : s.Inv fromOf) (rid wid : Filled) (displayName : Text)
    (avatarData : Option Text) :
    (Agree (s.next toLowerCase numberText me
        (.contactRequestSent rid wid displayName avatarData : ContactEvent fromOf)) ↔
      (s.app.hasContactByWinkdId toLowerCase wid.text = true → s.app.hasContact wid.text = true)) ∧
    Inv fromOf (s.next toLowerCase numberText me
      (.contactRequestSent rid wid displayName avatarData : ContactEvent fromOf)) := by
  rw [next_eq]
  generalize hfields : ContactEvent.fields
    (.contactRequestSent rid wid displayName avatarData : ContactEvent fromOf) = fields
  have hwid : textOf (.obj fields) "to_winkd_id" = wid.text := hfields ▸ rfl
  have hwid' : (Json.obj fields).getStr "to_winkd_id" = some wid.text := hfields ▸ rfl
  clear hfields
  show (Agree ⟨s.app.handleContactRequestSent toLowerCase (.obj fields),
      s.react.onContactRequestSent (.obj fields)⟩ ↔ _) ∧
    Inv fromOf ⟨s.app.handleContactRequestSent toLowerCase (.obj fields),
      s.react.onContactRequestSent (.obj fields)⟩
  obtain ⟨contact, hcontact, hid, hstatus⟩ : ∃ contact : React.Contact,
      (s.react.onContactRequestSent (.obj fields)).contacts =
        s.react.contacts.addAcceptedContact contact ∧ contact.id = some wid.text ∧
      ¬ Accepted contact := by
    refine ⟨_, rfl, hwid', ?_⟩
    show ¬ some "pending_outbound".toList = some "accepted".toList
    decide
  have hpending : (s.react.onContactRequestSent (.obj fields)).contacts.pendingInvitations =
      s.react.contacts.pendingInvitations := by
    rw [hcontact]
    exact (apply_ite ContactsState.pendingInvitations _ _ _).trans (ite_self _)
  have hnamed := named_addAcceptedContact hinv.named hid
  unfold AppCore.handleContactRequestSent
  rw [hwid]
  simp only [wid.ne_nil, decide_false, Bool.false_or]
  split
  · rename_i hhas
    rw [imp_iff_right hhas, hasContact_iff, ← sameContacts_keep_iff h.contacts hid]
    refine ⟨⟨fun hagree => hcontact ▸ hagree.contacts, fun hsame => ⟨?_, ?_, ?_⟩⟩, ?_⟩
    · exact hcontact.symm ▸ hsame
    · rw [hcontact]
      exact sameStatuses_add h hid hstatus fun _ hd => .inl hd
    · rw [hpending]
      exact h.requests
    · refine hinv.fewer hinv.blockedUsers ?_ (fun _ hr => hr) fun _ hi => hpending ▸ hi
      rw [hcontact]
      exact hnamed
  · rename_i hhas
    refine ⟨iff_of_true ⟨?_, ?_, ?_⟩ fun hhas' => absurd hhas' hhas, ?_⟩
    · rw [hcontact]
      exact sameContacts_add h.contacts hid
    · rw [hcontact]
      refine sameStatuses_add h hid hstatus fun d hd => (List.mem_append.mp hd).imp_right fun hd => ?_
      rw [List.mem_singleton.mp hd]
      rfl
    · rw [hpending]
      exact h.requests
    · refine hinv.fewer hinv.blockedUsers ?_ (fun _ hr => hr) fun _ hi => hpending ▸ hi
      rw [hcontact]
      exact hnamed

/-! ### Requests of one user -/

/-- The React client drops all requests of a user; `app.html` must be left without any. -/
theorem sameRequests_clear_iff (h : s.Agree) (hinv : s.Inv fromOf) (inbound : List Json) (wid : Text)
    (hsub : ∀ r ∈ inbound, r ∈ s.app.inboundRequests)
    (hkeep : ∀ r ∈ s.app.inboundRequests, r.getStr "from_winkd_id" ≠ some wid → r ∈ inbound) :
    SameRequests inbound
        (s.react.contacts.pendingInvitations.filter fun i => i.fromWinkdId ≠ some wid) ↔
      ∀ r ∈ inbound, r.getStr "from_winkd_id" ≠ some wid := by
  -- a request of one id is from one user at both
  have hfrom : ∀ r ∈ s.app.inboundRequests, ∀ i ∈ s.react.contacts.pendingInvitations,
      i.requestId = some (textOf r "request_id") → i.fromWinkdId = r.getStr "from_winkd_id" := by
    intro r hr i hi hid
    obtain ⟨rid, hrid, hr'⟩ := hinv.inbound r hr
    obtain ⟨rid', hrid', hi'⟩ := hinv.pending i hi
    rw [hrid, hrid', Option.some_inj] at hid
    rw [hi', hr', Filled.eq hid]
  constructor
  · intro hsame r hr hwid
    obtain ⟨i, hi, hid⟩ := List.mem_map.mp ((hsame _).mp (List.mem_map.mpr ⟨r, hr, rfl⟩))
    obtain ⟨hi, hne⟩ := List.mem_filter.mp hi
    exact of_decide_eq_true hne ((hfrom r (hsub r hr) i hi hid).trans hwid)
  · intro hall rid
    constructor
    · intro hrid
      obtain ⟨r, hr, rfl⟩ := List.mem_map.mp hrid
      obtain ⟨i, hi, hid⟩ := List.mem_map.mp
        ((h.requests _).mp (List.mem_map.mpr ⟨r, hsub r hr, rfl⟩))
      refine List.mem_map.mpr ⟨i, List.mem_filter.mpr ⟨hi, decide_eq_true fun hwid => ?_⟩, hid⟩
      exact hall r hr ((hfrom r (hsub r hr) i hi hid).symm.trans hwid)
    · intro hrid
      obtain ⟨i, hi, hid⟩ := List.mem_map.mp hrid
      obtain ⟨hi, hne⟩ := List.mem_filter.mp hi
      obtain ⟨r, hr, rfl⟩ := List.mem_map.mp ((h.requests rid).mpr (List.mem_map.mpr ⟨i, hi, hid⟩))
      refine List.mem_map.mpr ⟨r, hkeep r hr fun hwid => ?_, rfl⟩
      exact of_decide_eq_true hne ((hfrom r hr i hi hid).trans hwid)

/-! ### Acceptance -/

/-- The contact that has accepted is shown as online at the React client, and so it must be at the
other. -/
theorem sameStatuses_accept_iff (contacts : List AppCore.Contact) {s : ContactsState} {wid : Text}
    {contact : React.Contact} (hid : contact.id = some wid) (haccepted : Accepted contact)
    (honline : contact.status = some "online".toList) :
    SameStatuses contacts (s.addAcceptedContact contact).contacts ↔
      (∀ d ∈ contacts, d.id = wid → AppCore.shownAs d.status = "online".toList) ∧
        ∀ c ∈ s.contacts, Accepted c → c.id ≠ some wid → ∀ d ∈ contacts, c.id = some d.id →
          ShownAs c d.status := by
  constructor
  · intro hsame
    constructor
    · intro d hd hdid
      have hshown := hsame contact (mem_addAcceptedContact.mpr (.inr rfl)) haccepted d hd
        (hid.trans (congrArg some hdid.symm))
      exact (shownAs_online_iff honline d.status).mp hshown
    · intro c hc hc' hne
      exact hsame c (mem_addAcceptedContact.mpr (.inl ⟨hc, hid ▸ hne⟩)) hc'
  · rintro ⟨hnew, hold⟩ c hc hc' d hd hcd
    rcases mem_addAcceptedContact.mp hc with ⟨hc, hne⟩ | rfl
    · exact hold c hc hc' (hid ▸ hne) d hd hcd
    · exact (shownAs_online_iff honline d.status).mpr
        (hnew d hd (Option.some.inj (hcd.symm.trans hid)))

/-- Of the contacts at `app.html`, the first that is taken for the one that has accepted is shown as
online. -/
theorem statuses_accept_iff (h : s.Agree) {same : AppCore.Contact → Bool}
    {f : AppCore.Contact → AppCore.Contact} (hf : ∀ d, (f d).id = d.id ∧ (f d).status = "online".toList)
    (wid : Text) :
    ((∀ d ∈ AppCore.modifyFirst same f s.app.contacts, d.id = wid →
        AppCore.shownAs d.status = "online".toList) ∧
      ∀ c ∈ s.react.contacts.contacts, Accepted c → c.id ≠ some wid →
        ∀ d ∈ AppCore.modifyFirst same f s.app.contacts, c.id = some d.id → ShownAs c d.status) ↔
      (∀ d ∈ s.app.contacts.eraseP same, d.id = wid → AppCore.shownAs d.status = "online".toList) ∧
        ∀ d, s.app.contacts.find? same = some d → d.id ≠ wid → s.AllShownAs d.id "online".toList := by
  constructor
  · rintro ⟨hnew, hold⟩
    constructor
    · exact fun d hd => hnew d (AppCore.mem_modifyFirst.mpr (.inl hd))
    · intro d hd hne c hc hc' hid
      have hne' : c.id ≠ some wid := fun hwid => hne (Option.some.inj (hid.symm.trans hwid))
      have hshown := hold c hc hc' hne' (f d) (AppCore.mem_modifyFirst.mpr (.inr ⟨d, hd, rfl⟩))
        (hid.trans (congrArg some (hf d).1.symm))
      rw [(hf d).2] at hshown
      exact hshown
  · rintro ⟨hrest, hfirst⟩
    constructor
    · intro d hd hid
      rcases AppCore.mem_modifyFirst.mp hd with hd | ⟨d, -, rfl⟩
      · exact hrest d hd hid
      · rw [(hf d).2]
        exact shownAs_online
    · intro c hc hc' hne d hd hid
      rcases AppCore.mem_modifyFirst.mp hd with hd | ⟨d, hfound, rfl⟩
      · exact h.statuses c hc hc' d (List.mem_of_mem_eraseP hd) hid
      · rw [(hf d).1] at hid
        rw [(hf d).2]
        exact hfirst d hfound (fun hwid => hne (hid.trans (congrArg some hwid))) c hc hc' hid

/-- What the React client makes of an acceptance. -/
structure TakesAccepted (s : Clients) (react : React.Client) (wid : Text) (contact : React.Contact) :
    Prop where
  contacts : react.contacts =
    (s.react.contacts.clearPendingFromUser (some wid)).addAcceptedContact contact
  id : contact.id = some wid
  accepted : Accepted contact
  online : contact.status = some "online".toList

theorem takesAccepted {payload : Json} {wid : Text} (hwid : payload.getStr "winkd_id" = some wid) :
    ∃ contact, TakesAccepted s (s.react.onContactAccepted payload) wid contact := by
  refine ⟨{ id := payload.getStr "winkd_id"
            displayName := payload.getStr "display_name"
            moodMessage := (payload.getStr "mood_message").getD []
            status := some "online".toList
            avatarData := payload.getStr "avatar_data"
            requestStatus := some "accepted".toList }, ?_, hwid, rfl, rfl⟩
  rw [← hwid]
  rfl

section Accepted
variable {react : React.Client} {wid : Text} {contact : React.Contact} {app : AppCore}

theorem TakesAccepted.pending (ht : TakesAccepted s react wid contact) :
    react.contacts.pendingInvitations =
      s.react.contacts.pendingInvitations.filter fun i => i.fromWinkdId ≠ some wid := by
  rw [ht.contacts]
  exact (apply_ite ContactsState.pendingInvitations _ _ _).trans (ite_self _)

theorem TakesAccepted.inv (ht : TakesAccepted s react wid contact) (hinv : s.Inv fromOf)
    (hblocked : app.blockedUsers = s.app.blockedUsers)
    (hinbound : ∀ r ∈ app.inboundRequests, r ∈ s.app.inboundRequests) : Inv fromOf ⟨app, react⟩ := by
  refine hinv.fewer (hblocked.trans hinv.blockedUsers) ?_ hinbound fun i hi => ?_
  · show ∀ c ∈ react.contacts.contacts, c.id ≠ none
    rw [ht.contacts]
    exact named_addAcceptedContact (s := s.react.contacts.clearPendingFromUser (some wid)) hinv.named ht.id
  · rw [ht.pending] at hi
    exact (List.mem_filter.mp hi).1

/-- Case A: `app.html` finds a contact that it takes for the one that has accepted. -/
theorem agree_accepted_known_iff (h : s.Agree) (hinv : s.Inv fromOf) (ht : TakesAccepted s react wid contact)
    {same : AppCore.Contact → Bool} {f : AppCore.Contact → AppCore.Contact}
    (hf : ∀ d, (f d).id = d.id ∧ (f d).status = "online".toList)
    (hcontacts : app.contacts = AppCore.modifyFirst same f s.app.contacts)
    (hinbound : app.inboundRequests = s.app.inboundRequests) :
    Agree ⟨app, react⟩ ↔ s.app.hasContact wid = true ∧
      (∀ d ∈ s.app.contacts.eraseP same, d.id = wid → AppCore.shownAs d.status = "online".toList) ∧
      (∀ d, s.app.contacts.find? same = some d → d.id ≠ wid → s.AllShownAs d.id "online".toList) ∧
      s.app.inboundRequests.countP (fun r => r.getStr "from_winkd_id" = some wid) = 0 := by
  have hsame : SameContacts app.contacts react.contacts.contacts ↔ s.app.hasContact wid = true := by
    rw [hcontacts, ht.contacts, hasContact_iff, ← sameContacts_keep_iff
      (s := s.react.contacts.clearPendingFromUser (some wid)) h.contacts ht.id]
    refine forall_congr' fun id => ?_
    rw [AppCore.map_modifyFirst (g := AppCore.Contact.id) fun d => (hf d).1]
  have hstatuses := (sameStatuses_accept_iff (AppCore.modifyFirst same f s.app.contacts)
    (s := s.react.contacts.clearPendingFromUser (some wid)) ht.id ht.accepted ht.online).trans
    (statuses_accept_iff h hf wid)
  have hrequests := sameRequests_clear_iff h hinv s.app.inboundRequests wid (fun _ hr => hr)
    fun _ hr _ => hr
  rw [← ht.contacts, ← hcontacts] at hstatuses
  rw [← ht.pending, ← hinbound] at hrequests
  constructor
  · intro hagree
    obtain ⟨hrest, hfirst⟩ := hstatuses.mp hagree.statuses
    refine ⟨hsame.mp hagree.contacts, hrest, hfirst, List.countP_eq_zero.mpr fun r hr hfrom => ?_⟩
    exact hrequests.mp hagree.requests r (hinbound ▸ hr) (of_decide_eq_true hfrom)
  · rintro ⟨hhas, hrest, hfirst, hnone⟩
    refine ⟨hsame.mpr hhas, hstatuses.mpr ⟨hrest, hfirst⟩, hrequests.mpr fun r hr hfrom => ?_⟩
    exact List.countP_eq_zero.mp hnone r (hinbound ▸ hr) (decide_eq_true hfrom)

/-- Case B: it adds the contact. -/
theorem agree_accepted_new_iff (h : s.Agree) (hinv : s.Inv fromOf) (ht : TakesAccepted s react wid contact)
    {n : AppCore.Contact} (hnone : ∀ d ∈ s.app.contacts, d.id ≠ wid) (hid : n.id = wid)
    (hstatus : n.status = "online".toList) (hcontacts : app.contacts = s.app.contacts ++ [n])
    (hinbound : app.inboundRequests =
      s.app.inboundRequests.eraseP fun r => r.getStr "from_winkd_id" = some wid) :
    Agree ⟨app, react⟩ ↔
      s.app.inboundRequests.countP (fun r => r.getStr "from_winkd_id" = some wid) ≤ 1 := by
  have hrequests := sameRequests_clear_iff h hinv
    (s.app.inboundRequests.eraseP fun r => r.getStr "from_winkd_id" = some wid) wid
    (fun r hr => List.mem_of_mem_eraseP hr) fun r hr hne =>
      (List.mem_eraseP_of_neg (by rw [decide_eq_true_eq]; exact hne)).mpr hr
  rw [← ht.pending, ← hinbound] at hrequests
  have hone : (∀ r ∈ app.inboundRequests, r.getStr "from_winkd_id" ≠ some wid) ↔
      s.app.inboundRequests.countP (fun r => r.getStr "from_winkd_id" = some wid) ≤ 1 := by
    rw [hinbound, ← Nat.lt_succ_iff, ← not_le, ← AppCore.exists_mem_eraseP_iff]
    simp only [decide_eq_true_eq, not_exists, not_and, ne_eq]
  rw [← hone]
  refine ⟨fun hagree => hrequests.mp hagree.requests, fun hall => ⟨?_, ?_, hrequests.mpr hall⟩⟩
  · show SameContacts app.contacts react.contacts.contacts
    rw [hcontacts, ht.contacts]
    exact sameContacts_add (s := s.react.contacts.clearPendingFromUser (some wid)) h.contacts
      (ht.id.trans (congrArg some hid.symm))
  · show SameStatuses app.contacts react.contacts.contacts
    rw [hcontacts, ht.contacts]
    refine (sameStatuses_accept_iff _ (s := s.react.contacts.clearPendingFromUser (some wid)) ht.id
      ht.accepted ht.online).mpr ⟨fun d hd hdid => ?_, fun c hc hc' hne d hd hcd => ?_⟩
    · rcases List.mem_append.mp hd with hd | hd
      · exact absurd hdid (hnone d hd)
      · rw [List.mem_singleton.mp hd, hstatus]
        exact shownAs_online
    · rcases List.mem_append.mp hd with hd | hd
      · exact h.statuses c hc hc' d hd hcd
      · rw [List.mem_singleton.mp hd, hid] at hcd
        exact absurd hcd hne

end Accepted

theorem accepted_next (h : s.Agree) (hinv : s.Inv fromOf) (wid : Filled) (displayName : Text)
    (avatarData : Option Text) (moodMessage : Text) :
    (Agree (s.next toLowerCase numberText me
        (.contactAccepted wid displayName avatarData moodMessage : ContactEvent fromOf)) ↔
      s.AcceptedAlike toLowerCase wid.text) ∧
    Inv fromOf (s.next toLowerCase numberText me
      (.contactAccepted wid displayName avatarData moodMessage : ContactEvent fromOf)) := by
  rw [next_eq]
  generalize hfields : ContactEvent.fields
    (.contactAccepted wid displayName avatarData moodMessage : ContactEvent fromOf) = fields
  have hwid : (Json.obj fields).getStr "winkd_id" = some wid.text := hfields ▸ rfl
  clear hfields
  show (Agree ⟨s.app.handleContactAccepted toLowerCase (.obj fields),
      s.react.onContactAccepted (.obj fields)⟩ ↔ _) ∧
    Inv fromOf ⟨s.app.handleContactAccepted toLowerCase (.obj fields),
      s.react.onContactAccepted (.obj fields)⟩
  obtain ⟨contact, ht⟩ := takesAccepted (s := s) hwid
  unfold AppCore.handleContactAccepted AcceptedAlike
  rw [hwid]
  dsimp only
  split
  · refine ⟨agree_accepted_known_iff h hinv ht (f := fun c => { c with
      name := Chats.nameOr (textOf (.obj fields) "display_name") wid.text
      mood := textOf (.obj fields) "mood_message"
      status := "online".toList
      avatarSrc := someTextOf (.obj fields) "avatar_data" }) (fun _ => ⟨rfl, rfl⟩) rfl rfl, ?_⟩
    exact ht.inv hinv rfl fun _ hr => hr
  · rename_i hnone
    have hnew : ∀ d ∈ s.app.contacts, d.id ≠ wid.text := by
      rintro d hd hdid
      refine hnone (List.any_eq_true.mpr ⟨d, hd, ?_⟩)
      rw [AppCore.sameId, hdid]
      exact decide_eq_true rfl
    have hhas : s.app.hasContactByWinkdId toLowerCase wid.text = false := by
      rw [AppCore.hasContactByWinkdId, Bool.and_eq_false_iff]
      exact .inr (Bool.eq_false_iff.mpr hnone)
    rw [if_neg (by rw [hhas]; exact nofun)]
    refine ⟨agree_accepted_new_iff h hinv ht (n := AppCore.newContact wid.text _ _ _ _) hnew rfl rfl rfl
      rfl, ?_⟩
    exact ht.inv hinv rfl fun r hr => List.mem_of_mem_eraseP hr

/-! ### Blocks -/

/-- The requests without the one that was blocked with its sender. -/
def dropInbound (requestId : Option Filled) (inbound : List Json) : List Json :=
  match requestId with
  | none => inbound
  | some rid => AppCore.dropRequest rid.text inbound

def dropPending (requestId : Option Filled) (pending : List React.PendingInvitation) :
    List React.PendingInvitation :=
  match requestId with
  | none => pending
  | some rid => pending.filter fun i => i.requestId ≠ some rid.text

theorem mem_dropInbound {requestId : Option Filled} {inbound : List Json} {r : Json} :
    r ∈ dropInbound requestId inbound ↔
      r ∈ inbound ∧ ∀ rid, requestId = some rid → textOf r "request_id" ≠ rid.text := by
  cases requestId with
  | none => exact ⟨fun h => ⟨h, nofun⟩, And.left⟩
  | some rid =>
    rw [dropInbound, AppCore.dropRequest, List.mem_filter, decide_eq_true_eq]
    refine and_congr_right fun _ => ⟨fun h rid' hrid => ?_, fun h => h rid rfl⟩
    exact Option.some.inj hrid ▸ h

/-- `app.html` drops all requests of a user; the React client must be left without any. -/
theorem sameRequests_block_iff (hinv : s.Inv fromOf) {inbound : List Json}
    {pending : List React.PendingInvitation} (hsame : SameRequests inbound pending)
    (hsub : ∀ r ∈ inbound, r ∈ s.app.inboundRequests) (wid : Text) :
    SameRequests (inbound.filter fun r => r.getStr "from_winkd_id" ≠ some wid) pending ↔
      ∀ r ∈ inbound, r.getStr "from_winkd_id" ≠ some wid := by
  constructor
  · intro hsame' r hr hwid
    obtain ⟨r', hr', hid⟩ := List.mem_map.mp
      ((hsame' _).mpr ((hsame _).mp (List.mem_map.mpr ⟨r, hr, rfl⟩)))
    obtain ⟨hr', hne⟩ := List.mem_filter.mp hr'
    obtain ⟨rid, hrid, hfrom⟩ := hinv.inbound r (hsub r hr)
    obtain ⟨rid', hrid', hfrom'⟩ := hinv.inbound r' (hsub r' hr')
    rw [hrid, hrid'] at hid
    rw [Filled.eq hid] at hfrom'
    exact of_decide_eq_true hne (hfrom'.trans (hfrom.symm.trans hwid))
  · intro hall
    rw [List.filter_eq_self.mpr fun r hr => decide_eq_true (hall r hr)]
    exact hsame

/-- The request of the block goes in both clients. -/
theorem sameRequests_dropped (h : SameRequests s.app.inboundRequests s.react.contacts.pendingInvitations)
    (requestId : Option Filled) : SameRequests (dropInbound requestId s.app.inboundRequests)
      (dropPending requestId s.react.contacts.pendingInvitations) := by
  cases requestId with
  | none => exact h
  | some rid => exact sameRequests_drop h rid.text

/-- No request of the user is left just if the block has named each. -/
theorem dropInbound_without_iff (requestId : Option Filled) (inbound : List Json) (wid : Text) :
    (∀ r ∈ dropInbound requestId inbound, r.getStr "from_winkd_id" ≠ some wid) ↔
      ∀ r ∈ inbound, r.getStr "from_winkd_id" = some wid →
        ∃ rid, requestId = some rid ∧ textOf r "request_id" = rid.text := by
  refine forall_congr' fun r => ?_
  rw [mem_dropInbound, and_imp]
  refine imp_congr_right fun _ => ?_
  constructor
  · intro hall hfrom
    by_contra hnone
    exact hall (fun rid hrid hid => hnone ⟨rid, hrid, hid⟩) hfrom
  · intro hall hne hfrom
    obtain ⟨rid, hrid, hid⟩ := hall hfrom
    exact hne rid hrid hid

/-- `app.html` drops one contact, the React client all of the id. -/
theorem sameContacts_block_iff {contacts : List AppCore.Contact} {contacts' : List React.Contact}
    (h : SameContacts contacts contacts') (wid : Text) :
    SameContacts (contacts.eraseP fun c => c.id = wid) (contacts'.filter fun c => c.id ≠ some wid) ↔
      contacts.countP (fun c => c.id = wid) ≤ 1 := by
  rw [← Nat.lt_succ_iff, ← not_le, ← AppCore.exists_mem_eraseP_iff]
  have hreact : ∀ id, some id ∈ (contacts'.filter fun c => c.id ≠ some wid).map React.Contact.id ↔
      some id ∈ contacts'.map React.Contact.id ∧ id ≠ wid := by
    intro id
    rw [List.mem_map, List.mem_map, ← exists_and_right]
    refine exists_congr fun c => ?_
    rw [List.mem_filter, decide_eq_true_eq]
    constructor
    · rintro ⟨⟨hc, hne⟩, hid⟩
      exact ⟨⟨hc, hid⟩, fun hwid => hne (hid.trans (congrArg some hwid))⟩
    · rintro ⟨⟨hc, hid⟩, hne⟩
      exact ⟨⟨hc, fun hwid => hne (Option.some.inj (hid.symm.trans hwid))⟩, hid⟩
  constructor
  · rintro hsame ⟨d, hd, hwid⟩
    have hmem := (hsame wid).mp (List.mem_map.mpr ⟨d, hd, of_decide_eq_true hwid⟩)
    exact ((hreact wid).mp hmem).2 rfl
  · intro hnone id
    rw [hreact, ← h id]
    constructor
    · intro hid
      obtain ⟨d, hd, rfl⟩ := List.mem_map.mp hid
      exact ⟨List.mem_map_of_mem (List.mem_of_mem_eraseP hd),
        fun hwid => hnone ⟨d, hd, decide_eq_true hwid⟩⟩
    · rintro ⟨hid, hne⟩
      obtain ⟨d, hd, rfl⟩ := List.mem_map.mp hid
      have hneg : ¬ decide (d.id = wid) = true := by
        rw [decide_eq_true_eq]
        exact hne
      have hkept : d ∈ contacts.eraseP fun c => c.id = wid :=
        (List.mem_eraseP_of_neg (p := fun c : AppCore.Contact => c.id = wid) hneg).mpr hd
      exact List.mem_map_of_mem hkept

/-- What `app.html` makes of a block. -/
theorem app_blocked (app : AppCore) {payload : Json} {wid : Filled} {requestId : Option Filled}
    (hwid : payload.getStr "winkd_id" = some wid.text)
    (hrid : payload.getStr "request_id" = requestId.map Filled.text) :
    (app.handleContactBlocked payload).contacts = (app.contacts.eraseP fun c => c.id = wid.text) ∧
      (app.handleContactBlocked payload).inboundRequests =
        ((dropInbound requestId app.inboundRequests).filter
          fun r => r.getStr "from_winkd_id" ≠ some wid.text) ∧
      (app.handleContactBlocked payload).blockedUsers = app.blockedUsers := by
  have hwid' : textOf payload "winkd_id" = wid.text := by
    rw [textOf, hwid]
    rfl
  unfold AppCore.handleContactBlocked
  rw [hwid']
  dsimp only
  rw [if_neg wid.ne_nil]
  refine ⟨rfl, congrArg (List.filter _) ?_, rfl⟩
  rw [textOf, hrid]
  cases requestId with
  | none => rfl
  | some rid => exact if_neg rid.ne_nil

/-- What the React client makes of a block. -/
theorem react_blocked (react : React.Client) {payload : Json} {wid : Filled} {requestId : Option Filled}
    (hwid : payload.getStr "winkd_id" = some wid.text)
    (hrid : payload.getStr "request_id" = requestId.map Filled.text)
    (hset : payload.isSet "request_id" = requestId.isSome) :
    (react.onContactBlocked payload).contacts.contacts =
        (react.contacts.contacts.filter fun c => c.id ≠ some wid.text) ∧
      (react.onContactBlocked payload).contacts.pendingInvitations =
        dropPending requestId react.contacts.pendingInvitations := by
  unfold React.Client.onContactBlocked
  rw [hwid, hset, hrid]
  cases requestId <;> exact ⟨rfl, rfl⟩

theorem blocked_next (h : s.Agree) (hinv : s.Inv fromOf) (requestId : Option Filled)
    (uid wid : Filled) (displayName : Text) (avatarData : Option Text) (blockedAt : Text) :
    (Agree (s.next toLowerCase numberText me
        (.contactBlocked requestId uid wid displayName avatarData blockedAt : ContactEvent fromOf)) ↔
      s.app.contacts.countP (fun c => c.id = wid.text) ≤ 1 ∧
        ∀ r ∈ s.app.inboundRequests, r.getStr "from_winkd_id" = some wid.text →
          ∃ rid, requestId = some rid ∧ textOf r "request_id" = rid.text) ∧
    Inv fromOf (s.next toLowerCase numberText me
      (.contactBlocked requestId uid wid displayName avatarData blockedAt : ContactEvent fromOf)) := by
  rw [next_eq]
  generalize hfields : ContactEvent.fields
    (.contactBlocked requestId uid wid displayName avatarData blockedAt : ContactEvent fromOf) = fields
  have hwid : (Json.obj fields).getStr "winkd_id" = some wid.text := by
    cases requestId <;> exact hfields ▸ rfl
  have hrid : (Json.obj fields).getStr "request_id" = requestId.map Filled.text := by
    cases requestId <;> exact hfields ▸ rfl
  have hset : (Json.obj fields).isSet "request_id" = requestId.isSome := by
    cases requestId with
    | none => exact hfields ▸ rfl
    | some rid =>
      have htruthy : (Json.obj fields).isSet "request_id" = (Json.str rid.text).truthy := hfields ▸ rfl
      rw [htruthy]
      simp [Json.truthy, rid.ne_nil]
  clear hfields
  obtain ⟨happ, hinbound, hblocked⟩ := app_blocked s.app hwid hrid
  obtain ⟨hreact, hpending⟩ := react_blocked s.react hwid hrid hset
  show (Agree ⟨s.app.handleContactBlocked (.obj fields), s.react.onContactBlocked (.obj fields)⟩ ↔ _) ∧
    Inv fromOf ⟨s.app.handleContactBlocked (.obj fields), s.react.onContactBlocked (.obj fields)⟩
  have hsub : ∀ r ∈ dropInbound requestId s.app.inboundRequests, r ∈ s.app.inboundRequests :=
    fun r hr => (mem_dropInbound.mp hr).1
  have hrequests := sameRequests_block_iff hinv (sameRequests_dropped h.requests requestId) hsub wid.text
  rw [← hinbound, ← hpending, dropInbound_without_iff] at hrequests
  have hcontacts := sameContacts_block_iff h.contacts wid.text
  rw [← happ, ← hreact] at hcontacts
  constructor
  · rw [← hcontacts, ← hrequests]
    refine ⟨fun hagree => ⟨hagree.contacts, hagree.requests⟩, fun hsame => ⟨hsame.1, ?_, hsame.2⟩⟩
    rw [happ, hreact]
    -- both clients only take contacts out
    exact fun c hc hc' d hd =>
      h.statuses c (List.mem_filter.mp hc).1 hc' d (List.mem_of_mem_eraseP hd)
  · refine hinv.fewer (hblocked.trans hinv.blockedUsers) ?_ ?_ ?_
    · rw [hreact]
      exact fun c hc => hinv.named c (List.mem_filter.mp hc).1
    · rw [hinbound]
      exact fun r hr => hsub r (List.mem_filter.mp hr).1
    · rw [hpending]
      cases requestId with
      | none => exact fun i hi => hi
      | some rid => exact fun i hi => (List.mem_filter.mp hi).1


/-! ## The whole run -/

/-- **What an event does to the agreement.** -/
theorem agree_next (h : s.Agree) (hinv : s.Inv fromOf) (e : ContactEvent fromOf) :
    (Agree (s.next toLowerCase numberText me e) ↔ s.Alike toLowerCase e) ∧
      Inv fromOf (s.next toLowerCase numberText me e) := by
  cases e with
  | contactsSnapshot contacts =>
    rw [next_eq]
    refine ⟨agree_snapshot_iff h contacts, hinv.fewer hinv.blockedUsers ?_ (fun _ hr => hr) fun _ hi => hi⟩
    have hreact : (s.react.onContactsSnapshot
        (.obj [("contacts", .arr (contacts.map SnapshotEntry.json))])).contacts.contacts =
        contacts.map fun c => React.Client.snapshotContact c.json := List.map_map ..
    intro c hc
    obtain ⟨c, -, rfl⟩ := List.mem_map.mp (hreact ▸ hc)
    exact nofun
  | presence winkdId status =>
    rw [next_eq]
    refine ⟨agree_presence_iff h hinv winkdId status, hinv.fewer ?_ ?_ ?_ fun _ hi => hi⟩
    · rw [← hinv.blockedUsers]
      show (s.app.handlePresence _).blockedUsers = _
      unfold AppCore.handlePresence
      split <;> rfl
    · have hreact := react_presence hinv winkdId status
      exact fun c hc => hinv.named c (hreact ▸ hc)
    · have hsame : (s.app.handlePresence (.obj [("user_id", .str winkdId.text),
          ("status", .str status)])).inboundRequests = s.app.inboundRequests := by
        unfold AppCore.handlePresence
        split <;> rfl
      exact fun r hr => hsame ▸ hr
  | contactRequest requestId displayName avatarData =>
    obtain ⟨hagree, hinv'⟩ := request_next numberText toLowerCase me h hinv
      requestId displayName avatarData
    exact ⟨iff_of_true hagree trivial, hinv'⟩
  | contactRequestSent requestId toWinkdId displayName avatarData =>
    exact requestSent_next h hinv requestId toWinkdId displayName avatarData
  | contactAccepted winkdId displayName avatarData moodMessage =>
    exact accepted_next h hinv winkdId displayName avatarData moodMessage
  | contactRequestRejected requestId =>
    obtain ⟨hagree, hinv'⟩ := rejected_next numberText toLowerCase me h hinv
      requestId
    exact ⟨iff_of_true hagree trivial, hinv'⟩
  | contactBlocked requestId userId winkdId displayName avatarData blockedAt =>
    exact blocked_next h hinv requestId userId winkdId displayName avatarData blockedAt
  | contactUnblocked userId =>
    obtain ⟨hagree, hinv'⟩ := unblocked_next numberText toLowerCase me h hinv
      userId
    exact ⟨iff_of_true hagree trivial, hinv'⟩

end

/-- **Both clients agree throughout** just if every event is one that both read alike. -/
theorem agree_iff (numberText : Text → CodeUnits) (toLowerCase : Text → Text) (me : Identity)
    (convos : Convos) (events : List (ContactEvent fromOf)) :
    Throughout (next toLowerCase numberText me) Agree (start convos) events ↔
      Admits (next toLowerCase numberText me) (Alike toLowerCase) (start convos) events :=
  throughout_iff_admits (P := Agree) (J := Inv fromOf) (fun _ e hinv h => (agree_next h hinv e).2)
    (fun _ e hinv h => (agree_next h hinv e).1) (inv_start fromOf convos) (agree_start convos) events

namespace Sample

/-- Ada, who has accepted, and is not online. -/
def ada : SnapshotEntry :=
  ⟨⟨0, "ada#0001".toList, "Ada".toList, none, [], true⟩, none, nofun⟩

theorem user_named : "me#0001".toList ≠ [] := by decide

def user : Identity := ⟨"me#0001".toList, user_named⟩

end Sample

/-- A contact who is offline when the snapshot is taken is online at the React client. -/
theorem snapshot_shows_everybody_online :
    ¬ ∀ (fromOf : Filled → Filled) (numberText : Text → CodeUnits) (toLowerCase : Text → Text)
      (me : Identity) (convos : Convos) (events : List (ContactEvent fromOf)),
        Agree (events.foldl (next toLowerCase numberText me) (start convos)) := by
  intro h
  have hagree := h id units id Sample.user (fun _ => none) [.contactsSnapshot [Sample.ada]]
  rw [List.foldl_cons, List.foldl_nil, next_eq] at hagree
  have hstatus := (agree_snapshot_iff (agree_start fun _ => none) [Sample.ada]).mp hagree Sample.ada
    List.mem_cons_self rfl Sample.ada List.mem_cons_self rfl
  exact absurd hstatus (by decide)

end Clients
end Winkd.Web
