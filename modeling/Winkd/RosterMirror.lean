import Winkd.ShownContacts
import Winkd.ClientAgreement

/-!
# The pages of two users beside the tables

Two users are connected with `app.html` and give commands about contacts, one after the other.  The
relay handles each to its end, its tasks forward what it has put on the two channels, and the pages
take that.  Both pages mirror the tables after every command just if every command is one that they
take right (`mirrored_iff`).
-/

namespace Winkd.Server

/-- The task writes all that waits in the channel. -/
def Channel.forwardAll (c : Channel) : Channel := Channel.forward^[c.queue.length] c

theorem Channel.forwardAll_running {c : Channel} (h : c.forwarding = .running) :
    c.forwardAll = { c with queue := [], written := c.written ++ c.queue } := by
  suffices hall : ∀ (queue : List Item) (c : Channel), c.queue = queue → c.forwarding = .running →
      Channel.forward^[queue.length] c = { c with queue := [], written := c.written ++ queue } from
    hall c.queue c rfl h
  intro queue
  induction queue with
  | nil =>
    rintro ⟨user, _, forwarding, written⟩ rfl -
    simp
  | cons item queue ih =>
    rintro ⟨user, _, _, written⟩ rfl rfl
    rw [List.length_cons, Function.iterate_succ_apply]
    exact (ih ⟨user, queue, .running, written ++ [item]⟩ rfl rfl).trans (by simp)

end Winkd.Server

namespace Winkd.Web
open UnicodeText Winkd.Server AppState Transitions AppCore

/-- The relay, and the pages of the two. -/
structure Tandem where
  server : AppState
  app : Bool → AppCore

/-- Two users, each on a channel of his own, whose task runs; these texts wait there. -/
structure Holding (user : Bool → Member) (tx : Bool → ℕ) (s : AppState) (texts : Bool → List Json) :
    Prop where
  channels : ∀ side, ∃ c, s.channels[tx side]? = some c ∧ c.queue.map Item.text = texts side ∧
    c.forwarding = .running
  sessions : ∀ side, ∃ session, s.clients (user side).id = some session ∧ session.sender = tx side
  /-- Nobody else is told on them. -/
  alone : ∀ v session, s.clients v = some session → ∀ side, session.sender = tx side → v = (user side).id

/-- Two users who are connected. -/
structure Couple where
  F : Formats
  uuids : UuidsOk F
  server : AppState
  tables : server.ContactsOk
  user : Bool → Member
  named : ∀ side, server.db.HasName (user side).id (user side).winkdId
  apart : (user true).id ≠ (user false).id
  tx : Bool → ℕ
  holding : Holding user tx server fun _ => []
  convos : Bool → Convos

theorem Couple.ne_nil (C : Couple) (side : Bool) : (C.user side).winkdId ≠ [] := by
  obtain ⟨x, hx, -, hname⟩ := C.named side
  exact hname ▸ C.tables.named x hx

/-- Who is signed in on a page. -/
def Couple.me (C : Couple) (side : Bool) : Identity := ⟨(C.user side).winkdId, C.ne_nil side⟩

namespace Tandem
variable (numberText : Text → CodeUnits) (toLowerCase : Text → Text) (C : Couple)

/-- What waits in a channel is forwarded, and the pages take it. -/
def deliver (s : AppState) (app : Bool → AppCore) : Tandem where
  server := (s.updateChannel (C.tx false) Channel.forwardAll).updateChannel (C.tx true) Channel.forwardAll
  app side :=
    (((s.channels[C.tx side]?).map Channel.queue).getD []).foldl
      (fun app item => app.receive numberText toLowerCase (C.me side) item.text) (app side)

/-- What the relay tells a user who has connected. -/
def welcome (s : AppState) (side : Bool) : AppState :=
  ((do
    flushRoster (C.user side) (C.tx side)
    flushPendingInbound C.F (C.user side) (C.tx side) : RelayProg Unit).run Server.serve s).2

/-- Both pages have been loaded, and told of the roster and of the pending requests. -/
def start : Tandem :=
  deliver numberText toLowerCase C (welcome C (welcome C C.server false) true) fun side => .load (C.convos side)

/-- A user gives a command, which is handled to its end. -/
def next (t : Tandem) (l : Bool × ContactCommand) : Tandem :=
  deliver numberText toLowerCase C
    ((handleCommand C.F (C.user l.1) (C.tx l.1) t.server.received l.2.command).run Server.serve t.server).2 t.app

/-- Both pages list whom a fresh snapshot would, and show just the pending requests. -/
def Mirrored (t : Tandem) : Prop := ∀ side, Mirrors C.F t.server (C.user side).id (t.app side)

/-- **The pages take the effect of a command right.**  `x` is who gives it and `y` the other user.

- Whom he asks is not in his list by another spelling only.  If it is `y`, then the request of `x`
  was not what made them contacts.
- Whose request he accepts is not in his list, by any spelling, and there is no block.
- Whose request he rejects is not `y`, or `y` does not list him for it.
- Whom he blocks is not in his list twice.  If it is `y`, he does not list `x`, nor have his request.
- Whom he unblocks is in the page's list of the blocked just if he is to be listed again.  If it is
  `y`, he is not to list `x` again. -/
def TakenRight (t : Tandem) (side : Bool) (effect : ContactEffect) : Prop :=
  let x := (C.user side).id
  let y := (C.user !side).id
  let r := t.server.relations
  let app := t.app side
  match effect with
  | .nothing => True
  | .asks v =>
      (app.hasContactByWinkdId toLowerCase (t.server.winkdIdOf v) = true →
        app.hasContact (t.server.winkdIdOf v) = true) ∧
      (v = y → r.status x y = some .accepted →
        r.status y x = some .pending ∨ r.status y x = some .accepted)
  | .accepts v => app.contacts.any (sameId toLowerCase (t.server.winkdIdOf v)) = false ∧ r.Open x v
  | .rejects v => v = y → r.Open x y → r.status x y = some .accepted
  | .blocks v =>
      app.contacts.countP (fun c => c.id = t.server.winkdIdOf v) ≤ 1 ∧
      (v = y → ¬ r.Lists y x ∧ ¬ r.Asks x y)
  | .unblocks v =>
      (((app.blockedEntry (C.F.uuid v)).isSome = true → r.Related x v ∧ r.blocks v x = false) ∧
        (r.Related x v → r.blocks x v = true → r.blocks v x = false →
          (app.blockedEntry (C.F.uuid v)).isSome = true)) ∧
      (v = y → r.blocks x y = true → r.blocks y x = false → ¬ r.Related y x)

/-- The pages take a command of a user right. -/
def Right (t : Tandem) (l : Bool × ContactCommand) : Prop :=
  t.TakenRight toLowerCase C l.1 (l.2.effect C.F t.server (C.user l.1))

end Tandem

/-! ## Channels -/

namespace Holding
variable {user : Bool → Member} {tx : Bool → ℕ} {s s' : AppState} {texts : Bool → List Json}

theorem tx_inj (h : Holding user tx s texts) (hapart : (user true).id ≠ (user false).id) {a b : Bool}
    (heq : tx a = tx b) : a = b := by
  obtain ⟨session, hsession, hsender⟩ := h.sessions a
  have hid := h.alone _ session hsession b (hsender.trans heq)
  cases a <;> cases b
  · rfl
  · exact absurd hid.symm hapart
  · exact absurd hid hapart
  · rfl

/-- The sessions and the channels are as before. -/
theorem congr (h : Holding user tx s texts) (hclients : s'.clients = s.clients)
    (hchannels : s'.channels = s.channels) : Holding user tx s' texts where
  channels := by
    rw [hchannels]
    exact h.channels
  sessions := by
    rw [hclients]
    exact h.sessions
  alone := by
    rw [hclients]
    exact h.alone

/-- What a text that is sent makes of the texts. -/
def told (texts : Bool → List Json) (who : Bool → Prop) [DecidablePred who] (text : Json) :
    Bool → List Json := fun side => if who side then texts side ++ [text] else texts side

theorem pushed_open {s : AppState} {c : ℕ} (h : s.isOpen c = true) (text : Json) :
    s.pushed c text = s.updateChannel c fun ch => { ch with queue := ch.queue ++ [⟨text, .other⟩] } := by
  rw [pushed, send, if_pos h]

theorem pushed (h : Holding user tx s texts) (c : ℕ) (text : Json) :
    Holding user tx (s.pushed c text) (told texts (fun side => tx side = c) text) := by
  by_cases hopen : s.isOpen c = true
  · rw [pushed_open hopen]
    refine ⟨fun side => ?_, h.sessions, h.alone⟩
    obtain ⟨ch, hch, hqueue, hrunning⟩ := h.channels side
    simp only [updateChannel, List.getElem?_modify, told]
    by_cases hside : tx side = c
    · rw [if_pos hside, hch]
      refine ⟨{ ch with queue := ch.queue ++ [⟨text, .other⟩] }, ?_, ?_, hrunning⟩
      · simp [hside]
      · rw [List.map_append, hqueue]
        rfl
    · rw [if_neg hside, hch]
      refine ⟨ch, ?_, hqueue, hrunning⟩
      simp [Ne.symm hside]
  · have hside : ∀ side, tx side ≠ c := by
      rintro side rfl
      obtain ⟨ch, hch, -, hrunning⟩ := h.channels side
      refine hopen ?_
      simp [isOpen, hch, hrunning]
    have heq : s.pushed c text = s := by rw [AppState.pushed, send, if_neg hopen]
    have htexts : told texts (fun side => tx side = c) text = texts := by
      funext side
      exact if_neg (hside side)
    rw [heq, htexts]
    exact h

theorem notified (h : Holding user tx s texts) (v : Id) (text : Json) :
    Holding user tx (s.notified v text) (told texts (fun side => (user side).id = v) text) := by
  rw [AppState.notified]
  cases hv : s.clients v with
  | none =>
    have htexts : told texts (fun side => (user side).id = v) text = texts := by
      funext side
      refine if_neg ?_
      rintro rfl
      obtain ⟨session, hsession, -⟩ := h.sessions side
      rw [hsession] at hv
      cases hv
    rw [htexts]
    exact h
  | some session =>
    have htexts : told texts (fun side => (user side).id = v) text =
        told texts (fun side => tx side = session.sender) text := by
      funext side
      refine if_congr ⟨?_, fun hsender => ?_⟩ rfl rfl
      · rintro rfl
        obtain ⟨session', hsession, hsender⟩ := h.sessions side
        rw [hv] at hsession
        rw [Option.some.inj hsession, hsender]
      · exact (h.alone v session hv side hsender.symm).symm
    rw [htexts]
    exact h.pushed session.sender text

end Holding

theorem pushed_state (s : AppState) (c : ℕ) (text : Json) :
    ∃ channels, s.pushed c text = { s with channels := channels } := send_state s c ⟨text, .other⟩

theorem notified_state (s : AppState) (v : Id) (text : Json) :
    ∃ channels, s.notified v text = { s with channels := channels } := by
  rw [notified]
  cases s.clients v with
  | none => exact ⟨s.channels, rfl⟩
  | some session => exact pushed_state s session.sender text

theorem told_state (s : AppState) (c : ℕ) (text : Json) (v : Id) (text' : Json) :
    ∃ channels, (s.pushed c text).notified v text' = { s with channels := channels } := by
  obtain ⟨channels, h⟩ := pushed_state s c text
  rw [h]
  exact notified_state _ v text'

namespace Holding
variable {user : Bool → Member} {tx : Bool → ℕ} {s : AppState} {side : Bool}

variable (side) in
/-- A text on one's own channel. -/
theorem own (h : Holding user tx s fun _ => []) (hapart : (user true).id ≠ (user false).id) (text : Json) :
    ∃ texts, Holding user tx (s.pushed (tx side) text) texts ∧ texts side = [text] ∧ texts (!side) = [] := by
  refine ⟨_, h.pushed (tx side) text, if_pos rfl, if_neg fun heq => ?_⟩
  exact absurd (h.tx_inj hapart heq) (Bool.not_ne_self side)

variable (side) in
/-- A text on one's own channel, and one to another user. -/
theorem own_and_other (h : Holding user tx s fun _ => []) (hapart : (user true).id ≠ (user false).id)
    (text : Json) {v : Id} (hv : v ≠ (user side).id) (text' : Json) :
    ∃ texts, Holding user tx ((s.pushed (tx side) text).notified v text') texts ∧ texts side = [text] ∧
      texts (!side) = if v = (user !side).id then [text'] else [] := by
  obtain ⟨texts, hpushed, hown, hother⟩ := h.own side hapart text
  refine ⟨_, hpushed.notified v text', ?_, ?_⟩
  · rw [told, if_neg (Ne.symm hv), hown]
  · rw [told, hother]
    exact if_congr eq_comm rfl rfl

end Holding

namespace Tandem
variable {numberText : Text → CodeUnits} {toLowerCase : Text → Text} {C : Couple} {t : Tandem}

/-- What holds of every state of a run. -/
structure Inv (C : Couple) (t : Tandem) : Prop where
  tables : t.server.ContactsOk
  named : ∀ side, t.server.db.HasName (C.user side).id (C.user side).winkdId
  holding : Holding C.user C.tx t.server fun _ => []
  pages : ∀ side, PageOk C.F t.server (C.user side).id (t.app side)

variable (numberText toLowerCase C) in
/-- A page, when it has taken some texts. -/
def taken (side : Bool) (app : AppCore) (texts : List Json) : AppCore :=
  texts.foldl (fun app text => app.receive numberText toLowerCase (C.me side) text) app

theorem taken_one (side : Bool) (app : AppCore) (text : Json) :
    taken numberText toLowerCase C side app [text] = app.receive numberText toLowerCase (C.me side) text :=
  rfl

theorem forall_side_iff {P : Bool → Prop} (side : Bool) : (∀ b, P b) ↔ P side ∧ P !side := by
  cases side
  · exact Bool.forall_bool
  · exact Bool.forall_bool.trans and_comm

/-- **What is delivered**: the tables stay, the channels are empty, and the pages have taken it. -/
theorem deliver_iff {s' s₁ : AppState} {texts : Bool → List Json} {app : Bool → AppCore}
    (hs₁ : ∃ channels, s₁ = { s' with channels := channels }) (hh : Holding C.user C.tx s₁ texts)
    (htables : s'.ContactsOk) (hnamed : ∀ side, s'.db.HasName (C.user side).id (C.user side).winkdId)
    (hpages : ∀ side, PageOk C.F s' (C.user side).id
      (taken numberText toLowerCase C side (app side) (texts side))) :
    Inv C (deliver numberText toLowerCase C s₁ app) ∧
      (Mirrored C (deliver numberText toLowerCase C s₁ app) ↔ ∀ side,
        s'.relations.Shows (C.user side).id ((taken numberText toLowerCase C side (app side)
          (texts side)).shown C.F s' (C.user side).id)) := by
  obtain ⟨channels, rfl⟩ := hs₁
  have happ : ∀ side, (deliver numberText toLowerCase C { s' with channels := channels } app).app side =
      taken numberText toLowerCase C side (app side) (texts side) := by
    intro side
    obtain ⟨c, hc, hqueue, -⟩ := hh.channels side
    show List.foldl _ _ ((channels[C.tx side]?.map Channel.queue).getD []) = _
    rw [taken, ← hqueue, List.foldl_map, show channels[C.tx side]? = some c from hc]
    rfl
  refine ⟨⟨htables.of_rows rfl rfl rfl, hnamed, ⟨fun side => ?_, hh.sessions, hh.alone⟩, fun side => ?_⟩, ?_⟩
  · obtain ⟨c, hc, -, hrunning⟩ := hh.channels side
    have hc : channels[C.tx side]? = some c := hc
    have hapart : C.tx false ≠ C.tx true := fun heq => Bool.false_ne_true (hh.tx_inj C.apart heq)
    refine ⟨c.forwardAll, ?_, ?_, ?_⟩
    · show ((channels.modify (C.tx false) _).modify (C.tx true) _)[C.tx side]? = _
      rw [List.getElem?_modify, List.getElem?_modify, hc]
      cases side
      · simp [hapart.symm]
      · simp [hapart]
    · rw [Channel.forwardAll_running hrunning]
      rfl
    · rw [Channel.forwardAll_running hrunning]
      exact hrunning
  · rw [happ]
    exact (hpages side).mono ⟨rfl, fun _ _ _ h => h⟩
  · refine forall_congr' fun side => ?_
    rw [happ, ← mirrors_iff_shows C.uuids htables (hpages side)]
    exact ⟨fun h => ⟨h.contacts, h.requests⟩, fun h => ⟨h.contacts, h.requests⟩⟩

/-! ## Effect by effect -/

section Effects

theorem Inv.isUser (hinv : Inv C t) (side : Bool) : t.server.IsUser (C.user side).id := ⟨_, hinv.named side⟩

theorem Inv.winkdIdOf (hinv : Inv C t) (side : Bool) :
    t.server.winkdIdOf (C.user side).id = (C.user side).winkdId :=
  ((hasName_iff hinv.tables).mp (hinv.named side)).2

theorem Inv.shows (hinv : Inv C t) (hm : Mirrored C t) (side : Bool) :
    t.server.relations.Shows (C.user side).id ((t.app side).shown C.F t.server (C.user side).id) :=
  (mirrors_iff_shows C.uuids hinv.tables (hinv.pages side)).mp (hm side)

theorem other_ne (C : Couple) (side : Bool) : (C.user !side).id ≠ (C.user side).id := by
  cases side
  · exact C.apart
  · exact C.apart.symm

variable {side : Bool}

/-- Nobody is told of anything but an error, or of the list of the blocked. -/
theorem nothing_iff (hinv : Inv C t) (hm : Mirrored C t) {s₁ : AppState} {texts : Bool → List Json}
    (hs₁ : ∃ channels, s₁ = { t.server with channels := channels }) (hh : Holding C.user C.tx s₁ texts)
    (hids : ∀ b, (taken numberText toLowerCase C b (t.app b) (texts b)).ids = (t.app b).ids)
    (hinbound : ∀ b, (taken numberText toLowerCase C b (t.app b) (texts b)).inboundRequests =
      (t.app b).inboundRequests)
    (hpages : ∀ b, PageOk C.F t.server (C.user b).id
      (taken numberText toLowerCase C b (t.app b) (texts b))) :
    Inv C (deliver numberText toLowerCase C s₁ t.app) ∧
      (Mirrored C (deliver numberText toLowerCase C s₁ t.app) ↔ TakenRight toLowerCase C t side .nothing) := by
  obtain ⟨hinv', hiff⟩ := deliver_iff hs₁ hh hinv.tables hinv.named hpages
  refine ⟨hinv', hiff.trans (iff_of_true (fun b => ?_) trivial)⟩
  refine (Relations.shows_same_iff (hinv.shows hm b) ?_ ?_).mpr ⟨fun _ => Iff.rfl, fun _ => Iff.rfl⟩
  · exact shown_contacts_same ⟨rfl, fun _ _ _ h => h⟩ (hids b)
  · exact shown_requests_same (fun _ => rfl) (hinbound b)

variable (numberText toLowerCase) in
/-- The page of the one who is asked, if that is the other, and else the page that is told nothing. -/
theorem asked_other (hinv : Inv C t) (hm : Mirrored C t) {y rid : Id} {s' : AppState}
    (hs' : s'.ContactsOk) (hg : Grows t.server s') (hrid : s'.requestId (C.user side).id y = some rid)
    (hrest : ∀ {a b : Id}, ¬ (a = (C.user side).id ∧ b = y) → s'.requestId a b = t.server.requestId a b)
    (hopen : t.server.relations.Open (C.user side).id y)
    (hrelations : s'.relations = t.server.relations.after (C.user side).id (.asks y))
    {texts : List Json} (htexts : texts = if y = (C.user !side).id then [contactRequestEvent C.F rid
      (C.user side).winkdId (C.user side).displayName (C.user side).avatarData] else []) :
    PageOk C.F s' (C.user !side).id (taken numberText toLowerCase C (!side) (t.app !side) texts) ∧
      (s'.relations.Shows (C.user !side).id ((taken numberText toLowerCase C (!side) (t.app !side)
          texts).shown C.F s' (C.user !side).id) ↔
        (y = (C.user !side).id → t.server.relations.status (C.user side).id (C.user !side).id =
          some .accepted → t.server.relations.status (C.user !side).id (C.user side).id = some .pending ∨
            t.server.relations.status (C.user !side).id (C.user side).id = some .accepted)) := by
  by_cases hy : y = (C.user !side).id
  · rw [htexts, if_pos hy]
    have hname : s'.winkdIdOf (C.user side).id = (C.user side).winkdId :=
      (winkdIdOf_congr hg.1 _).trans (hinv.winkdIdOf side)
    obtain ⟨hok, hrequests⟩ := ((hinv.pages !side).mono hg).contactRequest numberText toLowerCase
      (C.me !side) C.uuids (hy ▸ hrid) (C.user side).displayName (C.user side).avatarData
    obtain ⟨hcontacts, -, -⟩ := receive_contactRequest numberText toLowerCase (C.me !side)
      (t.app !side) rid (C.uuids.ne_nil _) (C.user side).winkdId (C.user side).displayName
      (C.user side).avatarData
    rw [hname] at hok hrequests
    refine ⟨hok, ?_⟩
    rw [forall_prop_of_true hy, hrelations, hy]
    refine Relations.asks_other_iff (hinv.shows hm !side) (other_ne C side) (hy ▸ hopen) ?_ ?_
    · exact shown_contacts_same hg (ids_congr hcontacts)
    · refine shown_requests_added hs' C.uuids (hy ▸ hrid) (fun w hw => hrest fun h => hw h.1) hrequests ?_
      -- a request of the table as it was keeps its id
      rintro ⟨rid', hold, -⟩
      have hkept := hg.2 _ _ _ hold
      rw [← hy, hrid] at hkept
      rw [← hkept] at hold
      exact hold
  · rw [htexts, if_neg hy]
    refine ⟨(hinv.pages !side).mono hg, iff_of_true ?_ fun h => absurd h hy⟩
    rw [hrelations]
    refine Relations.shows_uninvolved (hinv.shows hm !side) (other_ne C side)
      (fun h => hy (Option.some.inj h)) ?_ ?_
    · exact shown_contacts_same hg rfl
    · exact shown_requests_same (fun w => hrest fun h => hy h.2.symm) rfl

theorem asks_iff (hinv : Inv C t) (hm : Mirrored C t) {targetId : Text} {target : Member}
    (hfound : t.server.findUserByWinkdId targetId = some target) (hother : targetId ≠ (C.user side).winkdId)
    (hunblocked : t.server.isBlockedBetween (C.user side).id target.id = false) {s₁ : AppState}
    (hs₁ : s₁ = ((t.server.createContactRequest (C.user side).id target.id).2.pushed (C.tx side)
      (requestSent C.F (t.server.createContactRequest (C.user side).id target.id).1.id targetId
        target)).notified target.id
      (contactRequestEvent C.F (t.server.createContactRequest (C.user side).id target.id).1.id
        (C.user side).winkdId (C.user side).displayName (C.user side).avatarData)) :
    Inv C (deliver numberText toLowerCase C s₁ t.app) ∧
      (Mirrored C (deliver numberText toLowerCase C s₁ t.app) ↔
        TakenRight toLowerCase C t side (.asks target.id)) := by
  obtain ⟨hs, hnamed⟩ := And.intro hinv.tables hinv.named
  have hname : t.server.db.HasName target.id targetId := by
    obtain ⟨x, hx, rfl⟩ := Option.map_eq_some_iff.mp hfound
    exact ⟨x, List.mem_of_find?_eq_some hx, rfl, by simpa using List.find?_some hx⟩
  obtain ⟨htarget, rfl⟩ := (hasName_iff hs).mp hname
  have hne : target.id ≠ (C.user side).id := by
    intro heq
    exact hother (hinv.winkdIdOf side ▸ congrArg t.server.winkdIdOf heq)
  have hopen := isBlockedBetween_eq_false_iff.mp hunblocked
  obtain ⟨husers, hclients, hchannels⟩ :=
    createContactRequest_same t.server (C.user side).id target.id
  have hs' := hs.createContactRequest (hinv.isUser side) htarget hne.symm
  have hid := requestId_createContactRequest t.server (C.user side).id target.id
  have hkept : ∀ a b rid, t.server.requestId a b = some rid → _ := fun a b rid =>
    requestId_kept (C.user side).id target.id
  have hrelations : (t.server.createContactRequest (C.user side).id target.id).2.relations =
      t.server.relations.after (C.user side).id (.asks target.id) := relations_createContactRequest ..
  generalize t.server.createContactRequest (C.user side).id target.id = row at *
  have hg : Grows t.server row.2 := ⟨husers, hkept⟩
  have hrid : row.2.requestId (C.user side).id target.id = some row.1.id :=
    (hid _ _).trans (if_pos ⟨rfl, rfl⟩)
  have hne' : ∀ {a b : Id}, ¬ (a = (C.user side).id ∧ b = target.id) →
      row.2.requestId a b = t.server.requestId a b := fun h => (hid _ _).trans (if_neg h)
  obtain ⟨texts, hh, hown, htold⟩ := (hinv.holding.congr hclients hchannels).own_and_other side C.apart
    (requestSent C.F row.1.id (t.server.winkdIdOf target.id) target) hne
    (contactRequestEvent C.F row.1.id (C.user side).winkdId (C.user side).displayName
      (C.user side).avatarData)
  rw [← hs₁] at hh
  have hs₁' : ∃ channels, s₁ = { row.2 with channels := channels } := by
    rw [hs₁]
    exact told_state ..
  -- the page of the one who asks
  have hownOk := (hinv.pages side).requestSent numberText toLowerCase (C.me side) hs htarget target
    row.1.id
  obtain ⟨hinbound, -, hids⟩ := receive_requestSent numberText toLowerCase (C.me side) (t.app side)
    (F := C.F) row.1.id (winkdIdOf_ne_nil hs htarget) target
  have hadded : ∀ w, w ∈ ((t.app side).receive numberText toLowerCase (C.me side)
        (requestSent C.F row.1.id (t.server.winkdIdOf target.id) target)).ids ↔ w ∈ (t.app side).ids ∨
      (w = t.server.winkdIdOf target.id ∧
        (t.app side).hasContactByWinkdId toLowerCase (t.server.winkdIdOf target.id) = false) := by
    intro w
    rw [hids]
    split <;> simp_all
  have hownIff := Relations.asks_own_iff (hinv.shows hm side) hne hopen
    ((t.app side).hasContactByWinkdId toLowerCase (t.server.winkdIdOf target.id) = false)
    (shown_contacts_added hs hg htarget _ hadded)
    (shown_requests_same (fun w => hne' fun h => hne h.2.symm) hinbound)
  rw [← hrelations] at hownIff
  -- the effect of an id in another case: the contact is found, and is not listed
  have hright : ((t.app side).hasContactByWinkdId toLowerCase (t.server.winkdIdOf target.id) = false ∨
      ((t.app side).shown C.F t.server (C.user side).id).contacts target.id) ↔
      ((t.app side).hasContactByWinkdId toLowerCase (t.server.winkdIdOf target.id) = true →
        (t.app side).hasContact (t.server.winkdIdOf target.id) = true) := by
    simp only [shown, and_iff_right htarget, mem_ids_iff]
    cases (t.app side).hasContactByWinkdId toLowerCase (t.server.winkdIdOf target.id) <;> simp
  have hotherPage := asked_other numberText toLowerCase hinv hm hs' hg hrid hne' hopen hrelations htold
  have hpages : ∀ b, PageOk C.F row.2 (C.user b).id
      (taken numberText toLowerCase C b (t.app b) (texts b)) := by
    refine (forall_side_iff side).mpr ⟨?_, hotherPage.1⟩
    rw [hown]
    exact hownOk.mono hg
  have hnamed' : ∀ b, row.2.db.HasName (C.user b).id (C.user b).winkdId := by
    intro b
    rw [Backend.HasName, husers]
    exact hnamed b
  obtain ⟨hinv', hiff⟩ := deliver_iff hs₁' hh hs' hnamed' hpages
  refine ⟨hinv', hiff.trans ((forall_side_iff side).trans (and_congr ?_ hotherPage.2))⟩
  rw [hown]
  exact hownIff.trans hright

/-- The requests and the blocks are others, but each request has its id. -/
structure Rewritten (s s' : AppState) : Prop where
  tables : s'.ContactsOk
  db : s'.db = s.db
  clients : s'.clients = s.clients
  channels : s'.channels = s.channels
  requestId : s'.requestId = s.requestId

theorem Rewritten.grows {s s' : AppState} (h : Rewritten s s') : Grows s s' :=
  ⟨congrArg Backend.users h.db, fun a b rid hrid => by rw [h.requestId]; exact hrid⟩

theorem Rewritten.named {s s' : AppState} (h : Rewritten s s') (hinv : Inv C t) (hs : s = t.server) (b : Bool) :
    s'.db.HasName (C.user b).id (C.user b).winkdId := by
  rw [h.db, hs]
  exact hinv.named b

theorem rewritten_answer {s : AppState} (hs : s.ContactsOk) (rid x : Id) (status : RequestStatus) :
    Rewritten s (s.answerContactRequest rid x status).2 where
  tables := hs.answerContactRequest rid x status
  db := by
    rw [answerContactRequest]
    split <;> rfl
  clients := by
    rw [answerContactRequest]
    split <;> rfl
  channels := by
    rw [answerContactRequest]
    split <;> rfl
  requestId := requestId_answerContactRequest s rid x status

theorem rewritten_block {s : AppState} (hs : s.ContactsOk) (x v : Id) :
    Rewritten s ((s.createBlock x v).2.clearPendingContactRequestsBetween x v) where
  tables := (hs.createBlock x v).clear x v
  db := (createBlock_rows s x v).2
  clients := by
    show (s.createBlock x v).2.clients = s.clients
    rw [createBlock]
    split
    · rfl
    · split <;> rfl
  channels := by
    show (s.createBlock x v).2.channels = s.channels
    rw [createBlock]
    split
    · rfl
    · split <;> rfl
  requestId := (requestId_clear _ x v).trans (requestId_congr (createBlock_rows s x v).1)

theorem rewritten_unblock {s : AppState} (hs : s.ContactsOk) (x v : Id) :
    Rewritten s (s.removeBlock x v) where
  tables := hs.of_rows rfl rfl rfl
  db := rfl
  clients := rfl
  channels := rfl
  requestId := requestId_congr rfl

variable (numberText toLowerCase) in
/-- The other page is told nothing. -/
theorem untold (hinv : Inv C t) {s' : AppState} (hr : Rewritten t.server s') {texts : Bool → List Json}
    (htexts : texts (!side) = []) :
    PageOk C.F s' (C.user !side).id (taken numberText toLowerCase C (!side) (t.app !side) (texts !side)) ∧
      (∀ v, ((taken numberText toLowerCase C (!side) (t.app !side) (texts !side)).shown C.F s'
          (C.user !side).id).contacts v ↔
        ((t.app !side).shown C.F t.server (C.user !side).id).contacts v) ∧
      ∀ v, ((taken numberText toLowerCase C (!side) (t.app !side) (texts !side)).shown C.F s'
          (C.user !side).id).requests v ↔
        ((t.app !side).shown C.F t.server (C.user !side).id).requests v := by
  rw [htexts]
  exact ⟨(hinv.pages !side).mono hr.grows, shown_contacts_same hr.grows rfl,
    shown_requests_same (fun w => by rw [hr.requestId]) rfl⟩

/-- The two pages, one by one. -/
theorem rewritten_iff (hinv : Inv C t) {s' s₁ : AppState} (hr : Rewritten t.server s')
    {texts : Bool → List Json} (hs₁ : ∃ channels, s₁ = { s' with channels := channels })
    (hh : Holding C.user C.tx s₁ texts)
    (hown : PageOk C.F s' (C.user side).id (taken numberText toLowerCase C side (t.app side) (texts side)))
    (hother : PageOk C.F s' (C.user !side).id
      (taken numberText toLowerCase C (!side) (t.app !side) (texts !side))) :
    Inv C (deliver numberText toLowerCase C s₁ t.app) ∧
      (Mirrored C (deliver numberText toLowerCase C s₁ t.app) ↔
        s'.relations.Shows (C.user side).id ((taken numberText toLowerCase C side (t.app side)
          (texts side)).shown C.F s' (C.user side).id) ∧
        s'.relations.Shows (C.user !side).id ((taken numberText toLowerCase C (!side) (t.app !side)
          (texts !side)).shown C.F s' (C.user !side).id)) := by
  obtain ⟨hinv', hiff⟩ := deliver_iff hs₁ hh hr.tables (hr.named hinv rfl) ((forall_side_iff side).mpr
    ⟨hown, hother⟩)
  exact ⟨hinv', hiff.trans (forall_side_iff side)⟩

theorem rejects_iff (hinv : Inv C t) (hm : Mirrored C t) {rid : Id} {cr : ContactRequest}
    (hpending : t.server.pendingRequest rid (C.user side).id = some cr) {s₁ : AppState}
    (hs₁ : s₁ = (t.server.answerContactRequest rid (C.user side).id .rejected).2.pushed (C.tx side)
      (requestRejected C.F rid)) :
    Inv C (deliver numberText toLowerCase C s₁ t.app) ∧
      (Mirrored C (deliver numberText toLowerCase C s₁ t.app) ↔
        TakenRight toLowerCase C t side (.rejects cr.fromId)) := by
  have hs := hinv.tables
  obtain ⟨hasks, hrid⟩ := asks_of_pendingRequest hs.toRowsOk hpending
  have hne : cr.fromId ≠ (C.user side).id := (users_of_requestId hs hrid).2.2
  have hr := rewritten_answer hs rid (C.user side).id .rejected
  have hrelations : (t.server.answerContactRequest rid (C.user side).id .rejected).2.relations =
      t.server.relations.after (C.user side).id (.rejects cr.fromId) :=
    relations_answerContactRequest hs hpending .rejected
  generalize (t.server.answerContactRequest rid (C.user side).id .rejected).2 = s' at *
  obtain ⟨texts, hh, hown, hother⟩ := (hinv.holding.congr hr.clients hr.channels).own side C.apart
    (requestRejected C.F rid)
  rw [← hs₁] at hh
  have hownOk := ((hinv.pages side).mono hr.grows).rejected numberText toLowerCase (C.me side) C.uuids rid
  obtain ⟨hotherOk, hcontacts, hrequests⟩ := untold numberText toLowerCase hinv hr hother
  obtain ⟨hinv', hiff⟩ := rewritten_iff hinv hr (hs₁ ▸ pushed_state ..) hh (hown ▸ hownOk) hotherOk
  refine ⟨hinv', hiff.trans ?_⟩
  have hownShows : s'.relations.Shows (C.user side).id ((taken numberText toLowerCase C side (t.app side)
      (texts side)).shown C.F s' (C.user side).id) := by
    rw [hown, hrelations]
    refine Relations.rejects_own (hinv.shows hm side) hne hasks ?_ ?_
    · refine shown_contacts_same hr.grows ?_
      rw [taken_one, receive_rejected _ _ _ _ rid (C.uuids.ne_nil rid)]
      rfl
    · refine shown_requests_dropped C.uuids hs hr.tables hr.grows (hinv.pages side) hownOk
        (users_of_requestId hs hrid).1 fun r => ?_
      rw [taken_one, receive_rejected _ _ _ _ rid (C.uuids.ne_nil rid)]
      show r ∈ dropRequest (C.F.uuid rid) (t.app side).inboundRequests ↔ _
      rw [dropRequest, List.mem_filter, decide_eq_true_eq]
      exact and_congr_right fun hr => not_congr (from_iff C.uuids hs (hinv.pages side) hrid hr).symm
  rw [and_iff_right hownShows]
  by_cases hy : cr.fromId = (C.user !side).id
  · rw [hy] at hrelations hasks
    rw [hrelations, hy]
    refine (Relations.rejects_other_iff (hinv.shows hm !side) (other_ne C side) hasks hcontacts
      hrequests).trans ?_
    exact ⟨fun h _ => h, fun h => h rfl⟩
  · rw [hrelations]
    refine iff_of_true ?_ fun h => absurd h hy
    exact Relations.shows_uninvolved (hinv.shows hm !side) (other_ne C side)
      (fun h => hy (Option.some.inj h)) hcontacts hrequests

/-- A page that shows the right contacts finds each of them by its id. -/
theorem Inv.finds (hinv : Inv C t) (hm : Mirrored C t) {v : Id}
    (hlists : t.server.relations.Lists (C.user side).id v) :
    (t.app side).contacts.any (sameId toLowerCase (t.server.winkdIdOf v)) = true := by
  have hmem := (((hinv.shows hm side).contacts v).mpr hlists).2
  obtain ⟨c, hc, hcid⟩ := List.mem_map.mp hmem
  refine List.any_eq_true.mpr ⟨c, hc, decide_eq_true ?_⟩
  rw [hcid]

variable (numberText toLowerCase) in
/-- Whose request it was has listed the other since, so that the acceptance adds nobody. -/
theorem accepted_other_shows (hinv : Inv C t) (hm : Mirrored C t) {v : Id}
    (hasks : t.server.relations.status v (C.user side).id = some .pending)
    (hopen : t.server.relations.Open (C.user side).id v) {s' : AppState} (hr : Rewritten t.server s')
    (hrelations : s'.relations = t.server.relations.after (C.user side).id (.accepts v)) :
    s'.relations.Shows (C.user !side).id ((taken numberText toLowerCase C (!side) (t.app !side)
      (if v = (C.user !side).id then [contactAccepted (C.user side)] else [])).shown C.F s'
        (C.user !side).id) := by
  rw [hrelations]
  by_cases hy : v = (C.user !side).id
  · rw [if_pos hy, hy, taken_one]
    rw [hy] at hasks hopen
    have hlists : t.server.relations.Lists (C.user !side).id (C.user side).id :=
      ⟨.inl hasks, Relations.open_comm.mp hopen⟩
    have hlisted : (t.app !side).contacts.any (sameId toLowerCase (t.server.winkdIdOf (C.user side).id)) =
      true := hinv.finds hm hlists
    rw [hinv.winkdIdOf side] at hlisted
    obtain ⟨hids, hinbound, -⟩ := receive_accepted_listed numberText toLowerCase (C.me !side) (t.app !side)
      (C.user side) hlisted
    refine Relations.accepts_other (hinv.shows hm !side) (other_ne C side) hasks ?_ ?_
    · exact shown_contacts_same hr.grows hids
    · exact shown_requests_same (fun w => by rw [hr.requestId]) hinbound
  · rw [if_neg hy]
    refine Relations.shows_uninvolved (hinv.shows hm !side) (other_ne C side)
      (fun h => hy (Option.some.inj h)) ?_ ?_
    · exact shown_contacts_same hr.grows rfl
    · exact shown_requests_same (fun w => by rw [hr.requestId]) rfl

theorem accepts_iff (hinv : Inv C t) (hm : Mirrored C t) {rid : Id} {cr : ContactRequest}
    (hpending : t.server.pendingRequest rid (C.user side).id = some cr) {requester : User}
    (hfound : t.server.db.findUserById cr.fromId = some requester) {s₁ : AppState}
    (hs₁ : s₁ = ((t.server.answerContactRequest rid (C.user side).id .accepted).2.pushed (C.tx side)
      (contactAccepted (t.server.member requester))).notified requester.id
        (contactAccepted (C.user side))) :
    Inv C (deliver numberText toLowerCase C s₁ t.app) ∧
      (Mirrored C (deliver numberText toLowerCase C s₁ t.app) ↔
        TakenRight toLowerCase C t side (.accepts cr.fromId)) := by
  have hs := hinv.tables
  obtain ⟨hasks, hrid⟩ := asks_of_pendingRequest hs.toRowsOk hpending
  obtain ⟨huser, -, hne⟩ := users_of_requestId hs hrid
  have hid : requester.id = cr.fromId := id_of_findUserById hfound
  have hname : t.server.winkdIdOf cr.fromId = (t.server.member requester).winkdId := by
    rw [winkdIdOf, hfound]
    rfl
  rw [hid] at hs₁
  have hr := rewritten_answer hs rid (C.user side).id .accepted
  have hrelations : (t.server.answerContactRequest rid (C.user side).id .accepted).2.relations =
      t.server.relations.after (C.user side).id (.accepts cr.fromId) :=
    relations_answerContactRequest hs hpending .accepted
  generalize (t.server.answerContactRequest rid (C.user side).id .accepted).2 = s' at *
  obtain ⟨texts, hh, hown, htold⟩ := (hinv.holding.congr hr.clients hr.channels).own_and_other side C.apart
    (contactAccepted (t.server.member requester)) hne (contactAccepted (C.user side))
  rw [← hs₁] at hh
  have hownOk := (hinv.pages side).accepted numberText toLowerCase (C.me side) huser hname
  have hotherOk : PageOk C.F s' (C.user !side).id
      (taken numberText toLowerCase C (!side) (t.app !side) (texts !side)) := by
    refine PageOk.mono ?_ hr.grows
    rw [htold]
    split
    · rw [taken_one]
      exact (hinv.pages !side).accepted _ _ _ (hinv.isUser side) (hinv.winkdIdOf side)
    · exact hinv.pages !side
  obtain ⟨hinv', hiff⟩ := rewritten_iff hinv hr (hs₁ ▸ told_state ..) hh (hown ▸ hownOk.mono hr.grows) hotherOk
  refine ⟨hinv', hiff.trans ?_⟩
  -- the page of the one who accepts
  have hownIff : s'.relations.Shows (C.user side).id ((taken numberText toLowerCase C side (t.app side)
      (texts side)).shown C.F s' (C.user side).id) ↔
        TakenRight toLowerCase C t side (.accepts cr.fromId) := by
    rw [hown, hrelations, taken_one]
    cases hlisted : (t.app side).contacts.any (sameId toLowerCase (t.server.member requester).winkdId) with
    | true =>
      obtain ⟨hids, hinbound, -⟩ := receive_accepted_listed numberText toLowerCase (C.me side) (t.app side)
        (t.server.member requester) hlisted
      refine iff_of_false (Relations.not_shows_accepts (hinv.shows hm side) hasks ?_) fun h => ?_
      · exact shown_requests_same (fun w => by rw [hr.requestId]) hinbound
      · rw [← hname, h.1] at hlisted
        cases hlisted
    | false =>
      obtain ⟨hids, hinbound, -⟩ := receive_accepted_new numberText toLowerCase (C.me side) (t.app side)
        (t.server.member requester) hlisted
      refine (Relations.accepts_own_iff (hinv.shows hm side) hne ?_ ?_).trans
        (and_iff_right (hname ▸ hlisted)).symm
      · intro w
        refine (shown_contacts_added hs hr.grows huser True (fun w => ?_) w).trans
          (or_congr_right (and_iff_left trivial))
        rw [hids, List.mem_append, List.mem_singleton, hname, and_true]
      · refine shown_requests_dropped C.uuids hs hr.tables hr.grows (hinv.pages side)
          (hownOk.mono hr.grows) huser fun r => ?_
        rw [hinbound, ← hname]
        exact mem_eraseP_from C.uuids hs (hinv.pages side) hrid
  rw [hownIff]
  refine and_iff_left_of_imp fun hright => ?_
  rw [htold]
  exact accepted_other_shows numberText toLowerCase hinv hm hasks hright.2 hr hrelations

theorem blocks_iff (hinv : Inv C t) (hm : Mirrored C t) {fields : List (String × Json)} {blocked : User}
    (hfound : blocked ∈ t.server.db.users) (hne : (C.user side).id ≠ blocked.id)
    (hfields : BlockFields C.F t.server (C.user side) blocked.id fields) (now : ℤ) {s₁ : AppState}
    (hs₁ : s₁ = ((t.server.createBlock (C.user side).id blocked.id).2.clearPendingContactRequestsBetween
      (C.user side).id blocked.id).pushed (C.tx side) (userBlocked C.F fields blocked.id blocked.winkdId
        blocked.displayName blocked.avatarData now)) :
    Inv C (deliver numberText toLowerCase C s₁ t.app) ∧
      (Mirrored C (deliver numberText toLowerCase C s₁ t.app) ↔
        TakenRight toLowerCase C t side (.blocks blocked.id)) := by
  have hs := hinv.tables
  obtain ⟨huser, hname⟩ := (hasName_iff hs).mp ⟨blocked, hfound, rfl, rfl⟩
  have hr := rewritten_block hs (C.user side).id blocked.id
  have hrelations : ((t.server.createBlock (C.user side).id
      blocked.id).2.clearPendingContactRequestsBetween (C.user side).id blocked.id).relations =
      t.server.relations.after (C.user side).id (.blocks blocked.id) := by
    rw [relations_clear, relations_createBlock hne]
    rfl
  generalize (t.server.createBlock (C.user side).id blocked.id).2.clearPendingContactRequestsBetween
    (C.user side).id blocked.id = s' at *
  have hnamed : fields = [] ∨ ∃ rid, fields = [("request_id", .str (C.F.uuid rid))] ∧
      t.server.requestId blocked.id (C.user side).id = some rid := by
    cases hfields with
    | none => exact .inl rfl
    | request hpending hsender =>
      exact .inr ⟨_, rfl, hsender ▸ (asks_of_pendingRequest hs.toRowsOk hpending).2⟩
  rw [← hname] at hs₁
  obtain ⟨texts, hh, hown, hother⟩ := (hinv.holding.congr hr.clients hr.channels).own side C.apart
    (userBlocked C.F fields blocked.id (t.server.winkdIdOf blocked.id) blocked.displayName
      blocked.avatarData now)
  rw [← hs₁] at hh
  obtain ⟨hownOk, hinbound⟩ := (hinv.pages side).contactBlocked numberText toLowerCase (C.me side) hs
    C.uuids hnamed huser blocked.displayName blocked.avatarData now
  obtain ⟨hcontacts, -⟩ := receive_blocked numberText toLowerCase (C.me side) (t.app side) C.uuids.ne_nil
    (hnamed.imp_right fun ⟨rid, h, _⟩ => ⟨rid, h⟩) blocked.id (winkdIdOf_ne_nil hs huser)
    blocked.displayName blocked.avatarData now
  obtain ⟨hotherOk, hotherContacts, hotherRequests⟩ := untold numberText toLowerCase hinv hr hother
  obtain ⟨hinv', hiff⟩ := rewritten_iff hinv hr (hs₁ ▸ pushed_state ..) hh (hown ▸ hownOk.mono hr.grows)
    hotherOk
  refine ⟨hinv', hiff.trans (and_congr ?_ ?_)⟩
  · rw [hown, hrelations, taken_one]
    refine (Relations.blocks_own_iff (hinv.shows hm side) (2 ≤ (t.app side).contacts.countP
      fun c => c.id = t.server.winkdIdOf blocked.id) ?_ ?_ ?_).trans ?_
    · intro htwice
      obtain ⟨c, hc, hid⟩ := List.countP_pos_iff.mp (Nat.lt_of_lt_of_le Nat.zero_lt_two htwice)
      exact ⟨huser, List.mem_map.mpr ⟨c, hc, of_decide_eq_true hid⟩⟩
    · exact shown_contacts_erased hs hr.grows huser hcontacts
    · exact shown_requests_dropped C.uuids hs hr.tables hr.grows (hinv.pages side)
        (hownOk.mono hr.grows) huser hinbound
    · rw [Nat.not_le, Nat.lt_succ_iff]
  · by_cases hy : blocked.id = (C.user !side).id
    · rw [hrelations, hy]
      refine (Relations.blocks_other_iff (hinv.shows hm !side) (other_ne C side) hotherContacts
        hotherRequests).trans ?_
      exact ⟨fun h _ => h, fun h => h rfl⟩
    · rw [hrelations]
      refine iff_of_true ?_ fun h => absurd h hy
      exact Relations.shows_uninvolved (hinv.shows hm !side) (other_ne C side)
        (fun h => hy (Option.some.inj h)) hotherContacts hotherRequests

theorem unblocks_iff (hinv : Inv C t) (hm : Mirrored C t) (blocked : Id) {s₁ : AppState}
    (hs₁ : s₁ = (t.server.removeBlock (C.user side).id blocked).pushed (C.tx side)
      (userUnblocked C.F blocked)) :
    Inv C (deliver numberText toLowerCase C s₁ t.app) ∧
      (Mirrored C (deliver numberText toLowerCase C s₁ t.app) ↔
        TakenRight toLowerCase C t side (.unblocks blocked)) := by
  have hs := hinv.tables
  have hr := rewritten_unblock hs (C.user side).id blocked
  have hrelations : (t.server.removeBlock (C.user side).id blocked).relations =
      t.server.relations.after (C.user side).id (.unblocks blocked) := relations_removeBlock ..
  generalize t.server.removeBlock (C.user side).id blocked = s' at *
  obtain ⟨texts, hh, hown, hother⟩ := (hinv.holding.congr hr.clients hr.channels).own side C.apart
    (userUnblocked C.F blocked)
  rw [← hs₁] at hh
  have hownOk := ((hinv.pages side).mono hr.grows).unblocked numberText toLowerCase (C.me side) C.uuids blocked
  obtain ⟨hinbound, -, -⟩ := receive_unblocked numberText toLowerCase (C.me side) (t.app side)
    (C.uuids.ne_nil blocked)
  have hids := ids_unblocked numberText toLowerCase (C.me side) hs (hinv.pages side) C.uuids blocked
  obtain ⟨hotherOk, hotherContacts, hotherRequests⟩ := untold numberText toLowerCase hinv hr hother
  obtain ⟨hinv', hiff⟩ := rewritten_iff hinv hr (hs₁ ▸ pushed_state ..) hh (hown ▸ hownOk) hotherOk
  refine ⟨hinv', hiff.trans (and_congr ?_ ?_)⟩
  · rw [hown, hrelations, taken_one]
    refine Relations.unblocks_own_iff (hinv.shows hm side) (status_self hs _) (fun w => ?_)
      (shown_requests_same (fun w => by rw [hr.requestId]) hinbound)
    cases hentry : (t.app side).blockedEntry (C.F.uuid blocked) with
    | none =>
      simp only [hentry, Option.isSome_none, Bool.false_eq_true, and_false, or_false] at hids ⊢
      simp only [shown, hids, isUser_congr hr.grows.users, winkdIdOf_congr hr.grows.users]
    | some user =>
      -- who is in the list of the blocked is a user
      obtain ⟨v, hv, huuid, -⟩ := (hinv.pages side).blocked user (List.mem_of_find?_eq_some hentry)
      have hfound : textOf user "user_id" = C.F.uuid blocked := by simpa using List.find?_some hentry
      obtain rfl := C.uuids.injective (huuid.symm.trans hfound)
      rw [hentry] at hids
      exact shown_contacts_added hs hr.grows hv _ hids w
  · by_cases hy : blocked = (C.user !side).id
    · rw [hrelations, hy]
      refine (Relations.unblocks_other_iff (hinv.shows hm !side) (other_ne C side) hotherContacts
        hotherRequests).trans ?_
      exact ⟨fun h _ => h, fun h => h rfl⟩
    · rw [hrelations]
      refine iff_of_true ?_ fun h => absurd h hy
      exact Relations.shows_uninvolved (hinv.shows hm !side) (other_ne C side)
        (fun h => hy (Option.some.inj h)) hotherContacts hotherRequests

/-- **What a command leaves of the mirror.** -/
theorem step_iff (hinv : Inv C t) (hm : Mirrored C t) {effect : ContactEffect} {s₁ : AppState}
    (h : HandledAs C.F t.server (C.user side) (C.tx side) effect s₁) :
    Inv C (deliver numberText toLowerCase C s₁ t.app) ∧
      (Mirrored C (deliver numberText toLowerCase C s₁ t.app) ↔ TakenRight toLowerCase C t side effect) := by
  cases h with
  | ignored =>
    exact nothing_iff hinv hm ⟨t.server.channels, rfl⟩ hinv.holding (fun _ => rfl) (fun _ => rfl) hinv.pages
  | refused message =>
    obtain ⟨texts, hh, hown, hother⟩ := hinv.holding.own side C.apart
      (.event "error" [("message", .str message)])
    have hsame : ∀ b, taken numberText toLowerCase C b (t.app b) (texts b) = t.app b := by
      refine (forall_side_iff side).mpr ⟨?_, ?_⟩
      · rw [hown, taken_one, receive_error]
      · rw [hother]
        rfl
    exact nothing_iff hinv hm (pushed_state ..) hh (fun b => congrArg ids (hsame b))
      (fun b => congrArg AppCore.inboundRequests (hsame b)) fun b => (hsame b).symm ▸ hinv.pages b
  | listed =>
    obtain ⟨texts, hh, hown, hother⟩ := hinv.holding.own side C.apart
      (blockedList C.F (t.server.listBlockedUsers (C.user side).id))
    refine nothing_iff hinv hm (pushed_state ..) hh ?_ ?_ ?_
    · refine (forall_side_iff side).mpr ⟨?_, by rw [hother]; rfl⟩
      rw [hown, taken_one, receive_blockedList]
      rfl
    · refine (forall_side_iff side).mpr ⟨?_, by rw [hother]; rfl⟩
      rw [hown, taken_one, receive_blockedList]
    · refine (forall_side_iff side).mpr ⟨?_, by rw [hother]; exact hinv.pages !side⟩
      rw [hown, taken_one]
      exact (hinv.pages side).blockedList _
  | asks found other unblocked => exact asks_iff hinv hm found other unblocked rfl
  | accepts pending found => exact accepts_iff hinv hm pending found rfl
  | rejects pending => exact rejects_iff hinv hm pending rfl
  | blocks found other hfields now => exact blocks_iff hinv hm found other hfields now rfl
  | unblocks blocked => exact unblocks_iff hinv hm blocked rfl

end Effects

/-! ## The start -/

section Start

/-- What a user is told when he connects. -/
def greeting (F : Formats) (entries : List SnapshotEntry) (pending : List PendingContactRequest) : List Json :=
  .event "contacts_snapshot" [("contacts", .arr (entries.map SnapshotEntry.json))] ::
    pending.map fun req =>
      contactRequestEvent F req.requestId req.fromWinkdId req.fromDisplayName req.fromAvatarData

/-- The entries of a snapshot, with the presence of the moment. -/
theorem exists_entries {s : AppState} (hs : s.ContactsOk) (u : Id) : ∃ entries : List SnapshotEntry,
    entries.map SnapshotEntry.entry = s.listContactRoster u ∧
      ∀ c ∈ entries, s.presence c.entry.userId = c.presence := by
  have hne : ∀ e ∈ s.listContactRoster u, e.winkdId ≠ [] := by
    intro e he
    obtain ⟨v, hv, hname, -⟩ := (mem_roster_iff hs).mp (List.mem_map_of_mem he)
    exact hname ▸ winkdIdOf_ne_nil hs hv
  refine ⟨(s.listContactRoster u).pmap (fun e h => ⟨e, s.presence e.userId, h⟩) hne, ?_, fun c hc => ?_⟩
  · rw [List.map_pmap]
    exact List.pmap_eq_map hne |>.trans (List.map_id _)
  · obtain ⟨e, he, rfl⟩ := List.mem_pmap.mp hc
    rfl

theorem run_pushRequests (F : Formats) (tx : ℕ) (pending : List PendingContactRequest) (s : AppState) :
    ((pushRequests F tx pending).run Server.serve s).2 = (pending.map fun req =>
      contactRequestEvent F req.requestId req.fromWinkdId req.fromDisplayName req.fromAvatarData).foldl
        (fun s text => s.pushed tx text) s := by
  induction pending generalizing s with
  | nil => rfl
  | cons req pending ih => exact ih _

/-- What connecting leaves of the state. -/
theorem welcome_eq {s : AppState} (hs : s.ContactsOk) (side : Bool) : ∃ entries : List SnapshotEntry,
    entries.map SnapshotEntry.entry = s.listContactRoster (C.user side).id ∧
      welcome C s side = (greeting C.F entries (s.listPendingInbound (C.user side).id)).foldl
        (fun s text => s.pushed (C.tx side) text) s := by
  obtain ⟨entries, hentries, hpresence⟩ := exists_entries hs (C.user side).id
  refine ⟨entries, hentries, ?_⟩
  have hroster : (flushRoster (C.user side) (C.tx side)).run Server.serve s = (.ok (), s.pushed (C.tx side)
      (.event "contacts_snapshot" [("contacts", .arr (entries.map SnapshotEntry.json))])) := by
    rw [flushRoster, run_await]
    simp only [Server.serve]
    rw [← hentries]
    exact Prog.run_bind_ok Server.serve (ContactEvent.rosterPayload_json s entries hpresence)
  obtain ⟨channels, hpushed⟩ := pushed_state s (C.tx side)
    (.event "contacts_snapshot" [("contacts", .arr (entries.map SnapshotEntry.json))])
  rw [welcome, Prog.run_bind_ok Server.serve hroster, flushPendingInbound, run_await]
  simp only [Server.serve]
  have hpending : (s.pushed (C.tx side) (.event "contacts_snapshot" [("contacts",
      .arr (entries.map SnapshotEntry.json))])).listPendingInbound (C.user side).id =
        s.listPendingInbound (C.user side).id := by
    rw [hpushed]
    rfl
  rw [hpending]
  exact run_pushRequests C.F (C.tx side) _ _

theorem pushedAll_state (tx : ℕ) (texts : List Json) (s : AppState) :
    ∃ channels, texts.foldl (fun s text => s.pushed tx text) s = { s with channels := channels } := by
  induction texts generalizing s with
  | nil => exact ⟨s.channels, rfl⟩
  | cons text texts ih =>
    obtain ⟨channels, h⟩ := pushed_state s tx text
    rw [List.foldl_cons, h]
    exact ih _

theorem holding_pushedAll (side : Bool) {s : AppState} {texts : Bool → List Json} (added : List Json)
    (h : Holding C.user C.tx s texts) : ∃ texts',
      Holding C.user C.tx (added.foldl (fun s text => s.pushed (C.tx side) text) s) texts' ∧
        texts' side = texts side ++ added ∧ texts' (!side) = texts !side := by
  induction added generalizing s texts with
  | nil => exact ⟨texts, h, (List.append_nil _).symm, rfl⟩
  | cons text added ih =>
    obtain ⟨texts', hh, hown, hother⟩ := ih (h.pushed (C.tx side) text)
    refine ⟨texts', hh, ?_, ?_⟩
    · rw [hown, Holding.told, if_pos rfl, List.append_assoc, List.singleton_append]
    · rw [hother, Holding.told, if_neg fun heq => absurd (h.tx_inj C.apart heq) (Bool.not_ne_self side)]

variable (numberText toLowerCase) in
/-- The requests are taken one by one. -/
theorem taken_requests {s : AppState} (side : Bool) {u : Id} {pending : List PendingContactRequest}
    (hpending : ∀ e ∈ pending, s.requestId e.fromUserId u = some e.requestId ∧
      s.winkdIdOf e.fromUserId = e.fromWinkdId) {app : AppCore} (hok : PageOk C.F s u app) :
    PageOk C.F s u (taken numberText toLowerCase C side app (pending.map fun req => contactRequestEvent C.F
        req.requestId req.fromWinkdId req.fromDisplayName req.fromAvatarData)) ∧
      (taken numberText toLowerCase C side app (pending.map fun req => contactRequestEvent C.F
        req.requestId req.fromWinkdId req.fromDisplayName req.fromAvatarData)).contacts = app.contacts ∧
      ∀ id, id ∈ (taken numberText toLowerCase C side app (pending.map fun req => contactRequestEvent C.F
          req.requestId req.fromWinkdId req.fromDisplayName req.fromAvatarData)).requestIds ↔
        id ∈ app.requestIds ∨ ∃ e ∈ pending, C.F.uuid e.requestId = id := by
  induction pending generalizing app with
  | nil => exact ⟨hok, rfl, fun id => (or_iff_left fun ⟨_, he, _⟩ => List.not_mem_nil he).symm⟩
  | cons e pending ih =>
    obtain ⟨hrid, hname⟩ := hpending e List.mem_cons_self
    obtain ⟨hok', hids⟩ := hok.contactRequest numberText toLowerCase (C.me side) C.uuids hrid
      e.fromDisplayName e.fromAvatarData
    obtain ⟨hcontacts, -⟩ := receive_contactRequest numberText toLowerCase (C.me side) app e.requestId
      (C.uuids.ne_nil _) e.fromWinkdId e.fromDisplayName e.fromAvatarData
    rw [hname] at hok' hids
    obtain ⟨hrest, hsame, hrequests⟩ := ih (fun e' he' => hpending e' (List.mem_cons_of_mem e he')) hok'
    refine ⟨hrest, hsame.trans hcontacts, fun id => (hrequests id).trans ?_⟩
    rw [hids, or_assoc]
    simp only [List.mem_cons, exists_eq_or_imp]
    exact or_congr_right (or_congr_left eq_comm)

/-- A page that has just been loaded mirrors the tables once it has taken the greeting. -/
theorem taken_greeting {s : AppState} (hs : s.ContactsOk) {side : Bool} {u : Id}
    {entries : List SnapshotEntry} (hentries : entries.map SnapshotEntry.entry = s.listContactRoster u)
    (convos : Convos) :
    PageOk C.F s u (taken numberText toLowerCase C side (.load convos)
        (greeting C.F entries (s.listPendingInbound u))) ∧
      Mirrors C.F s u (taken numberText toLowerCase C side (.load convos)
        (greeting C.F entries (s.listPendingInbound u))) := by
  have hsnapshot : (AppCore.load convos).receive numberText toLowerCase (C.me side)
      (.event "contacts_snapshot" [("contacts", .arr (entries.map SnapshotEntry.json))]) =
        (AppCore.load convos).handleContactsSnapshot
          (.obj [("contacts", .arr (entries.map SnapshotEntry.json))]) :=
    receive_event .contactsSnapshot _ _ (by decide)
  have hids : ((AppCore.load convos).handleContactsSnapshot
      (.obj [("contacts", .arr (entries.map SnapshotEntry.json))])).ids =
        (s.listContactRoster u).map ContactRosterEntry.winkdId := by
    rw [ids, Clients.app_snapshot, List.map_map, ← hentries, List.map_map]
    rfl
  generalize happ : (AppCore.load convos).handleContactsSnapshot
    (.obj [("contacts", .arr (entries.map SnapshotEntry.json))]) = app at *
  -- the snapshot lists the roster; the requests follow one by one
  have hinbound : app.inboundRequests = [] := by
    rw [← happ]
    rfl
  have hblocked : app.blockedUsers = [] := by
    rw [← happ]
    rfl
  have hok : PageOk C.F s u app := by
    refine ⟨fun w hw => ?_, ?_, ?_, ?_⟩
    · rw [hids] at hw
      obtain ⟨v, hv, hname, -⟩ := (mem_roster_iff hs).mp hw
      exact ⟨v, hv, hname⟩
    · rw [hinbound]
      exact fun r hr => absurd hr List.not_mem_nil
    · rw [requestIds, hinbound]
      exact List.nodup_nil
    · rw [hblocked]
      exact fun e he => absurd he List.not_mem_nil
  have hpending : ∀ e ∈ s.listPendingInbound u, s.requestId e.fromUserId u = some e.requestId ∧
      s.winkdIdOf e.fromUserId = e.fromWinkdId := by
    intro e he
    obtain ⟨hrid, -, hname⟩ := of_mem_listPendingInbound hs he
    exact ⟨hrid, hname⟩
  obtain ⟨hok', hcontacts, hrequests⟩ := taken_requests numberText toLowerCase side hpending hok
  have htaken : taken numberText toLowerCase C side (.load convos)
      (greeting C.F entries (s.listPendingInbound u)) = taken numberText toLowerCase C side app
        ((s.listPendingInbound u).map fun req => contactRequestEvent C.F req.requestId req.fromWinkdId
          req.fromDisplayName req.fromAvatarData) := by
    rw [greeting, taken, List.foldl_cons, hsnapshot]
    rfl
  rw [htaken]
  refine ⟨hok', fun id => ?_, fun rid => ?_⟩
  · rw [hcontacts]
    exact iff_of_eq (congrArg (id ∈ ·) hids)
  · refine (hrequests rid).trans ?_
    rw [requestIds, hinbound, List.map_nil, or_iff_right List.not_mem_nil, List.mem_map]

theorem start_mirrored (numberText : Text → CodeUnits) (toLowerCase : Text → Text) (C : Couple) :
    Inv C (start numberText toLowerCase C) ∧ Mirrored C (start numberText toLowerCase C) := by
  obtain ⟨entries, hentries, hwelcome⟩ := welcome_eq (C := C) C.tables false
  obtain ⟨channels, hchannels⟩ := pushedAll_state (C.tx false)
    (greeting C.F entries (C.server.listPendingInbound (C.user false).id)) C.server
  obtain ⟨texts, hh, hown, hother⟩ := holding_pushedAll false
    (greeting C.F entries (C.server.listPendingInbound (C.user false).id)) C.holding
  rw [← hwelcome] at hh hchannels
  have htables : (welcome C C.server false).ContactsOk := by
    rw [hchannels]
    exact C.tables.of_rows rfl rfl rfl
  obtain ⟨entries', hentries', hwelcome'⟩ := welcome_eq (C := C) htables true
  have hlists : (welcome C C.server false).listPendingInbound (C.user true).id =
      C.server.listPendingInbound (C.user true).id ∧
    (welcome C C.server false).listContactRoster (C.user true).id =
      C.server.listContactRoster (C.user true).id := by
    rw [hchannels]
    exact ⟨rfl, rfl⟩
  rw [hlists.1] at hwelcome'
  rw [hlists.2] at hentries'
  obtain ⟨texts', hh', hown', hother'⟩ := holding_pushedAll true
    (greeting C.F entries' (C.server.listPendingInbound (C.user true).id)) hh
  -- the second greeting is written over the tables of the first, which only pushed frames
  obtain ⟨channels', hchannels'⟩ := pushedAll_state (C.tx true)
    (greeting C.F entries' (C.server.listPendingInbound (C.user true).id)) (welcome C C.server false)
  rw [← hwelcome'] at hh' hchannels'
  have hstate : ∃ channels, welcome C (welcome C C.server false) true =
      { C.server with channels := channels } := by
    rw [hchannels', hchannels]
    exact ⟨channels', rfl⟩
  have htexts : ∀ b, ∃ entries : List SnapshotEntry,
      entries.map SnapshotEntry.entry = C.server.listContactRoster (C.user b).id ∧
        texts' b = greeting C.F entries (C.server.listPendingInbound (C.user b).id) := by
    intro b
    cases b with
    | false => exact ⟨entries, hentries, hother'.trans hown⟩
    | true => exact ⟨entries', hentries', hown'.trans (congrArg (· ++ _) hother)⟩
  have hpages : ∀ b, PageOk C.F C.server (C.user b).id
        (taken numberText toLowerCase C b (.load (C.convos b)) (texts' b)) ∧
      Mirrors C.F C.server (C.user b).id
        (taken numberText toLowerCase C b (.load (C.convos b)) (texts' b)) := by
    intro b
    obtain ⟨entries, hentries, heq⟩ := htexts b
    rw [heq]
    exact taken_greeting C.tables hentries (C.convos b)
  obtain ⟨hinv, hiff⟩ := deliver_iff hstate hh' C.tables C.named fun b => (hpages b).1
  exact ⟨hinv, hiff.mpr fun b => (mirrors_iff_shows C.uuids C.tables (hpages b).1).mp (hpages b).2⟩

end Start

/-! ## The result -/

/-- **Both pages mirror the tables in every state of a run** just if they take every command right. -/
theorem mirrored_iff (numberText : Text → CodeUnits) (toLowerCase : Text → Text) (C : Couple)
    (commands : List (Bool × ContactCommand)) :
    Throughout (next numberText toLowerCase C) (Mirrored C) (start numberText toLowerCase C) commands ↔
      Admits (next numberText toLowerCase C) (Right toLowerCase C) (start numberText toLowerCase C)
        commands := by
  obtain ⟨hinv, hm⟩ := start_mirrored numberText toLowerCase C
  have hstep : ∀ (t : Tandem) l, Inv C t → Mirrored C t → Inv C (next numberText toLowerCase C t l) ∧
      (Mirrored C (next numberText toLowerCase C t l) ↔ Right toLowerCase C t l) :=
    fun t l hinv hm => step_iff hinv hm (handled hinv.tables (hinv.named l.1) l.2 t.server.received)
  exact throughout_iff_admits (J := Inv C) (fun t l hJ hP => (hstep t l hJ hP).1)
    (fun t l hJ hP => (hstep t l hJ hP).2) hinv hm commands

namespace Sample

/-- UUIDs with twelve decimal digits of their own. -/
def formats : Formats :=
  { Server.Relay.Sample.formats with
    uuid := fun id => Server.Relay.Sample.uuidPrefix ++
      (List.replicate (12 - (Nat.toDigits 10 id).length) '0' ++ Nat.toDigits 10 id) }

theorem uuids : UuidsOk formats where
  injective a b h := by
    have hdigits := congrArg (fun t => Nat.ofDigitChars 10 t 0) (List.append_cancel_left h)
    simpa only [Nat.ofDigitChars_append, Nat.ofDigitChars_replicate_zero, Nat.mul_zero,
      Nat.ofDigitChars_ten_toDigits] using hdigits
  ne_nil id h := absurd (List.append_eq_nil_iff.mp h).1 (by decide)

def user (id : Id) (username winkdId displayName : String) : User :=
  ⟨id, username.toList, winkdId.toList, displayName.toList, [], none, none, none, none, none, false, none⟩

def ada : User := user 0 "ada" "ada#0001" "Ada"

def bob : User := user 1 "bob" "bob#0002" "Bob"

/-- Ada and Bob are connected, and there are no requests yet. -/
def server : AppState :=
  { AppState.init Relay.Sample.start with
    db := { Backend.init 0 with users := [ada, bob], drawn := 2 }
    clients := fun id => if id = 0 then some ⟨10, 0⟩ else if id = 1 then some ⟨11, 1⟩ else none
    channels := [⟨0, [], .running, []⟩, ⟨1, [], .running, []⟩] }

def member : Bool → Member
  | false => server.member ada
  | true => server.member bob

def couple : Couple where
  F := formats
  uuids := uuids
  server := server
  tables :=
    { distinct := List.nodup_nil
      users := fun _ h => absurd h List.not_mem_nil
      others := fun _ h => absurd h List.not_mem_nil
      ids := List.nodup_nil
      drawn := fun _ h => absurd h List.not_mem_nil
      accounts := ⟨by decide, by decide⟩
      names := by
        show (server.db.users.map User.winkdId).Nodup
        decide
      named := by decide }
  user := member
  named side := by
    cases side
    · exact ⟨ada, by decide, rfl, rfl⟩
    · exact ⟨bob, by decide, rfl, rfl⟩
  apart := by decide
  tx side := side.toNat
  holding :=
    { channels := fun side => by
        cases side
        · exact ⟨_, rfl, rfl, rfl⟩
        · exact ⟨_, rfl, rfl, rfl⟩
      sessions := fun side => by
        cases side
        · exact ⟨_, rfl, rfl⟩
        · exact ⟨_, rfl, rfl⟩
      alone := fun v session h side hside => by
        simp only [server] at h
        split at h
        · cases h
          cases side
          · assumption
          · cases hside
        · split at h
          · cases h
            cases side
            · cases hside
            · assumption
          · cases h }
  convos _ := fun _ => none

/-- Ada adds Bob, Bob adds Ada, and she accepts. -/
def crossing : List (Bool × ContactCommand) :=
  [(false, .addContact (.obj [("winkd_id", .ofString "bob#0002")])),
    (true, .addContact (.obj [("winkd_id", .ofString "ada#0001")])),
    (false, .acceptContact (.obj [("request_id", .str (formats.uuid 3))]))]

/-- **The request that Ada has accepted stays on her page**, since she had Bob in her list. -/
theorem accepted_request_stays :
    ¬ ∀ (numberText : Text → CodeUnits) (toLowerCase : Text → Text) (C : Couple)
      (commands : List (Bool × ContactCommand)),
      Throughout (next numberText toLowerCase C) (Mirrored C) (start numberText toLowerCase C) commands := by
  intro h
  have hlast := (h (fun _ => []) id couple crossing).last false
  have hshown : formats.uuid 3 ∈ (((crossing.foldl (next (fun _ => []) id couple)
      (start (fun _ => []) id couple)).app false).inboundRequests.map fun r => textOf r "request_id") := by
    decide
  have hnone : (crossing.foldl (next (fun _ => []) id couple)
      (start (fun _ => []) id couple)).server.listPendingInbound 0 = [] := by
    decide
  have hpending := (hlast.requests _).mp hshown
  rw [show (couple.user false).id = 0 from rfl, hnone] at hpending
  exact absurd hpending List.not_mem_nil

end Sample

end Tandem
end Winkd.Web
