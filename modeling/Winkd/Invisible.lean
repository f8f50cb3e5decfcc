import Winkd.FrameLoops
import Winkd.PresenceAgreement
import Winkd.PresenceDisclosure

/-!
# Invisible users

A user who is invisible, or has no presence entry, looks offline.  He goes on looking so
until he sets another status or registers a connection: one that registers writes `online`
to the presence store, and announces it (`invisible_stays`).
-/

namespace Winkd.Server

/-- The Winkd IDs of those whom an event shows otherwise than offline. -/
def Json.showsLive (j : Json) : List Text :=
  if j.presenceStatus = some "offline".toList then [] else j.shows

theorem showsLive_subset (j : Json) : ∀ w ∈ j.showsLive, w ∈ j.shows := by
  intro w hw
  unfold Json.showsLive at hw
  split at hw
  · cases hw
  · exact hw

/-- The user looks offline. -/
def AppState.Hidden (s : AppState) (u : Id) : Prop := shownStatus (s.presence u) = "offline"

/-! ## Programs that conceal a user -/

section Conceals
variable (F : Formats) (u : Id) (w : Text)

/-- The point does not show user `u`, whose Winkd ID is `w`, nor makes a presence entry that does. -/
def Conceals : RelayOp → Prop
  | .send _ item => w ∉ item.text.showsLive
  | .sendToAll _ item => w ∉ item.text.showsLive
  | .presenceSet a entry => a = u → shownStatus (some entry) = "offline"
  | _ => True

/-- What is replied while the user looks offline. -/
def RepliesHidden : (r : RelayOp) → r.Reply → Prop
  | .presenceGet a => fun entry => a = u → shownStatus entry = "offline"
  | .findUserBySession _ => fun user => ∀ m, user = .ok (some m) → m.id = u ∨ m.winkdId ≠ w
  | .listContactRoster _ => fun roster => ∀ c ∈ roster.toOption.getD [], c.winkdId = w → c.userId = u
  | _ => fun _ => True

/-- The program registers a connection of the user. -/
def Registers (p : RelayProg Unit) : Prop := ∃ session k, p = .request (.clientsInsert u session) k

/-- A connection of the user receives a command that sets a status. -/
def SetsStatus (p : RelayProg Unit) : Prop :=
  ∃ user tx sessionId json frames cmd, user.id = u ∧ json.bind ClientCommand.ofJson = some cmd ∧
    cmd.command = .setStatus ∧ (cmd.payload.getStr "status").isSome = true ∧
    p = fromLoop F user tx sessionId (.text json :: frames)

/-- A program, or a part of it, that conceals the user as long as he looks offline. -/
abbrev Concealing (α : Type) (p : RelayProg α) : Prop :=
  p.Until (fun _ => False) (Conceals u w) (RepliesHidden u w) fun _ => True

/-- A program that does so until it registers a connection of his, or receives a status. -/
abbrev ConcealsUntil (p : RelayProg Unit) : Prop :=
  p.Until (fun p => Registers u p ∨ SetsStatus F u p) (Conceals u w) (RepliesHidden u w) fun _ => True

end Conceals

section Handlers
variable {F : Formats} {user : Member} {u : Id} {w : Text}

theorem conceals_of_shows {j : Json} (h : w ∉ j.shows) : w ∉ j.showsLive := fun hw =>
  h (showsLive_subset j w hw)

theorem concealing_await {r : RelayOp} (hr : Conceals u w r) : Concealing u w _ (await r) :=
  Prog.until_ask hr fun _ _ => trivial

theorem concealing_compositional (a : Id) : Compositional a (Concealing u w) where
  pure _ := trivial
  bind hp hf := Prog.until_bind hp fun a _ => hf a
  common r hr := by
    refine concealing_await ?_
    cases r with
    | send c item => exact conceals_of_shows (by rw [hr.2]; exact List.not_mem_nil)
    | _ => first | exact False.elim hr | trivial

theorem concealing_broadcast {status : Text} (h : user.winkdId ≠ w ∨ status = "offline".toList) :
    Concealing u w Unit (broadcastPresenceToContacts user status) := by
  refine through_broadcastPresence (concealing_compositional user.id) status (concealing_await trivial) ?_
  refine fun ids => concealing_await ?_
  rcases h with h | rfl
  · refine conceals_of_shows ?_
    rw [shows_presence, List.mem_singleton]
    exact h.symm
  · exact fun hw => nomatch hw

/-- A mood leaves the status as it is. -/
theorem concealing_setMood (payload : Json) : Concealing u w Unit (setMood user payload) := by
  have hW := concealing_compositional (u := u) (w := w) user.id
  unfold setMood
  split
  · exact hW.pure ()
  · rename_i mood _
    refine hW.bind (concealing_await trivial) fun _ => ?_
    refine .inr ⟨trivial, fun entry hentry => ?_⟩
    cases entry with
    | none => exact hW.pure ()
    | some entry =>
      obtain ⟨status, _⟩ := entry
      refine concealing_await fun hu => (Eq.trans ?_ (hentry hu))
      cases status <;> rfl

theorem concealing_setStatus (payload : Json) (hu : user.id = u ∨ user.id ≠ u ∧ user.winkdId ≠ w)
    (hstatus : user.id = u → payload.getStr "status" = none) :
    Concealing u w Unit (setStatus user payload) := by
  have hW := concealing_compositional (u := u) (w := w) user.id
  rcases hu with hu | ⟨hu, hw⟩
  · unfold setStatus
    rw [hstatus hu]
    exact hW.pure ()
  · exact through_setStatus hW payload (fun _ => concealing_await fun h => absurd h hu)
      fun _ => concealing_broadcast (.inl hw)

/-- **A command conceals the user**, unless it sets his status. -/
theorem concealing_handleCommand (tx serial : ℕ) (cmd : ClientCommand)
    (hu : user.id = u ∨ user.id ≠ u ∧ user.winkdId ≠ w)
    (hstatus : user.id = u → cmd.command = .setStatus → cmd.payload.getStr "status" = none) :
    Concealing u w Unit (handleCommand F user tx serial cmd) := by
  have hW := concealing_compositional (u := u) (w := w) user.id
  have hask : ∀ {r : RelayOp}, Conceals u w r → Concealing u w _ (await r) := concealing_await
  have hblock := fun fields id winkdId displayName avatarData =>
    through_block (F := F) hW tx fields id winkdId displayName avatarData (hask trivial) (hask trivial)
  have hrelay := fun payload => through_relayMessage hW tx serial payload fun w _ =>
    through_deliver hW tx w _ payload (fun _ _ _ _ => hask (conceals_of_shows (by
      rw [shows_message]
      exact List.not_mem_nil))) fun _ _ => hask trivial
  obtain ⟨command, payload⟩ := cmd
  cases command with
  | addContact =>
    exact through_addContact hW tx payload fun _ => through_addTarget hW tx _ fun _ => hask trivial
  | acceptContact => exact through_acceptContact hW tx payload fun _ _ => hask trivial
  | rejectContact => exact through_rejectContact hW tx payload fun _ => hask trivial
  | blockContact => exact through_blockContact hW tx payload hblock
  | blockUser => exact through_blockUser hW tx payload hblock
  | unblockContact => exact through_unblockContact hW tx payload fun _ => hask trivial
  | listBlocked => exact through_listBlocked hW tx
  | setMood => exact concealing_setMood payload
  | setDisplayName => exact through_setDisplayName hW payload
  | setAvatar => exact through_setAvatar hW payload
  | setProfileStyle => exact through_setProfileStyle hW payload
  | setStatus => exact concealing_setStatus payload hu fun h => hstatus h rfl
  | typingStart => exact hW.pure ()
  | typingStop => exact hW.pure ()
  | _ => exact hrelay payload

/-- A roster shows the user as he looks. -/
theorem concealing_rosterPayload (contacts : List ContactRosterEntry)
    (h : ∀ c ∈ contacts, c.winkdId = w → c.userId = u) :
    (rosterPayload contacts).Until (fun _ => False) (Conceals u w) (RepliesHidden u w)
      fun payload => w ∉ shownIn payload := by
  induction contacts with
  | nil => exact fun hw => nomatch hw
  | cons c contacts ih =>
    refine .inr ⟨trivial, fun entry hentry => ?_⟩
    show (rosterPayload contacts >>= fun rest => pure (_ :: rest)).Until _ _ _ _
    refine Prog.until_bind (ih fun c hc => h c (List.mem_cons_of_mem _ hc)) fun payload hpayload => ?_
    show w ∉ shownIn (_ :: payload)
    rw [shownIn_cons]
    intro hw
    rcases List.mem_append.mp hw with hw | hw
    · split at hw
      · cases hw
      · rename_i hlive
        obtain rfl := List.mem_singleton.mp hw
        exact hlive (hentry (h c List.mem_cons_self rfl))
    · exact hpayload hw

theorem concealing_flushRoster (tx : ℕ) : Concealing u w Unit (flushRoster user tx) := by
  refine .inr ⟨trivial, fun contacts hcontacts => ?_⟩
  cases contacts with
  | error e => trivial
  | ok contacts =>
    show Concealing u w Unit (rosterPayload contacts >>= fun payload =>
      push tx (.event "contacts_snapshot" [("contacts", .arr payload)]))
    refine Prog.until_bind (concealing_rosterPayload contacts hcontacts) fun payload hpayload => ?_
    exact Prog.until_bind (M := fun _ => True) (concealing_await hpayload) fun _ _ => trivial

theorem concealing_flushQueued (tx : ℕ) : Concealing u w Unit (flushQueued user tx) := by
  refine through_flushQueued (concealing_compositional user.id) tx (concealing_await trivial) fun msg => ?_
  refine concealing_await (conceals_of_shows ?_)
  rw [shows_message]
  exact List.not_mem_nil

theorem concealing_disconnect (sessionId : Id) : Concealing u w Unit (disconnect user sessionId) := by
  exact through_disconnect (concealing_compositional user.id) sessionId (concealing_await trivial)
    (concealing_await trivial) (concealing_broadcast (.inr rfl))

/-- The receive loop conceals the user until it receives a status of his. -/
theorem conceals_fromLoop (tx : ℕ) (sessionId : Id) (frames : List Frame)
    (hu : user.id = u ∨ user.id ≠ u ∧ user.winkdId ≠ w) :
    ConcealsUntil F u w (fromLoop F user tx sessionId frames) := by
  have hend : ConcealsUntil F u w (disconnect user sessionId >>= fun _ => await (.abortSendTask tx)) :=
    Prog.until_bind (concealing_disconnect sessionId) fun _ _ => .inr ⟨trivial, fun _ _ => trivial⟩
  induction frames with
  | nil => exact .inr ⟨trivial, fun _ _ => hend⟩
  | cons frame frames ih =>
    cases frame with
    | close => exact .inr ⟨trivial, fun _ _ => hend⟩
    | other => exact .inr ⟨trivial, fun _ _ => ih⟩
    | text json =>
      by_cases hset : SetsStatus F u (fromLoop F user tx sessionId (.text json :: frames))
      · exact .inl (.inr hset)
      · refine .inr ⟨trivial, fun serial _ => ?_⟩
        show ConcealsUntil F u w (_ >>= fun _ => disconnect user sessionId >>= fun _ =>
          await (.abortSendTask tx))
        split
        · rename_i cmd hcmd
          show ConcealsUntil F u w ((handleCommand F user tx serial cmd >>= fun _ =>
            receiveLoop F user tx frames) >>= fun _ => _)
          rw [Prog.bind_assoc]
          refine Prog.until_bind (concealing_handleCommand tx serial cmd hu fun hid hc => ?_) fun _ _ => ih
          by_contra hstatus
          exact hset ⟨user, tx, sessionId, json, frames, cmd, hid, hcmd, hc,
            Option.isSome_iff_ne_none.mpr hstatus, rfl⟩
        · exact ih

theorem conceals_serveSession (frames : List Frame) (hu : user.id = u ∨ user.id ≠ u ∧ user.winkdId ≠ w) :
    ConcealsUntil F u w (serveSession F user frames) := by
  have hask : ∀ {r : RelayOp}, Conceals u w r → Concealing u w _ (await r) := concealing_await
  have hW := concealing_compositional (u := u) (w := w) user.id
  refine Prog.until_bind (hask trivial) fun tx _ => Prog.until_bind (hask trivial) fun sessionId _ => ?_
  rcases id hu with hid | ⟨hid, hw⟩
  · -- from here on it is no longer concealed
    rw [hid]
    exact .inl (.inl ⟨_, _, rfl⟩)
  · refine Prog.until_bind (hask trivial) fun _ _ => ?_
    refine Prog.until_bind (hask fun h => absurd h hid) fun _ _ => ?_
    refine Prog.until_bind (concealing_broadcast (.inl hw)) fun _ _ => ?_
    refine Prog.until_bind (concealing_flushRoster tx) fun _ _ => ?_
    refine Prog.until_bind (through_flushPendingInbound hW tx) fun _ _ => ?_
    refine Prog.until_bind (concealing_flushQueued tx) fun _ _ => ?_
    refine Prog.until_bind (hask trivial) fun _ _ => ?_
    exact conceals_fromLoop tx sessionId frames hu

/-- **A connection conceals the user until it registers for him.** -/
theorem conceals_handleSocket (socket : Socket) : ConcealsUntil F u w (handleSocket F socket) := by
  have hask : ∀ {r : RelayOp}, Conceals u w r → Concealing u w _ (await r) := concealing_await
  have hrefuse : ∀ reason, ConcealsUntil F u w (refuse reason) := fun reason =>
    Prog.until_bind (hask trivial) fun _ _ => trivial
  unfold handleSocket
  split
  · split
    · refine .inr ⟨trivial, fun user huser => ?_⟩
      rcases user with e | user | user
      · exact hrefuse _
      · exact hrefuse _
      · have hu : user.id = u ∨ user.id ≠ u ∧ user.winkdId ≠ w := by
          have := huser user rfl
          tauto
        show ConcealsUntil F u w (confirmAndServe F user socket)
        refine Prog.until_bind (hask trivial) fun _ _ => Prog.until_bind (hask trivial) fun _ _ => ?_
        refine Prog.until_bind (hask trivial) fun _ _ => Prog.until_bind (hask trivial) fun sent _ => ?_
        cases sent with
        | false => exact trivial
        | true => exact conceals_serveSession _ hu
    · exact hrefuse _
  · exact hrefuse _

/-- **Who sets his status to invisible looks offline afterwards.** -/
theorem setStatus_hides (user : Member) {payload : Json}
    (hpayload : payload.getStr "status" = some "invisible".toList) (s : AppState) :
    ((setStatus user payload).run serve s).2.Hidden user.id := by
  have hbroadcast : ∀ t : AppState, t.Hidden user.id → (broadcastPresenceToContacts user
      "offline".toList).wp serve (fun _ t => t.Hidden user.id) (fun _ t => t.Hidden user.id) t := by
    intro t ht
    have hasks : (broadcastPresenceToContacts user "offline".toList).Asks fun r =>
        r.writesPresence = false :=
      through_broadcastPresence (asks_compositional (u := user.id) fun r hr => by
        cases r <;> first | rfl | exact False.elim hr) _ (Prog.asks_ask rfl) fun _ => Prog.asks_ask rfl
    refine hasks.wp (fun r t hr ht => ?_) ht
    rw [AppState.Hidden, (serve_unwritten r t).presence hr]
    exact ht
  refine Prog.run_of_wp (M := fun t : AppState => t.Hidden user.id) ?_
  unfold setStatus
  rw [hpayload]
  dsimp only
  simp only [updatePresence, Prog.wp_bind, Prog.wp_ask, if_pos, serve]
  split
  · refine hbroadcast _ ?_
    show shownStatus (Function.update s.presence user.id _ user.id) = "offline"
    rw [Function.update_self]
    rfl
  · rename_i hentry
    refine hbroadcast s ?_
    rw [AppState.Hidden, hentry]
    rfl

end Handlers

/-! ## In a run -/

/-- The step shows the user otherwise than offline. -/
def ShowsLive (w : Text) (e : RelayEntry) : Prop := ∃ p ∈ e.request.sends e.before, w ∈ p.2.text.showsLive

namespace Relay
variable {F : Formats} {u : Id} {w : Text}

/-- The step neither registers a connection of the user nor receives a status of his. -/
def LeavesHidden (F : Formats) (u : Id) (s : Relay) : RelayEvent → Prop
  | .step i => ∀ p ∈ s.tasks[i]?, ¬ (Registers u p ∨ SetsStatus F u p)
  | _ => True

/-- Each handler that is mid-way conceals the user. -/
def Quiet (F : Formats) (u : Id) (w : Text) (s : Relay) : Prop :=
  ∀ p ∈ s.tasks, Threads.Pool.resting RelayOp.isNextFrame p = true ∨ ConcealsUntil F u w p

theorem AtRest.quiet {s : Relay} (hs : s.AtRest) : s.Quiet F u w := fun p hp => .inl (hs p hp)

/-- The user looks offline, and every connection conceals him.  Since `earlier` nobody was shown him
otherwise. -/
structure Concealed (F : Formats) (u : Id) (w : Text) (earlier : List RelayEntry) (s : Relay) : Prop where
  hidden : s.state.Hidden u
  name : s.state.db.HasName u w
  unique : s.state.db.NamesUnique
  tasks : ∀ p ∈ s.tasks, ConcealsUntil F u w p
  since : ∃ later, s.trace = later ++ earlier ∧ ∀ e ∈ later, ¬ ShowsLive w e

/-- A connection in its receive loop conceals the user. -/
theorem concealsUntil_of_resting {s : Relay} (hs : s.Reached F) (hname : s.state.db.HasName u w)
    {i : ℕ} {p : RelayProg Unit} (hp : s.tasks[i]? = some p)
    (hrest : Threads.Pool.resting RelayOp.isNextFrame p = true) : ConcealsUntil F u w p := by
  obtain ⟨start, hreach⟩ := hs
  cases p with
  | pure a => exact trivial
  | throw e => exact e.elim
  | request r k =>
    cases r with
    | nextFrame =>
      obtain ⟨user, tx, sessionId, frames, hcopy, hloop⟩ := looping hreach hp
      rw [Option.some.inj (hp.symm.trans hloop)]
      refine conceals_fromLoop tx sessionId frames ?_
      by_cases hu : user.id = u
      · exact .inl hu
      · refine .inr ⟨hu, ?_⟩
        rintro rfl
        exact hu (name_unique (named hreach).unique hname ((foundUsers hreach).own i user hcopy))
    | _ => cases hrest

/-- What is replied while the user looks offline. -/
theorem repliesHidden {s : AppState} (hhidden : s.Hidden u) (hname : s.db.HasName u w)
    (hunique : s.db.NamesUnique) (r : RelayOp) : RepliesHidden u w r (serve r s).1 := by
  cases r with
  | presenceGet a =>
    rintro rfl
    exact hhidden
  | findUserBySession token =>
    intro m hm
    by_contra hnot
    obtain ⟨hid, hw⟩ := not_or.mp hnot
    obtain ⟨x, hx, rfl⟩ := Option.map_eq_some_iff.mp (Except.ok.inj hm)
    obtain ⟨row, -, hrow⟩ := Option.bind_eq_some_iff.mp hx
    exact hid (name_unique hunique hname ⟨x, List.mem_of_find?_eq_some hrow, rfl, not_not.mp hw⟩)
  | listContactRoster a =>
    rintro c hc rfl
    exact name_unique hunique hname (hasName_roster hc)
  | _ => trivial

/-- What conceals the user leaves him looking offline. -/
theorem hidden_step {s : AppState} (hs : s.Hidden u) {r : RelayOp} (hr : Conceals u w r) :
    (serve r s).2.Hidden u := by
  by_cases hw : r.writesPresence = true
  · cases r with
    | presenceSet a entry =>
      show shownStatus (Function.update s.presence a (some entry) u) = "offline"
      by_cases ha : u = a
      · subst ha
        rw [Function.update_self]
        exact hr rfl
      · rw [Function.update_of_ne ha]
        exact hs
    | presenceRemove a =>
      show shownStatus (Function.update s.presence a none u) = "offline"
      by_cases ha : u = a
      · subst ha
        rw [Function.update_self]
        rfl
      · rw [Function.update_of_ne ha]
        exact hs
    | _ => cases hw
  · rw [AppState.Hidden, (serve_unwritten r s).presence (Bool.eq_false_iff.mpr hw)]
    exact hs

/-- What conceals the user shows him to nobody. -/
theorem not_showsLive {s : Relay} {i : ℕ} {r : RelayOp} (hr : Conceals u w r) :
    ¬ ShowsLive w (s.entry serve i r) := by
  rintro ⟨p, hp, hw⟩
  cases r with
  | send c item =>
    obtain rfl := List.mem_singleton.mp hp
    exact hr hw
  | sendToAll ids item =>
    obtain ⟨a, -, ha⟩ := List.mem_filterMap.mp hp
    obtain ⟨session, -, rfl⟩ := Option.map_eq_some_iff.mp ha
    exact hr hw
  | _ => cases hp

theorem Concealed.outside {earlier : List RelayEntry} {s : Relay} (hs : s.Concealed F u w earlier)
    (e : RelayEvent) : Concealed F u w earlier { s with state := s.state.outside e } where
  hidden := by
    rw [AppState.Hidden, (outside_contacts s.state e).2.2]
    exact hs.hidden
  name := outside_hasName s.state e hs.name
  unique := outside_namesUnique s.state e hs.unique
  tasks := hs.tasks
  since := hs.since

theorem Concealed.next {earlier : List RelayEntry} {s : Relay} (hs : s.Concealed F u w earlier)
    {e : RelayEvent} (he : s.LeavesHidden F u e) : (s.next F e).Concealed F u w earlier := by
  cases e with
  | connect socket =>
    refine ⟨hs.hidden, hs.name, hs.unique, fun p hp => ?_, hs.since⟩
    rcases List.mem_append.mp hp with hp | hp
    · exact hs.tasks p hp
    · rw [List.mem_singleton.mp hp]
      exact conceals_handleSocket socket
  | step i =>
    show Concealed F u w earlier (Threads.Pool.next serve s (.answer i))
    rcases Threads.Pool.next_answer_cases (h := serve) s i with heq | ⟨r, k, hp, heq⟩
    · rw [heq]
      exact hs
    · rw [heq]
      have hnames := serve_names r s.state
      obtain ⟨hr, hk⟩ := (hs.tasks _ (List.mem_of_getElem? hp)).resolve_left (he _ hp)
      refine ⟨hidden_step hs.hidden hr, hnames.kept u w hs.name, hnames.unique hs.unique, ?_, ?_⟩
      · intro p hmem
        rcases List.mem_or_eq_of_mem_set hmem with hmem | rfl
        · exact hs.tasks p hmem
        · exact hk _ (repliesHidden hs.hidden hs.name hs.unique r)
      · obtain ⟨later, htrace, hlater⟩ := hs.since
        refine ⟨s.entry serve i r :: later, congrArg _ htrace, fun e he => ?_⟩
        rcases List.mem_cons.mp he with rfl | he
        · exact not_showsLive hr
        · exact hlater e he
  | _ => exact hs.outside _

/-- **Who looks offline is not shown otherwise to anybody**, in any run from a state where no handler
mid-way is about to, until he registers a connection or sets his status. -/
theorem invisible_stays {s₀ s : Relay} (hs : s₀.Reached F) (hname : s₀.state.db.HasName u w)
    (hhidden : s₀.state.Hidden u) (hquiet : s₀.Quiet F u w)
    (h : Transitions.Reaches (next F) (LeavesHidden F u) s₀ s) :
    ∃ later, s.trace = later ++ s₀.trace ∧ ∀ e ∈ later, ¬ ShowsLive w e := by
  have hstart : s₀.Concealed F u w s₀.trace := by
    refine ⟨hhidden, hname, ?_, ?_, [], rfl, fun _ h => nomatch h⟩
    · obtain ⟨start, hreach⟩ := hs
      exact (named hreach).unique
    · intro p hp
      obtain ⟨i, hi⟩ := List.getElem?_of_mem hp
      exact (hquiet p hp).elim (concealsUntil_of_resting hs hname hi) id
  exact (h.invariant hstart fun _ _ hs he => hs.next he).since

/-- The step receives no status of the user. -/
def NoStatus (F : Formats) (u : Id) (s : Relay) : RelayEvent → Prop
  | .step i => ∀ p ∈ s.tasks[i]?, ¬ SetsStatus F u p
  | _ => True

theorem waiting_of_setsStatus {s : Relay} {i : ℕ} {p : RelayProg Unit} (hp : s.tasks[i]? = some p)
    (h : SetsStatus F u p) : s.waiting i = some .nextFrame := by
  obtain ⟨user, tx, sessionId, json, frames, cmd, -, -, -, -, rfl⟩ := h
  exact waiting_fromLoop hp

namespace Sample

/-- The step is of no connection that waits for a frame. -/
def NoFrame (s : Relay) : RelayEvent → Prop
  | .step i => (s.waiting i).any RelayOp.isNextFrame = false
  | _ => True

/-- The step registers no connection of the user. -/
def NoRegistration (u : Id) (s : Relay) : RelayEvent → Prop
  | .step i => ∀ r ∈ s.waiting i, (match r with
      | .clientsInsert a _ => a ≠ u
      | _ => True)
  | _ => True

instance (s : Relay) : ∀ e, Decidable (NoFrame s e)
  | .step i => inferInstanceAs (Decidable ((s.waiting i).any RelayOp.isNextFrame = false))
  | .connect _ => isTrue trivial
  | .forward _ => isTrue trivial
  | .fail _ => isTrue trivial
  | .drop _ => isTrue trivial
  | .account _ => isTrue trivial
  | .supporter _ _ => isTrue trivial
  | .clock _ => isTrue trivial

instance (u : Id) (s : Relay) : ∀ e, Decidable (NoRegistration u s e)
  | .step i => by
    unfold NoRegistration
    have : ∀ r : RelayOp, Decidable (match r with
        | .clientsInsert a _ => a ≠ u
        | _ => True) := fun r => by split <;> infer_instance
    infer_instance
  | .connect _ => isTrue trivial
  | .forward _ => isTrue trivial
  | .fail _ => isTrue trivial
  | .drop _ => isTrue trivial
  | .account _ => isTrue trivial
  | .supporter _ _ => isTrue trivial
  | .clock _ => isTrue trivial

instance (w : Text) (e : RelayEntry) : Decidable (ShowsLive w e) :=
  inferInstanceAs (Decidable (∃ p ∈ e.request.sends e.before, w ∈ p.2.text.showsLive))

theorem NoFrame.noStatus {s : Relay} {e : RelayEvent} (h : NoFrame s e) : s.NoStatus formats u e := by
  cases e with
  | step i =>
    intro p hp hset
    rw [NoFrame, waiting_of_setsStatus hp hset] at h
    cases h
  | _ => trivial

theorem leavesHidden {s : Relay} {e : RelayEvent} (h : NoFrame s e) (h' : NoRegistration u s e) :
    s.LeavesHidden formats u e := by
  cases e with
  | step i =>
    rintro p hp (⟨session, k, rfl⟩ | hset)
    · exact h' _ (Threads.Pool.waiting_eq hp) rfl
    · exact h.noStatus p hp hset
  | _ => trivial

/-- A command that sets a status. -/
def statusFrame (status : String) : Frame :=
  .text (some (.obj [("command", .ofString "set_status"),
    ("payload", .obj [("status", .ofString status)])]))

/-- Ada adds Bob; he accepts, and sets his status to invisible. -/
def wentInvisible : List RelayEvent :=
  accounts ++ connected 0 23 "ada's token" [commandFrame "add_contact" "bob#0002"] ++
    connected 1 27 "bob's token" [answerFrame "accept_contact" 3, statusFrame "invisible"]

theorem wentInvisible_reached : (after wentInvisible).Reached formats := after_reached (by decide)

theorem wentInvisible_name : (after wentInvisible).state.db.HasName 1 "bob#0002".toList := by
  unfold Backend.HasName
  decide +kernel

theorem wentInvisible_hidden : (after wentInvisible).state.Hidden 1 := by
  unfold AppState.Hidden
  decide +kernel

/-- Ada connects again, and gets a snapshot of her roster. -/
theorem invisible_stays_adaReconnects :
    ∃ later, ((connected 2 15 "ada's token" []).foldl (Relay.next formats) (after wentInvisible)).trace =
      later ++ (after wentInvisible).trace ∧ ∀ e ∈ later, ¬ ShowsLive "bob#0002".toList e := by
  have hadmits : Transitions.Admits (Relay.next formats) (fun s e => NoFrame s e ∧ NoRegistration 1 s e)
      (after wentInvisible) (connected 2 15 "ada's token" []) := by
    decide +kernel
  have hrest : (after wentInvisible).AtRest := by decide +kernel
  exact invisible_stays wentInvisible_reached wentInvisible_name wentInvisible_hidden (AtRest.quiet hrest)
    (hadmits.reaches.mono fun _ _ he => leavesHidden he.1 he.2)

/-- Bob connects again, and Ada is told that he is online. -/
theorem invisible_user_shown :
    ¬ ∀ (s₀ s : Relay) (u : Id) (w mood : Text), s₀.Reached formats → s₀.AtRest →
      s₀.state.db.HasName u w → s₀.state.presence u = some ⟨.invisible, mood⟩ →
      Transitions.Reaches (Relay.next formats) (NoStatus formats u) s₀ s →
      ∃ later, s.trace = later ++ s₀.trace ∧ ∀ e ∈ later, ¬ ShowsLive w e := by
  intro h
  have hadmits : Transitions.Admits (Relay.next formats) NoFrame (after wentInvisible)
      (connected 2 11 "bob's token" []) := by
    decide +kernel
  have hrun := hadmits.reaches.mono fun _ _ he => NoFrame.noStatus (u := 1) he
  have hstatus : (after wentInvisible).state.presence 1 = some ⟨.invisible, []⟩ := by decide +kernel
  obtain ⟨later, htrace, hlater⟩ := h _ _ 1 _ [] wentInvisible_reached (by decide +kernel)
    wentInvisible_name hstatus hrun
  have hlive : ∀ e ∈ ((connected 2 11 "bob's token" []).foldl (Relay.next formats)
      (after wentInvisible)).trace.head?, ShowsLive "bob#0002".toList e := by
    decide +kernel
  cases later with
  | nil =>
    have hlen := congrArg List.length htrace
    revert hlen
    decide +kernel
  | cons e later => exact hlater e List.mem_cons_self (hlive e (by rw [htrace]; rfl))

end Sample

end Relay
end Winkd.Server
