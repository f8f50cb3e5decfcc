import Winkd.AtMostOnce

/-!
# What happens to the channels

A step of a connection opens a channel, pushes a message onto one, spawns or stops a
forwarding task, or does nothing to the channels but push other events
(`ChannelsEffect`).  So a channel keeps its user; what is forwarded on it is for that
user (`Reached.addressed`); and a connection that is being set up is the only one to know
that its forwarding task has not been spawned (`Reached.settingUp`).
-/

namespace Winkd.Server

/-- The message that an event forwards. -/
def Item.forwarded (i : Item) : Option Relayed := i.label.forwarded

namespace Channel

/-- The messages waiting in a channel. -/
def waiting (c : Channel) : List Relayed := c.queue.filterMap Item.forwarded

/-- The messages that were written to its socket. -/
def delivered (c : Channel) : List Relayed := c.written.filterMap Item.forwarded

/-- Pushing an event. -/
def push (item : Item) (c : Channel) : Channel := { c with queue := c.queue ++ [item] }

/-- The channel may have got events that forward no message. -/
structure Quiet (c c' : Channel) : Prop where
  user : c'.user = c.user
  forwarding : c'.forwarding = c.forwarding
  written : c'.written = c.written
  waiting : c'.waiting = c.waiting
  /-- A channel that was closed stays empty. -/
  queue : c.forwarding = .ended → c'.queue = c.queue

theorem Quiet.refl (c : Channel) : Quiet c c := ⟨rfl, rfl, rfl, rfl, fun _ => rfl⟩

theorem Quiet.trans {a b c : Channel} (h : Quiet a b) (h' : Quiet b c) : Quiet a c where
  user := h'.user.trans h.user
  forwarding := h'.forwarding.trans h.forwarding
  written := h'.written.trans h.written
  waiting := h'.waiting.trans h.waiting
  queue he := (h'.queue (h.forwarding.trans he)).trans (h.queue he)

theorem quiet_push {c : Channel} {item : Item} (hopen : c.forwarding ≠ .ended)
    (hi : item.forwarded = none) : Quiet c (c.push item) where
  user := rfl
  forwarding := rfl
  written := rfl
  waiting := by simp [waiting, push, hi]
  queue he := absurd he hopen

end Channel

/-- Channel by channel. -/
abbrev QuietChannels (l l' : List Channel) : Prop := List.Forall₂ Channel.Quiet l l'

theorem QuietChannels.refl (l : List Channel) : QuietChannels l l :=
  List.forall₂_same.mpr fun c _ => Channel.Quiet.refl c

theorem QuietChannels.trans {a b c : List Channel} (h : QuietChannels a b)
    (h' : QuietChannels b c) : QuietChannels a c := by
  induction h generalizing c with
  | nil => exact h'
  | cons hx _ ih =>
    cases h' with
    | cons hy ht => exact .cons (hx.trans hy) (ih ht)

theorem quietChannels_modify {l : List Channel} {i : ℕ} {f : Channel → Channel}
    (h : ∀ c, l[i]? = some c → Channel.Quiet c (f c)) : QuietChannels l (l.modify i f) := by
  induction l generalizing i with
  | nil =>
    rw [List.modify_nil]
    exact .nil
  | cons c l ih =>
    cases i with
    | zero => exact .cons (h c rfl) (QuietChannels.refl l)
    | succ i => exact .cons (.refl c) (ih fun c' hc => h c' hc)

/-- What a step does to the channels. -/
inductive ChannelsEffect (s : AppState) (r : RelayOp) (t : AppState) : Prop
  | quiet (h : QuietChannels s.channels t.channels) (other : (Deed.of s r (serve r s).1).pushes = [])
  | forwarded (c : ℕ) (item : Item) (m : Relayed) (request : r = .send c item)
      (message : item.forwarded = some m) (isOpen : s.isOpen c = true)
      (deed : (Deed.of s r (serve r s).1).pushes = [m])
      (h : t.channels = s.channels.modify c (Channel.push item))
  | opened (u : Id) (request : r = .unboundedChannel u)
      (h : t.channels = s.channels ++ [⟨u, [], .notSpawned, []⟩])
  | spawned (c : ℕ) (request : r = .spawnSendTask c)
      (h : t.channels = s.channels.modify c fun ch => { ch with forwarding := .running })
  | stopped (c : ℕ) (request : r = .abortSendTask c)
      (h : t.channels = s.channels.modify c fun ch =>
        { ch with forwarding := if ch.forwarding = .running then .aborted else ch.forwarding })

theorem isOpen_iff {s : AppState} {c : ℕ} :
    s.isOpen c = true ↔ ∃ ch, s.channels[c]? = some ch ∧ ch.forwarding ≠ .ended := by
  simp [AppState.isOpen, Option.any_eq_true]

theorem quiet_send (s : AppState) (c : ℕ) {item : Item} (hi : item.forwarded = none) :
    QuietChannels s.channels (s.send c item).2.channels := by
  rw [AppState.send]
  split
  · rename_i hopen
    obtain ⟨ch, hch, hne⟩ := isOpen_iff.mp hopen
    refine quietChannels_modify ?_
    intro ch' hch'
    cases hch.symm.trans hch'
    exact Channel.quiet_push hne hi
  · exact .refl _

theorem quiet_sendToAll (s : AppState) (ids : List Id) {item : Item}
    (hi : item.forwarded = none) : QuietChannels s.channels (s.sendToAll ids item).channels := by
  unfold AppState.sendToAll
  induction ids generalizing s with
  | nil => exact .refl _
  | cons id ids ih =>
    rw [List.foldl_cons]
    split
    · exact (quiet_send s _ hi).trans (ih _)
    · exact ih s

theorem serve_channels {d : Custody} (r : RelayOp) (s : AppState) (hr : d.may r) :
    ChannelsEffect s r (serve r s).2 := by
  have hkept : ∀ t : AppState, t.channels = s.channels → QuietChannels s.channels t.channels := by
    intro t ht
    rw [ht]
    exact .refl _
  by_cases ht : r.onlyTables = true
  · obtain ⟨db, contactRequests, blocks, hs⟩ := serve_onlyTables ht s
    exact .quiet (hkept _ (by rw [hs])) (by rw [deed_onlyTables ht]; rfl)
  cases r with
  | send c item =>
    obtain ⟨text, label⟩ := item
    cases label with
    | live m =>
      -- what is sent to a closed channel is lost
      cases hopen : s.isOpen c with
      | false =>
        have hs : s.send c ⟨text, .live m⟩ = (false, s) := by simp [AppState.send, hopen]
        exact .quiet (by simp only [serve, hs]; exact .refl _) (by simp [Deed.of, serve, hs, Deed.pushes])
      | true =>
        refine .forwarded c _ m rfl rfl hopen ?_ ?_
        · simp [Deed.of, serve, AppState.send, hopen, Deed.pushes]
        · simp only [serve, AppState.send, hopen, if_true]
          rfl
    | queued m =>
      cases hopen : s.isOpen c with
      | false =>
        have hs : s.send c ⟨text, .queued m⟩ = (false, s) := by simp [AppState.send, hopen]
        exact .quiet (by simp only [serve, hs]; exact .refl _) (by simp [Deed.of, serve, hs, Deed.pushes])
      | true =>
        refine .forwarded c _ m rfl rfl hopen ?_ ?_
        · simp [Deed.of, serve, AppState.send, hopen, Deed.pushes]
        · simp only [serve, AppState.send, hopen, if_true]
          rfl
    | echo m => exact .quiet (quiet_send s c rfl) rfl
    | other => exact .quiet (quiet_send s c rfl) rfl
  | sendToAll ids item =>
    have hl : item.label = .other := hr
    exact .quiet (quiet_sendToAll s ids (by rw [Item.forwarded, hl]; rfl)) rfl
  | unboundedChannel u => exact .opened u rfl rfl
  | spawnSendTask c => exact .spawned c rfl rfl
  | abortSendTask c => exact .stopped c rfl rfl
  | queuePendingMessage m clientMsgId payload =>
    refine .quiet (hkept _ ?_) ?_
    · simp only [serve, AppState.queuePendingMessage_state]
      split <;> rfl
    · simp only [Deed.of]
      split <;> rfl
  | clientsRemove u sessionId =>
    refine .quiet (hkept _ ?_) rfl
    simp only [serve, AppState.clientsRemove]
    split <;> rfl
  | drainPendingMessages u => exact .quiet (.refl _) rfl
  | clientsInsert u session => exact .quiet (.refl _) rfl
  | presenceSet u entry => exact .quiet (.refl _) rfl
  | presenceRemove u => exact .quiet (.refl _) rfl
  | nextFrame => exact .quiet (.refl _) rfl
  | _ => exact absurd rfl ht

/-! ## Whose channels they are -/

/-- The channel is a user's. -/
def AppState.BelongsTo (s : AppState) (channel : ℕ) (u : Id) : Prop :=
  ∃ c, s.channels[channel]? = some c ∧ c.user = u

/-- What is forwarded on a channel is for its user; a closed channel is empty; nothing is
written before the forwarding task is spawned. -/
structure Channel.Sound (c : Channel) : Prop where
  waiting : ∀ m ∈ c.waiting, m.recipientId = c.user
  delivered : ∀ m ∈ c.delivered, m.recipientId = c.user
  ended : c.forwarding = .ended → c.queue = []
  unwritten : c.forwarding = .notSpawned → c.written = []

theorem QuietChannels.get {l l' : List Channel} (h : QuietChannels l l') {i : ℕ} {c : Channel}
    (hc : l[i]? = some c) : ∃ c', l'[i]? = some c' ∧ Channel.Quiet c c' := by
  induction h generalizing i with
  | nil => cases hc
  | cons hx _ ih =>
    cases i with
    | zero => cases hc; exact ⟨_, rfl, hx⟩
    | succ i => exact ih hc

theorem QuietChannels.of_mem {l l' : List Channel} (h : QuietChannels l l') {c' : Channel}
    (hc : c' ∈ l') : ∃ c ∈ l, Channel.Quiet c c' := by
  induction h with
  | nil => cases hc
  | cons hx _ ih =>
    rcases List.mem_cons.mp hc with rfl | hc
    · exact ⟨_, List.mem_cons_self, hx⟩
    · obtain ⟨c, hmem, hq⟩ := ih hc
      exact ⟨c, List.mem_cons_of_mem _ hmem, hq⟩

/-- A channel of a list in which one was modified. -/
theorem mem_modify_cases {l : List Channel} {i : ℕ} {f : Channel → Channel} {c : Channel}
    (hc : c ∈ l.modify i f) : c ∈ l ∨ ∃ c', l[i]? = some c' ∧ c = f c' := by
  obtain ⟨j, hj⟩ := List.mem_iff_getElem?.mp hc
  rw [List.getElem?_modify] at hj
  obtain ⟨c', hc', hf⟩ := Option.map_eq_some_iff.mp hj
  by_cases hij : i = j
  · rw [if_pos hij] at hf
    subst hij
    exact .inr ⟨c', hc', hf.symm⟩
  · rw [if_neg hij] at hf
    exact .inl (hf ▸ List.mem_of_getElem? hc')

/-- A channel is still there when one of the list was modified. -/
theorem getElem?_modify_cases {l : List Channel} {i : ℕ} (f : Channel → Channel) {j : ℕ}
    {c : Channel} (hc : l[j]? = some c) :
    (l.modify i f)[j]? = some c ∨ i = j ∧ (l.modify i f)[j]? = some (f c) := by
  rw [List.getElem?_modify, hc]
  by_cases hij : i = j
  · exact .inr ⟨hij, by simp [hij]⟩
  · exact .inl (by simp [hij])

theorem AppState.BelongsTo.modify {s t : AppState} {channel : ℕ} {u : Id}
    (h : s.BelongsTo channel u) {i : ℕ} {f : Channel → Channel}
    (ht : t.channels = s.channels.modify i f) (hf : ∀ c, (f c).user = c.user) :
    t.BelongsTo channel u := by
  obtain ⟨c, hc, hu⟩ := h
  rw [AppState.BelongsTo, ht]
  rcases getElem?_modify_cases f hc with h | ⟨-, h⟩
  · exact ⟨c, h, hu⟩
  · exact ⟨f c, h, (hf c).trans hu⟩

/-- A channel stays its user's. -/
theorem ChannelsEffect.belongsTo {s t : AppState} {r : RelayOp} (h : ChannelsEffect s r t)
    {channel : ℕ} {u : Id} (hb : s.BelongsTo channel u) : t.BelongsTo channel u := by
  cases h with
  | quiet hq _ =>
    obtain ⟨c, hc, hu⟩ := hb
    obtain ⟨c', hc', hquiet⟩ := hq.get hc
    exact ⟨c', hc', hquiet.user.trans hu⟩
  | forwarded c item m _ _ _ _ ht => exact hb.modify ht fun _ => rfl
  | opened u' _ ht =>
    obtain ⟨c, hc, hu⟩ := hb
    refine ⟨c, ?_, hu⟩
    rw [ht, List.getElem?_append_left (List.getElem?_eq_some_iff.mp hc).1]
    exact hc
  | spawned c _ ht => exact hb.modify ht fun _ => rfl
  | stopped c _ ht => exact hb.modify ht fun _ => rfl

theorem ChannelsEffect.length_eq {s t : AppState} {r : RelayOp} (h : ChannelsEffect s r t)
    (hr : ∀ u, r ≠ .unboundedChannel u) : t.channels.length = s.channels.length := by
  cases h with
  | quiet hq _ => exact hq.length_eq.symm
  | forwarded c item m _ _ _ _ ht => rw [ht, List.length_modify]
  | opened u hu _ => exact absurd hu (hr u)
  | spawned c _ ht => rw [ht, List.length_modify]
  | stopped c _ ht => rw [ht, List.length_modify]

/-- A channel that has no forwarding task gets none unless one is spawned for it. -/
theorem ChannelsEffect.notSpawned {s t : AppState} {r : RelayOp} (h : ChannelsEffect s r t) {c : ℕ}
    (hc : ∃ ch, s.channels[c]? = some ch ∧ ch.forwarding = .notSpawned)
    (hr : r ≠ .spawnSendTask c) :
    ∃ ch, t.channels[c]? = some ch ∧ ch.forwarding = .notSpawned := by
  obtain ⟨ch, hch, hn⟩ := hc
  cases h with
  | quiet hq _ =>
    obtain ⟨ch', hch', hquiet⟩ := hq.get hch
    exact ⟨ch', hch', hquiet.forwarding.trans hn⟩
  | forwarded c' item m _ _ _ _ ht =>
    rw [ht]
    rcases getElem?_modify_cases (i := c') (Channel.push item) hch with h | ⟨-, h⟩
    · exact ⟨ch, h, hn⟩
    · exact ⟨_, h, hn⟩
  | opened u _ ht =>
    refine ⟨ch, ?_, hn⟩
    rw [ht, List.getElem?_append_left (List.getElem?_eq_some_iff.mp hch).1]
    exact hch
  | spawned c' hc' ht =>
    rw [ht]
    rcases getElem?_modify_cases (i := c') _ hch with h | ⟨heq, h⟩
    · exact ⟨ch, h, hn⟩
    · exact absurd (heq ▸ hc') hr
  | stopped c' _ ht =>
    rw [ht]
    rcases getElem?_modify_cases (i := c') _ hch with h | ⟨-, h⟩
    · exact ⟨ch, h, hn⟩
    · exact ⟨_, h, by simp [hn]⟩

namespace Channel

theorem user_forward (c : Channel) : c.forward.user = c.user := by
  unfold forward
  split
  · split <;> rfl
  · rfl

theorem user_fail (c : Channel) : c.fail.user = c.user := by
  unfold fail
  split <;> rfl

theorem user_drop (c : Channel) : c.drop.user = c.user := by
  unfold drop
  split <;> rfl

theorem Sound.quiet {c c' : Channel} (hc : c.Sound) (h : Quiet c c') : c'.Sound where
  waiting := by rw [h.waiting, h.user]; exact hc.waiting
  delivered := by rw [Channel.delivered, h.written, h.user]; exact hc.delivered
  ended he := by
    have he : c.forwarding = .ended := h.forwarding.symm.trans he
    rw [h.queue he]
    exact hc.ended he
  unwritten hn := h.written.trans (hc.unwritten (h.forwarding.symm.trans hn))

theorem Sound.push {c : Channel} (hc : c.Sound) {item : Item} {m : Relayed}
    (hopen : c.forwarding ≠ .ended) (hi : item.forwarded = some m) (hm : m.recipientId = c.user) :
    (c.push item).Sound where
  waiting := by
    intro m' hm'
    have hw : (c.push item).waiting = c.waiting ++ [m] := by simp [Channel.waiting, Channel.push, hi]
    rw [hw, List.mem_append, List.mem_singleton] at hm'
    rcases hm' with hm' | rfl
    · exact hc.waiting m' hm'
    · exact hm
  delivered := hc.delivered
  ended he := absurd he hopen
  unwritten := hc.unwritten

theorem Sound.opened (u : Id) : Channel.Sound ⟨u, [], .notSpawned, []⟩ where
  waiting _ hm := nomatch hm
  delivered _ hm := nomatch hm
  ended h := nomatch h
  unwritten _ := rfl

theorem Sound.spawned {c : Channel} (hc : c.Sound) :
    { c with forwarding := .running : Channel }.Sound where
  waiting := hc.waiting
  delivered := hc.delivered
  ended h := nomatch h
  unwritten h := nomatch h

/-- A task that does not run is not changed when it is aborted. -/
theorem Sound.stopped {c : Channel} (hc : c.Sound) :
    { c with forwarding := if c.forwarding = .running then .aborted else c.forwarding :
      Channel }.Sound := by
  by_cases hrun : c.forwarding = .running
  · rw [if_pos hrun]
    exact ⟨hc.waiting, hc.delivered, fun h => (nomatch h), fun h => (nomatch h)⟩
  · rw [if_neg hrun]
    exact hc

/-- Nothing is lost by a write, and the message goes from the channel to the socket. -/
theorem forward_cases (c : Channel) : c.forward = c ∨ ∃ item queue, c.queue = item :: queue ∧
    c.forwarding.isRunning = true ∧
    c.forward = { c with queue := queue, written := c.written ++ [item] } := by
  unfold forward
  split
  · rename_i item queue hq
    split
    · rename_i hrun
      exact .inr ⟨item, queue, hq, hrun, rfl⟩
    · exact .inl rfl
  · exact .inl rfl

theorem Sound.forward {c : Channel} (hc : c.Sound) : c.forward.Sound := by
  rcases c.forward_cases with heq | ⟨item, queue, hq, hrun, heq⟩
  · rw [heq]
    exact hc
  · have hwaiting : ∀ m, item.forwarded = some m ∨ m ∈ queue.filterMap Item.forwarded →
        m.recipientId = c.user := by
      intro m hm
      refine hc.waiting m ?_
      rw [Channel.waiting, hq, List.mem_filterMap]
      rcases hm with hm | hm
      · exact ⟨item, List.mem_cons_self, hm⟩
      · obtain ⟨i, hi, him⟩ := List.mem_filterMap.mp hm
        exact ⟨i, List.mem_cons_of_mem _ hi, him⟩
    rw [heq]
    refine ⟨fun m hm => hwaiting m (.inr hm), ?_, ?_, ?_⟩
    · intro m hm
      rw [Channel.delivered, List.filterMap_append, List.mem_append] at hm
      rcases hm with hm | hm
      · exact hc.delivered m hm
      · obtain ⟨i, hi, him⟩ := List.mem_filterMap.mp hm
        exact hwaiting m (.inl (List.mem_singleton.mp hi ▸ him))
    · intro he
      rw [show c.forwarding = .ended from he] at hrun
      cases hrun
    · intro hn
      rw [show c.forwarding = .notSpawned from hn] at hrun
      cases hrun

/-- A channel that is dropped with its task. -/
theorem Sound.close {c : Channel} (hc : c.Sound) :
    { c with queue := [], forwarding := .ended : Channel }.Sound where
  waiting m hm := by cases hm
  delivered := hc.delivered
  ended _ := rfl
  unwritten h := by cases h

theorem Sound.fail {c : Channel} (hc : c.Sound) : c.fail.Sound := by
  unfold Channel.fail
  split
  · exact hc.close
  · exact hc

theorem Sound.drop {c : Channel} (hc : c.Sound) : c.drop.Sound := by
  unfold Channel.drop
  split
  · exact hc.close
  · exact hc

end Channel

theorem sound_modify {l : List Channel} (hl : ∀ c ∈ l, c.Sound) {i : ℕ} {f : Channel → Channel}
    (hf : ∀ c, l[i]? = some c → c.Sound → (f c).Sound) : ∀ c ∈ l.modify i f, c.Sound := by
  intro c hc
  rcases mem_modify_cases hc with hc | ⟨c', hc', rfl⟩
  · exact hl c hc
  · exact hf c' hc' (hl c' (List.mem_of_getElem? hc'))

theorem ChannelsEffect.sound {s t : AppState} {r : RelayOp} (h : ChannelsEffect s r t)
    (hs : ∀ c ∈ s.channels, c.Sound) (hsends : ∀ c item m, r = .send c item →
      item.forwarded = some m → s.BelongsTo c m.recipientId) : ∀ c ∈ t.channels, c.Sound := by
  cases h with
  | quiet hq _ =>
    intro c hc
    obtain ⟨c', hc', hquiet⟩ := hq.of_mem hc
    exact (hs c' hc').quiet hquiet
  | forwarded c item m hreq hm hopen _ ht =>
    rw [ht]
    refine sound_modify hs fun ch hch hsound => ?_
    -- the channel is open, and its user is the recipient
    obtain ⟨ch', hch', hne⟩ := isOpen_iff.mp hopen
    cases hch.symm.trans hch'
    obtain ⟨ch'', hch'', hu⟩ := hsends c item m hreq hm
    cases hch''.symm.trans hch
    exact hsound.push hne hm hu.symm
  | opened u _ ht =>
    rw [ht]
    intro c hc
    rcases List.mem_append.mp hc with hc | hc
    · exact hs c hc
    · rw [List.mem_singleton.mp hc]
      exact .opened u
  | spawned c _ ht =>
    rw [ht]
    exact sound_modify hs fun ch _ hsound => hsound.spawned
  | stopped c _ ht =>
    rw [ht]
    exact sound_modify hs fun ch _ hsound => hsound.stopped

/-- A message is sent to a channel that is known to be its recipient's. -/
theorem recipient_known {d : Custody} {c : ℕ} {item : Item} {m : Relayed}
    (hr : d.may (.send c item)) (hm : item.forwarded = some m) :
    (m.recipientId, c) ∈ d.channels := by
  obtain ⟨text, label⟩ := item
  cases label with
  | live m' =>
    cases hm
    exact hr.2
  | queued m' =>
    cases hm
    exact hr.2.1
  | echo m' => cases hm
  | other => cases hm

namespace Relay
variable {F : Formats}

/-- The channels that are registered or known are those of the users, and what is on
them is for these. -/
structure Addressed (s : Relay) : Prop where
  registered : ∀ u session, s.state.clients u = some session → s.state.BelongsTo session.sender u
  known : ∀ i, ∀ p ∈ (s.custody i).channels, s.state.BelongsTo p.2 p.1
  sound : ∀ c ∈ s.state.channels, c.Sound

/-- The sessions that are registered after a step were so before, or the step registers
one. -/
theorem serve_clients (r : RelayOp) (s : AppState) {u : Id} {session : ClientSession}
    (h : (serve r s).2.clients u = some session) :
    s.clients u = some session ∨ r = .clientsInsert u session := by
  by_cases ht : r.onlyTables = true
  · obtain ⟨db, contactRequests, blocks, hs⟩ := serve_onlyTables ht s
    rw [hs] at h
    exact .inl h
  cases r with
  | clientsInsert u' session' =>
    by_cases hu : u = u'
    · subst hu
      have heq : some session' = some session := by simpa [serve] using h
      exact .inr (by rw [Option.some.inj heq])
    · exact .inl (by simpa [serve, Function.update_of_ne hu] using h)
  | clientsRemove u' sessionId =>
    simp only [serve, AppState.clientsRemove] at h
    split at h
    · by_cases hu : u = u'
      · subst hu
        simp at h
      · exact .inl (by simpa [Function.update_of_ne hu] using h)
    · exact .inl h
  | send c item =>
    obtain ⟨channels, hs⟩ := send_state s c item
    simp only [serve, hs] at h
    exact .inl h
  | sendToAll ids item =>
    obtain ⟨channels, hs⟩ := sendToAll_state s ids item
    simp only [serve, hs] at h
    exact .inl h
  | queuePendingMessage m clientMsgId payload =>
    simp only [serve, AppState.queuePendingMessage_state] at h
    split at h <;> exact .inl h
  | drainPendingMessages u' => exact .inl h
  | presenceSet u' entry => exact .inl h
  | presenceRemove u' => exact .inl h
  | unboundedChannel u' => exact .inl h
  | spawnSendTask c => exact .inl h
  | abortSendTask c => exact .inl h
  | nextFrame => exact .inl h
  | _ => exact absurd rfl ht

/-- The channels a connection knows after a step. -/
theorem seen_channels (r : RelayOp) (s : AppState) (d : Custody) {p : Id × ℕ}
    (hp : p ∈ (d.seen r (serve r s).1).channels) : p ∈ d.channels ∨
      (∃ session, s.clients p.1 = some session ∧ p.2 = session.sender) ∨
      (r = .unboundedChannel p.1 ∧ p.2 = s.channels.length) := by
  cases r with
  | clientsGet u =>
    simp only [Custody.seen, serve] at hp
    cases hu : s.clients u with
    | none =>
      rw [hu] at hp
      exact .inl hp
    | some session =>
      rw [hu] at hp
      rcases List.mem_cons.mp hp with rfl | hp
      · exact .inr (.inl ⟨session, hu, rfl⟩)
      · exact .inl hp
  | unboundedChannel u =>
    rcases List.mem_cons.mp hp with rfl | hp
    · exact .inr (.inr ⟨rfl, rfl⟩)
    · exact .inl hp
  | send c item =>
    obtain ⟨text, label⟩ := item
    cases label with
    | live m =>
      simp only [Custody.seen] at hp
      split at hp <;> exact .inl hp
    | _ => exact .inl hp
  | _ => exact .inl hp

theorem Addressed.init (start : Start) : (Relay.init start).Addressed where
  registered _ _ h := by cases h
  known _ _ h := by cases h
  sound _ h := by cases h

theorem Addressed.outside {s : Relay} (hs : s.Addressed) (e : RelayEvent) :
    Addressed { s with state := s.state.outside e } := by
  have hmodify : ∀ (i : ℕ) (f : Channel → Channel), (∀ c, (f c).user = c.user) →
      (∀ c : Channel, c.Sound → (f c).Sound) →
      Addressed { s with state := s.state.updateChannel i f } := by
    intro i f hu hf
    refine ⟨?_, ?_, sound_modify hs.sound fun c _ => hf c⟩
    · intro u session h
      exact (hs.registered u session h).modify rfl hu
    · intro j p hp
      exact (hs.known j p hp).modify rfl hu
  cases e with
  | forward c => exact hmodify c _ Channel.user_forward fun _ => Channel.Sound.forward
  | fail c => exact hmodify c _ Channel.user_fail fun _ => Channel.Sound.fail
  | drop c => exact hmodify c _ Channel.user_drop fun _ => Channel.Sound.drop
  | _ => exact ⟨hs.registered, hs.known, hs.sound⟩

theorem Addressed.step {s : Relay} (hs : s.Addressed) {i : ℕ} {r : RelayOp}
    {k : r.Reply → RelayProg Unit} (hr : (s.custody i).may r) :
    (s.answered i r k).Addressed := by
  have heffect := serve_channels r s.state hr
  refine ⟨?_, ?_, ?_⟩
  · intro u session h
    rcases serve_clients r s.state h with h | rfl
    · exact heffect.belongsTo (hs.registered u session h)
    · exact heffect.belongsTo (hs.known i _ hr)
  · intro j p hp
    by_cases hij : i = j
    · subst hij
      rw [custody_answered_own] at hp
      rcases seen_channels r s.state _ hp with hp | ⟨session, hu, hc⟩ | ⟨rfl, hc⟩
      · exact heffect.belongsTo (hs.known i p hp)
      · rw [hc]
        exact heffect.belongsTo (hs.registered p.1 session hu)
      · refine ⟨⟨p.1, [], .notSpawned, []⟩, ?_, rfl⟩
        show (s.state.channels ++ [_])[p.2]? = _
        rw [hc, List.getElem?_concat_length]
    · rw [custody_answered_other s hij] at hp
      exact heffect.belongsTo (hs.known j p hp)
  · refine heffect.sound hs.sound ?_
    rintro c item m rfl hm
    exact hs.known i _ (recipient_known hr hm)

/-- **Messages are on the channels of their recipients**, in every state of a run. -/
theorem addressed {allowed : Relay → RelayEvent → Prop} {start : Start} {s : Relay}
    (h : Transitions.Reaches (Relay.next F) allowed (init start) s) : s.Addressed :=
  (reaches_invariant h (Addressed.init start) (fun _ _ _ hs => ⟨hs.registered, hs.known, hs.sound⟩)
    (fun _ e hs _ => hs.outside e) fun _ _ _ _ _ hs _ _ hr => hs.step hr)

/-! ## Setting up -/

/-- How a step changes which channel a connection is setting up. -/
theorem seen_setUp (r : RelayOp) (s : AppState) (d : Custody) :
    (∃ u, r = .unboundedChannel u ∧ (d.seen r (serve r s).1).setUp = some s.channels.length) ∨
      (∃ c, r = .spawnSendTask c ∧ (d.seen r (serve r s).1).setUp = none) ∨
      ((∀ u, r ≠ .unboundedChannel u) ∧ (∀ c, r ≠ .spawnSendTask c) ∧
        (d.seen r (serve r s).1).setUp = d.setUp) := by
  cases r with
  | unboundedChannel u => exact .inl ⟨u, rfl, rfl⟩
  | spawnSendTask c => exact .inr (.inl ⟨c, rfl, rfl⟩)
  | clientsGet u =>
    refine .inr (.inr ⟨fun _ h => (by cases h), fun _ h => (by cases h), ?_⟩)
    simp only [Custody.seen]
    split <;> rfl
  | send c item =>
    refine .inr (.inr ⟨fun _ h => (by cases h), fun _ h => (by cases h), ?_⟩)
    obtain ⟨text, label⟩ := item
    cases label with
    | live m =>
      simp only [Custody.seen]
      split <;> rfl
    | _ => rfl
  | _ => exact .inr (.inr ⟨fun _ h => (by cases h), fun _ h => (by cases h), rfl⟩)

theorem outside_length (s : AppState) (e : RelayEvent) :
    (s.outside e).channels.length = s.channels.length := by
  cases e with
  | forward c => exact List.length_modify ..
  | fail c => exact List.length_modify ..
  | drop c => exact List.length_modify ..
  | _ => rfl

/-- One for the connection that is setting up channel `c`. -/
def settingUp (c : ℕ) (d : Custody) : ℤ := Custody.isFrame c d.setUp

theorem settingUp_nonneg (c : ℕ) (d : Custody) : 0 ≤ settingUp c d :=
  Custody.isFrame_nonneg c d.setUp

/-- A channel that is still to come, or is being set up, counts once. -/
theorem settingUp_le {allowed : Relay → RelayEvent → Prop} {start : Start} {s : Relay}
    (h : Transitions.Reaches (Relay.next F) allowed (init start) s) (c : ℕ) :
    Threads.Pool.quantity (settingUp c) (fun t _ => toCome c t.channels.length) Custody.seen .none s
      ≤ 1 := by
  refine reaches_invariant h (I := fun s => Threads.Pool.quantity (settingUp c)
    (fun t _ => toCome c t.channels.length) Custody.seen .none s ≤ 1) ?_ ?_ ?_ ?_
  · exact le_of_eq ((Threads.Pool.quantity_idle _).trans (toCome_zero c))
  · intro s p hd hle
    exact (Threads.Pool.quantity_start hd rfl p).trans_le hle
  · intro s e hle _
    simp only [Threads.Pool.quantity, outside_length]
    exact hle
  · intro s i r k _ hle _ hp hr
    refine le_trans (Threads.Pool.quantity_answered_le hp ?_) hle
    show toCome c (serve r s.state).2.channels.length +
        settingUp c ((s.custody i).seen r (serve r s.state).1) ≤
      toCome c s.state.channels.length + settingUp c (s.custody i)
    have hnonneg := Custody.isFrame_nonneg c (s.custody i).setUp
    simp only [settingUp]
    rcases seen_setUp r s.state (s.custody i) with ⟨u, rfl, hs⟩ | ⟨c', hr', hs⟩ | ⟨hu, -, hs⟩
    · have hlen : (serve (.unboundedChannel u) s.state).2.channels.length =
          s.state.channels.length + 1 := List.length_append
      rw [hs, hlen, Custody.isFrame_some]
      unfold toCome
      split_ifs <;> omega
    · have hlen := (serve_channels r s.state hr).length_eq (fun u h => by rw [hr'] at h; cases h)
      rw [hs, hlen, Custody.isFrame_none]
      omega
    · rw [hs, (serve_channels r s.state hr).length_eq hu]

/-- A channel is set up by one connection. -/
theorem setUp_unique {allowed : Relay → RelayEvent → Prop} {start : Start} {s : Relay}
    (h : Transitions.Reaches (Relay.next F) allowed (init start) s) {i j c : ℕ}
    (hi : (s.custody i).setUp = some c) (hj : (s.custody j).setUp = some c) : i = j := by
  by_contra hij
  have hone : ∀ k, (s.custody k).setUp = some c → settingUp c (s.custody k) = 1 := by
    intro k hk
    rw [settingUp, hk, Custody.isFrame_some, if_pos rfl]
  have hstarted : ∀ k, (s.custody k).setUp = some c → k < s.tasks.length := fun k hk =>
    started_of_custody (disciplined h) fun hnone => by
      rw [hnone] at hk
      cases hk
  have hsum := own_add_own_le_owned (settingUp_nonneg c) (hstarted i hi) (hstarted j hj) hij
  have hle : toCome c s.state.channels.length + s.owned (settingUp c) ≤ 1 := settingUp_le h c
  have hcome := toCome_nonneg c s.state.channels.length
  have hi := hone i hi
  have hj := hone j hj
  omega

/-- The forwarding task of the channel that a connection is setting up has not been
spawned. -/
def SettingUp (s : Relay) : Prop :=
  ∀ i c, (s.custody i).setUp = some c →
    ∃ ch, s.state.channels[c]? = some ch ∧ ch.forwarding = .notSpawned

theorem SettingUp.outside {s : Relay} (hs : s.SettingUp) (e : RelayEvent) :
    SettingUp { s with state := s.state.outside e } := by
  have hmodify : ∀ (i : ℕ) (f : Channel → Channel),
      (∀ c, c.forwarding = .notSpawned → (f c).forwarding = .notSpawned) →
      SettingUp { s with state := s.state.updateChannel i f } := by
    intro i f hf j c hc
    obtain ⟨ch, hch, hn⟩ := hs j c hc
    rcases getElem?_modify_cases (i := i) f hch with h | ⟨-, h⟩
    · exact ⟨ch, h, hn⟩
    · exact ⟨f ch, h, hf ch hn⟩
  cases e with
  | forward c =>
    refine hmodify c _ fun ch hn => ?_
    rcases ch.forward_cases with h | ⟨item, queue, -, -, h⟩
    · rw [h]
      exact hn
    · rw [h]
      exact hn
  | fail c =>
    refine hmodify c _ fun ch hn => ?_
    rw [Channel.fail, if_neg (by simp [hn, Forwarding.isRunning])]
    exact hn
  | drop c =>
    refine hmodify c _ fun ch hn => ?_
    rw [Channel.drop, if_neg (by simp [hn])]
    exact hn
  | _ => exact hs

/-- **A connection that is being set up has a channel without a forwarding task**, in
every state of a run. -/
theorem settingUp_reached {allowed : Relay → RelayEvent → Prop} {start : Start} {s : Relay}
    (h : Transitions.Reaches (Relay.next F) allowed (init start) s) : s.SettingUp := by
  refine reaches_invariant h (I := SettingUp) ?_ ?_ ?_ ?_
  · intro i c hc
    cases hc
  · intro s p _ hs
    exact hs
  · intro s e hs _
    exact hs.outside e
  · intro s i r k hreach hs _ _ hr j c hc
    have heffect := serve_channels r s.state hr
    by_cases hij : i = j
    · subst hij
      rw [custody_answered_own] at hc
      rcases seen_setUp r s.state (s.custody i) with ⟨u, rfl, hup⟩ | ⟨c', -, hup⟩ | ⟨-, hspawn, hup⟩
      · rw [hup] at hc
        cases hc
        exact ⟨⟨u, [], .notSpawned, []⟩, List.getElem?_concat_length, rfl⟩
      · rw [hup] at hc
        cases hc
      · rw [hup] at hc
        exact heffect.notSpawned (hs i c hc) (hspawn c)
    · rw [custody_answered_other s hij] at hc
      refine heffect.notSpawned (hs j c hc) ?_
      -- the one that spawns the task would be setting up the same channel
      rintro rfl
      exact hij (setUp_unique hreach hr hc)

end Relay
end Winkd.Server
