import Winkd.Tabs

/-!
# The storage that tabs share

A tab that writes takes away what the others have written since it was loaded.  Nothing is lost, and
nothing is sent twice, just if every tab that writes has what it replaces, and no tab sends what another
has sent (`nothing_lost_iff`).
-/

namespace Winkd.Web
open UnicodeText Winkd.Server Transitions

namespace Tabs
variable {ι : Type} {ids : MsgIds}

/-! ## What is passed and handed over -/

variable {s s' : Tabs ι ids} {i : ι} {ps hs : List Json}

/-- One tab passes some messages and hands some over. -/
structure Moves (s s' : Tabs ι ids) (i : ι) (ps hs : List Json) : Prop where
  before : s'.before = s.before
  passed : (s'.tab i).browser.passed = (s.tab i).browser.passed ++ ps
  handed : (s'.tab i).browser.handed = (s.tab i).browser.handed ++ hs
  others : ∀ j ≠ i, s'.tab j = s.tab j

namespace Moves

theorem passed_iff (h : Moves s s' i ps hs) (p : Json) : s'.Passed p ↔ s.Passed p ∨ p ∈ ps := by
  unfold Passed
  rw [h.before, or_assoc]
  refine or_congr_right ⟨?_, ?_⟩
  · rintro ⟨j, hj⟩
    by_cases hji : j = i
    · rw [hji, h.passed, List.mem_append] at hj
      exact hj.imp_left fun hp => ⟨i, hp⟩
    · exact .inl ⟨j, h.others j hji ▸ hj⟩
  · rintro (⟨j, hj⟩ | hp)
    · by_cases hji : j = i
      · refine ⟨i, ?_⟩
        rw [h.passed]
        exact List.mem_append_left ps (hji ▸ hj)
      · exact ⟨j, (h.others j hji).symm ▸ hj⟩
    · refine ⟨i, ?_⟩
      rw [h.passed]
      exact List.mem_append_right _ hp

theorem handed_iff (h : Moves s s' i ps hs) (p : Json) : s'.Handed p ↔ s.Handed p ∨ p ∈ hs := by
  constructor
  · rintro ⟨j, hj⟩
    by_cases hji : j = i
    · rw [hji, h.handed, List.mem_append] at hj
      exact hj.imp_left fun hp => ⟨i, hp⟩
    · exact .inl ⟨j, h.others j hji ▸ hj⟩
  · rintro (⟨j, hj⟩ | hp)
    · by_cases hji : j = i
      · refine ⟨i, ?_⟩
        rw [h.handed]
        exact List.mem_append_left hs (hji ▸ hj)
      · exact ⟨j, (h.others j hji).symm ▸ hj⟩
    · refine ⟨i, ?_⟩
      rw [h.handed]
      exact List.mem_append_right _ hp

theorem waiting_iff (h : Moves s s' i ps hs) (p : Json) :
    s'.Waiting p ↔ (s.Passed p ∨ p ∈ ps) ∧ ¬ s.Handed p ∧ p ∉ hs := by
  rw [Waiting, h.passed_iff, h.handed_iff, not_or]

/-- What is handed over must be new. -/
theorem once_iff (h : Moves s s' i ps hs) (honce : s.Once) (hnodup : hs.Nodup) :
    s'.Once ↔ ∀ p ∈ hs, ¬ s.Handed p := by
  constructor
  · rintro ⟨htab, htabs⟩ p hp ⟨j, hj⟩
    have hnew : p ∈ (s'.tab i).browser.handed := by
      rw [h.handed]
      exact List.mem_append_right _ hp
    by_cases hji : j = i
    · have hi := htab i
      rw [h.handed, List.nodup_append'] at hi
      exact hi.2.2 (hji ▸ hj) hp
    · exact htabs j i hji ((h.others j hji).symm ▸ hj) hnew
  · intro hnew
    refine ⟨fun j => ?_, fun j j' hne => ?_⟩
    · by_cases hji : j = i
      · rw [hji, h.handed, List.nodup_append']
        exact ⟨honce.tab i, hnodup, fun p hold hp => hnew p hp ⟨i, hold⟩⟩
      · rw [h.others j hji]
        exact honce.tab j
    · -- at most one of the two is the tab that hands over
      have hone : ∀ k ≠ i, (s'.tab i).browser.handed.Disjoint (s'.tab k).browser.handed := by
        intro k hk
        rw [h.handed, h.others k hk, List.disjoint_append_left]
        exact ⟨honce.tabs i k hk.symm, fun p hp hold => hnew p hp ⟨k, hold⟩⟩
      by_cases hji : j = i
      · exact hji ▸ hone j' (hji ▸ hne.symm)
      · by_cases hji' : j' = i
        · exact hji' ▸ List.disjoint_symm (hone j hji)
        · rw [h.others j hji, h.others j' hji']
          exact honce.tabs j j' hne

end Moves

/-! ## The invariant -/

/-- A queue has no message twice, and only messages with ids that were given. -/
def Distinct (s : Tabs ι ids) (queue : List Json) : Prop :=
  queue.Nodup ∧ ∀ p ∈ queue, ids.Drawn s.calls p

structure Inv (s : Tabs ι ids) : Prop where
  unloaded : ∀ i, (s.tab i).loaded = false → (s.tab i).saveTimer = false
  passed : ∀ p, s.Passed p → ids.Drawn s.calls p
  handed : ∀ p, s.Handed p → ids.Drawn s.calls p
  queues : ∀ i, s.Distinct (s.tab i).browser.offlineSendQueue
  stored : s.Distinct (queueOf s.storedQueue)

theorem inv_start (before : Stored ids) : (start ι before).Inv where
  unloaded _ _ := rfl
  passed p hp := before.drawn p (hp.resolve_right fun ⟨_, hi⟩ => List.not_mem_nil hi)
  handed _ hp := absurd hp.choose_spec List.not_mem_nil
  queues _ := ⟨List.nodup_nil, fun _ hp => absurd hp List.not_mem_nil⟩
  stored := ⟨before.nodup, before.drawn⟩

theorem kept_start (before : Stored ids) : (start ι before).Kept where
  messages _ _ _ hm := absurd hm List.not_mem_nil
  queue _ hp := hp.1.resolve_right fun ⟨_, hi⟩ => List.not_mem_nil hi
  once := ⟨fun _ => List.nodup_nil, fun _ _ _ => List.disjoint_nil_left _⟩

/-- The messages are what they were: only the queue of a tab and the storage have changed. -/
theorem Inv.moves (h : s.Inv) (hmoves : Moves s s' i ps hs)
    (hloaded : ∀ j, (s'.tab j).loaded = false → (s'.tab j).saveTimer = false)
    (hcalls : s.calls ≤ s'.calls) (hps : ∀ p ∈ ps, ids.Drawn s'.calls p)
    (hhs : ∀ p ∈ hs, ids.Drawn s'.calls p)
    (hqueue : s'.Distinct (s'.tab i).browser.offlineSendQueue)
    (hstored : s'.Distinct (queueOf s'.storedQueue)) : s'.Inv where
  unloaded := hloaded
  passed p hp := ((hmoves.passed_iff p).mp hp).elim (fun hp => (h.passed p hp).mono hcalls) (hps p)
  handed p hp := ((hmoves.handed_iff p).mp hp).elim (fun hp => (h.handed p hp).mono hcalls) (hhs p)
  queues j := by
    by_cases hj : j = i
    · exact hj ▸ hqueue
    · rw [hmoves.others j hj]
      exact ⟨(h.queues j).1, fun p hp => ((h.queues j).2 p hp).mono hcalls⟩
  stored := hstored

/-! ## Step by step -/

section
variable [DecidableEq ι] {numberText : Text → CodeUnits} {me : Identity} {b : Browser}

theorem tab_setBrowser (s : Tabs ι ids) (i : ι) (b : Browser) :
    (s.setBrowser i b).tab i = { s.tab i with browser := b } := Function.update_self ..

theorem moves_setBrowser (hpassed : b.passed = (s.tab i).browser.passed ++ ps)
    (hhanded : b.handed = (s.tab i).browser.handed ++ hs) (calls : ℕ) :
    Moves s { s.setBrowser i b with calls := calls } i ps hs where
  before := rfl
  passed := (congrArg (fun t : Tab => t.browser.passed) (tab_setBrowser s i b)).trans hpassed
  handed := (congrArg (fun t : Tab => t.browser.handed) (tab_setBrowser s i b)).trans hhanded
  others _ hj := Function.update_of_ne hj ..

/-- The browser of a tab has nothing to do with its conversations. -/
theorem same_setBrowser (s : Tabs ι ids) (i : ι) (b : Browser) (j : ι) :
    ((s.setBrowser i b).tab j).loaded = (s.tab j).loaded ∧
      ((s.setBrowser i b).tab j).saveTimer = (s.tab j).saveTimer := by
  by_cases hj : j = i
  · rw [hj, tab_setBrowser]
    exact ⟨rfl, rfl⟩
  · have hother : (s.setBrowser i b).tab j = s.tab j := Function.update_of_ne hj ..
    rw [hother]
    exact ⟨rfl, rfl⟩

theorem inv_setBrowser (h : s.Inv) (hpassed : b.passed = (s.tab i).browser.passed ++ ps)
    (hhanded : b.handed = (s.tab i).browser.handed ++ hs) {calls : ℕ} (hcalls : s.calls ≤ calls)
    (hps : ∀ p ∈ ps, ids.Drawn calls p) (hhs : ∀ p ∈ hs, ids.Drawn calls p)
    (hqueue : b.offlineSendQueue.Nodup ∧ ∀ p ∈ b.offlineSendQueue, ids.Drawn calls p)
    (hstored : (queueOf b.storage).Nodup ∧ ∀ p ∈ queueOf b.storage, ids.Drawn calls p) :
    Inv { s.setBrowser i b with calls := calls } := by
  have hmoves : Moves s { s.setBrowser i b with calls := calls } i ps hs :=
    moves_setBrowser hpassed hhanded calls
  refine h.moves hmoves (fun j hj => ?_) hcalls hps hhs ?_ hstored
  · obtain ⟨hloaded, htimer⟩ := same_setBrowser s i b j
    exact htimer.trans (h.unloaded j (hloaded.symm.trans hj))
  · show Distinct _ ((s.setBrowser i b).tab i).browser.offlineSendQueue
    rw [tab_setBrowser]
    exact hqueue

theorem kept_setBrowser_iff (hkept : s.Kept) (hpassed : b.passed = (s.tab i).browser.passed ++ ps)
    (hhanded : b.handed = (s.tab i).browser.handed ++ hs) (hnodup : hs.Nodup) (calls : ℕ) :
    Kept { s.setBrowser i b with calls := calls } ↔
      (∀ p, (s.Passed p ∨ p ∈ ps) ∧ ¬ s.Handed p ∧ p ∉ hs → p ∈ queueOf b.storage) ∧
        ∀ p ∈ hs, ¬ s.Handed p := by
  have hmoves : Moves s { s.setBrowser i b with calls := calls } i ps hs :=
    moves_setBrowser hpassed hhanded calls
  have hmessages : MessagesKept { s.setBrowser i b with calls := calls } :=
    fun hsaved => hkept.messages fun j => (same_setBrowser s i b j).2.symm.trans (hsaved j)
  have hqueue : QueueKept { s.setBrowser i b with calls := calls } ↔
      ∀ p, (s.Passed p ∨ p ∈ ps) ∧ ¬ s.Handed p ∧ p ∉ hs → p ∈ queueOf b.storage :=
    forall_congr' fun p => imp_congr_left (hmoves.waiting_iff p)
  rw [← hqueue, ← hmoves.once_iff hkept.once hnodup]
  exact ⟨fun h => ⟨h.queue, h.once⟩, fun h => ⟨hmessages, h.1, h.2⟩⟩

variable (numberText me) in
/-- A message that is handed over at once, or put into the queue. -/
theorem send_next (h : s.Inv) (i : ι) (fields : List (String × Json)) :
    (s.step numberText me (.send i fields)).Inv ∧
      (s.Kept → ((s.step numberText me (.send i fields)).Kept ↔
        ((s.browser i).canSend = false → s.HasWaiting i))) := by
  let p : Json := .obj (ids.fieldsOf s.calls fields)
  have hdrawn : ∀ q ∈ [p], ids.Drawn (s.calls + 1) q := by
    intro q hq
    rw [List.mem_singleton.mp hq]
    exact MsgIds.drawn_succ _ _
  -- the id of the message is drawn by this call, so no queue has it yet
  have hnew : ¬ ids.Drawn s.calls p := MsgIds.not_drawn _ _
  have hold : ∀ {queue : List Json}, s.Distinct queue →
      queue.Nodup ∧ ∀ q ∈ queue, ids.Drawn (s.calls + 1) q :=
    fun hqueue => ⟨hqueue.1, fun q hq => (hqueue.2 q hq).mono s.calls.le_succ⟩
  cases hcan : (s.browser i).canSend with
  | true =>
    obtain ⟨hqueue, hstorage, hpassed, hhanded⟩ :=
      Browser.sent_directly hcan (ids.fieldsOf s.calls fields)
    constructor
    · refine inv_setBrowser h hpassed hhanded s.calls.le_succ hdrawn hdrawn ?_ ?_
      · rw [hqueue]
        exact hold (h.queues i)
      · rw [hstorage]
        exact hold h.stored
    · intro hkept
      refine (kept_setBrowser_iff hkept hpassed hhanded (List.nodup_singleton p) (s.calls + 1)).trans
        (iff_of_true ⟨?_, ?_⟩ nofun)
      · rintro q ⟨hq, hwaits, hne⟩
        rw [hstorage]
        exact hkept.queue q ⟨hq.resolve_right hne, hwaits⟩
      · intro q hq hq'
        rw [List.mem_singleton.mp hq] at hq'
        exact hnew (h.handed p hq')
  | false =>
    obtain ⟨hqueue, hstorage, hpassed, hhanded⟩ :=
      Browser.sent_later hcan (ids.fieldsOf s.calls fields)
    rw [← List.append_nil (s.browser i).handed] at hhanded
    -- the queue of the tab, with the message, is what goes to the storage
    have hlonger : ((s.browser i).offlineSendQueue ++ [p]).Nodup ∧
        ∀ q ∈ (s.browser i).offlineSendQueue ++ [p], ids.Drawn (s.calls + 1) q := by
      obtain ⟨hnodup, hqueued⟩ := h.queues i
      constructor
      · refine List.Nodup.append hnodup (List.nodup_singleton p) fun q hq hq' => hnew ?_
        have heq : q = p := List.mem_singleton.mp hq'
        exact heq ▸ hqueued q hq
      · exact List.forall_mem_append.mpr ⟨(hold (h.queues i)).2, hdrawn⟩
    constructor
    · refine inv_setBrowser h hpassed hhanded s.calls.le_succ hdrawn
        (fun _ hq => absurd hq List.not_mem_nil) ?_ ?_
      · rw [hqueue]
        exact hlonger
      · rw [hstorage]
        exact hlonger
    · intro hkept
      refine (kept_setBrowser_iff hkept hpassed hhanded List.nodup_nil (s.calls + 1)).trans ?_
      rw [hstorage, imp_iff_right rfl]
      constructor
      · rintro ⟨hall, -⟩ q ⟨hq, hwaits⟩
        refine (List.mem_append.mp (hall q ⟨.inl hq, hwaits, List.not_mem_nil⟩)).resolve_right ?_
        intro hq'
        have heq : q = p := List.mem_singleton.mp hq'
        exact hnew (heq ▸ h.passed q hq)
      · intro hall
        refine ⟨?_, fun _ hq => absurd hq List.not_mem_nil⟩
        rintro q ⟨hq | hq, hwaits, -⟩
        · exact List.mem_append_left _ (hall q ⟨hq, hwaits⟩)
        · exact List.mem_append_right _ hq

variable (numberText me) in
theorem connection_next (h : s.Inv) (i : ι) {e : Browser.Event} (hconnects : e.connects = true) :
    (s.step numberText me (.connection i e hconnects)).Inv ∧
      (s.Kept → ((s.step numberText me (.connection i e hconnects)).Kept ↔
        ((s.browser i).flushes e = true →
          s.HasWaiting i ∧ ∀ p ∈ (s.tab i).browser.offlineSendQueue, ¬ s.Handed p))) := by
  cases hflushes : (s.browser i).flushes e with
  | true =>
    obtain ⟨hqueue, hstorage, hpassed, hhanded⟩ := Browser.flushed hflushes
    rw [← List.append_nil (s.browser i).passed] at hpassed
    -- the whole queue is handed over, and nothing stays
    have hnothing : ([] : List Json).Nodup ∧ ∀ p ∈ ([] : List Json), ids.Drawn s.calls p :=
      ⟨List.nodup_nil, fun _ hp => absurd hp List.not_mem_nil⟩
    constructor
    · refine inv_setBrowser h hpassed hhanded le_rfl hnothing.2 (h.queues i).2 ?_ ?_
      · rw [hqueue]
        exact hnothing
      · rw [hstorage]
        exact hnothing
    · intro hkept
      refine (kept_setBrowser_iff hkept hpassed hhanded (h.queues i).1 s.calls).trans ?_
      rw [hstorage, imp_iff_right rfl]
      refine and_congr_left' ⟨?_, ?_⟩
      · rintro hall p ⟨hp, hwaits⟩
        by_contra hother
        exact List.not_mem_nil (hall p ⟨.inl hp, hwaits, hother⟩)
      · rintro hall p ⟨hp, hwaits, hother⟩
        exact absurd (hall p ⟨hp.resolve_right List.not_mem_nil, hwaits⟩) hother
  | false =>
    obtain ⟨hqueue, hstorage, hpassed, hhanded⟩ := Browser.same_of_connects hconnects hflushes
    rw [← List.append_nil (s.browser i).passed] at hpassed
    rw [← List.append_nil (s.browser i).handed] at hhanded
    constructor
    · refine inv_setBrowser h hpassed hhanded le_rfl (fun _ hp => absurd hp List.not_mem_nil)
        (fun _ hp => absurd hp List.not_mem_nil) ?_ ?_
      · rw [hqueue]
        exact h.queues i
      · rw [hstorage]
        exact h.stored
    · intro hkept
      refine (kept_setBrowser_iff hkept hpassed hhanded List.nodup_nil s.calls).trans
        (iff_of_true ⟨?_, fun _ hp => absurd hp List.not_mem_nil⟩ nofun)
      rintro p ⟨hp, hwaits, -⟩
      rw [hstorage]
      exact hkept.queue p ⟨hp.resolve_right List.not_mem_nil, hwaits⟩

end

/-! ## Messages -/

/-- A message changes no conversation but its own. -/
theorem convos_rendered (numberText : Text → CodeUnits) (app : AppCore) (payload : Json) (ts : Text) :
    (∃ k m, Chats.conversationOf payload = some (.str k) ∧
      (app.locallyRenderOutgoing numberText payload ts).convos = app.convos.added numberText k m) ∨
    (app.locallyRenderOutgoing numberText payload ts).convos = app.convos := by
  unfold AppCore.locallyRenderOutgoing
  split
  · rename_i k hk
    refine .inl ⟨k, payloadToUiMessage payload ((app.contact? k).map AppCore.Contact.name) true ts, hk, ?_⟩
    exact apply_ite AppCore.convos _ _ _
  · exact .inr rfl

theorem convos_relayed (numberText : Text → CodeUnits) (me : Identity) (app : AppCore) (payload : Json)
    (ts : Text) : (∃ k m, Chats.conversationOf payload = some (.str k) ∧
      (app.handleRelayedMessage numberText me payload ts).convos = app.convos.added numberText k m) ∨
    (app.handleRelayedMessage numberText me payload ts).convos = app.convos := by
  by_cases hrelayed : ∃ k sender, Chats.conversationOf payload = some (.str k) ∧
      payload.firstTruthy ["senderId", "sender_id"] = some sender
  · obtain ⟨k, sender, hk, hsender⟩ := hrelayed
    obtain ⟨m, hid, heq⟩ :=
      AppCore.Watch.relayed_eq numberText me app hk hsender ts
    refine .inl ⟨k, m, hk, ?_⟩
    rw [heq, Convos.added, Convos.messages_ensure]
    exact apply_ite AppCore.convos _ _ _
  · refine .inr ?_
    unfold AppCore.handleRelayedMessage
    split
    · rename_i k sender hk hsender
      exact absurd ⟨k, sender, hk, hsender⟩ hrelayed
    · rfl

/-- Where `saveConvos` is not called nothing was appended. -/
theorem appended_of_not_pushed {numberText : Text → CodeUnits} {app app' : AppCore} {payload : Json}
    (hconvos : (∃ k m, Chats.conversationOf payload = some (.str k) ∧
      app'.convos = app.convos.added numberText k m) ∨ app'.convos = app.convos)
    (hpushed : pushed app app' payload = false) (k : Text) : AppCore.appended app app' k = [] := by
  rcases hconvos with ⟨k', m, hk, hconvos⟩ | hconvos
  · by_cases hkk : k = k'
    · unfold pushed at hpushed
      rw [hk] at hpushed
      rw [hkk, ← List.isEmpty_iff]
      exact (Bool.not_eq_false' _).mp hpushed
    · have hsame : app'.convos.messages k = app.convos.messages k := by
        rw [hconvos, Convos.added]
        split
        · exact Convos.messages_ensure ..
        · exact (Convos.messages_update_of_ne hkk _ _).trans (Convos.messages_ensure ..)
      rw [AppCore.appended, hsame]
      exact List.drop_length
  · rw [AppCore.appended, hconvos]
    exact List.drop_length

section
variable [DecidableEq ι] {numberText : Text → CodeUnits} {me : Identity}

/-- A tab changes, but not its browser. -/
theorem moves_update {t : Tab} (htab : s'.tab = Function.update s.tab i t)
    (hbefore : s'.before = s.before) (hbrowser : t.browser = (s.tab i).browser) :
    Moves s s' i [] [] where
  before := hbefore
  passed := by rw [htab, Function.update_self, hbrowser, List.append_nil]
  handed := by rw [htab, Function.update_self, hbrowser, List.append_nil]
  others _ hj := by rw [htab, Function.update_of_ne hj]

omit [DecidableEq ι] in
theorem Moves.same (h : Moves s s' i [] []) (hkept : s.Kept) (hstored : s'.storedQueue = s.storedQueue) :
    s'.QueueKept ∧ s'.Once := by
  constructor
  · intro p hp
    obtain ⟨hp, hwaits, -⟩ := (h.waiting_iff p).mp hp
    rw [hstored]
    exact hkept.queue p ⟨hp.resolve_right List.not_mem_nil, hwaits⟩
  · exact (h.once_iff hkept.once List.nodup_nil).mpr fun _ hp => absurd hp List.not_mem_nil

/-- A tab that is loaded changes, but not its browser. -/
theorem inv_update (h : s.Inv) {t : Tab} (htab : s'.tab = Function.update s.tab i t)
    (hbefore : s'.before = s.before) (hcalls : s'.calls = s.calls)
    (hstored : s'.storedQueue = s.storedQueue) (hloaded : t.loaded = true)
    (hbrowser : t.browser = (s.tab i).browser) : s'.Inv := by
  refine h.moves (moves_update htab hbefore hbrowser) (fun j hj => ?_) hcalls.ge
    (fun _ hp => absurd hp List.not_mem_nil) (fun _ hp => absurd hp List.not_mem_nil) ?_ ?_
  · by_cases hji : j = i
    · rw [hji, htab, Function.update_self, hloaded] at hj
      cases hj
    · rw [htab, Function.update_of_ne hji] at hj ⊢
      exact h.unloaded j hj
  · rw [htab, Function.update_self, hbrowser, Distinct, hcalls]
    exact h.queues i
  · rw [hstored, Distinct, hcalls]
    exact h.stored

variable (numberText) in
theorem handle_next (h : s.Inv) (hloaded : (s.tab i).loaded = true) {payload : Json} {app : AppCore}
    (hconvos : (∃ k m, Chats.conversationOf payload = some (.str k) ∧
      app.convos = (s.tab i).app.convos.added numberText k m) ∨ app.convos = (s.tab i).app.convos) :
    (s.handle i payload app).Inv ∧ (s.Kept → (s.handle i payload app).Kept) := by
  refine ⟨inv_update h rfl rfl rfl rfl hloaded rfl, fun hkept => ?_⟩
  have hmoves : Moves s (s.handle i payload app) i [] [] := moves_update rfl rfl rfl
  obtain ⟨hqueue, honce⟩ := hmoves.same hkept rfl
  refine ⟨fun hsaved k m hm => ?_, hqueue, honce⟩
  -- once all is saved nothing was pushed
  have hi := hsaved i
  have htab : (s.handle i payload app).tab i = { s.tab i with
      app := app
      saveTimer := (s.tab i).saveTimer || pushed (s.tab i).app app payload } := Function.update_self ..
  rw [htab, Bool.or_eq_false_iff] at hi
  have hbefore : ∀ j, (s.tab j).saveTimer = false := by
    intro j
    by_cases hji : j = i
    · exact hji ▸ hi.1
    · rw [← hmoves.others j hji]
      exact hsaved j
  refine hkept.messages hbefore k m ?_
  have hm' : m ∈ s.appended k ++ AppCore.appended (s.tab i).app app k := hm
  rw [appended_of_not_pushed hconvos hi.2, List.append_nil] at hm'
  exact hm'

theorem save_next (h : s.Inv) (hloaded : (s.tab i).loaded = true) :
    (s.step numberText me (.save i)).Inv ∧
      (s.Kept → ((s.step numberText me (.save i)).Kept ↔ s.Harmless (.save i))) := by
  show Inv (if (s.tab i).saveTimer = true then _ else s) ∧
    (s.Kept → (Kept (if (s.tab i).saveTimer = true then _ else s) ↔ _))
  split
  · rename_i htimer
    let saved : Tabs ι ids := { s.setTab i { s.tab i with saveTimer := false } with
      storedConvos := (s.tab i).app.convos }
    have hmoves : Moves s saved i [] [] := moves_update rfl rfl rfl
    refine ⟨inv_update h rfl rfl rfl rfl hloaded rfl, fun hkept => ?_⟩
    obtain ⟨hqueue, honce⟩ := hmoves.same hkept rfl
    have hothers : (∀ j, (saved.tab j).saveTimer = false) ↔
        ∀ j ≠ i, (s.tab j).saveTimer = false := by
      constructor
      · intro hall j hji
        exact hmoves.others j hji ▸ hall j
      · intro hall j
        by_cases hji : j = i
        · have hself : saved.tab i = { s.tab i with saveTimer := false } := Function.update_self ..
          rw [hji, hself]
        · rw [hmoves.others j hji]
          exact hall j hji
    constructor
    · exact fun hkept' _ hall => hkept'.messages (hothers.mpr hall)
    · exact fun hharmless => ⟨fun hall => hharmless htimer (hothers.mp hall), hqueue, honce⟩
  · rename_i htimer
    exact ⟨h, fun hkept => iff_of_true hkept fun htimer' => absurd htimer' htimer⟩

variable (numberText me) in
/-- A page that is loaded takes what is stored. -/
theorem load_next (h : s.Inv) (hloaded : (s.tab i).loaded = false) (token : Option Text) :
    (s.next numberText me (.load i token)).Inv ∧
      (s.Kept → (s.next numberText me (.load i token)).Kept) := by
  let t : Tab := ⟨true, AppCore.load s.storedConvos, false, (s.browser i).load token⟩
  have hnext : s.next numberText me (.load i token) = s.setTab i t := by
    refine if_neg ?_
    show ¬ (s.tab i).loaded = true
    rw [hloaded]
    exact nofun
  have hload : t.browser.offlineSendQueue = queueOf s.storedQueue ∧
      t.browser.passed = (s.tab i).browser.passed ∧ t.browser.handed = (s.tab i).browser.handed := by
    have hsame := Browser.SameQueue.wsConnect (s.browser i).newPage.loadOfflineSendQueue token
    exact ⟨hsame.queue, hsame.passed, hsame.handed⟩
  obtain ⟨hqueue, hpassed, hhanded⟩ := hload
  have htab : (s.setTab i t).tab i = t := Function.update_self ..
  have hmoves : Moves s (s.setTab i t) i [] [] := by
    refine ⟨rfl, ?_, ?_, fun j hj => Function.update_of_ne hj ..⟩
    · rw [htab, hpassed, List.append_nil]
    · rw [htab, hhanded, List.append_nil]
  have htimer : ∀ j, ((s.setTab i t).tab j).saveTimer = (s.tab j).saveTimer := by
    intro j
    by_cases hji : j = i
    · rw [hji, htab]
      exact (h.unloaded i hloaded).symm
    · rw [hmoves.others j hji]
  rw [hnext]
  constructor
  · refine h.moves hmoves (fun j hj => ?_) le_rfl (fun _ hp => absurd hp List.not_mem_nil)
      (fun _ hp => absurd hp List.not_mem_nil) ?_ h.stored
    · by_cases hji : j = i
      · rw [hji, htab] at hj
        cases hj
      · rw [hmoves.others j hji] at hj ⊢
        exact h.unloaded j hj
    · rw [htab, hqueue]
      exact h.stored
  · intro hkept
    obtain ⟨hqueue', honce⟩ := hmoves.same hkept rfl
    exact ⟨fun hsaved => hkept.messages fun j => (htimer j).symm.trans (hsaved j), hqueue', honce⟩

/-- **What an event does**: it keeps the invariant, and loses and sends twice just if it is harmful. -/
theorem kept_next (h : s.Inv) (e : Event ι) : (s.next numberText me e).Inv ∧
    (s.Kept → ((s.next numberText me e).Kept ↔ s.Harmless e)) := by
  -- a tab that is not loaded has no timers and no socket, and can only be loaded
  cases hloaded : (s.tab e.tab).loaded with
  | true =>
    have hnext : s.next numberText me e = s.step numberText me e := if_pos hloaded
    rw [hnext]
    cases e with
    | load i token => exact ⟨h, fun hkept => iff_of_true hkept trivial⟩
    | rendered i payload ts =>
      obtain ⟨hinv, hkept⟩ := handle_next numberText h hloaded
        (convos_rendered numberText (s.tab i).app payload ts)
      exact ⟨hinv, fun hs => iff_of_true (hkept hs) trivial⟩
    | relayed i payload ts =>
      obtain ⟨hinv, hkept⟩ := handle_next numberText h hloaded
        (convos_relayed numberText me (s.tab i).app payload ts)
      exact ⟨hinv, fun hs => iff_of_true (hkept hs) trivial⟩
    | save i => exact save_next h hloaded
    | send i fields =>
      obtain ⟨hinv, hkept⟩ := send_next numberText me h i fields
      exact ⟨hinv, fun hs => (hkept hs).trans (imp_iff_right hloaded).symm⟩
    | connection i e hconnects =>
      obtain ⟨hinv, hkept⟩ := connection_next numberText me h i hconnects
      exact ⟨hinv, fun hs => (hkept hs).trans (imp_iff_right hloaded).symm⟩
  | false =>
    have hnot : ¬ (s.tab e.tab).loaded = true := Bool.eq_false_iff.mp hloaded
    cases e with
    | load i token =>
      obtain ⟨hinv, hkept⟩ := load_next numberText me h hloaded token
      exact ⟨hinv, fun hs => iff_of_true (hkept hs) trivial⟩
    | save i =>
      rw [show s.next numberText me (.save i) = s from if_neg hnot]
      refine ⟨h, fun hs => iff_of_true hs fun htimer => ?_⟩
      have hnone := h.unloaded i hloaded
      rw [htimer] at hnone
      cases hnone
    | send i fields =>
      rw [show s.next numberText me (.send i fields) = s from if_neg hnot]
      exact ⟨h, fun hs => iff_of_true hs fun hi => absurd hi hnot⟩
    | connection i e hconnects =>
      rw [show s.next numberText me (.connection i e hconnects) = s from if_neg hnot]
      exact ⟨h, fun hs => iff_of_true hs fun hi => absurd hi hnot⟩
    | rendered i payload ts =>
      rw [show s.next numberText me (.rendered i payload ts) = s from if_neg hnot]
      exact ⟨h, fun hs => iff_of_true hs trivial⟩
    | relayed i payload ts =>
      rw [show s.next numberText me (.relayed i payload ts) = s from if_neg hnot]
      exact ⟨h, fun hs => iff_of_true hs trivial⟩

end

/-- **Nothing is lost and nothing sent twice** in any run of the tabs just if every tab that writes the
conversations, or the queue, has in its copy what it takes away, and none sends what was sent. -/
theorem nothing_lost_iff [DecidableEq ι] (numberText : Text → CodeUnits) (me : Identity)
    (before : Stored ids) (events : List (Event ι)) :
    Throughout (next numberText me) Kept (start ι before) events ↔
      Admits (next numberText me) Harmless (start ι before) events :=
  throughout_iff_admits (P := Kept) (J := Inv) (fun _ e h _ => (kept_next h e).1)
    (fun _ e h hkept => (kept_next h e).2 hkept) (inv_start before) (kept_start before) events

namespace Sample

def msgIds : MsgIds where
  mkMsgId n := List.replicate n 'i'
  injective n n' h := by
    have hlength := congrArg List.length h
    rwa [List.length_replicate, List.length_replicate] at hlength

/-- A message that was queued by a page before. -/
def queued : Json := .obj (msgIds.fieldsOf 0 [("body", .ofString "hello")])

def before : Stored msgIds where
  convos := fun _ => none
  queue := some (.arr [queued])
  calls := 1
  nodup := List.nodup_singleton _
  drawn _ hp := List.mem_singleton.mp hp ▸ ⟨0, Nat.one_pos, _, rfl⟩

theorem user_named : "me#0001".toList ≠ [] := by decide

def user : Identity := ⟨"me#0001".toList, user_named⟩

def message (id : String) : Json :=
  .obj [("id", .ofString id), ("conversationId", .ofString "ada#0001")]

/-- Two tabs render a message each, and queue one each. -/
def offline : List (Event Bool) :=
  [.load false none, .load true none, .rendered false (message "m1") [], .save false,
    .rendered true (message "m2") [], .save true, .send false [], .send true []]

/-- The socket of a tab opens, and receives its `auth_ok`. -/
def online (i : Bool) : List (Event Bool) :=
  [.connection i (.opened 0) rfl,
    .connection i (.received 0 (some (.obj [("type", .ofString "auth_ok")]))) rfl]

/-- Two tabs connect. -/
def bothOnline : List (Event Bool) :=
  [.load false (some []), .load true (some [])] ++ online false ++ online true

def after (events : List (Event Bool)) : Tabs Bool msgIds :=
  events.foldl (next units user) (start Bool before)

end Sample

/-- Of two tabs, the one that writes last takes away the message and the queued message of the other;
and both send the message that they have found in the queue. -/
theorem tabs_overwrite : ¬ (Sample.after Sample.offline).MessagesKept ∧
    ¬ (Sample.after Sample.offline).QueueKept ∧
    ¬ (Sample.after Sample.bothOnline).Once := by
  refine ⟨fun h => ?_, fun h => ?_, fun h => ?_⟩
  · have hsaved : ∀ i, ((Sample.after Sample.offline).tab i).saveTimer = false := by decide
    have hids : ((Sample.after Sample.offline).storedConvos.messages "ada#0001".toList).map UiMessage.id =
        [some (.ofString "m2")] := rfl
    have hfirst : some (Json.ofString "m1") ∈
        ((Sample.after Sample.offline).appended "ada#0001".toList).map UiMessage.id :=
      List.mem_cons_self
    obtain ⟨m, hm, hid⟩ := List.mem_map.mp hfirst
    have hkept := List.mem_map_of_mem (f := UiMessage.id) (h hsaved _ m hm)
    have hkept' : m.id ∈ [some (Json.ofString "m2")] := hids ▸ hkept
    rw [hid] at hkept'
    exact absurd hkept' (by simp [Json.ofString])
  · have hwaits : (Sample.after Sample.offline).Waiting (.obj (Sample.msgIds.fieldsOf 1 [])) := by
      refine ⟨.inr ⟨false, List.mem_cons_self⟩, ?_⟩
      rintro ⟨i, hi⟩
      cases i <;> exact List.not_mem_nil hi
    have hqueue : (Browser.blank
        (Sample.after Sample.offline).storedQueue).loadOfflineSendQueue.offlineSendQueue =
        [Sample.queued, .obj (Sample.msgIds.fieldsOf 2 [])] := rfl
    have hkept := h _ hwaits
    rw [hqueue] at hkept
    exact absurd hkept (by simp [Sample.queued, MsgIds.fieldsOf, Sample.msgIds])
  · exact h.tabs false true Bool.false_ne_true (a := Sample.queued) List.mem_cons_self List.mem_cons_self

end Tabs
end Winkd.Web
