import Winkd.BuddyCap
import Winkd.FrameLoops

/-!
# Entitlements

What a message may be like, and whether a contact may be added, is decided by the copy that
the connection has of its user's row.  It is as the row says (`Fair`) exactly if the copy
and the row do not differ where it matters (`Current`), and always if the webhook changes
what a user has bought only while he has no connection open (`fair_iff`).
-/

namespace Winkd.Server

/-! ## What the columns entitle to -/

namespace Member
variable {m row : Member} {now n : ℕ} {payload : Json}

/-- The user may send this message. -/
def MaySend (m : Member) (now : ℕ) (payload : Json) : Prop :=
  Fits payload (limitsFor (m.effectiveTier now))

/-- The user may add a contact to a roster of `n`. -/
def MayAdd (m : Member) (now n : ℕ) : Prop := ∀ cap ∈ m.buddyCap now, (n : ℤ) < cap

/-- The copy and the row are in the same tier, or the limits of both tiers allow the message,
or those of neither do. -/
def LimitsAgree (m row : Member) (now : ℕ) (payload : Json) : Prop :=
  m.effectiveTier now = row.effectiveTier now ∨ Fits payload freeLimits ∨ ¬ Fits payload plusLimits

theorem effectiveTier_cases (m : Member) (now : ℕ) :
    m.effectiveTier now = supporterPlus ∨ m.effectiveTier now = supporterFree := by
  unfold effectiveTier
  split
  · split
    · split
      · exact .inr rfl
      · exact .inl rfl
    · exact .inl rfl
  · exact .inr rfl

theorem limitsAgree_iff :
    m.LimitsAgree row now payload ↔ (m.MaySend now payload ↔ row.MaySend now payload) := by
  have hne : supporterPlus ≠ supporterFree := by decide
  have hsides : Fits payload freeLimits ∨ ¬ Fits payload plusLimits ↔
      (Fits payload plusLimits ↔ Fits payload freeLimits) := by
    have hmono : Fits payload freeLimits → Fits payload plusLimits := Fits.plus
    tauto
  unfold LimitsAgree MaySend
  rcases m.effectiveTier_cases now with hm | hm <;> rcases row.effectiveTier_cases now with hr | hr <;>
    rw [hm, hr]
  · exact iff_of_true (.inl rfl) Iff.rfl
  · exact (or_iff_right hne).trans hsides
  · exact (or_iff_right hne.symm).trans (hsides.trans iff_comm)
  · exact iff_of_true (.inl rfl) Iff.rfl

/-- Time takes the plus tier away, and gives it to nobody. -/
theorem buddyCap_later {c : ℤ} {now' : ℕ} (h : m.buddyCap now = some c) (hle : now ≤ now') :
    m.buddyCap now' = some c := by
  have hfree : m.effectiveTier now ≠ supporterPlus := by
    intro hplus
    rw [buddyCap, if_pos hplus] at h
    cases h
  have hlater : m.effectiveTier now' ≠ supporterPlus := by
    intro hplus
    refine hfree ?_
    unfold effectiveTier at hplus ⊢
    split at hplus
    · rename_i htier
      rw [if_pos htier]
      split at hplus
      · split at hplus
        · exact absurd hplus (by decide)
        · rw [if_neg (by omega)]
      · rfl
    · exact absurd hplus (by decide)
  rw [← h, buddyCap_free hfree, buddyCap_free hlater]

theorem buddyCap_congr (h : m.toSupporter = row.toSupporter) (now : ℕ) : m.buddyCap now = row.buddyCap now := by
  have hslots : m.extraBuddySlots = row.extraBuddySlots := congrArg Supporter.extraBuddySlots h
  rw [buddyCap, buddyCap, effectiveTier_congr h, hslots]

end Member

/-- Two caps that are the same, or both above `n`, or neither. -/
def CapsAgree (cap cap' : Option ℤ) (n : ℕ) : Prop :=
  cap = cap' ∨ ((∀ c ∈ cap, (n : ℤ) < c) ∧ ∀ c ∈ cap', (n : ℤ) < c) ∨
    (∃ c ∈ cap, c ≤ (n : ℤ)) ∧ ∃ c ∈ cap', c ≤ (n : ℤ)

theorem capsAgree_iff {cap cap' : Option ℤ} {n : ℕ} :
    CapsAgree cap cap' n ↔ ((∀ c ∈ cap, (n : ℤ) < c) ↔ ∀ c ∈ cap', (n : ℤ) < c) := by
  have hnot : ∀ o : Option ℤ, (∃ c ∈ o, c ≤ (n : ℤ)) ↔ ¬ ∀ c ∈ o, (n : ℤ) < c := by
    intro o
    simp only [not_forall, not_lt, exists_prop]
  rw [CapsAgree, hnot, hnot]
  constructor
  · rintro (rfl | ⟨h, h'⟩ | ⟨h, h'⟩)
    · exact Iff.rfl
    · exact iff_of_true h h'
    · exact iff_of_false h h'
  · intro h
    by_cases hc : ∀ c ∈ cap, (n : ℤ) < c
    · exact .inr (.inl ⟨hc, h.mp hc⟩)
    · exact .inr (.inr ⟨hc, fun hc' => hc (h.mpr hc')⟩)

/-! ## Where it is decided -/

section Programs
variable (F : Formats) (user : Member) (tx : ℕ)

/-- The rest of `add_contact`, once there is a cap. -/
def checkRoster (targetId : Text) (cap : ℤ) : RelayProg Unit := do
  let n ← await (.countRoster user.id)
  match n with
  | .ok n =>
    if cap ≤ n then do
      let now ← await .utcNow
      sendErr tx (rosterFull (user.effectiveTier now) n cap)
    else addTarget F user tx targetId
  | .error _ => sendErr tx "Server error. Please try again.".toList

variable {F user tx}

/-- Another user is added once the cap has been computed. -/
theorem addContact_other {payload : Json} {targetId : Text} (htarget : addTargetId payload = some targetId)
    (hother : targetId ≠ user.winkdId) :
    addContact F user tx payload = await .utcNow >>= fun now =>
      match user.buddyCap now with
      | none => addTarget F user tx targetId
      | some cap => checkRoster F user tx targetId cap := by
  unfold addContact
  rw [htarget]
  dsimp only
  rw [if_neg hother]
  rfl

/-- Otherwise the user is told so. -/
theorem addContact_refused {payload : Json}
    (h : ∀ targetId ∈ addTargetId payload, targetId = user.winkdId) (F : Formats) (tx : ℕ) :
    ∃ message, addContact F user tx payload = sendErr tx message := by
  unfold addContact
  split
  · exact ⟨_, rfl⟩
  · rename_i targetId htarget
    rw [if_pos (h targetId htarget)]
    exact ⟨_, rfl⟩

end Programs

/-- A point at which the client is told something. -/
def RelayOp.isSend : RelayOp → Bool
  | .send _ _ => true
  | _ => false

/-- A point at which another user is looked up. -/
def RelayOp.isLookup : RelayOp → Bool
  | .findUserByWinkdId _ => true
  | _ => false

namespace Relay
variable {F : Formats} {s : Relay} {i : ℕ} {user : Member} {tx : ℕ}

/-- Connection `i` counts the roster, to compare it with the cap it has computed. -/
structure CountsRoster (F : Formats) (s : Relay) (i : ℕ) (user : Member) (tx : ℕ) (targetId : Text)
    (cap : ℤ) : Prop where
  copy : (s.lookedUp i).user = some user
  computed : (s.lookedUp i).cap = some (some cap)
  program : ∃ rest, s.tasks[i]? = some (checkRoster F user tx targetId cap >>= rest)

/-- After its step, connection `i` tells its client that it refuses. -/
def Refuses (F : Formats) (s : Relay) (i : ℕ) : Prop :=
  ((s.next F (.step i)).waiting i).any RelayOp.isSend = true

/-- After its step, connection `i` looks up the user to be added. -/
def Adds (F : Formats) (s : Relay) (i : ℕ) : Prop :=
  ((s.next F (.step i)).waiting i).any RelayOp.isLookup = true

/-- The row of a user, as it is stored. -/
def StoredRow (s : Relay) (u : Id) (row : Member) : Prop :=
  (s.state.db.findUserById u).map s.state.member = some row

/-- **What the next step of a connection decides is as the row says.** -/
structure Fair (F : Formats) (s : Relay) : Prop where
  message : ∀ i user tx serial cmd row, s.Handles F i user tx serial cmd → cmd.command.sends = true →
    s.StoredRow user.id row → (s.Refuses F i ↔ ¬ row.MaySend s.state.db.now cmd.payload)
  unlimited : ∀ i user tx serial cmd row, s.Handles F i user tx serial cmd → cmd.command = .addContact →
    s.StoredRow user.id row → s.Adds F i → row.MayAdd s.state.db.now (s.state.countRoster user.id)
  counted : ∀ i user tx targetId cap row, s.CountsRoster F i user tx targetId cap →
    s.StoredRow user.id row →
    (s.Adds F i ↔ row.MayAdd s.state.db.now (s.state.countRoster user.id))

/-- Where a connection decides something, its copy and the row do not differ in what matters. -/
structure Current (F : Formats) (s : Relay) : Prop where
  message : ∀ i user tx serial cmd row, s.Handles F i user tx serial cmd → cmd.command.sends = true →
    s.StoredRow user.id row → user.LimitsAgree row s.state.db.now cmd.payload
  unlimited : ∀ i user tx serial cmd row, s.Handles F i user tx serial cmd → cmd.command = .addContact →
    s.StoredRow user.id row → (∃ targetId ∈ addTargetId cmd.payload, targetId ≠ user.winkdId) →
    user.buddyCap s.state.db.now = none →
    CapsAgree none (row.buddyCap s.state.db.now) (s.state.countRoster user.id)
  counted : ∀ i user tx targetId cap row, s.CountsRoster F i user tx targetId cap →
    s.StoredRow user.id row →
    CapsAgree (some cap) (row.buddyCap s.state.db.now) (s.state.countRoster user.id)

/-! ## What is decided -/

theorem handleCommand_sends {serial : ℕ} {cmd : ClientCommand} (hc : cmd.command.sends = true) :
    handleCommand F user tx serial cmd = relayMessage user tx serial cmd.payload := by
  obtain ⟨command, payload⟩ := cmd
  cases command <;> first | rfl | cases hc

/-- **A message is refused by the limits of the copy.** -/
theorem Handles.refuses_iff {serial : ℕ} {cmd : ClientCommand} (h : s.Handles F i user tx serial cmd)
    (hc : cmd.command.sends = true) : s.Refuses F i ↔ ¬ user.MaySend s.state.db.now cmd.payload := by
  obtain ⟨sessionId, frames, hp⟩ := h.program
  rw [handleCommand_sends hc] at hp
  have hnext := next_tasks (F := F) hp
  rw [Member.MaySend, ← validateSendPayload_ok_iff, Refuses]
  dsimp only [serve, Prog.bind] at hnext
  cases hv : validateSendPayload cmd.payload (limitsFor (user.effectiveTier s.state.db.now)) with
  | error violation =>
    rw [hv] at hnext
    rw [Threads.Pool.waiting_eq hnext]
    exact iff_of_true rfl fun h => nomatch h
  | ok u =>
    rw [hv] at hnext
    refine iff_of_false ?_ fun h => h rfl
    dsimp only at hnext
    split at hnext
    · rw [waiting_fromLoop (F := F) hnext]
      exact Bool.false_ne_true
    · rw [Threads.Pool.waiting_eq hnext]
      exact Bool.false_ne_true

/-- **Who has no cap by the copy adds at once**, and who has one does not. -/
theorem Handles.adds_iff {serial : ℕ} {cmd : ClientCommand} (h : s.Handles F i user tx serial cmd)
    (hc : cmd.command = .addContact) :
    s.Adds F i ↔ (∃ targetId ∈ addTargetId cmd.payload, targetId ≠ user.winkdId) ∧
      user.buddyCap s.state.db.now = none := by
  obtain ⟨sessionId, frames, hp⟩ := h.program
  have hadd : handleCommand F user tx serial cmd = addContact F user tx cmd.payload := by
    rw [handleCommand, hc]
  rw [hadd] at hp
  rw [Adds]
  by_cases hother : ∃ targetId ∈ addTargetId cmd.payload, targetId ≠ user.winkdId
  · obtain ⟨targetId, htarget, hne⟩ := hother
    rw [addContact_other htarget hne] at hp
    have hnext := next_tasks (F := F) hp
    dsimp only [serve, Prog.bind] at hnext
    rw [and_iff_right ⟨targetId, htarget, hne⟩]
    cases hcap : user.buddyCap s.state.db.now with
    | none =>
      rw [hcap] at hnext
      rw [Threads.Pool.waiting_eq hnext]
      exact iff_of_true rfl rfl
    | some cap =>
      rw [hcap] at hnext
      rw [Threads.Pool.waiting_eq hnext]
      exact iff_of_false Bool.false_ne_true fun h => nomatch h
  · refine iff_of_false ?_ fun h => hother h.1
    have hself : ∀ targetId ∈ addTargetId cmd.payload, targetId = user.winkdId := by
      intro targetId htarget
      by_contra hne
      exact hother ⟨targetId, htarget, hne⟩
    obtain ⟨message, hmessage⟩ := addContact_refused hself F tx
    rw [hmessage] at hp
    rw [waiting_fromLoop (F := F) (next_tasks (F := F) hp)]
    exact Bool.false_ne_true

/-- **Who has a cap adds below it.** -/
theorem CountsRoster.adds_iff {targetId : Text} {cap : ℤ} (h : s.CountsRoster F i user tx targetId cap) :
    s.Adds F i ↔ (s.state.countRoster user.id : ℤ) < cap := by
  obtain ⟨rest, hp⟩ := h.program
  have hnext := next_tasks (F := F) hp
  dsimp only [serve, Prog.bind] at hnext
  rw [Adds]
  by_cases hfull : cap ≤ s.state.countRoster user.id
  · rw [if_pos hfull] at hnext
    rw [Threads.Pool.waiting_eq hnext]
    exact iff_of_false Bool.false_ne_true (not_lt.mpr hfull)
  · rw [if_neg hfull] at hnext
    rw [Threads.Pool.waiting_eq hnext]
    exact iff_of_true rfl (not_le.mp hfull)

/-! ## The copy and the row -/

/-- The caps that were computed from the copies still follow from them. -/
def CapsFree (s : Relay) : Prop := ∀ i m c, (s.lookedUp i).user = some m →
  (s.lookedUp i).cap = some (some c) → m.buddyCap s.state.db.now = some c

theorem CapsFree.step {s : Relay} (hs : s.CapsFree) (i : ℕ) (r : RelayOp) (k : r.Reply → RelayProg Unit) :
    (s.answered i r k).CapsFree := by
  intro j m c hm hc
  show m.buddyCap (serve r s.state).2.db.now = some c
  rw [(serve_names r s.state).now]
  by_cases hij : i = j
  · subst hij
    rw [lookedUp_own] at hm hc
    cases r with
    | findUserBySession token => cases hc
    | utcNow =>
      have hm : (s.lookedUp i).user = some m := hm
      have hc : (s.lookedUp i).user.map (fun m => m.buddyCap s.state.db.now) = some (some c) := hc
      rw [hm] at hc
      exact Option.some.inj hc
    | _ => exact hs i m c hm hc
  · rw [lookedUp_other s hij] at hm hc
    exact hs j m c hm hc

theorem outside_now {s : Relay} {e : RelayEvent} (he : s.InTime e) :
    s.state.db.now ≤ (s.state.outside e).db.now := by
  cases e with
  | account r => exact (answer_names r s.state.db).now.ge
  | clock now => exact he
  | _ => exact le_rfl

theorem ReachedBuyingOffline.capsFree (hs : s.ReachedBuyingOffline F) : s.CapsFree := by
  obtain ⟨start, hreach⟩ := hs
  refine run_invariant (fun socket => handleSocket_looks socket) hreach (I := CapsFree) ?_ ?_ ?_ ?_
  · exact fun _ _ _ h => nomatch h
  · exact fun _ _ _ h => h
  · exact fun s e hs he i m c hm hc => Member.buddyCap_later (hs i m c hm hc) (outside_now he.1)
  · exact fun s i r k _ hs _ _ _ => hs.step i r k

theorem StoredRow.supporter {u : Id} {row : Member} (h : s.StoredRow u row) :
    row.toSupporter = s.state.supporters u := by
  obtain ⟨x, hx, rfl⟩ := Option.map_eq_some_iff.mp h
  have hid : x.id = u := by simpa using List.find?_some hx
  rw [← hid]
  rfl

theorem Handles.isOpen {serial : ℕ} {cmd : ClientCommand} (h : s.Handles F i user tx serial cmd) :
    (s.waiting i).isSome = true := by
  obtain ⟨sessionId, frames, hp⟩ := h.program
  cases hcmd : handleCommand F user tx serial cmd with
  | pure a =>
    rw [hcmd] at hp
    rw [waiting_fromLoop (F := F) hp]
    rfl
  | throw e => exact e.elim
  | request r k =>
    rw [hcmd] at hp
    rw [Threads.Pool.waiting_eq hp]
    rfl

theorem CountsRoster.isOpen {targetId : Text} {cap : ℤ} (h : s.CountsRoster F i user tx targetId cap) :
    (s.waiting i).isSome = true := by
  obtain ⟨rest, hp⟩ := h.program
  rw [Threads.Pool.waiting_eq hp]
  rfl

theorem CopiesTrue.stored (hs : s.CopiesTrue) {row : Member} (hopen : (s.waiting i).isSome = true)
    (hcopy : (s.lookedUp i).user = some user) (hrow : s.StoredRow user.id row) :
    user.toSupporter = row.toSupporter := (hs i user hopen hcopy).trans hrow.supporter.symm

theorem current_of_copies (hs : s.CopiesTrue) (hcaps : s.CapsFree) : s.Current F where
  message i user tx serial cmd row h _ hrow :=
    .inl (Member.effectiveTier_congr (hs.stored h.isOpen h.copy hrow) _)
  unlimited i user tx serial cmd row h _ hrow _ hcap := by
    refine .inl ?_
    rw [← Member.buddyCap_congr (hs.stored h.isOpen h.copy hrow), hcap]
  counted i user tx targetId cap row h hrow := by
    refine .inl ?_
    rw [← Member.buddyCap_congr (hs.stored h.isOpen h.copy hrow), hcaps i user cap h.copy h.computed]

/-- **What a connection decides is as the row says** at its next step exactly if its copy is current;
and in every state of a run where the webhook changes what a user has bought only while no
connection of his is open. -/
theorem fair_iff (s : Relay) : (s.Fair F ↔ s.Current F) ∧ (s.ReachedBuyingOffline F → s.Fair F) := by
  have hiff : s.Fair F ↔ s.Current F := by
    constructor
    · intro h
      refine ⟨?_, ?_, ?_⟩
      · intro i user tx serial cmd row hh hc hrow
        exact Member.limitsAgree_iff.mpr
          (not_iff_not.mp ((hh.refuses_iff hc).symm.trans (h.message i user tx serial cmd row hh hc hrow)))
      · intro i user tx serial cmd row hh hc hrow hother hcap
        have hadds : s.Adds F i := (hh.adds_iff hc).mpr ⟨hother, hcap⟩
        exact capsAgree_iff.mpr
          (iff_of_true (fun _ h => nomatch h) (h.unlimited i user tx serial cmd row hh hc hrow hadds))
      · intro i user tx targetId cap row hh hrow
        refine capsAgree_iff.mpr (Iff.trans ?_ (h.counted i user tx targetId cap row hh hrow))
        rw [hh.adds_iff]
        exact ⟨fun h => h cap rfl, fun h c hc => Option.some.inj hc ▸ h⟩
    · intro h
      refine ⟨?_, ?_, ?_⟩
      · intro i user tx serial cmd row hh hc hrow
        have hagree := Member.limitsAgree_iff.mp (h.message i user tx serial cmd row hh hc hrow)
        exact (hh.refuses_iff hc).trans (not_iff_not.mpr hagree)
      · intro i user tx serial cmd row hh hc hrow hadds
        obtain ⟨hother, hcap⟩ := (hh.adds_iff hc).mp hadds
        have hagree := capsAgree_iff.mp (h.unlimited i user tx serial cmd row hh hc hrow hother hcap)
        exact hagree.mp fun _ h => nomatch h
      · intro i user tx targetId cap row hh hrow
        refine Iff.trans ?_ (capsAgree_iff.mp (h.counted i user tx targetId cap row hh hrow))
        rw [hh.adds_iff]
        exact ⟨fun h c hc => Option.some.inj hc ▸ h, fun h => h cap rfl⟩
  exact ⟨hiff, fun hs => hiff.mpr (current_of_copies hs.copiesTrue hs.capsFree)⟩

namespace Sample

/-- The columns of a member. -/
def plusColumns : Supporter :=
  { Supporter.initial with supporterTier := supporterPlus, supporterExpiresAt := some 1800000000000000 }

/-- Ada's row before she becomes one. -/
def ada : Member where
  id := 0
  username := "ada".toList
  winkdId := "ada#0001".toList
  displayName := "Ada".toList
  moodMessage := []
  avatarData := none
  displayNameColor := none
  avColor := none
  email := none
  passwordHash := none
  totpEnabled := false
  totpSecret := none
  toSupporter := .initial

/-- A message of 2001 characters. -/
def longMessage : Json :=
  .obj [("id", .ofString "m1"), ("conversationId", .ofString "bob#0002"),
    ("body", .str (List.replicate 2001 'a'))]

/-- Ada connects, and the server has received the message. -/
def longSent : List RelayEvent :=
  connected 0 16 "ada's token"
    [.text (some (.obj [("command", .ofString "send_message"), ("payload", longMessage)]))]

/-- Ada becomes a member, connects and sends the message. -/
def memberSends : List RelayEvent := accounts ++ .supporter 0 plusColumns :: longSent

/-- Ada becomes a member while her connection is open. -/
def joinedAfterConnect : List RelayEvent := accounts ++ longSent ++ [.supporter 0 plusColumns]

theorem fair_iff_memberSends : (after memberSends).Fair formats := by
  have hreach : (after memberSends).ReachedBuyingOffline formats :=
    ⟨start, Transitions.Admits.reaches (by decide)⟩
  exact (fair_iff _).2 hreach

set_option maxRecDepth 100000 in
theorem handles_joinedAfterConnect :
    (after joinedAfterConnect).Handles formats 0 ada 0 0 ⟨.sendMessage, longMessage⟩ := by
  refine ⟨?_, 2, [], rfl⟩
  decide

/-- The message of a member is refused by the limits of the free tier. -/
theorem member_refused : ¬ ∀ s : Relay, s.Reached formats → s.Fair formats := by
  intro h
  have hreach : (after joinedAfterConnect).Reached formats := after_reached (by decide)
  have hrow : (after joinedAfterConnect).StoredRow 0 { ada with toSupporter := plusColumns } := by
    unfold StoredRow
    decide
  have hfair := (h _ hreach).message 0 ada 0 0 ⟨.sendMessage, longMessage⟩ _ handles_joinedAfterConnect rfl hrow
  have hrefused : (after joinedAfterConnect).Refuses formats 0 := by
    unfold Refuses
    decide +kernel
  refine hfair.mp hrefused (validateSendPayload_ok_iff.mp ?_)
  decide +kernel

end Sample

end Relay
end Winkd.Server
