import Winkd.Service
import Winkd.Footprint

/-!
# Two-factor requests side by side

`totp_confirm` reads the row of its user, checks the code, and then writes
`totp_enabled`; what `totp_disable` has cleared in between it does not see.  The row
is then left with 2FA on and no secret, and no TOTP code passes a challenge any more.
Where no confirmation is overtaken in this way, 2FA that is on has a secret
(`two_factor_usable`), whatever the interleaving.

A confirmation is overtaken when, since it read the row, a `totp_disable` has cleared
the secret and no `totp_setup` has stored one.
-/

namespace Winkd.Server
open Threads

/-- Where 2FA is on there is a secret. -/
def TwoFactorUsable (b : Backend) : Prop :=
  ∀ u ∈ b.users, u.totpEnabled = true → u.totpSecret.isSome = true

/-! ## What a handler knows when it enables -/

/-- 2FA is switched on for the user whose row was read, with a secret in it. -/
def EnablesOwn (d : Option User) : Op → Prop
  | .setTotpEnabled id true => ∃ u ∈ d, u.id = id ∧ u.totpSecret.isSome = true
  | _ => True

/-- A statement that does not enable 2FA is always allowed. -/
theorem enablesOwn_plain (d : Option User) (r : Op) (hr : r.plain = true) : EnablesOwn d r := by
  cases r with
  | setTotpEnabled id enabled =>
    cases enabled with
    | false => trivial
    | true => cases hr
  | _ => trivial

/-- `totp_confirm` enables 2FA for the user whose row it has read, with a secret in it. -/
theorem totpConfirm_enablesOwn (C : Crates) (o : Outside) (headers : Headers) (code : Text) :
    KeepsTo EnablesOwn (totpConfirm C o headers code) := by
  intro d
  simp only [totpConfirm, requireAuth, findUserBySession, Prog.along_bind, Prog.along_ofOption]
  intro token _
  refine ⟨trivial, fun reply => ?_⟩
  cases reply with
  | error e => trivial
  | ok user =>
    rintro u rfl secret hsecret
    refine ⟨trivial, fun now => ?_⟩
    show Prog.Along EnablesOwn rowRead _ (some u) (ensure _ _)
    cases Totp.verify C now secret (normalize2faCode code) with
    | false => trivial
    | true =>
      refine ⟨⟨u, rfl, rfl, by rw [hsecret]; rfl⟩, fun enabled => ?_⟩
      cases enabled with
      | error e => trivial
      | ok _ =>
        have hstore := keepsTo_storeRecoveryCodes enablesOwn_plain u.id
          (o.recoveryCodes.map C.sha256Hex)
        refine (hstore _).mono (fun _ _ h => h) fun d _ _ => ?_
        exact keepsTo_bind (keepsTo_auditLog enablesOwn_plain _ _ _ _) (fun _ => keepsTo_pure _) d

/-- **Every handler enables 2FA only for the user whose row it has read.** -/
theorem handle_enablesOwn (C : Crates) (o : Outside) (req : AuthRequest) :
    KeepsTo EnablesOwn (handle C o req) := by
  cases req with
  | login headers body => exact keepsTo_login enablesOwn_plain (fun _ _ _ => trivial) headers body
  | register headers body =>
    refine keepsTo_register enablesOwn_plain (keepsTo_registerUser enablesOwn_plain headers body ?_)
    intro _ _ _
    exact keepsTo_bind (keepsTo_uniqueWinkdId enablesOwn_plain _) fun _ => keepsTo_createUser fun _ => trivial
  | oauthCallback slug query headers =>
    refine keepsTo_oauthCallback enablesOwn_plain (fun _ _ => ?_) slug query headers
    refine keepsTo_bind (keepsTo_uniqueUsername enablesOwn_plain _) fun _ => ?_
    exact keepsTo_bind (keepsTo_uniqueWinkdId enablesOwn_plain _) fun _ => keepsTo_createUser fun _ => trivial
  | totpChallenge headers body => exact keepsTo_totpChallenge enablesOwn_plain headers body
  | totpSetup headers => exact keepsTo_totpSetup enablesOwn_plain headers
  | totpConfirm headers code => exact totpConfirm_enablesOwn C o headers code
  | totpDisable headers code => exact keepsTo_totpDisable enablesOwn_plain headers code
  | recoveryCodesGenerate headers code =>
    exact keepsTo_recoveryCodesGenerate enablesOwn_plain headers code

/-! ## Overtaken confirmations -/

/-- Since task `i` read its row, `totp_disable` has cleared the secret of `id`, and
`totp_setup` has stored none. -/
def clearedSince (i : ℕ) (id : Id) : List (Entry Op Op.Reply Backend) → Bool
  | [] => false
  | e :: l =>
    match e.request with
    | .setTotpEnabled id' false => id' == id || clearedSince i id l
    | .setTotpSecret id' _ => id' != id && clearedSince i id l
    | .findUserBySession _ => e.task != i && clearedSince i id l
    | _ => clearedSince i id l

/-- The user for whom a statement enables 2FA. -/
def Op.enables : Op → Option Id
  | .setTotpEnabled id true => some id
  | _ => none

/-- No confirmation enables 2FA after it was overtaken. -/
def NotOvertaken (s : Service) : Event → Prop
  | .statement i => ∀ id ∈ (s.waiting i).bind Op.enables, clearedSince i id s.trace = false
  | _ => True

instance (s : Service) : ∀ e, Decidable (NotOvertaken s e)
  | .statement i => inferInstanceAs
      (Decidable (∀ id ∈ (s.waiting i).bind Op.enables, clearedSince i id s.trace = false))
  | .request _ _ => isTrue trivial
  | .clock _ => isTrue trivial

/-- What a run may do in which no confirmation is overtaken. -/
def ConfirmsInTime (s : Service) (e : Event) : Prop := s.InTime e ∧ NotOvertaken s e

instance (s : Service) (e : Event) : Decidable (ConfirmsInTime s e) :=
  inferInstanceAs (Decidable (_ ∧ _))

/-- The secret a task has read is still there, or one in its place, unless it was
cleared since. -/
def SecretKept (b : Backend) (l : List (Entry Op Op.Reply Backend)) : Prop :=
  ∀ i u, Pool.learned rowRead none i l = some u → u.id < b.drawn ∧
    (u.totpSecret.isSome = true → clearedSince i u.id l = false →
      ∀ v ∈ b.users, v.id = u.id → v.totpSecret.isSome = true)

section Step
variable {b : Backend} {e : Entry Op Op.Reply Backend} {l : List (Entry Op Op.Reply Backend)}

/-- Only reading a row changes what a task knows. -/
theorem rowRead_other {i : ℕ} (h : ∀ token, e.request = .findUserBySession token → e.task ≠ i) :
    Pool.learned rowRead none i (e :: l) = Pool.learned rowRead none i l := by
  by_cases hi : e.task = i
  · rw [Pool.learned_own hi]
    obtain ⟨task, before, r, reply⟩ := e
    cases r with
    | findUserBySession token => exact absurd hi (h token rfl)
    | _ => rfl
  · exact Pool.learned_other hi l

/-- The user whose factor a statement writes. -/
def Op.factorOf : Op → Option Id
  | .setTotpSecret id _ => some id
  | .setTotpEnabled id _ => some id
  | _ => none

theorem clearedSince_other {i : ℕ} {id : Id} (hr : e.request.factorOf ≠ some id)
    (h : ∀ token, e.request = .findUserBySession token → e.task ≠ i) :
    clearedSince i id (e :: l) = clearedSince i id l := by
  rw [clearedSince]
  cases hreq : e.request with
  | findUserBySession token => simp [h token hreq]
  | setTotpSecret id' secret =>
    have hid : id' ≠ id := fun heq => hr (by rw [hreq, heq]; rfl)
    simp [hid]
  | setTotpEnabled id' enabled =>
    have hid : id' ≠ id := fun heq => hr (by rw [hreq, heq]; rfl)
    cases enabled <;> simp [hid]
  | _ => rfl

/-- What a statement makes of the rows of `users`. -/
inductive RowChange (b : Backend) (r : Op) (v : User) : Prop where
  | same (mem : v ∈ b.users) (other : r.factorOf ≠ some v.id)
  | new (id : v.id = b.drawn) (disabled : v.totpEnabled = false)
  | secretSet (secret : Text) (request : r = .setTotpSecret v.id secret)
      (stored : v.totpSecret = some secret)
  | enabled (u : User) (mem : u ∈ b.users) (request : r = .setTotpEnabled v.id true)
      (row : v = { u with totpEnabled := true })
  | disabled (request : r = .setTotpEnabled v.id false) (disabled : v.totpEnabled = false)

theorem factorOf_plain {r : Op} (hr : r.writesFactor = false) (id : Id) : r.factorOf ≠ some id := by
  cases r with
  | setTotpSecret _ _ => cases hr
  | setTotpEnabled _ _ => cases hr
  | _ => exact fun h => nomatch h

/-- **Where the rows after a statement come from.** -/
theorem row_change {r : Op} {v : User} (hv : v ∈ (answer r b).2.users) : RowChange b r v := by
  cases answer_users r b with
  | kept hquiet husers _ => exact .same (husers ▸ hv) (factorOf_plain hquiet _)
  | created hquiet w hw husers _ =>
    rw [husers, List.mem_append, List.mem_singleton] at hv
    rcases hv with hv | rfl
    · exact .same hv (factorOf_plain hquiet _)
    · exact .new hw.id hw.totpEnabled
  | secretSet id secret hreq hstate =>
    subst hreq
    rw [hstate] at hv
    obtain ⟨w, hw, rfl⟩ := mem_updateUser.mp hv
    split
    · rename_i hid
      exact .secretSet secret (by rw [← hid]) rfl
    · rename_i hid
      exact .same hw fun h => hid (Option.some.inj h).symm
  | enabledSet id enabled hreq hstate =>
    subst hreq
    rw [hstate] at hv
    cases enabled with
    | true =>
      obtain ⟨w, hw, rfl⟩ := mem_updateUser.mp hv
      split
      · rename_i hid
        exact .enabled w hw (by rw [← hid]) rfl
      · rename_i hid
        exact .same hw fun h => hid (Option.some.inj h).symm
    | false =>
      obtain ⟨w, hw, rfl⟩ := mem_updateUser.mp hv
      split
      · rename_i hid
        exact .disabled (by rw [← hid]) rfl
      · rename_i hid
        exact .same hw fun h => hid (Option.some.inj h).symm

theorem drawn_le (r : Op) : b.drawn ≤ (answer r b).2.drawn := by
  cases answer_users r b with
  | kept _ _ hdrawn => exact hdrawn
  | created _ _ _ _ hdrawn => exact hdrawn ▸ Nat.le_succ _
  | secretSet _ _ _ hstate => exact hstate ▸ Nat.le_refl _
  | enabledSet _ enabled _ hstate =>
    rw [hstate]
    cases enabled <;> exact Nat.le_refl _

/-- **What a task knows stays true** through a statement. -/
theorem secretKept_answer (hb : Accounts b) (hk : SecretKept b l) (i : ℕ) (r : Op) :
    SecretKept (answer r b).2 (⟨i, b, r, (answer r b).1⟩ :: l) := by
  intro j u hu
  by_cases hown : (∃ token, r = .findUserBySession token) ∧ i = j
  · -- the task reads the row now
    obtain ⟨⟨token, rfl⟩, rfl⟩ := hown
    have hlearned : Pool.learned rowRead none i (⟨i, b, .findUserBySession token,
        (answer (.findUserBySession token) b).1⟩ :: l) = b.findUserBySession token :=
      Pool.learned_own rfl l
    have hfound : b.findUserBySession token = some u := hlearned.symm.trans hu
    obtain ⟨row, -, hfind⟩ := Option.bind_eq_some_iff.mp hfound
    have hmem : u ∈ b.users := mem_of_findUserById hfind
    exact ⟨hb.drawn u hmem, fun hsecret _ v hv hid => hb.eq_of_id hv hmem hid ▸ hsecret⟩
  · have hother : ∀ token, r = .findUserBySession token → i ≠ j :=
      fun token hr hij => hown ⟨⟨token, hr⟩, hij⟩
    rw [rowRead_other hother] at hu
    obtain ⟨hlt, hsecret⟩ := hk j u hu
    refine ⟨Nat.lt_of_lt_of_le hlt (drawn_le r), fun hs hc v hv hid => ?_⟩
    cases row_change hv with
    | same hmem hr =>
      have hcleared := clearedSince_other (e := ⟨i, b, r, (answer r b).1⟩) (l := l)
        (hid ▸ hr) hother
      exact hsecret hs (hcleared.symm.trans hc) v hmem hid
    | new hnew _ => exact absurd (hid.symm.trans hnew) (Nat.ne_of_lt hlt)
    | secretSet secret _ hstored => rw [hstored]; rfl
    | enabled w hw hreq hrow =>
      subst hreq
      subst hrow
      exact hsecret hs hc w hw hid
    | disabled hreq _ =>
      -- the task's secret was cleared just now
      subst hreq
      have hcleared : (v.id == u.id || clearedSince j u.id l) = false := hc
      rw [hid, beq_self_eq_true, Bool.true_or] at hcleared
      cases hcleared

/-- A statement leaves 2FA usable, unless it enables 2FA where there is no secret. -/
theorem usable_answer (hb : TwoFactorUsable b) {r : Op}
    (hr : ∀ id, r = .setTotpEnabled id true → ∀ u ∈ b.users, u.id = id → u.totpSecret.isSome = true) :
    TwoFactorUsable (answer r b).2 := by
  intro v hv henabled
  cases row_change hv with
  | same hmem _ => exact hb v hmem henabled
  | new _ hdisabled => exact absurd (henabled.symm.trans hdisabled) (by decide)
  | secretSet secret _ hstored => rw [hstored]; rfl
  | enabled w hw hreq hrow =>
    subst hrow
    exact hr _ hreq w hw rfl
  | disabled _ hdisabled => exact absurd (henabled.symm.trans hdisabled) (by decide)

end Step

/-! ## Runs -/

/-- What holds in every state of a run in which no confirmation is overtaken. -/
structure RacesInvariant (s : Service) : Prop where
  accounts : Accounts s.state
  usable : TwoFactorUsable s.state
  kept : SecretKept s.state s.trace
  disciplined : s.Disciplined EnablesOwn rowRead none

theorem racesInvariant_next {C : Crates} {s : Service} (hs : RacesInvariant s) {e : Event}
    (he : ConfirmsInTime s e) : RacesInvariant (s.next C e) := by
  cases e with
  | request o req =>
    have hdisciplined : (Pool.next answer s (.start (handle C o req))).Disciplined EnablesOwn rowRead
        none := by
      apply hs.disciplined.next
      rintro p hp
      injection hp with hp
      exact hp ▸ handle_enablesOwn C o req none
    exact ⟨hs.accounts, hs.usable, hs.kept, hdisciplined⟩
  | clock now =>
    have hdisciplined : (Pool.next answer s (.outside { s.state with now := now })).Disciplined
        EnablesOwn rowRead none := hs.disciplined.next fun p hp => nomatch hp
    exact ⟨⟨hs.accounts.distinct, hs.accounts.drawn⟩, hs.usable, hs.kept, hdisciplined⟩
  | statement i =>
    have hdisciplined := hs.disciplined.next (h := answer) (a := .answer i) fun p hp => nomatch hp
    rcases Pool.next_answer_cases (h := answer) s i with heq | ⟨r, k, hp, heq⟩
    · show RacesInvariant (Pool.next answer s (.answer i))
      rwa [heq]
    · show RacesInvariant (Pool.next answer s (.answer i))
      rw [heq] at hdisciplined ⊢
      refine ⟨hs.accounts.answer r, usable_answer hs.usable ?_, secretKept_answer hs.accounts hs.kept i r,
        hdisciplined⟩
      -- the handler that enables has read the row, and the secret it saw was not cleared
      rintro id rfl u hu hid
      obtain ⟨row, hrow, hrowid, hsecret⟩ := hs.disciplined.may_issue hp
      have hcleared := he.2 id (by rw [Pool.waiting_eq hp]; rfl)
      exact (hs.kept i row hrow).2 hsecret (hrowid ▸ hcleared) u hu (hid.trans hrowid.symm)

/-- **Where 2FA is on there is a secret**, in every state of every run in which no
confirmation is overtaken by `totp_disable`. -/
theorem two_factor_usable {C : Crates} {now : ℕ} {s : Service}
    (hs : Transitions.Reaches (Service.next C) ConfirmsInTime (Pool.idle (.init now)) s) :
    TwoFactorUsable s.state := by
  have hinv : RacesInvariant s := by
    refine hs.invariant ⟨Accounts.init now, fun _ h => (nomatch h), fun _ _ h => (nomatch h),
      Pool.Disciplined.idle _⟩ ?_
    exact fun s e h he => racesInvariant_next h he
  exact hinv.usable

namespace Sample

theorem two_factor_usable_enrolment : TwoFactorUsable (after enrolment).state := by
  have hadmits : Transitions.Admits (Service.next crates) ConfirmsInTime (Pool.idle (.init 0))
      enrolment := by
    decide
  exact two_factor_usable hadmits.reaches

/-- A second confirmation reads the row and checks its code; then 2FA is disabled; then
the confirmation goes on. -/
def overtaking : List Event :=
  enrolment ++ served 3 2 "" (.totpConfirm headers "287082".toList) ++
    served 4 3 "" (.totpDisable headers "287082".toList) ++ [.statement 3]

/-- A confirmation that was overtaken leaves 2FA on without a secret. -/
theorem overtaken_confirmation : (after overtaking).Reached crates ∧
    ¬ TwoFactorUsable (after overtaking).state := by
  refine ⟨after_reached (by decide), fun h => ?_⟩
  have hrow : ∃ u ∈ (after overtaking).state.users, u.totpEnabled = true ∧ u.totpSecret = none := by
    decide +kernel
  obtain ⟨u, hu, henabled, hnone⟩ := hrow
  have hsome := h u hu henabled
  rw [hnone] at hsome
  cases hsome

end Sample
end Winkd.Server
