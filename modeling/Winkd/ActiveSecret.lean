import Winkd.Journal

/-!
# The active TOTP secret

The secret that `totp_setup` stores is pending until `totp_confirm` has verified a code
for it, and pending and active secrets share a column.  `totp_setup` does not look
whether there is an active one: for an account with 2FA it replaces the active secret by
one nobody has shown a code for.  In runs where this does not happen, the active secret
is a confirmed one, and is changed or cleared only with a second factor
(`active_secret_guarded`).
-/

namespace Winkd.Server

/-- A code for the user's secret was verified by `totp_confirm`, for that user. -/
def Served.Confirmed (C : Crates) (x : Served) (u : User) : Prop :=
  ∃ headers code secret v, x.request = .totpConfirm headers code ∧
    x.before.sessionUser headers = some v ∧ v.id = u.id ∧ v.totpSecret = some secret ∧
    Totp.verify C (x.before.now / 1000000) secret (normalize2faCode code) = true ∧
    u.totpSecret = some secret

/-- The request leaves the user's secret alone, and 2FA on, or verifies the second
factor. -/
def Served.ChangesGuarded (C : Crates) (x : Served) : Prop :=
  ∀ u ∈ x.before.users, u.totpEnabled = true → ∀ v ∈ x.after.users, v.id = u.id →
    v.totpSecret ≠ u.totpSecret ∨ v.totpEnabled = false → FactorVerified C x.before x.request u

/-- **The active secret is protected by the second factor.** -/
structure SecretsGuarded (C : Crates) (j : Journal) : Prop where
  changes : ∀ x ∈ j.served, x.ChangesGuarded C
  confirmed : ∀ u ∈ j.state.users, u.totpEnabled = true → ∃ x ∈ j.served, x.Confirmed C u

/-- `totp_setup` is not asked for by a user who has 2FA. -/
def SetsUpOnce (j : Journal) : Arrival → Prop
  | .request _ (.totpSetup headers) =>
      ∀ u ∈ j.state.sessionUser headers, u.totpEnabled = false
  | _ => True

instance (j : Journal) : ∀ a, Decidable (SetsUpOnce j a)
  | .request _ (.totpSetup headers) =>
      inferInstanceAs (Decidable (∀ u ∈ j.state.sessionUser headers, u.totpEnabled = false))
  | .request _ (.login _ _) => isTrue trivial
  | .request _ (.register _ _) => isTrue trivial
  | .request _ (.oauthCallback _ _ _) => isTrue trivial
  | .request _ (.totpChallenge _ _) => isTrue trivial
  | .request _ (.totpConfirm _ _) => isTrue trivial
  | .request _ (.totpDisable _ _) => isTrue trivial
  | .request _ (.recoveryCodesGenerate _ _) => isTrue trivial
  | .clock _ => isTrue trivial

/-- What a run may do in which no active secret is replaced. -/
def KeepsActiveSecrets (j : Journal) (a : Arrival) : Prop := j.InTime a ∧ SetsUpOnce j a

instance (j : Journal) (a : Arrival) : Decidable (KeepsActiveSecrets j a) :=
  inferInstanceAs (Decidable (_ ∧ _))

/-! ## What a request does to a row -/

section Rows
variable {C : Crates} {o : Outside} {b : Backend}

/-- What becomes of the rows of `users`. -/
inductive RowEffect (C : Crates) (b : Backend) (req : AuthRequest) (v : User) : Prop where
  | same (mem : v ∈ b.users)
  | new (id : v.id = b.drawn) (disabled : v.totpEnabled = false)
  | secretSet (headers : Headers) (request : req = .totpSetup headers) (u : User)
      (user : b.sessionUser headers = some u) (id : v.id = u.id) (enabled : v.totpEnabled = u.totpEnabled)
  | enabled (headers : Headers) (code : Text) (request : req = .totpConfirm headers code) (u : User)
      (user : b.sessionUser headers = some u) (secret : Text) (stored : u.totpSecret = some secret)
      (verified : Totp.verify C (b.now / 1000000) secret (normalize2faCode code) = true)
      (row : v = { u with totpEnabled := true })
  | disabled (u : User) (verified : FactorVerified C b req u) (id : v.id = u.id) (mem : u ∈ b.users)
      (disabled : v.totpEnabled = false)

/-- **Where the rows after a request come from.** -/
theorem row_effect (hb : Accounts b) {req : AuthRequest} {v : User}
    (hv : v ∈ ((handle C o req).run answer b).2.users) : RowEffect C b req v := by
  cases handle_effect (C := C) (o := o) (b := b) req with
  | kept h => exact .same (h.users ▸ hv)
  | session _ _ _ husers _ => exact .same (husers ▸ hv)
  | account u hnew husers _ =>
    rw [husers, List.mem_append, List.mem_singleton] at hv
    rcases hv with hv | rfl
    · exact .same hv
    · exact .new hnew.id hnew.totpEnabled
  | secretSet headers hreq u hu husers _ =>
    rw [husers] at hv
    obtain ⟨w, hw, rfl⟩ := mem_updateUser.mp hv
    split
    · rename_i hid
      obtain rfl := hb.eq_of_id hw (mem_of_sessionUser hu) hid
      exact .secretSet headers hreq w hu rfl rfl
    · exact .same hw
  | enabled headers code hreq u hu secret hstored hverified husers _ =>
    rw [husers] at hv
    obtain ⟨w, hw, rfl⟩ := mem_updateUser.mp hv
    split
    · rename_i hid
      obtain rfl := hb.eq_of_id hw (mem_of_sessionUser hu) hid
      exact .enabled headers code hreq w hu secret hstored hverified rfl
    · exact .same hw
  | disabled u hverified hmem husers _ =>
    rw [husers] at hv
    obtain ⟨w, hw, rfl⟩ := mem_updateUser.mp hv
    split
    · rename_i hid
      exact .disabled u hverified hid hmem rfl
    · exact .same hw

end Rows

/-! ## Runs -/

section Runs
variable {C : Crates} {j : Journal}

/-- One request. -/
theorem entry_guarded (hb : Accounts j.state) {o : Outside} {req : AuthRequest}
    (hsetup : SetsUpOnce j (.request o req)) : (j.entry C o req).ChangesGuarded C := by
  intro u hu henabled v hv hid hchanged
  have hsame : v = u → FactorVerified C j.state req u := by
    rintro rfl
    rcases hchanged with hne | hdisabled
    · exact absurd rfl hne
    · exact absurd (henabled.symm.trans hdisabled) (by decide)
  cases row_effect hb hv with
  | same hmem => exact hsame (hb.eq_of_id hmem hu hid)
  | new hnew _ => exact absurd (hid.symm.trans hnew) (Nat.ne_of_lt (hb.drawn u hu))
  | secretSet headers hreq w hw hwid _ =>
    obtain rfl : w = u := hb.eq_of_id (mem_of_sessionUser hw) hu (hwid.symm.trans hid)
    subst hreq
    exact absurd (henabled.symm.trans (hsetup w hw)) (by decide)
  | enabled _ _ _ w hw _ _ _ hrow =>
    have hwid : w.id = v.id := by rw [hrow]
    obtain rfl : w = u := hb.eq_of_id (mem_of_sessionUser hw) hu (hwid.trans hid)
    refine hsame ?_
    rw [hrow, ← henabled]
  | disabled w hverified hwid hmem _ =>
    exact hb.eq_of_id hmem hu (hwid.symm.trans hid) ▸ hverified

theorem secretsGuarded_next (hb : Accounts j.state) (hj : SecretsGuarded C j) {a : Arrival}
    (ha : KeepsActiveSecrets j a) : SecretsGuarded C (j.next C a) := by
  cases a with
  | clock now => exact ⟨hj.changes, hj.confirmed⟩
  | request o req =>
    constructor
    · intro x hx
      rcases List.mem_cons.mp hx with rfl | hx
      · exact entry_guarded hb ha.2
      · exact hj.changes x hx
    · intro v hv henabled
      have hbefore : v ∈ j.state.users → ∃ x ∈ (j.next C (.request o req)).served, x.Confirmed C v := by
        intro hmem
        obtain ⟨x, hx, hconfirmed⟩ := hj.confirmed v hmem henabled
        exact ⟨x, List.mem_cons_of_mem _ hx, hconfirmed⟩
      cases row_effect hb hv with
      | same hmem => exact hbefore hmem
      | new _ hdisabled => exact absurd (henabled.symm.trans hdisabled) (by decide)
      | secretSet headers hreq u hu _ hsame =>
        subst hreq
        exact absurd (henabled.symm.trans (hsame.trans (ha.2 u hu))) (by decide)
      | enabled headers code hreq u hu secret hstored hverified hrow =>
        refine ⟨j.entry C o req, List.mem_cons_self, headers, code, secret, u, hreq, hu, ?_, hstored,
          hverified, ?_⟩
        · rw [hrow]
        · rw [hrow]
          exact hstored
      | disabled _ _ _ _ hdisabled => exact absurd (henabled.symm.trans hdisabled) (by decide)

theorem accounts_next (hb : Accounts j.state) (a : Arrival) : Accounts (j.next C a).state := by
  cases a with
  | clock now => exact ⟨hb.distinct, hb.drawn⟩
  | request o req => exact hb.run _

end Runs

/-- **In every run in which no user with 2FA asks for another secret**, the active secrets
are guarded. -/
theorem active_secret_guarded {C : Crates} {now : ℕ} {j : Journal}
    (hj : Transitions.Reaches (Journal.next C) KeepsActiveSecrets (.start (.init now)) j) :
    SecretsGuarded C j := by
  have hinv := hj.invariant (I := fun j => Accounts j.state ∧ SecretsGuarded C j)
    ⟨Accounts.init now, fun _ h => (nomatch h), fun _ h => nomatch h⟩
    fun j a h ha => ⟨accounts_next h.1 a, secretsGuarded_next h.1 h.2 ha⟩
  exact hinv.2

open Sample in
theorem active_secret_guarded_enrolling : SecretsGuarded crates (recorded enrolling) := by
  have hadmits : Transitions.Admits (Journal.next crates) KeepsActiveSecrets (.start (.init 0))
      enrolling := by
    decide
  exact active_secret_guarded hadmits.reaches

open Sample in
/-- With 2FA on, `totp_setup` puts another secret in the place of the active one: no code
was presented, and none was ever verified for it. -/
theorem setup_replaces_active_secret :
    ∃ j, Transitions.Reaches (Journal.next crates) Journal.InTime (.start (.init 0)) j ∧
      ¬ SecretsGuarded crates j := by
  let setUpAgain : Arrival :=
    .request { outside "" with secretBytes := zeroKey } (.totpSetup headers)
  have hadmits : Transitions.Admits (Journal.next crates) Journal.InTime (.start (.init 0))
      (enrolling ++ [setUpAgain]) := by
    decide
  refine ⟨_, hadmits.reaches, fun h => ?_⟩
  have hrow : ∃ u ∈ (recorded enrolling).state.users, u.totpEnabled = true ∧
      ∃ v ∈ (recorded (enrolling ++ [setUpAgain])).state.users,
        v.id = u.id ∧ v.totpSecret ≠ u.totpSecret := by
    decide
  obtain ⟨u, hu, henabled, v, hv, hid, hne⟩ := hrow
  obtain ⟨secret, code, hcomes, -⟩ :=
    h.changes _ List.mem_cons_self u hu henabled v hv hid (.inl hne)
  exact hcomes

end Winkd.Server
