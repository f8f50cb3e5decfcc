import Winkd.Service

/-!
# The second factor at login

`login` does not create a session for an account with 2FA before a challenge is
answered, and `totp_challenge` does so only for a code that is accepted.  The OAuth
callback creates one without looking: an account with 2FA is guarded exactly where no
OAuth login reaches it (`second_factor_iff`).
-/

namespace Winkd.Server
variable {C : Crates} {o : Outside} {b : Backend}

/-- A session the request creates for an account with 2FA comes with a second factor,
verified in that request. -/
def SecondFactorGuarded (C : Crates) (o : Outside) (b : Backend) (req : AuthRequest) : Prop :=
  ∀ u ∈ b.users, u.totpEnabled = true →
    ∀ row ∈ ((handle C o req).run answer b).2.sessions, row ∉ b.sessions → row.userId = u.id →
      FactorVerified C b req u

/-- The request logs in, by OAuth, a user with 2FA. -/
def SkipsFactor (C : Crates) (o : Outside) (b : Backend) (req : AuthRequest) : Prop :=
  ∃ u, u.totpEnabled = true ∧ OauthLogsIn C o b req u

/-! ## Who a session is created for -/

/-- A session that was not there is of the user who was logged in, or of a new one. -/
theorem new_session {u : User} {row : SessionRow} {b' : Backend} {token : Text}
    (hsessions : b'.sessions = b.sessions ++ [b.newSession u.id token]) (hrow : row ∈ b'.sessions)
    (hnew : row ∉ b.sessions) : row.userId = u.id := by
  rw [hsessions, List.mem_append, List.mem_singleton] at hrow
  rcases hrow with h | rfl
  · exact absurd h hnew
  · rfl

/-- What can be behind a session created for an account with 2FA. -/
theorem session_of_enabled (hb : Accounts b) {req : AuthRequest} {u : User} (hu : u ∈ b.users)
    (henabled : u.totpEnabled = true) {row : SessionRow}
    (hrow : row ∈ ((handle C o req).run answer b).2.sessions) (hnew : row ∉ b.sessions)
    (huser : row.userId = u.id) : OauthLogsIn C o b req u ∨ FactorVerified C b req u := by
  have hkept : ∀ {l : List SessionRow}, l = b.sessions → row ∈ l → False := fun h hrow => hnew (h ▸ hrow)
  cases handle_effect (C := C) (o := o) (b := b) req with
  | kept h => exact (hkept h.sessions hrow).elim
  | secretSet _ _ _ _ _ hsessions => exact (hkept hsessions hrow).elim
  | enabled _ _ _ _ _ _ _ _ _ hsessions => exact (hkept hsessions hrow).elim
  | disabled _ _ _ _ hsessions => exact (hkept hsessions hrow).elim
  | account v hv _ hsessions =>
    rcases hsessions with hsessions | hsessions
    · exact (hkept hsessions hrow).elim
    · have hid : u.id = b.drawn := huser.symm.trans ((new_session hsessions hrow hnew).trans hv.id)
      exact absurd hid (Nat.ne_of_lt (hb.drawn u hu))
  | session v hv hmay _ hsessions =>
    obtain rfl : v = u := hb.eq_of_id hv hu ((new_session hsessions hrow hnew).symm.trans huser)
    cases hmay with
    | password _ _ _ hdisabled => exact absurd (henabled.symm.trans hdisabled) (by decide)
    | oauth h => exact .inl h
    | factor h => exact .inr h

/-! ## What the OAuth callback does -/

theorem slug_length (p : OAuthProvider) : p.slug.length ≤ 32 := by
  cases p <;> decide

/-- The user `find_or_create_oauth_user` finds is the user it returns. -/
theorem run_findOrCreateOauthUser {provider : OAuthProvider} {info : OAuthUserInfo} {u : User}
    (hu : oauthUser b provider info = some u) (hlink : Linkable b provider info) :
    ∃ b', (findOrCreateOauthUser o provider info).run answer b = (.ok u, b') ∧
      b'.sessions = b.sessions ∧ b'.now = b.now := by
  have hfound : (findUserByOauth provider.slug info.providerUserId).run answer b =
      (.ok (b.findUserByOauth provider.slug info.providerUserId), b) := rfl
  rw [findOrCreateOauthUser, Prog.run_bind_ok answer hfound]
  rw [oauthUser] at hu
  cases hlinked : b.findUserByOauth provider.slug info.providerUserId with
  | some v =>
    rw [hlinked, Option.some_or] at hu
    exact ⟨b, by rw [Option.some.inj hu]; rfl, rfl, rfl⟩
  | none =>
    rw [hlinked, Option.none_or] at hu
    obtain ⟨email, hemail, hfind⟩ := Option.bind_eq_some_iff.mp hu
    have hlen : info.providerUserId.length ≤ 255 := hlink.resolve_left (by rw [hlinked]; decide)
    have hmail : (findOauthEmail info.email).run answer b = (.ok (some u), b) := by
      rw [hemail, ← hfind]
      rfl
    have hlinks : ∃ l, (linkOauthAccount u.id provider.slug info.providerUserId).run answer b =
        (.ok (), { b with oauthAccounts := l }) := by
      show ∃ l, (orInternal (b.linkOauthAccount u.id provider.slug info.providerUserId).1).run answer
        (b.linkOauthAccount u.id provider.slug info.providerUserId).2 = _
      have hslug := slug_length provider
      rw [Backend.linkOauthAccount, if_neg (by omega), if_neg (by omega)]
      split
      · exact ⟨b.oauthAccounts, rfl⟩
      · exact ⟨_, rfl⟩
    obtain ⟨l, hl⟩ := hlinks
    refine ⟨{ b with oauthAccounts := l }, ?_, rfl, rfl⟩
    show (findOauthEmail info.email >>= _).run answer b = _
    rw [Prog.run_bind_ok answer hmail]
    show (linkOauthAccount u.id provider.slug info.providerUserId >>= _).run answer b = _
    rw [Prog.run_bind_ok answer hl]
    rfl

/-- **The OAuth callback creates the session**, whatever the account. -/
theorem session_of_oauth {req : AuthRequest} {u : User} (h : OauthLogsIn C o b req u) :
    b.newSession u.id o.token ∈ ((handle C o req).run answer b).2.sessions := by
  obtain ⟨hfree, slug, query, headers, provider, info, rfl, hprovider, hinfo, hu, hlink⟩ := h
  have hrun : (oauthUserinfo C o provider query headers).run answer b = (.ok info, b) := by
    have hb : ((oauthUserinfo C o provider query headers).run answer b).2 = b :=
      Prog.run_of_wp (M := fun b' => b' = b) (wp_oauthUserinfo provider query headers)
    exact Prod.ext hinfo hb
  obtain ⟨b', hfind, hsessions, hnow⟩ := run_findOrCreateOauthUser (o := o) hu hlink
  have hcreate : (createSession u.id o.token).run answer b' =
      (.ok o.token, { b' with sessions := b'.sessions ++ [b'.newSession u.id o.token] }) := by
    show (orInternal (b'.createSession u.id o.token).1 >>= fun _ => pure o.token).run answer
      (b'.createSession u.id o.token).2 = _
    rw [createSession_free ⟨hfree.1, hsessions ▸ hfree.2⟩]
    rfl
  rw [handle, oauthCallback, hprovider]
  show b.newSession u.id o.token ∈ ((oauthUserinfo C o provider query headers >>= _).run answer
    b).2.sessions
  rw [Prog.run_bind_ok answer hrun, Prog.run_bind_ok answer hfind, Prog.run_bind_ok answer hcreate]
  show b.newSession u.id o.token ∈ b'.sessions ++ [b'.newSession u.id o.token]
  rw [Backend.newSession, Backend.newSession, hnow]
  exact List.mem_append_right _ (List.mem_singleton_self _)

/-! ## The factor -/

/-- **The second factor guards a request exactly when** it does not log in, by OAuth, a
user with 2FA. -/
theorem guarded_iff (hb : Accounts b) (req : AuthRequest) :
    SecondFactorGuarded C o b req ↔ ¬ SkipsFactor C o b req := by
  constructor
  · rintro hguarded ⟨u, henabled, hlogs⟩
    have hmem : u ∈ b.users := by
      obtain ⟨-, _, _, _, _, _, -, -, -, hu, -⟩ := hlogs
      exact mem_of_oauthUser hu
    have hnew : b.newSession u.id o.token ∉ b.sessions := fun h => hlogs.1.2 _ h rfl
    obtain ⟨secret, code, hcomes, -⟩ := hguarded u hmem henabled _ (session_of_oauth hlogs) hnew rfl
    -- an OAuth callback presents no code
    obtain ⟨-, _, _, _, _, _, rfl, -⟩ := hlogs
    exact hcomes
  · intro hskips u hu henabled row hrow hnew huser
    rcases session_of_enabled hb hu henabled hrow hnew huser with hlogs | hverified
    · exact absurd ⟨u, henabled, hlogs⟩ hskips
    · exact hverified

theorem second_factor_iff {s : Service} (hs : s.Reached C) (o : Outside) (req : AuthRequest) :
    SecondFactorGuarded C o s.state req ↔ ¬ SkipsFactor C o s.state req :=
  guarded_iff hs.accounts req

open Sample in
theorem second_factor_iff_enrolled : (after enrolment).Reached crates ∧
    (SecondFactorGuarded crates (outside "second") (after enrolment).state callback ↔
      ¬ SkipsFactor crates (outside "second") (after enrolment).state callback) :=
  have h := after_reached (by decide)
  ⟨h, second_factor_iff h _ _⟩

open Sample in
/-- An account that was created by an OAuth login, and has 2FA, is logged in by the next
OAuth login without a code. -/
theorem oauth_login_skips_factor : (after enrolment).Reached crates ∧
    ¬ SecondFactorGuarded crates (outside "second") (after enrolment).state callback := by
  refine ⟨after_reached (by decide), ?_⟩
  intro hguarded
  have hrow : ∃ u ∈ (after enrolment).state.users, u.totpEnabled = true ∧
      ∃ row ∈ ((handle crates (outside "second") callback).run answer
        (after enrolment).state).2.sessions,
        row ∉ (after enrolment).state.sessions ∧ row.userId = u.id := by
    decide +kernel
  obtain ⟨u, hu, henabled, row, hrow, hnew, huser⟩ := hrow
  obtain ⟨secret, code, hcomes, -⟩ := hguarded u hu henabled row hrow hnew huser
  exact hcomes

end Winkd.Server
