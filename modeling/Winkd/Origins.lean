import Winkd.Warrants
import Winkd.AccountOwners

/-!
# How a session came about

Whoever has a session's token is the user, so a session must not be given without a reason.
The reasons are few: the password of an account without 2FA, a registration, an identity that
a provider vouches for, or the second factor together with a challenge that was issued upon the
password less than five minutes before.

Whatever the requests, and however their statements interleave, each session in the table has
one of them (`sessions_accounted`), and who changes an account's second factor has shown such a
session of this account, and the factor itself unless a new secret is merely being proposed
(`factor_writes_authorized`).  What a request was told decides what it does (`Warrants`); that it
was told the truth, the trace says.
-/

namespace Winkd.Server
open Threads

/-! ## Reasons -/

section Reasons
variable (C : Crates) (reqs : ℕ → Outside × AuthRequest) (l : Trace) (i : ℕ)

/-- Request `i` is a login, with the password of the user that it names. -/
def PasswordSeen (user : User) : Prop :=
  ∃ headers body hash, (reqs i).2 = .login headers body ∧
    (Pool.Seen l i fun b => b.loginUser body.username.trim = some user) ∧
    user.passwordHash = some hash ∧ C.verifyPassword body.password hash = true

/-- Request `i` has a code for the secret that the account has, or one of its recovery codes. -/
def FactorSeen (id : Id) : Prop :=
  ∃ code user secret, (reqs i).2.code = some code ∧ (Pool.Seen l i fun b => user ∈ b.users) ∧
    user.id = id ∧ user.totpSecret = some secret ∧
    ((Pool.Seen l i fun b => Totp.verify C (b.now / 1000000) secret (normalize2faCode code) = true) ∨
      Pool.Seen l i fun b => ∃ c ∈ b.recoveryCodes,
        c.userId = id ∧ c.codeHash = C.sha256Hex (normalize2faCode code))

/-- Request `i` has taken a challenge that was issued less than five minutes before, to a login
with the account's password. -/
def ChallengeTaken (id : Id) : Prop :=
  ∃ headers body, (reqs i).2 = .totpChallenge headers body ∧
    ∃ taken ∈ l, taken.task = i ∧ taken.request = .consumeTotpChallenge body.challengeToken ∧
    ∃ issued earlier, issued :: earlier <:+ l ∧
      issued.request = .createTotpChallenge id body.challengeToken ∧
      taken.before.now < issued.before.now + 5 * 60 * 1000000 ∧
      ∃ user, PasswordSeen C reqs earlier issued.task user ∧ user.id = id ∧ user.totpEnabled = true

/-- Request `i` is a callback that has the state of its sign-in, in a cookie that is not older than ten
minutes, and this is what the provider gives for its code. -/
def ProviderVouched (slug : Text) (info : OAuthUserInfo) : Prop :=
  ∃ query headers pkceVerifier redirectUrl token, (reqs i).2 = .oauthCallback slug query headers ∧
    (∃ cookie decoded issued issuedAt cookieUrl,
      parseCookie headers "winkd_oauth_state".toList = some cookie ∧ C.urlDecode cookie = some decoded ∧
      Text.split '|' decoded = [slug, query.state, pkceVerifier, issued, cookieUrl] ∧
      Text.parseUnsigned (2 ^ 64) issued = some issuedAt ∧
      Pool.Seen l i fun b => b.now / 1000000 - issuedAt ≤ 600) ∧
    (reqs i).1.exchangeCode redirectUrl pkceVerifier query.code = .ok token ∧
    (reqs i).1.fetchUserinfo token = .ok info

/-- Why a session of the account was given to request `i`. -/
inductive Origin (id : Id) : Prop
  | password (user : User) (seen : PasswordSeen C reqs l i user) (id : user.id = id)
      (off : user.totpEnabled = false)
  | registration (headers : Headers) (body : RegisterRequest) (hash : Text)
      (request : (reqs i).2 = .register headers body)
      (hashed : C.hashPassword body.password (reqs i).1.salt = .ok hash)
      (created : ∃ e ∈ l, e.task = i ∧ AuthEntry.created e = some (id, registerEmail body, some hash))
  | identity (slug : Text) (info : OAuthUserInfo) (vouched : ProviderVouched C reqs l i slug info)
      (account : (Pool.Seen l i fun b =>
          (b.findUserByOauth slug info.providerUserId).map User.id = some id) ∨
        (Pool.Seen l i fun b => (info.email.bind b.findUserByEmail).map User.id = some id) ∨
        ∃ e ∈ l, e.task = i ∧ AuthEntry.created e = some (id, info.email, none))
  | factor (taken : ChallengeTaken C reqs l i id) (seen : FactorSeen C reqs l i id)

/-- The session was given, and not without a reason. -/
def Accounted (row : SessionRow) : Prop :=
  ∃ e earlier, e :: earlier <:+ l ∧ e.request = .createSession row.userId row.token ∧
    row = e.before.newSession row.userId row.token ∧ Origin C reqs earlier e.task row.userId

/-- Request `i` has the token of a session of the account's that had not expired, and that was given
for a reason. -/
def SessionSeen (id : Id) : Prop :=
  ∃ headers token row, (reqs i).2.bearer = some headers ∧
    headers.authorization.bind (Text.stripPrefix "Bearer ".toList) = some token ∧
    (Pool.Seen l i fun b => row ∈ b.sessions ∧ b.now < row.expiresAt) ∧ row.token = token ∧
    row.userId = id ∧ Accounted C reqs l row

end Reasons

/-- The account whose second factor a statement writes: its secret, whether it is on, or its recovery
codes. -/
def Op.secondFactorOf : Op → Option Id
  | .setTotpSecret id _ => some id
  | .setTotpEnabled id _ => some id
  | .deleteRecoveryCodes _ id => some id
  | .insertRecoveryCode _ id _ => some id
  | _ => none

/-! ## Runs with given requests -/

namespace Service
variable {C : Crates} {reqs : ℕ → Outside × AuthRequest} {s : Service}

/-- Request `i` is `reqs i`; the clock does not run backwards. -/
def Serves (reqs : ℕ → Outside × AuthRequest) (s : Service) : Event → Prop
  | .request o req => reqs s.tasks.length = (o, req)
  | .statement _ => True
  | .clock now => s.state.now ≤ now

/-- The states the service can come to when request `i` is `reqs i`. -/
def ReachedServing (C : Crates) (reqs : ℕ → Outside × AuthRequest) (s : Service) : Prop :=
  ∃ now, Transitions.Reaches (next C) (Serves reqs) (Pool.idle (.init now)) s

theorem next_act (C : Crates) (s : Service) (e : Event) : ∃ a, next C s e = Pool.next answer s a := by
  cases e with
  | request o req => exact ⟨.start (handle C o req), rfl⟩
  | statement i => exact ⟨.answer i, rfl⟩
  | clock now => exact ⟨.outside { s.state with now := now }, rfl⟩

/-- If every handler abides by a rule of its request, the service does. -/
theorem ReachedServing.abiding {rule : ℕ → Past → Op → Prop} {Q : ℕ → Past → Response → Prop}
    {E : ℕ → Past → AppError → Prop} (hs : s.ReachedServing C reqs)
    (hhandle : ∀ i, (handle C (reqs i).1 (reqs i).2).Abides (rule i) (Q i) (E i) []) :
    s.Abiding rule Q E := by
  obtain ⟨now, hreach⟩ := hs
  refine hreach.invariant (Pool.Abiding.idle _) ?_
  intro s e hs he
  cases e with
  | statement i =>
    exact Pool.Abiding.next (h := answer) hs (a := .answer i) fun _ h => by cases h
  | clock now =>
    exact Pool.Abiding.next (h := answer) hs (a := .outside _) fun _ h => by cases h
  | request o req =>
    refine Pool.Abiding.next (h := answer) hs (a := .start (handle C o req)) fun p hp => ?_
    cases hp
    have hreq : reqs s.tasks.length = (o, req) := he
    have habides := hhandle s.tasks.length
    rw [hreq] at habides
    exact habides

/-- **At its moment each statement was allowed** by what its request had been told. -/
theorem ReachedServing.moment (hs : s.ReachedServing C reqs) {e : Entry Op Op.Reply Backend}
    {earlier : Trace} (he : e :: earlier <:+ s.trace) :
    ∃ t : Service, t.ReachedServing C reqs ∧ t.trace = earlier ∧ t.state = e.before ∧
      Past.May C (reqs e.task).1 (reqs e.task).2 (Pool.history e.task earlier) e.request := by
  obtain ⟨now, hreach⟩ := hs
  obtain ⟨t, ht, hrest⟩ := Pool.allowed_moment (next_act C)
    (fun t ht => ReachedServing.abiding ⟨now, ht⟩ fun i => handle_abides C _ _) hreach rfl he
  exact ⟨t, ⟨now, ht⟩, hrest⟩

theorem ReachedServing.answered (hs : s.ReachedServing C reqs) : Pool.Answered answer s.trace := by
  obtain ⟨now, hreach⟩ := hs
  exact Pool.answered_trace (next_act C) hreach rfl

end Service

/-! ### Rows are put in the tables by requests -/

/-- Only these statements write the tables of the sessions and the challenges, or the log. -/
def Op.records : Op → Bool
  | .createSession _ _ => true
  | .createTotpChallenge _ _ => true
  | .consumeTotpChallenge _ => true
  | .insertAuditLog _ => true
  | _ => false

/-- The sessions, the challenges and the log are the same. -/
structure SameRecords (b b' : Backend) : Prop where
  sessions : b'.sessions = b.sessions
  totpChallenges : b'.totpChallenges = b.totpChallenges
  auditLog : b'.auditLog = b.auditLog

theorem sameRecords_answer {r : Op} (hr : r.records = false) (b : Backend) :
    SameRecords b (answer r b).2 := by
  cases r with
  | createSession id token => cases hr
  | createTotpChallenge id token => cases hr
  | insertAuditLog entry => cases hr
  | createUser username winkdId displayName email passwordHash =>
    simp only [answer, Backend.createUser]
    split <;> exact ⟨rfl, rfl, rfl⟩
  | setTotpEnabled u enabled => cases enabled <;> exact ⟨rfl, rfl, rfl⟩
  | linkOauthAccount u provider providerUserId =>
    simp only [answer, Backend.linkOauthAccount]
    split
    · exact ⟨rfl, rfl, rfl⟩
    · split
      · exact ⟨rfl, rfl, rfl⟩
      · split <;> exact ⟨rfl, rfl, rfl⟩
  | consumeTotpChallenge token => cases hr
  | _ => exact ⟨rfl, rfl, rfl⟩

/-- A session is added, unless its token is too long or taken. -/
theorem createSession_cases (id : Id) (token : Text) (b : Backend) :
    (∃ e, answer (.createSession id token) b = (.error e, b)) ∨
      (∀ row ∈ b.sessions, row.token ≠ token) ∧ answer (.createSession id token) b =
        (.ok (), { b with sessions := b.sessions ++ [b.newSession id token] }) := by
  simp only [answer, Backend.createSession]
  split
  · exact .inl ⟨_, rfl⟩
  · split
    · exact .inl ⟨_, rfl⟩
    · rename_i hfree
      refine .inr ⟨fun row hrow htoken => hfree ?_, rfl⟩
      exact List.any_eq_true.mpr ⟨row, hrow, decide_eq_true htoken⟩

/-- A challenge is added, unless its token is too long or taken. -/
theorem createTotpChallenge_cases (id : Id) (token : Text) (b : Backend) :
    (∃ e, answer (.createTotpChallenge id token) b = (.error e, b)) ∨
      answer (.createTotpChallenge id token) b = (.ok (), { b with
        totpChallenges := b.totpChallenges ++ [⟨id, token, b.now + 5 * 60 * 1000000⟩] }) := by
  simp only [answer, Backend.createTotpChallenge]
  split
  · exact .inl ⟨_, rfl⟩
  · split
    · exact .inl ⟨_, rfl⟩
    · exact .inr rfl

/-- Sessions are only added, and each has a token of its own. -/
theorem sessions_answer (r : Op) (b : Backend) : (answer r b).2.sessions = b.sessions ∨
    ∃ id token, r = .createSession id token ∧ (∀ row ∈ b.sessions, row.token ≠ token) ∧
      (answer r b).2.sessions = b.sessions ++ [b.newSession id token] := by
  cases r with
  | createSession id token =>
    rcases createSession_cases id token b with ⟨e, heq⟩ | ⟨hfree, heq⟩
    · exact .inl (by rw [heq])
    · exact .inr ⟨id, token, rfl, hfree, by rw [heq]⟩
  | createTotpChallenge id token =>
    rcases createTotpChallenge_cases id token b with ⟨e, heq⟩ | heq
    · exact .inl (by rw [heq])
    · exact .inl (by rw [heq])
  | consumeTotpChallenge token => exact .inl rfl
  | insertAuditLog entry => exact .inl rfl
  | _ => exact .inl (sameRecords_answer rfl b).sessions

theorem session_answer {r : Op} {b : Backend} {row : SessionRow}
    (h : row ∈ (answer r b).2.sessions) : row ∈ b.sessions ∨
      r = .createSession row.userId row.token ∧ row = b.newSession row.userId row.token := by
  rcases sessions_answer r b with heq | ⟨id, token, rfl, -, heq⟩
  · exact .inl (heq ▸ h)
  · rcases List.mem_append.mp (heq ▸ h) with h | h
    · exact .inl h
    · obtain rfl := List.mem_singleton.mp h
      exact .inr ⟨rfl, rfl⟩

theorem challenge_answer {r : Op} {b : Backend} {c : TotpChallenge}
    (h : c ∈ (answer r b).2.totpChallenges) : c ∈ b.totpChallenges ∨
      r = .createTotpChallenge c.userId c.token ∧ c.expiresAt = b.now + 5 * 60 * 1000000 := by
  have hsame : r.records = false → c ∈ b.totpChallenges := fun hr =>
    (sameRecords_answer hr b).totpChallenges ▸ h
  cases r with
  | createTotpChallenge id token =>
    rcases createTotpChallenge_cases id token b with ⟨e, heq⟩ | heq
    · rw [heq] at h
      exact .inl h
    · rw [heq] at h
      rcases List.mem_append.mp h with h | h
      · exact .inl h
      · obtain rfl := List.mem_singleton.mp h
        exact .inr ⟨rfl, rfl⟩
  | consumeTotpChallenge token => exact .inl (List.mem_of_mem_filter h)
  | createSession id token =>
    rcases createSession_cases id token b with ⟨e, heq⟩ | ⟨-, heq⟩
    · rw [heq] at h
      exact .inl h
    · rw [heq] at h
      exact .inl h
  | insertAuditLog entry => exact .inl h
  | _ => exact .inl (hsame rfl)

namespace Service
variable {C : Crates} {reqs : ℕ → Outside × AuthRequest} {s : Service}

/-- What only statements put in the tables, a statement has put there. -/
theorem ReachedServing.recorded {ρ : Type} (hs : s.ReachedServing C reqs)
    (held : Backend → ρ → Prop) (made : Entry Op Op.Reply Backend → ρ → Prop)
    (hanswer : ∀ i r b x, held (answer r b).2 x → held b x ∨ made ⟨i, b, r, (answer r b).1⟩ x)
    (hclock : ∀ b now x, held { b with now := now } x → held b x) (hinit : ∀ now x, ¬ held (.init now) x)
    {x : ρ} (hx : held s.state x) : ∃ e ∈ s.trace, made e x := by
  obtain ⟨now, hreach⟩ := hs
  refine Pool.recorded (h := answer) _ _ hanswer ?_ hreach (hinit now) hx
  intro s e _
  cases e with
  | request o req => exact .inr ⟨rfl, fun _ h => h⟩
  | statement i => exact .inl ⟨i, rfl⟩
  | clock now => exact .inr ⟨rfl, fun x => hclock s.state now x⟩

theorem ReachedServing.session_recorded (hs : s.ReachedServing C reqs) {row : SessionRow}
    (hrow : row ∈ s.state.sessions) : ∃ e ∈ s.trace,
      e.request = .createSession row.userId row.token ∧
        row = e.before.newSession row.userId row.token :=
  hs.recorded (fun b row => row ∈ b.sessions)
    (fun e row => e.request = .createSession row.userId row.token ∧
      row = e.before.newSession row.userId row.token)
    (fun _ _ _ _ h => session_answer h) (fun _ _ _ h => h) (fun _ _ h => List.not_mem_nil h) hrow

theorem ReachedServing.challenge_recorded (hs : s.ReachedServing C reqs) {c : TotpChallenge}
    (hc : c ∈ s.state.totpChallenges) : ∃ e ∈ s.trace,
      e.request = .createTotpChallenge c.userId c.token ∧
        c.expiresAt = e.before.now + 5 * 60 * 1000000 :=
  hs.recorded (fun b c => c ∈ b.totpChallenges)
    (fun e c => e.request = .createTotpChallenge c.userId c.token ∧
      c.expiresAt = e.before.now + 5 * 60 * 1000000)
    (fun _ _ _ _ h => challenge_answer h) (fun _ _ _ h => h) (fun _ _ h => List.not_mem_nil h) hc

end Service

/-! ## From what a request was told to how the tables were -/

theorem of_find?_eq_some {α : Type} {p : α → Prop} [DecidablePred p] {l : List α} {a : α}
    (h : (l.find? fun x => p x) = some a) : p a := of_decide_eq_true (List.find?_some (p := fun x => decide (p x)) h)

section Truth
variable {C : Crates} {reqs : ℕ → Outside × AuthRequest} {l l' : Trace} {i : ℕ} {id : Id}

theorem Accounted.mono {row : SessionRow} (h : Accounted C reqs l row) (hl : l <:+ l') :
    Accounted C reqs l' row := by
  obtain ⟨e, earlier, hsuffix, hrest⟩ := h
  exact ⟨e, earlier, hsuffix.trans hl, hrest⟩

theorem Past.PasswordShown.seen (hl : Pool.Answered answer l) {user : User}
    (h : Past.PasswordShown C (reqs i).2 (Pool.history i l) user) : PasswordSeen C reqs l i user := by
  obtain ⟨headers, body, hash, hreq, hnamed, hstored, hverified⟩ := h
  refine ⟨headers, body, hash, hreq, ?_, hstored, hverified⟩
  unfold Past.LookedUp at hnamed
  split at hnamed
  · rename_i hat
    refine (Pool.seen_of_told hl hnamed).imp fun b hb => ?_
    rw [Backend.loginUser, if_pos hat]
    exact Except.ok.inj hb
  · rename_i hat
    refine (Pool.seen_of_told hl hnamed).imp fun b hb => ?_
    rw [Backend.loginUser, if_neg hat]
    exact Except.ok.inj hb

theorem Past.ProviderVouches.seen (hl : Pool.Answered answer l) {slug : Text} {info : OAuthUserInfo}
    (h : Past.ProviderVouches C (reqs i).1 (reqs i).2 (Pool.history i l) slug info) :
    ProviderVouched C reqs l i slug info := by
  obtain ⟨query, headers, pkceVerifier, redirectUrl, token, hreq, hshown, hrest⟩ := h
  obtain ⟨cookie, decoded, issued, issuedAt, cookieUrl, now, hcookie, hdecoded, hsplit, hissued,
    htold, hage⟩ := hshown
  have hclock : Pool.Seen l i fun b => b.now / 1000000 - issuedAt ≤ 600 := by
    refine (Pool.seen_of_told hl htold).imp fun b hb => ?_
    have hnow : b.now / 1000000 = now := hb
    rw [hnow]
    exact hage
  exact ⟨query, headers, pkceVerifier, redirectUrl, token, hreq,
    ⟨cookie, decoded, issued, issuedAt, cookieUrl, hcookie, hdecoded, hsplit, hissued, hclock⟩, hrest⟩

theorem Past.Created.seen {email hash : Option Text} {user : User}
    (h : Past.Created (Pool.history i l) email hash user) :
    ∃ e ∈ l, e.task = i ∧ AuthEntry.created e = some (user.id, email, hash) := by
  obtain ⟨username, winkdId, displayName, htold⟩ := h
  obtain ⟨⟨j, b, r', x'⟩, he, rfl, heq⟩ := Pool.mem_history.mp htold
  cases heq
  exact ⟨_, he, rfl, rfl⟩

/-- The session whose token the request has is in the table, and has not expired. -/
theorem Past.SessionShown.seen (hl : Pool.Answered answer l) {user : User}
    (h : Past.SessionShown (reqs i).2 (Pool.history i l) user) :
    ∃ headers token, (reqs i).2.bearer = some headers ∧
      headers.authorization.bind (Text.stripPrefix "Bearer ".toList) = some token ∧
      Pool.Seen l i fun b => user ∈ b.users ∧ ∃ row ∈ b.sessions, row.token = token ∧ row.userId = user.id ∧
        b.now < row.expiresAt := by
  obtain ⟨headers, token, hbearer, htoken, htold⟩ := h
  refine ⟨headers, token, hbearer, htoken, (Pool.seen_of_told hl htold).imp fun b hb => ?_⟩
  obtain ⟨row, hrow, huser⟩ := Option.bind_eq_some_iff.mp (Except.ok.inj hb)
  have hcond := of_find?_eq_some hrow
  have hid : user.id = row.userId := of_find?_eq_some (p := fun u : User => u.id = row.userId) huser
  exact ⟨mem_of_findUserById huser, row, List.mem_of_find?_eq_some hrow, hcond.1, hid.symm, hcond.2⟩

theorem Past.FactorShown.seen (hl : Pool.Answered answer l) {user : User}
    (h : Past.FactorShown C (reqs i).2 (Pool.history i l) user)
    (huser : Pool.Seen l i fun b => user ∈ b.users) : FactorSeen C reqs l i user.id := by
  obtain ⟨code, secret, hcode, hsecret, hshown⟩ := h
  refine ⟨code, user, secret, hcode, huser, rfl, hsecret, hshown.imp ?_ ?_⟩
  · rintro ⟨now, htold, hverified⟩
    refine (Pool.seen_of_told hl htold).imp fun b hb => ?_
    have hnow : b.now / 1000000 = now := hb
    rw [hnow]
    exact hverified
  · rintro ⟨c, rows, htold⟩
    refine (Pool.seen_of_told hl htold).imp fun b hb => ?_
    have hredeemed : c ∈ b.redeemed user.id (C.sha256Hex (normalize2faCode code)) := by
      rw [show b.redeemed user.id _ = c :: rows from Except.ok.inj hb]
      exact List.mem_cons_self
    have hfind := Option.mem_toList.mp hredeemed
    have hcond := of_find?_eq_some hfind
    exact ⟨c, List.mem_of_find?_eq_some hfind, hcond.1, hcond.2⟩

end Truth

namespace Service
variable {C : Crates} {reqs : ℕ → Outside × AuthRequest} {s : Service}

/-- **A challenge that is taken was issued upon the password**, less than five minutes before. -/
theorem ReachedServing.challenge_taken (hs : s.ReachedServing C reqs) {taken : Entry Op Op.Reply Backend}
    (htaken : taken ∈ s.trace) {headers : Headers} {body : TotpChallengeRequest}
    (hreq : (reqs taken.task).2 = .totpChallenge headers body)
    (hask : taken.request = .consumeTotpChallenge body.challengeToken) {id : Id}
    (hid : (taken.before.consumeTotpChallenge body.challengeToken).1 = some id) :
    ChallengeTaken C reqs s.trace taken.task id := by
  obtain ⟨c, hfind, rfl⟩ := Option.map_eq_some_iff.mp hid
  have hlive := of_find?_eq_some hfind
  obtain ⟨earlier, hsuffix⟩ := Pool.exists_suffix htaken
  obtain ⟨t, ht, rfl, hstate, -⟩ := hs.moment hsuffix
  obtain ⟨issued, hissued, hmade, hexpires⟩ :=
    ht.challenge_recorded (hstate ▸ List.mem_of_find?_eq_some hfind)
  obtain ⟨earlier, hissue⟩ := Pool.exists_suffix hissued
  obtain ⟨t', ht', rfl, -, hmay⟩ := ht.moment hissue
  rw [hmade] at hmay
  obtain ⟨user, hshown, huser, hon⟩ := hmay
  refine ⟨headers, body, hreq, taken, htaken, rfl, hask, issued, t'.trace,
    hissue.trans ((List.suffix_cons _ _).trans hsuffix), ?_, ?_, user, hshown.seen ht'.answered,
    huser, hon⟩
  · rw [hmade, hlive.1]
  · rw [← hexpires]
    exact hlive.2

/-- What the rule asks of a request that is given a session is a reason. -/
theorem ReachedServing.origin (hs : s.ReachedServing C reqs) {i : ℕ} {id : Id}
    (h : Past.Warrant C (reqs i).1 (reqs i).2 (Pool.history i s.trace) id) :
    Origin C reqs s.trace i id := by
  have htrue := hs.answered
  cases h with
  | password user hshown hid hoff => exact .password user (hshown.seen htrue) hid hoff
  | registration headers body hreq hash hhashed user hcreated hid =>
    obtain ⟨e, he, htask, heq⟩ := hcreated.seen
    exact .registration headers body hash hreq hhashed ⟨e, he, htask, hid ▸ heq⟩
  | identity slug info hvouched user hmatched hid =>
    refine .identity slug info (hvouched.seen htrue) ?_
    subst hid
    rcases hmatched with hlinked | hcreated | ⟨email, hemail, hfound⟩
    · refine .inl ((Pool.seen_of_told htrue hlinked).imp fun b hb => ?_)
      rw [show b.findUserByOauth slug info.providerUserId = some user from Except.ok.inj hb]
      rfl
    · exact .inr (.inr hcreated.seen)
    · refine .inr (.inl ((Pool.seen_of_told htrue hfound).imp fun b hb => ?_))
      rw [hemail, Option.bind_some, show b.findUserByEmail email = some user from Except.ok.inj hb]
      rfl
  | factor headers body hreq issued htaken user hfound hshown hid =>
    have hlooked := Pool.seen_of_told htrue hfound
    have hissued : user.id = issued := by
      obtain ⟨e, -, -, hb⟩ := hlooked
      exact of_find?_eq_some (p := fun u : User => u.id = issued) (Except.ok.inj hb)
    have hmem : Pool.Seen s.trace i fun b => user ∈ b.users :=
      hlooked.imp fun b hb => mem_of_findUserById (Except.ok.inj hb)
    obtain ⟨⟨j, b, r, x⟩, he, rfl, heq⟩ := Pool.mem_history.mp htaken
    cases heq
    have hreply := hs.answered _ he
    subst hid
    refine .factor ?_ (hshown.seen htrue hmem)
    exact hs.challenge_taken he hreq rfl (hissued ▸ (Except.ok.inj hreply).symm)

/-- **Every session in the table is accounted for.** -/
theorem sessions_accounted (hs : s.ReachedServing C reqs) {row : SessionRow}
    (hrow : row ∈ s.state.sessions) : Accounted C reqs s.trace row := by
  obtain ⟨e, he, hask, hmade⟩ := hs.session_recorded hrow
  obtain ⟨earlier, hsuffix⟩ := Pool.exists_suffix he
  obtain ⟨t, ht, rfl, -, hmay⟩ := hs.moment hsuffix
  rw [hask] at hmay
  exact ⟨e, t.trace, hsuffix, hask, hmade, ht.origin hmay⟩

theorem ReachedServing.session_seen (hs : s.ReachedServing C reqs) {i : ℕ} {user : User}
    (h : Past.SessionShown (reqs i).2 (Pool.history i s.trace) user) :
    SessionSeen C reqs s.trace i user.id := by
  obtain ⟨headers, token, hbearer, htoken, e, he, htask, -, row, hrow, hrowToken, hid, hlive⟩ :=
    h.seen hs.answered
  obtain ⟨earlier, hsuffix⟩ := Pool.exists_suffix he
  obtain ⟨t, ht, rfl, hstate, -⟩ := hs.moment hsuffix
  -- the session was in the table at that moment, and so had its reason before
  have haccounted := sessions_accounted ht (hstate ▸ hrow)
  exact ⟨headers, token, row, hbearer, htoken, ⟨e, he, htask, hrow, hlive⟩, hrowToken, hid,
    haccounted.mono ((List.suffix_cons _ _).trans hsuffix)⟩

/-- What the rule asks of a request that changes a second factor beyond proposing a secret. -/
theorem ReachedServing.factor_seen (hs : s.ReachedServing C reqs) {i : ℕ} {id : Id}
    (h : ∃ user, Past.SessionShown (reqs i).2 (Pool.history i s.trace) user ∧ user.id = id ∧
      Past.FactorShown C (reqs i).2 (Pool.history i s.trace) user) :
    SessionSeen C reqs s.trace i id ∧ FactorSeen C reqs s.trace i id := by
  obtain ⟨user, hshown, rfl, hfactor⟩ := h
  obtain ⟨_, _, -, -, hseen⟩ := hshown.seen hs.answered
  exact ⟨hs.session_seen hshown, hfactor.seen hs.answered (hseen.imp fun _ hb => hb.1)⟩

/-- **Who changes an account's second factor is its user**: before, the request has shown a session
of the account that was given for a reason, and, unless it only proposes a new secret, the factor. -/
theorem factor_writes_authorized (hs : s.ReachedServing C reqs) {e : Entry Op Op.Reply Backend}
    {earlier : Trace} (he : e :: earlier <:+ s.trace) {id : Id}
    (hid : e.request.secondFactorOf = some id) :
    SessionSeen C reqs earlier e.task id ∧
      ((∃ secret, e.request = .setTotpSecret id secret) ∨ FactorSeen C reqs earlier e.task id) := by
  obtain ⟨t, ht, rfl, -, hmay⟩ := hs.moment he
  cases hask : e.request with
  | setTotpSecret u secret =>
    rw [hask] at hmay hid
    cases hid
    obtain ⟨user, hshown, rfl⟩ := hmay
    exact ⟨ht.session_seen hshown, .inl ⟨secret, rfl⟩⟩
  | setTotpEnabled u enabled =>
    rw [hask] at hmay hid
    cases hid
    exact (ht.factor_seen hmay).imp_right .inr
  | deleteRecoveryCodes tx u =>
    rw [hask] at hmay hid
    cases hid
    exact (ht.factor_seen hmay).imp_right .inr
  | insertRecoveryCode tx u hash =>
    rw [hask] at hmay hid
    cases hid
    exact (ht.factor_seen hmay).imp_right .inr
  | _ =>
    rw [hask] at hid
    cases hid

/-- A request is taken, and then its statements. -/
theorem ReachedServing.served (hs : s.ReachedServing C reqs) (i n : ℕ) (token : String) (req : AuthRequest)
    (hreq : reqs s.tasks.length = (Sample.outside token, req)) :
    ReachedServing C reqs ((Sample.served i n token req).foldl (next C) s) := by
  obtain ⟨now, hs⟩ := hs
  have hstatements : ∀ t, Transitions.Admits (next C) (Serves reqs) t
      (List.replicate n (.statement i)) := by
    induction n with
    | zero => exact fun _ => trivial
    | succ n ih => exact fun t => ⟨trivial, ih _⟩
  have hrequest : Serves reqs s (.request (Sample.outside token) req) := hreq
  exact ⟨now, (hs.tail hrequest).trans (hstatements _).reaches⟩

end Service

namespace Sample

/-- The requests of `enrolment`. -/
def requests (i : ℕ) : Outside × AuthRequest :=
  if i = 0 then (outside "first", callback)
  else if i = 1 then (outside "", .totpSetup headers)
  else (outside "", .totpConfirm headers "287082".toList)

theorem enrolment_served : Service.ReachedServing crates requests (after enrolment) := by
  have hclock : Service.ReachedServing crates requests
      (Service.next crates (Pool.idle (.init 0)) (.clock 30000000)) :=
    ⟨0, (Transitions.Reaches.refl _).tail (Nat.zero_le 30000000)⟩
  have hcallback := hclock.served 0 10 "first" callback rfl
  have hsetup := hcallback.served 1 2 "" (.totpSetup headers) (by
    rw [show List.length _ = 1 by decide +kernel]
    rfl)
  have hconfirm := hsetup.served 2 17 "" (.totpConfirm headers "287082".toList) (by
    rw [show List.length _ = 2 by decide +kernel]
    rfl)
  rw [after, enrolment, List.foldl_append, List.foldl_append]
  exact hconfirm

end Sample

namespace Service
open Sample

theorem sessions_accounted_enrolment : ∃ row ∈ (after enrolment).state.sessions,
    Accounted crates requests (after enrolment).trace row := by
  have hsessions : (after enrolment).state.sessions ≠ [] := by decide +kernel
  obtain ⟨row, hrow⟩ := List.exists_mem_of_ne_nil _ hsessions
  exact ⟨row, hrow, sessions_accounted enrolment_served hrow⟩

theorem factor_writes_authorized_enrolment : ∃ e earlier, e :: earlier <:+ (after enrolment).trace ∧
    (SessionSeen crates requests earlier e.task 0 ∧
      ((∃ secret, e.request = .setTotpSecret 0 secret) ∨ FactorSeen crates requests earlier e.task 0)) := by
  have hwritten : ∃ e ∈ (after enrolment).trace, e.request.secondFactorOf = some 0 := by decide +kernel
  obtain ⟨e, he, hid⟩ := hwritten
  obtain ⟨earlier, hsuffix⟩ := Pool.exists_suffix he
  exact ⟨e, earlier, hsuffix, factor_writes_authorized enrolment_served hsuffix hid⟩

end Service
end Winkd.Server
