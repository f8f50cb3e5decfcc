import Winkd.AccountNames
import Winkd.StringLaws

/-!
# Logging in as one has registered

`register` stores a username that `sanitize_id_part` has made of the one it was given: it drops what
is no letter, digit, underscore or hyphen, cuts it off after 24 characters, turns it into lower case,
and takes `winkd` where fewer than three bytes are left.  `login` looks for the name as it was typed.
So the two agree just on names that are stored as they were typed, and on those that are the account's
e-mail address (`registered_login_iff`).
-/

namespace Winkd.Server

/-! ## Usernames -/

/-- What `sanitize_id_part` keeps. -/
def isNameChar (c : Char) : Bool := c.isAlphanum || c == '_' || c == '-'

theorem isNameChar_iff (c : Char) : isNameChar c = true ↔
    65 ≤ c.toNat ∧ c.toNat ≤ 90 ∨ 97 ≤ c.toNat ∧ c.toNat ≤ 122 ∨ 48 ≤ c.toNat ∧ c.toNat ≤ 57 ∨
      c.toNat = 95 ∨ c.toNat = 45 := by
  have hle : ∀ a b : Char, a.val ≤ b.val ↔ a.toNat ≤ b.toNat := fun _ _ => UInt32.le_iff_toNat_le
  have heq : ∀ d : Char, c = d ↔ c.toNat = d.toNat := fun _ => Char.toNat_inj.symm
  simp only [isNameChar, Char.isAlphanum, Char.isAlpha, Char.isUpper, Char.isLower, Char.isDigit,
    Bool.or_eq_true, Bool.and_eq_true, decide_eq_true_eq, beq_iff_eq, ge_iff_le]
  rw [heq '_', heq '-', or_assoc, or_assoc, or_assoc]
  exact Iff.rfl

theorem isNameChar_toLower {c : Char} (hc : isNameChar c = true) : isNameChar c.toLower = true := by
  rw [isNameChar_iff] at hc ⊢
  rw [Text.toNat_toLower]
  split <;> omega

theorem toNat_lt_of_isNameChar {c : Char} (hc : isNameChar c = true) : c.toNat < 128 := by
  rw [isNameChar_iff] at hc
  omega

theorem isNameChar_of_isWhitespace {c : Char} (hc : Text.isWhitespace c = true) :
    isNameChar c = false := by
  rw [← Bool.not_eq_true, isNameChar_iff]
  simp only [Text.isWhitespace, Bool.or_eq_true, Bool.and_eq_true, decide_eq_true_eq, beq_iff_eq] at hc
  omega

/-- **What is stored has at least three characters, all of them allowed.** -/
theorem sanitizeIdPart_spec (t : Text) :
    3 ≤ (sanitizeIdPart t).length ∧ ∀ c ∈ sanitizeIdPart t, isNameChar c = true := by
  have hkept : ∀ c ∈ Text.toAsciiLowercase ((t.filter isNameChar).take 24), isNameChar c = true := by
    intro c hc
    obtain ⟨d, hd, rfl⟩ := List.mem_map.1 hc
    exact isNameChar_toLower (List.mem_filter.1 (List.mem_of_mem_take hd)).2
  rw [show sanitizeIdPart t = if (Text.toAsciiLowercase ((t.filter isNameChar).take 24)).len < 3 then
    "winkd".toList else Text.toAsciiLowercase ((t.filter isNameChar).take 24) from rfl]
  split
  · exact ⟨by decide, List.all_eq_true.1 (by decide)⟩
  · rename_i hlong
    refine ⟨?_, hkept⟩
    have hlen := Text.len_eq_length fun c hc => toNat_lt_of_isNameChar (hkept c hc)
    exact hlen ▸ Nat.not_lt.1 hlong

/-- The login finds the account: the username is stored as it was typed, or it is the account's e-mail
address, and has three allowed characters. -/
def KeepsName (body : RegisterRequest) : Prop :=
  sanitizeIdPart body.username.trim = body.username.trim ∨
    '@' ∈ body.username.trim ∧ registerEmail body = some body.username.trim ∧
      3 ≤ (body.username.filter isNameChar).length

/-- A name that is stored as it was typed. -/
theorem of_sanitized {t : Text} (h : sanitizeIdPart t.trim = t.trim) :
    t.trim ≠ [] ∧ '@' ∉ t.trim ∧ 3 ≤ (t.filter isNameChar).length := by
  obtain ⟨hlong, hchars⟩ := sanitizeIdPart_spec t.trim
  rw [h] at hlong hchars
  refine ⟨?_, ?_, ?_⟩
  · rintro hnil
    rw [hnil] at hlong
    exact absurd hlong (by decide)
  · intro hat
    exact absurd (hchars '@' hat) (by decide)
  · rw [← Text.filter_trim (fun c => isNameChar_of_isWhitespace) t, List.filter_eq_self.2 hchars]
    exact hlong

/-! ## What a registration creates -/

/-- How `register` creates the account. -/
def CreatesFor (C : Crates) (body : RegisterRequest) : Op → Prop
  | .createUser username _ _ email passwordHash =>
      username = sanitizeIdPart body.username.trim ∧ email = registerEmail body ∧ body.password ≠ [] ∧
        ∃ salt hash, C.hashPassword body.password salt = .ok hash ∧ passwordHash = some hash
  | _ => True

section Asks
variable {α : Type} {P : Op → Prop}

theorem asks_ensure_then {c : Bool} {e : AppError} {f : Unit → Handler α}
    (hf : c = true → (f ()).Asks P) : (ensure c e >>= f).Asks P := by
  cases c with
  | false => exact trivial
  | true => exact hf rfl

theorem asks_ofExcept_then {β : Type} {r : Except AppError β} {f : β → Handler α}
    (hf : ∀ a, r = .ok a → (f a).Asks P) : (Prog.ofExcept r >>= f).Asks P := by
  cases r with
  | error e => exact trivial
  | ok a => exact hf a rfl

/-- A password that is accepted is not empty. -/
theorem asks_validatePassword_then {C : Crates} {password : Text} {f : Unit → Handler α}
    (hf : password ≠ [] → (f ()).Asks P) : (validatePassword C password >>= f).Asks P := by
  rw [validatePassword]
  cases hlong : decide (12 ≤ password.len) with
  | false => exact trivial
  | true =>
    refine asks_ensure_then (P := P) fun _ => hf ?_
    rintro rfl
    exact absurd hlong (by decide)

end Asks

theorem asks_register (C : Crates) (o : Outside) (headers : Headers) (body : RegisterRequest) :
    (register C o headers body).Asks (CreatesFor C body) := by
  have hQ : ∀ r : Op, r.grants = false → CreatesFor C body r := by
    intro r hr
    cases r with
    | createUser _ _ _ _ _ => cases hr
    | _ => trivial
  refine Prog.asks_bind ?_ fun user => ?_
  · refine asks_op (hQ _ rfl) fun _ => asks_ensure_then fun _ => ?_
    apply asks_ensure_then
    intro _
    apply asks_validatePassword_then
    intro hpassword
    refine Prog.asks_bind (asks_findUserByUsername hQ _) fun _ => asks_ensure_then fun _ => ?_
    refine Prog.asks_bind ?_ fun _ => asks_ofExcept_then fun hash hhash => ?_
    · cases registerEmail body with
      | none => exact trivial
      | some e => exact Prog.asks_bind (asks_findUserByEmail hQ e) fun _ => asks_ensure _ _
    · refine Prog.asks_bind (asks_uniqueWinkdId hQ o _) fun winkdId => ?_
      refine asks_op ⟨rfl, rfl, hpassword, o.salt, hash, ?_, rfl⟩ asks_orInternal
      cases hr : C.hashPassword body.password o.salt with
      | error e => rw [hr] at hhash; cases hhash
      | ok hash' => rw [hr] at hhash; cases hhash; rfl
  · refine Prog.asks_bind (asks_op trivial fun _ => ?_) fun _ => ?_
    · exact Prog.asks_bind (asks_orInternal _) fun _ => trivial
    · exact Prog.asks_bind (asks_auditLog hQ _ _ _ _) fun _ => trivial

/-! ## Registrations under way -/

/-- The account that was created. -/
def AuthEntry.account : AuthEntry → Option Names
  | ⟨_, _, .createUser username _ _ email passwordHash, .ok user⟩ =>
      some ⟨user.id, username, email, passwordHash⟩
  | _ => none

/-- The account that a registration has created has the names that were asked for. -/
structure CreatedFor (C : Crates) (body : RegisterRequest) (n : Names) : Prop where
  username : n.username = sanitizeIdPart body.username.trim
  email : n.email = registerEmail body
  password : body.password ≠ []
  hash : ∃ salt hash, C.hashPassword body.password salt = .ok hash ∧ n.passwordHash = some hash

theorem CreatesFor.created {C : Crates} {body : RegisterRequest} {e : AuthEntry}
    (h : CreatesFor C body e.request) {n : Names} (hn : e.account = some n) : CreatedFor C body n := by
  obtain ⟨i, b, r, x⟩ := e
  cases r with
  | createUser username winkdId displayName email hash =>
    cases x with
    | error e => cases hn
    | ok user =>
      cases hn
      obtain ⟨husername, hemail, hpassword, hhash⟩ := h
      exact ⟨husername, hemail, hpassword, hhash⟩
  | _ => cases hn

theorem account_answer {i : ℕ} {r : Op} {b : Backend} {n : Names}
    (h : AuthEntry.account ⟨i, b, r, (answer r b).1⟩ = some n) : n ∈ (answer r b).2.names := by
  cases r with
  | createUser username winkdId displayName email hash =>
    simp only [answer, Backend.createUser] at h ⊢
    cases hnew : b.newUserError username winkdId displayName email hash with
    | some e => rw [hnew] at h; cases h
    | none =>
      rw [hnew] at h
      cases h
      exact List.mem_map_of_mem (List.mem_append_right _ (List.mem_singleton_self _))
  | _ => cases h

namespace Service
variable {C : Crates} {s : Service}

/-- Requests that have had a statement carried out have come in. -/
theorem Reached.started (hs : s.Reached C) : ∀ e ∈ s.trace, e.task < s.tasks.length := by
  obtain ⟨now, hreach⟩ := hs
  have hdisciplined : Threads.Pool.Disciplined (fun _ _ => True) (fun d _ _ => d) () s := by
    refine hreach.invariant (Threads.Pool.Disciplined.idle _) ?_
    intro s e hs _
    have halong : ∀ p : Handler Response, p.Along (fun _ _ => True) (fun d _ _ => d) (fun _ _ => True) () :=
      fun p => Prog.along_of_forall (fun _ _ => trivial) p
    cases e with
    | request o req => exact hs.next (h := answer) (a := .start _) fun p _ => halong p
    | statement i => exact hs.next (h := answer) (a := .answer i) nofun
    | clock now => exact hs.next (h := answer) (a := .outside _) nofun
  exact hdisciplined.started

/-- **An account that was created is still there**, with the names it was given. -/
theorem Reached.account_mem (hs : s.Reached C) :
    ∀ e : AuthEntry, e ∈ s.trace → ∀ n, e.account = some n → n ∈ s.state.names := by
  obtain ⟨now, hreach⟩ := hs
  refine hreach.invariant (I := fun s : Service =>
    ∀ e : AuthEntry, e ∈ s.trace → ∀ n, e.account = some n → n ∈ s.state.names)
    (fun _ h => nomatch h) ?_
  intro s e hs _
  cases e with
  | request o req => exact hs
  | clock now => exact hs
  | statement i =>
    show ∀ e : AuthEntry, e ∈ (Threads.Pool.next answer s (.answer i)).trace → _
    rw [next]
    obtain heq | ⟨r, k, -, heq⟩ := Threads.Pool.next_answer_cases (h := answer) s i
    · rw [heq]
      exact hs
    · rw [heq]
      intro e he n hn
      obtain rfl | he := List.mem_cons.1 he
      · exact account_answer hn
      · exact mem_names_answer r (hs e he n hn)

/-- Task `i` is a registration of `body`. -/
structure Registering (C : Crates) (body : RegisterRequest) (i : ℕ) (s : Service) : Prop where
  started : i < s.tasks.length
  own : s.Holds (fun _ l => ∀ e : AuthEntry, e ∈ l → e.task = i → CreatesFor C body e.request)
    fun j p _ => j = i → p.Asks (CreatesFor C body)

theorem Registering.request (hs : s.Reached C) (o : Outside) (headers : Headers) (body : RegisterRequest) :
    Registering C body s.tasks.length (next C s (.request o (.register headers body))) := by
  constructor
  case started =>
    show s.tasks.length < (s.tasks ++ [_]).length
    rw [List.length_append]
    exact Nat.lt_succ_self _
  case own =>
    refine Threads.Pool.Holds.start (h := answer) ⟨fun e he heq => ?_, fun j p hp heq => ?_⟩ fun _ =>
      asks_register C o headers body
    · exact absurd heq (Nat.ne_of_lt (hs.started e he))
    · subst heq
      rw [List.getElem?_eq_none (Nat.le_refl _)] at hp
      cases hp

/-- **It is one in all that follows.** -/
theorem Registering.next {body : RegisterRequest} {i : ℕ} (hs : Registering C body i s) (e : Event) :
    Registering C body i (next C s e) := by
  cases e with
  | request o req =>
    constructor
    case started =>
      show i < (s.tasks ++ [_]).length
      rw [List.length_append]
      exact Nat.lt_add_right _ hs.started
    case own => exact hs.own.start (h := answer) fun heq => absurd heq (Nat.ne_of_gt hs.started)
  | clock now => exact ⟨hs.started, hs.own.outside (h := answer) hs.own.shared⟩
  | statement j =>
    constructor
    case started =>
      show i < (Threads.Pool.next answer s (.answer j)).tasks.length
      obtain heq | ⟨r, k, -, heq⟩ := Threads.Pool.next_answer_cases (h := answer) s j
      · rw [heq]
        exact hs.started
      · rw [heq]
        show i < (s.tasks.set j _).length
        rw [List.length_set]
        exact hs.started
    case own =>
      refine hs.own.answer j (fun r k _ hasks => ⟨fun e he heq => ?_, fun heq => (hasks heq).2 _⟩)
        fun _ _ _ _ hasks => hasks
      obtain rfl | he := List.mem_cons.1 he
      · exact (hasks heq).1
      · exact hs.own.shared e he heq

/-- In the run to `s` a registration of `body` has come in and was accepted, and the account was
created by it. -/
def Accepted (C : Crates) (body : RegisterRequest) (s : Service) (id : Id) : Prop :=
  ∃ (s₀ : Service) (o : Outside) (headers : Headers) (r : LoginResponse), s₀.Reached C ∧
    Transitions.Reaches (Service.next C) InTime
      (Service.next C s₀ (.request o (.register headers body))) s ∧
    s.tasks[s₀.tasks.length]? = some (.pure (.login r)) ∧
    ∃ e : AuthEntry, e ∈ s.trace ∧ e.task = s₀.tasks.length ∧ ∃ n, e.account = some n ∧ n.id = id

variable {body : RegisterRequest} {id : Id}

theorem Accepted.reached (h : s.Accepted C body id) : s.Reached C := by
  obtain ⟨s₀, o, headers, r, ⟨now, hreach⟩, hrun, -⟩ := h
  exact ⟨now, (hreach.tail (l := .request o (.register headers body)) trivial).trans hrun⟩

/-- **The account has the names it was registered with.** -/
theorem Accepted.created (h : s.Accepted C body id) :
    ∃ u ∈ s.state.users, u.id = id ∧ CreatedFor C body u.names := by
  have hmem := h.reached.account_mem
  obtain ⟨s₀, o, headers, r, hs₀, hrun, -, e, he, htask, n, hn, rfl⟩ := h
  have hregistering : Registering C body s₀.tasks.length s :=
    hrun.invariant (Registering.request hs₀ o headers body) fun s e hs _ => hs.next e
  obtain ⟨u, hu, rfl⟩ := List.mem_map.1 (hmem e he n hn)
  exact ⟨u, hu, rfl, (hregistering.own.shared e he htask).created hn⟩

end Service

/-! ## Logging in -/

/-- The library verifies a password against the hash it has made of it. -/
def Verifies (C : Crates) : Prop :=
  ∀ password salt hash, C.hashPassword password salt = .ok hash →
    C.isPasswordHash hash = true ∧ C.verifyPassword password hash = true

section Login
variable {C : Crates} {o : Outside} {headers : Headers} {body : LoginRequest} {b : Backend} {u : User}

/-- A login that the limiter permits, up to the lookup. -/
theorem run_passwordUser (hpermitted : (b.loginLimiter.check b.now headers.ip).1 = true)
    (hinput : body.username.trim ≠ []) (hpassword : body.password ≠ []) :
    (passwordUser C headers body).run answer b =
      (checkPassword C headers.ip body.password (b.loginUser body.username.trim)).run answer
        { b with loginLimiter := (b.loginLimiter.check b.now headers.ip).2 } := by
  have hgiven : (!body.username.trim.isEmpty && !body.password.isEmpty) = true := by
    rw [Bool.and_eq_true, Bool.not_eq_true', Bool.not_eq_true', List.isEmpty_eq_false_iff,
      List.isEmpty_eq_false_iff]
    exact ⟨hinput, hpassword⟩
  show (ensure (b.loginLimiter.check b.now headers.ip).1 .tooManyRequests >>= fun _ =>
    ensure (!body.username.trim.isEmpty && !body.password.isEmpty) .unauthorized >>= fun _ =>
      findLoginUser body.username.trim >>= checkPassword C headers.ip body.password).run answer _ = _
  rw [hpermitted, hgiven]
  exact Prog.run_bind_ok answer (run_findLoginUser _ _)

/-- **Whom a login is for**, is the account that its name finds. -/
theorem loginUser_of_passwordUser (h : ((passwordUser C headers body).run answer b).1 = .ok u) :
    b.loginUser body.username.trim = some u := by
  have hwp : (passwordUser C headers body).wp answer
      (fun u _ => b.loginUser body.username.trim = some u) (fun _ _ => True) b := by
    simp only [passwordUser, Prog.wp_bind, Prog.wp_ask, wp_ensure]
    refine ⟨fun _ => ⟨fun _ => ?_, fun _ => trivial⟩, fun _ => trivial⟩
    rw [Prog.wp_iff, run_findLoginUser]
    refine ⟨?_, fun _ _ => trivial⟩
    rintro user ⟨⟩
    exact Prog.wp_mono (wp_checkPassword _ _ _) (fun _ _ h => h.1) fun _ _ _ => trivial
  exact ((Prog.wp_iff _ _).1 hwp).1 u h

/-- A login with the password that was hashed. -/
theorem run_passwordUser_ok (hC : Verifies C)
    (hpermitted : (b.loginLimiter.check b.now headers.ip).1 = true)
    (hinput : body.username.trim ≠ []) (hpassword : body.password ≠ [])
    (hfound : b.loginUser body.username.trim = some u)
    (hhash : ∃ salt hash, C.hashPassword body.password salt = .ok hash ∧ u.passwordHash = some hash) :
    (passwordUser C headers body).run answer b =
      (.ok u, { b with loginLimiter := (b.loginLimiter.check b.now headers.ip).2 }) := by
  obtain ⟨salt, hash, hhashed, hstored⟩ := hhash
  obtain ⟨hparsed, hverified⟩ := hC _ _ _ hhashed
  rw [run_passwordUser hpermitted hinput hpassword, hfound, checkPassword, hstored]
  show (ensure (C.isPasswordHash hash) .unauthorized >>= fun _ =>
    if C.verifyPassword body.password hash then pure u else _).run answer _ = _
  rw [hparsed, hverified]
  rfl

/-- The login is for the account, and gets a session of it unless the token it draws is taken. -/
structure Authenticates (C : Crates) (o : Outside) (headers : Headers) (body : LoginRequest) (b : Backend)
    (id : Id) : Prop where
  user : ∃ u ∈ b.users, u.id = id ∧ ((passwordUser C headers body).run answer b).1 = .ok u
  session : b.TokenFree o.token → ∃ u ∈ b.users, u.id = id ∧
    ((login C o headers body).run answer b).1 = .ok (.login (loginResponse o.token u)) ∧
    ((login C o headers body).run answer b).2.sessions = b.sessions ++ [b.newSession id o.token]

theorem authenticates_of_run (hu : u ∈ b.users) {l : RateLimiter}
    (hrun : (passwordUser C headers body).run answer b = (.ok u, { b with loginLimiter := l }))
    (hoff : u.totpEnabled = false) : Authenticates C o headers body b u.id := by
  constructor
  case user => exact ⟨u, hu, rfl, by rw [hrun]⟩
  case session =>
    intro hfree
    have hlogin : (login C o headers body).run answer b =
        ((do
          let token ← createSession u.id o.token
          auditLog (some u.id) .login (extractIp headers) .empty
          pure (.login (loginResponse token u))) : Handler Response).run answer
            { b with loginLimiter := l } := by
      rw [login, Prog.run_bind_ok answer hrun, hoff]
      rfl
    have hsession : (createSession u.id o.token).run answer { b with loginLimiter := l } =
        (.ok o.token, { b with loginLimiter := l, sessions := b.sessions ++ [b.newSession u.id o.token] }) := by
      show (Prog.ask (.createSession u.id o.token) >>= fun x => orInternal x >>= fun _ =>
        (pure o.token : Handler Text)).run answer _ = _
      have hfree' : ({ b with loginLimiter := l } : Backend).TokenFree o.token := hfree
      have hinsert : ({ b with loginLimiter := l } : Backend).createSession u.id o.token = _ :=
        createSession_free hfree'
      show ((orInternal (({ b with loginLimiter := l } : Backend).createSession u.id o.token).1 >>= _ :
        Handler Text)).run answer (({ b with loginLimiter := l } : Backend).createSession u.id o.token).2 = _
      rw [hinsert]
      rfl
    rw [hlogin, Prog.run_bind_ok answer hsession]
    exact ⟨u, hu, rfl, rfl, rfl⟩

end Login

/-- **A login as one has registered authenticates the account, and the username has three allowed
characters, exactly if the registration keeps the name**: in every state after the registration in
which 2FA is off, for every login that the limiter permits. -/
theorem registered_login_iff {C : Crates} (hC : Verifies C) {body : RegisterRequest} {s : Service} {id : Id}
    (haccepted : s.Accepted C body id) (hoff : ∀ u ∈ s.state.users, u.id = id → u.totpEnabled = false)
    (o : Outside) {headers : Headers}
    (hpermitted : (s.state.loginLimiter.check s.state.now headers.ip).1 = true) :
    (Authenticates C o headers ⟨body.username, body.password⟩ s.state id ∧
      3 ≤ (body.username.filter isNameChar).length) ↔ KeepsName body := by
  have haccounts := haccepted.reached.accounts
  have hdistinct := haccepted.reached.distinct
  obtain ⟨u, hu, rfl, hcreated⟩ := haccepted.created
  constructor
  · rintro ⟨⟨⟨v, hv, hid, hpassword⟩, -⟩, hlong⟩
    obtain rfl := haccounts.eq_of_id hv hu hid
    have hfound : s.state.loginUser body.username.trim = some v := loginUser_of_passwordUser hpassword
    rw [Backend.loginUser] at hfound
    split at hfound
    · rename_i hat
      have hemail := (of_findUserByEmail hfound).2
      exact .inr ⟨List.contains_iff_mem.1 hat, hcreated.email.symm.trans hemail, hlong⟩
    · exact .inl (hcreated.username.symm.trans (of_findUserByUsername hfound).2)
  · intro hkeeps
    have hfound : body.username.trim ≠ [] ∧ s.state.loginUser body.username.trim = some u ∧
        3 ≤ (body.username.filter isNameChar).length := by
      obtain hsame | ⟨hat, hemail, hlong⟩ := hkeeps
      · obtain ⟨hne, hat, hlong⟩ := of_sanitized hsame
        refine ⟨hne, ?_, hlong⟩
        rw [Backend.loginUser, if_neg fun h => hat (List.contains_iff_mem.1 h)]
        exact (findUserByUsername_iff haccounts hdistinct hu).2 (hcreated.username.trans hsame)
      · refine ⟨List.ne_nil_of_mem hat, ?_, hlong⟩
        rw [Backend.loginUser, if_pos (List.contains_iff_mem.2 hat)]
        exact (findUserByEmail_iff haccounts hdistinct hu).2 (hcreated.email.trans hemail)
    obtain ⟨hne, hfound, hlong⟩ := hfound
    refine ⟨?_, hlong⟩
    exact authenticates_of_run hu
      (run_passwordUser_ok hC hpermitted hne hcreated.password hfound hcreated.hash) (hoff u hu rfl)

namespace Sample

/-- Argon2 for one password and one salt. -/
def argon2Crates : Crates :=
  { crates with
    hashPassword := fun password salt =>
      if password = "Correct horse 1".toList ∧ salt = "MDEyMzQ1Njc4OWFiY2RlZg".toList then .ok argon2Hash
      else .error []
    isPasswordHash := fun hash => hash = argon2Hash
    verifyPassword := fun password hash => password = "Correct horse 1".toList ∧ hash = argon2Hash }

theorem argon2Crates_verifies : Verifies argon2Crates := by
  intro password salt hash h
  by_cases hgiven : password = "Correct horse 1".toList ∧ salt = "MDEyMzQ1Njc4OWFiY2RlZg".toList
  · rw [show argon2Crates.hashPassword password salt = .ok argon2Hash from if_pos hgiven] at h
    cases h
    exact ⟨decide_eq_true (p := argon2Hash = argon2Hash) rfl,
      decide_eq_true (p := password = _ ∧ argon2Hash = argon2Hash) ⟨hgiven.1, rfl⟩⟩
  · rw [show argon2Crates.hashPassword password salt = .error [] from if_neg hgiven] at h
    cases h

/-- A registration of a username, and nothing else. -/
def registration (username : String) : RegisterRequest :=
  ⟨username.toList, "Correct horse 1".toList, [], none⟩

def salted : Outside := { outside "first" with salt := "MDEyMzQ1Njc4OWFiY2RlZg".toList }

def plainHeaders : Headers := ⟨"10.0.0.1", none, none, none, none, none⟩

def afterRegistration (username : String) : Service :=
  (List.replicate 6 (.statement 0)).foldl (Service.next argon2Crates)
    (Service.next argon2Crates (Threads.Pool.idle (.init 0))
      (.request salted (.register plainHeaders (registration username))))

/-- Its first request has been answered with a session. -/
def answered (s : Service) : Bool :=
  match s.tasks[0]? with
  | some (Prog.pure (Response.login _)) => true
  | _ => false

/-- Its first request has created the first account. -/
def created (s : Service) : Bool :=
  s.trace.any fun e => e.task = 0 ∧ ∃ n ∈ AuthEntry.account e, n.id = 0

/-- The registration is accepted. -/
theorem afterRegistration_accepted {username : String}
    (hanswered : answered (afterRegistration username) = true)
    (hcreated : created (afterRegistration username) = true) :
    (afterRegistration username).Accepted argon2Crates (registration username) 0 := by
  have hrun : Transitions.Reaches (Service.next argon2Crates) Service.InTime
      (Service.next argon2Crates (Threads.Pool.idle (.init 0))
        (.request salted (.register plainHeaders (registration username)))) (afterRegistration username) := by
    rw [afterRegistration]
    apply Transitions.Admits.reaches
    exact ⟨trivial, trivial, trivial, trivial, trivial, trivial, trivial⟩
  obtain ⟨e, he, hentry⟩ := List.any_eq_true.1 hcreated
  obtain ⟨htask, n, hn, hid⟩ := of_decide_eq_true hentry
  have hended : ∃ r, (afterRegistration username).tasks[0]? = some (.pure (.login r)) := by
    unfold answered at hanswered
    split at hanswered
    · rename_i r hr
      exact ⟨r, hr⟩
    · cases hanswered
  obtain ⟨r, hr⟩ := hended
  exact ⟨Threads.Pool.idle (.init 0), salted, plainHeaders, r, ⟨0, Transitions.Reaches.refl _⟩, hrun, hr,
    e, he, htask, n, hn, hid⟩

/-- The registration was answered, 2FA is off, and the limiter permits a login. -/
def Registered (s : Service) : Prop :=
  answered s = true ∧ created s = true ∧ (∀ u ∈ s.state.users, u.id = 0 → u.totpEnabled = false) ∧
    (s.state.loginLimiter.check s.state.now plainHeaders.ip).1 = true

instance (s : Service) : Decidable (Registered s) :=
  inferInstanceAs (Decidable (answered s = true ∧ created s = true ∧
    (∀ u ∈ s.state.users, u.id = 0 → u.totpEnabled = false) ∧
    (s.state.loginLimiter.check s.state.now plainHeaders.ip).1 = true))

end Sample

/-- Ada registers as `ada_lovelace`. -/
theorem registered_login_iff_ada :
    Authenticates Sample.argon2Crates (Sample.outside "second") Sample.plainHeaders
      ⟨"ada_lovelace".toList, "Correct horse 1".toList⟩ (Sample.afterRegistration "ada_lovelace").state 0 := by
  have hregistered : Sample.Registered (Sample.afterRegistration "ada_lovelace") := by decide +kernel
  obtain ⟨hanswered, hcreated, hoff, hpermitted⟩ := hregistered
  have haccepted := Sample.afterRegistration_accepted hanswered hcreated
  exact ((registered_login_iff Sample.argon2Crates_verifies haccepted hoff (Sample.outside "second")
    hpermitted).2 (.inl (by decide))).1

/-- She registers as `Ada`, and cannot log in as `Ada`. -/
theorem registered_login_refused :
    ∃ s : Service, s.Accepted Sample.argon2Crates (Sample.registration "Ada") 0 ∧
      (∀ u ∈ s.state.users, u.id = 0 → u.totpEnabled = false) ∧
      (s.state.loginLimiter.check s.state.now Sample.plainHeaders.ip).1 = true ∧
      ¬ Authenticates Sample.argon2Crates (Sample.outside "second") Sample.plainHeaders
        ⟨"Ada".toList, "Correct horse 1".toList⟩ s.state 0 := by
  have hregistered : Sample.Registered (Sample.afterRegistration "Ada") ∧
      (Sample.afterRegistration "Ada").state.loginUser (Text.trim "Ada".toList) = none := by
    decide +kernel
  obtain ⟨⟨hanswered, hcreated, hoff, hpermitted⟩, hnone⟩ := hregistered
  refine ⟨_, Sample.afterRegistration_accepted hanswered hcreated, hoff, hpermitted, ?_⟩
  rintro ⟨⟨u, hu, -, hpassword⟩, -⟩
  have hfound := loginUser_of_passwordUser hpassword
  cases hnone.symm.trans hfound

end Winkd.Server
