import Winkd.AccountNames
import Winkd.Bmac

/-!
# Accounts by their e-mail addresses

Five callers look for an account by an e-mail address.  The column is compared exactly, and the
address is stored as it was given; what a caller does to it before is its own: the webhook and the
OAuth callback nothing, `login` and `register` trim it, `password_reset_request` also turns it into
lower case.  So a caller finds the account just if what it makes of its string is the address to the
letter, and two accounts may have one address in two cases (`email_lookups_iff`).
-/

namespace Winkd.Server

/-! ## Password resets -/

/-- What `password_reset_request` answers, and what it logs. -/
structure PasswordReset where
  message : Text
  info : Text
  deriving DecidableEq

section
variable (toLowercase : Text → Text)

/-- `password_reset_request` as far as the lookup: the address it looks for, and its account. -/
def passwordResetUser (email : Text) : Handler (Text × Option User) := do
  let email := email.trim
  ensure (!(email.isEmpty || !email.contains '@')) (.internal "Please enter a valid email address".toList)
  let normalized := toLowercase email
  let user ← findUserByEmail normalized
  pure (normalized, user)

def passwordResetRequest (email : Text) : Handler PasswordReset := do
  let (normalized, user) ← passwordResetUser toLowercase email
  pure {
    message := "If the account exists, a reset email will be sent.".toList
    info :=
      match user with
      | some u => "Password reset requested for ".toList ++ u.winkdId ++ " (".toList ++ normalized ++ [')']
      | none => "Password reset requested for unknown email ".toList ++ normalized }

end

/-! ## The callers -/

/-- Who looks for an account by an e-mail address. -/
inductive Caller where
  | webhook
  | login
  | passwordReset
  | register
  | oauth

namespace Caller

/-- The string and the address are one up to ASCII case, and up to spaces around them where the caller
trims. -/
def SameAddress (t e : Text) : Caller → Prop
  | .webhook => Text.eqIgnoreAsciiCase t e = true
  | .login => Text.eqIgnoreAsciiCase t.trim e.trim = true
  | .passwordReset => Text.eqIgnoreAsciiCase t.trim e.trim = true
  | .register => Text.eqIgnoreAsciiCase t.trim e.trim = true
  | .oauth => Text.eqIgnoreAsciiCase t e = true

/-- Given the string, the caller finds the account; `register` then refuses. -/
def Finds (toLowercase : Text → Text) (b : Billing) (t : Text) (u : User) : Caller → Prop
  | .webhook => ((matchUser (some t)).run bmacServe b).1 = .ok (some u.id)
  | .login => ((findLoginUser t.trim).run answer b.db).1 = .ok (some u)
  | .passwordReset => ∃ normalized,
      ((passwordResetUser toLowercase t).run answer b.db).1 = .ok (normalized, some u)
  | .register => ∀ body : RegisterRequest, body.email = some t →
      (registerEmail body).bind b.db.findUserByEmail = some u ∧
        ((ensureEmailFree (registerEmail body)).run answer b.db).1 =
          .error (.conflict "Email already registered".toList)
  | .oauth => ((findOauthEmail (some t)).run answer b.db).1 = .ok (some u)

/-- What the caller makes of the string is the address as it is stored.  A login without an `@` is by
the username. -/
def Exact (toLowercase : Text → Text) (t : Text) (u : User) : Caller → Prop
  | .webhook => u.email = some t
  | .login => if '@' ∈ t.trim then u.email = some t.trim else u.username = t.trim
  | .passwordReset => '@' ∈ t.trim ∧ u.email = some (toLowercase t.trim)
  | .register => t.trim ≠ [] ∧ u.email = some t.trim
  | .oauth => u.email = some t

end Caller

/-! ## What they find -/

section Lookups
variable {toLowercase : Text → Text} {b : Billing} {u : User}

theorem run_matchUser_some (hup : b.failing = false) (t : Text) :
    ((matchUser (some t)).run bmacServe b).1 = .ok ((b.db.findUserByEmail t).map User.id) := by
  have hanswered : b.error (.findUserByEmail t) = none := by
    show (if b.failing then some DbError.poolTimedOut else none) = none
    rw [hup]
    rfl
  show ((pure (((bmacServe (.findUserByEmail t) b).1.toOption.getD none).map fun m => m.id) :
    BmacProg (Option Id)).run bmacServe _).1 = _
  rw [bmacServe, hanswered]
  show Except.ok ((Option.map _ (b.db.findUserByEmail t)).map _) = _
  rw [Option.map_map]
  rfl

theorem run_passwordResetUser (d : Backend) (t : Text) :
    (passwordResetUser toLowercase t).run answer d =
      (if '@' ∈ t.trim then .ok (toLowercase t.trim, d.findUserByEmail (toLowercase t.trim))
      else .error (.internal "Please enter a valid email address".toList), d) := by
  rw [passwordResetUser]
  split
  · rename_i hat
    have hgiven : (!(t.trim.isEmpty || !t.trim.contains '@')) = true := by
      rw [Bool.not_eq_true', Bool.or_eq_false_iff, Bool.not_eq_false', List.isEmpty_eq_false_iff]
      exact ⟨List.ne_nil_of_mem hat, List.contains_iff_mem.2 hat⟩
    rw [hgiven]
    rfl
  · rename_i hat
    have hnone : (!(t.trim.isEmpty || !t.trim.contains '@')) = false := by
      rw [Bool.not_eq_false', Bool.or_eq_true, Bool.not_eq_true', ← Bool.not_eq_true]
      exact .inr fun h => hat (List.contains_iff_mem.1 h)
    rw [hnone]
    rfl

/-- **The answer does not tell whether the account exists.** -/
theorem passwordResetRequest_answer (d d' : Backend) (t : Text) :
    ((passwordResetRequest toLowercase t).run answer d).1.map PasswordReset.message =
      ((passwordResetRequest toLowercase t).run answer d').1.map PasswordReset.message := by
  rw [passwordResetRequest, Prog.run_bind, Prog.run_bind, run_passwordResetUser, run_passwordResetUser]
  by_cases hat : '@' ∈ t.trim
  · rw [if_pos hat, if_pos hat]
    rfl
  · rw [if_neg hat, if_neg hat]

theorem run_ensureEmailFree (e : Text) :
    ((ensureEmailFree (some e)).run answer b.db).1 =
      if (b.db.findUserByEmail e).isSome then .error (.conflict "Email already registered".toList)
      else .ok () := by
  show ((ensure (b.db.findUserByEmail e).isNone _).run answer b.db).1 = _
  cases b.db.findUserByEmail e <;> rfl

theorem registerEmail_some {body : RegisterRequest} {t : Text} (h : body.email = some t) :
    registerEmail body = if t.trim = [] then none else some t.trim := by
  rw [registerEmail, h, Option.map_some, Option.filter_some]
  cases t.trim <;> rfl

/-- **A caller finds the account just if the string is the address as it is stored.** -/
theorem finds_iff (hb : Accounts b.db) (hd : Distinct b.db) (hup : b.failing = false) (hu : u ∈ b.db.users)
    (c : Caller) (t : Text) : c.Finds toLowercase b t u ↔ c.Exact toLowercase t u := by
  have hfind : ∀ t, b.db.findUserByEmail t = some u ↔ u.email = some t := fun t => findUserByEmail_iff hb hd hu
  cases c with
  | webhook =>
    show _ = _ ↔ u.email = some t
    rw [run_matchUser_some hup, Except.ok.injEq, ← hfind]
    constructor
    · intro h
      obtain ⟨v, hv, hid⟩ := Option.map_eq_some_iff.1 h
      rw [hv, hb.eq_of_id (of_findUserByEmail hv).1 hu hid]
    · intro h
      rw [h]
      rfl
  | login =>
    show _ = _ ↔ if _ then _ else _
    rw [run_findLoginUser, Except.ok.injEq, Backend.loginUser]
    -- a login without `@` is by username
    by_cases hat : '@' ∈ t.trim
    · rw [if_pos (List.contains_iff_mem.2 hat), if_pos hat]
      exact hfind _
    · rw [if_neg fun h => hat (List.contains_iff_mem.1 h), if_neg hat]
      exact findUserByUsername_iff hb hd hu
  | passwordReset =>
    show (∃ _, _) ↔ _ ∧ _
    rw [run_passwordResetUser]
    split
    · rename_i hat
      rw [and_iff_right hat, ← hfind]
      constructor
      · rintro ⟨normalized, h⟩
        obtain ⟨rfl, hfound⟩ := Prod.mk.inj (Except.ok.inj h)
        exact hfound
      · intro h
        exact ⟨_, by rw [h]⟩
    · rename_i hat
      refine iff_of_false ?_ fun h => hat h.1
      rintro ⟨_, h⟩
      cases h
  | register =>
    constructor
    · intro h
      obtain ⟨hfound, -⟩ := h ⟨[], [], [], some t⟩ rfl
      rw [registerEmail_some rfl] at hfound
      split at hfound
      · cases hfound
      · rename_i hne
        exact ⟨hne, (hfind _).1 hfound⟩
    · rintro ⟨hne, hexact⟩ body hbody
      rw [registerEmail_some hbody, if_neg hne]
      have hfound := (hfind _).2 hexact
      refine ⟨hfound, ?_⟩
      rw [run_ensureEmailFree, hfound]
      rfl
  | oauth =>
    show Except.ok (b.db.findUserByEmail t) = _ ↔ u.email = some t
    rw [Except.ok.injEq, hfind]

end Lookups

/-! ## One address in two cases -/

/-- No two accounts' e-mail addresses differ only in case. -/
def OneCase (b : Backend) : Prop :=
  ∀ m ∈ b.names, ∀ n ∈ b.names, ∀ e e', m.email = some e → n.email = some e' →
    Text.eqIgnoreAsciiCase e e' = true → m = n

/-- The account that is created has no address that another has, in whatever case. -/
def CreatesNewCase (b : Backend) : Op → Prop
  | .createUser username winkdId displayName email hash =>
      b.newUserError username winkdId displayName email hash = none → ∀ e, email = some e →
        ∀ n ∈ b.names, ∀ e', n.email = some e' → Text.eqIgnoreAsciiCase e e' = false
  | _ => True

theorem eqIgnoreAsciiCase_comm (s t : Text) :
    Text.eqIgnoreAsciiCase s t = Text.eqIgnoreAsciiCase t s := decide_eq_decide.2 eq_comm

/-- **A statement leaves one case of each address** just if it creates no account with one that is
there in another case. -/
theorem oneCase_answer_iff {b : Backend} (hb : OneCase b) (r : Op) :
    OneCase (answer r b).2 ↔ CreatesNewCase b r := by
  cases r with
  | createUser username winkdId displayName email hash =>
    have hrow : ∀ (hnew : b.newUserError username winkdId displayName email hash = none),
        (answer (.createUser username winkdId displayName email hash) b).2.names =
          b.names ++ [⟨b.drawn, username, email, hash⟩] := by
      intro hnew
      show (b.createUser _ _ _ _ _).2.names = _
      rw [Backend.createUser, hnew]
      exact List.map_append
    constructor
    · rintro h hnew e rfl n hn e' he'
      rw [Bool.eq_false_iff]
      intro hsame
      rw [OneCase, hrow hnew] at h
      -- the new account would be the old one, whose address is then the same to the letter
      have heq := h _ (List.mem_append_right _ (List.mem_singleton_self _)) n (List.mem_append_left _ hn)
        e e' rfl he' hsame
      exact (new_of_newUserError hnew).2 e rfl n hn (congrArg Names.email heq).symm
    · intro h
      cases hnew : b.newUserError username winkdId displayName email hash with
      | some error =>
        show OneCase (b.createUser _ _ _ _ _).2
        rw [Backend.createUser, hnew]
        exact hb
      | none =>
        rw [OneCase, hrow hnew]
        intro m hm n hn e e' hme hne hsame
        rw [List.mem_append, List.mem_singleton] at hm hn
        obtain hm | rfl := hm
        · obtain hn | rfl := hn
          · exact hb m hm n hn e e' hme hne hsame
          · rw [eqIgnoreAsciiCase_comm, h hnew e' hne m hm e hme] at hsame
            cases hsame
        · obtain hn | rfl := hn
          · rw [h hnew e hme n hn e' hne] at hsame
            cases hsame
          · rfl
  | _ =>
    refine iff_of_true ?_ trivial
    obtain heq | ⟨_, _, _, _, _, hr, -⟩ := names_answer _ b
    · rw [OneCase, heq]
      exact hb
    · cases hr

namespace Service

/-- The statement that is carried out creates no account with an address in another case. -/
def NewCase (s : Service) : Event → Prop
  | .statement i => ∀ r, Threads.Pool.waiting s i = some r → CreatesNewCase s.state r
  | _ => True

theorem oneCase_next_iff {C : Crates} {s : Service} (hs : OneCase s.state) (e : Event) :
    OneCase (next C s e).state ↔ s.NewCase e := by
  cases e with
  | request o req => exact iff_of_true hs trivial
  | clock now => exact iff_of_true hs trivial
  | statement i =>
    show OneCase (Threads.Pool.next answer s (.answer i)).state ↔ ∀ r, _
    cases hwaiting : Threads.Pool.waiting s i with
    | none =>
      refine iff_of_true ?_ nofun
      obtain heq | ⟨r, k, hp, -⟩ := Threads.Pool.next_answer_cases (h := answer) s i
      · rw [heq]
        exact hs
      · rw [Threads.Pool.waiting_eq hp] at hwaiting
        cases hwaiting
    | some r =>
      obtain ⟨k, hp⟩ := Threads.Pool.of_waiting hwaiting
      rw [Threads.Pool.next_answer hp]
      refine (oneCase_answer_iff hs r).trans ⟨?_, fun h => h r rfl⟩
      rintro h r ⟨⟩
      exact h

end Service

/-- **E-mail addresses match to the letter.**  In every state that the service comes to, a caller that
has a string equal to an account's address up to case finds the account just if what it makes of the
string is the address as it is stored; and in a run no two accounts' addresses ever differ only in case
just if no account is created with one that another has in another case. -/
theorem email_lookups_iff (C : Crates) (toLowercase : Text → Text) :
    (∀ s : Service, s.Reached C → ∀ b : Billing, b.db = s.state → b.failing = false →
      ∀ u ∈ b.db.users, ∀ e, u.email = some e → ∀ (c : Caller) (t : Text), c.SameAddress t e →
        (c.Finds toLowercase b t u ↔ c.Exact toLowercase t u)) ∧
      ∀ (now : ℕ) (events : List Event),
        Transitions.Throughout (Service.next C) (fun s => OneCase s.state) (Threads.Pool.idle (.init now))
            events ↔
          Transitions.Admits (Service.next C) Service.NewCase (Threads.Pool.idle (.init now)) events := by
  constructor
  · intro s hs b hb hup u hu e _ c t _
    exact finds_iff (hb ▸ hs.accounts) (hb ▸ hs.distinct) hup hu c t
  · intro now events
    refine Transitions.throughout_iff_admits (J := fun _ => True) (fun _ _ _ _ => trivial)
      (fun s e _ hs => Service.oneCase_next_iff hs e) trivial ?_ events
    exact fun _ h => nomatch h

namespace Sample

/-- A registration with an e-mail address. -/
def registrationAt (username email : String) : AuthRequest :=
  .register ⟨"10.0.0.9", none, none, none, none, none⟩
    ⟨username.toList, "Correct horse 1".toList, [], some email.toList⟩

/-- Two registrations, with one address in two cases. -/
def registrations : List Event :=
  served 0 7 "first" (registrationAt "ada" "ada@example.org") ++
    served 1 7 "second" (registrationAt "grace" "Ada@Example.org")

def afterRegistrations : Service :=
  registrations.foldl (Service.next hashingCrates) (Threads.Pool.idle (.init 0))

/-- The tables that the webhook works on. -/
def billing (b : Backend) : Billing := ⟨b, fun _ => ⟨[], none, [], 0, false⟩, [], false⟩

theorem billing_db (b : Backend) : (billing b).db = b ∧ (billing b).failing = false := ⟨rfl, rfl⟩

/-- What the tables then have. -/
theorem afterRegistrations_facts :
    Transitions.Admits (Service.next hashingCrates) Service.InTime (Threads.Pool.idle (.init 0))
        registrations ∧
      (∃ m ∈ afterRegistrations.state.names, ∃ n ∈ afterRegistrations.state.names,
        m.email = some "ada@example.org".toList ∧ n.email = some "Ada@Example.org".toList ∧ m ≠ n) ∧
      (∀ u ∈ afterRegistrations.state.users, ∃ e ∈ u.email,
        Text.eqIgnoreAsciiCase "ADA@EXAMPLE.ORG".toList e = true) ∧
      afterRegistrations.state.findUserByEmail "ADA@EXAMPLE.ORG".toList = none := by
  decide +kernel

theorem afterRegistrations_reached : afterRegistrations.Reached hashingCrates :=
  ⟨0, afterRegistrations_facts.1.reaches⟩

end Sample

/-- The account is found by its address with spaces around it, by the callers that trim. -/
theorem email_lookups_iff_ada : ∃ u ∈ Sample.afterRegistrations.state.users,
    u.email = some "ada@example.org".toList ∧
      Caller.Finds Text.toAsciiLowercase (Sample.billing Sample.afterRegistrations.state)
        " ada@example.org".toList u .login := by
  obtain ⟨hdb, hup⟩ := Sample.billing_db Sample.afterRegistrations.state
  obtain ⟨-, ⟨m, hm, -, -, hme, -⟩, -⟩ := Sample.afterRegistrations_facts
  obtain ⟨u, hu, rfl⟩ := List.mem_map.1 hm
  have hemail : u.email = some "ada@example.org".toList := hme
  have hmem : u ∈ (Sample.billing Sample.afterRegistrations.state).db.users := by
    rw [hdb]
    exact hu
  have hsame : Caller.SameAddress " ada@example.org".toList "ada@example.org".toList .login :=
    show Text.eqIgnoreAsciiCase (Text.trim _) (Text.trim _) = true by decide
  refine ⟨u, hu, hemail, ?_⟩
  refine ((email_lookups_iff Sample.hashingCrates Text.toAsciiLowercase).1 _
    Sample.afterRegistrations_reached _ hdb hup u hmem _ hemail .login _ hsame).2 ?_
  show if '@' ∈ Text.trim " ada@example.org".toList then
    u.email = some (Text.trim " ada@example.org".toList) else u.username = Text.trim " ada@example.org".toList
  rw [if_pos (by decide), hemail]
  decide

/-- Two accounts have one address in two cases, and an event that has it in a third is for neither. -/
theorem email_cases_missed : ∃ s : Service, s.Reached Sample.hashingCrates ∧ ¬ OneCase s.state ∧
    ∀ u ∈ s.state.users, (∃ e, u.email = some e ∧
        Caller.SameAddress "ADA@EXAMPLE.ORG".toList e .webhook) ∧
      ¬ Caller.Finds Text.toAsciiLowercase (Sample.billing s.state) "ADA@EXAMPLE.ORG".toList u .webhook := by
  obtain ⟨-, ⟨m, hm, n, hn, hme, hne, hmn⟩, hall, hnone⟩ := Sample.afterRegistrations_facts
  refine ⟨Sample.afterRegistrations, Sample.afterRegistrations_reached, ?_, ?_⟩
  · intro h
    exact hmn (h m hm n hn _ _ hme hne (by decide))
  · intro u hu
    obtain ⟨e, he, hsame⟩ := hall u hu
    refine ⟨⟨e, he, hsame⟩, fun hfinds => ?_⟩
    have hmissed : ((matchUser (some "ADA@EXAMPLE.ORG".toList)).run bmacServe
        (Sample.billing Sample.afterRegistrations.state)).1 = .ok none := by
      obtain ⟨hdb, hup⟩ := Sample.billing_db Sample.afterRegistrations.state
      rw [run_matchUser_some hup, hdb, hnone]
      rfl
    cases hmissed.symm.trans hfinds

end Winkd.Server
