import Winkd.Bmac
import Winkd.RecoveryCodes

/-!
# Requests over a database that fails

Any statement may fail, and then it has changed nothing.  `totp_confirm` switches 2FA on by one
statement and stores the recovery codes by a transaction after it; so an account whose codes could
not be stored is left with 2FA on and with the codes it had (`confirm_atomic_iff`).
-/

namespace Winkd.Server

/-! ## Failing statements -/

/-- What a statement replies that fails; the limiters and the clock do not. -/
def Op.failing (e : DbError) : (r : Op) → Option r.Reply
  | .findUserByUsername _ => some (.error e)
  | .findUserByEmail _ => some (.error e)
  | .findUserByOauth _ _ => some (.error e)
  | .findUserById _ => some (.error e)
  | .findUserBySession _ => some (.error e)
  | .createUser _ _ _ _ _ => some (.error e)
  | .linkOauthAccount _ _ _ => some (.error e)
  | .winkdIdExists _ => some (.error e)
  | .createSession _ _ => some (.error e)
  | .createTotpChallenge _ _ => some (.error e)
  | .consumeTotpChallenge _ => some (.error e)
  | .setTotpSecret _ _ => some (.error e)
  | .setTotpEnabled _ _ => some (.error e)
  | .countRecoveryCodes _ => some (.error e)
  | .consumeRecoveryCode _ _ => some (.error e)
  | .beginTransaction => some (.error e)
  | .deleteRecoveryCodes _ _ => some (.error e)
  | .insertRecoveryCode _ _ _ => some (.error e)
  | .commit _ => some (.error e)
  | .insertAuditLog _ => some (.error e)
  | .loginLimiterCheck _ => none
  | .registerLimiterCheck _ => none
  | .currentUnixSecs => none

/-- The tables, and which of the statements to come fail: the first, the second and so on. -/
structure Outage where
  backend : Backend
  fails : ℕ → Bool

/-- One statement less is to come. -/
def Outage.done (s : Outage) (b : Backend) : Outage := ⟨b, fun n => s.fails (n + 1)⟩

def attempt : Prog.Handler Op Op.Reply Outage := fun r s =>
  match r.failing .poolTimedOut with
  | none => ((answer r s.backend).1, { s with backend := (answer r s.backend).2 })
  | some x =>
    if s.fails 0 then (x, s.done s.backend)
    else ((answer r s.backend).1, s.done (answer r s.backend).2)

/-- What a request answers where a statement has failed. -/
def poolError : AppError := .internal DbError.poolTimedOut.text.toList

section Rules
variable {α : Type} {Q : α → Outage → Prop} {E : AppError → Outage → Prop} {s : Outage}

/-- **A statement fails, or does what it does otherwise.** -/
theorem wp_attempt {r : Op} {x : r.Reply} {f : r.Reply → Handler α}
    (hr : r.failing .poolTimedOut = some x) : (Prog.ask r >>= f).wp attempt Q E s ↔
      (s.fails 0 = true → (f x).wp attempt Q E (s.done s.backend)) ∧
        (s.fails 0 = false →
          (f (answer r s.backend).1).wp attempt Q E (s.done (answer r s.backend).2)) := by
  show (f (attempt r s).1).wp attempt Q E (attempt r s).2 ↔ _
  rw [attempt, hr]
  cases hfails : s.fails 0 with
  | false => exact ⟨fun h => ⟨fun h' => (nomatch h'), fun _ => h⟩, fun h => h.2 rfl⟩
  | true => exact ⟨fun h => ⟨fun _ => h, fun h' => nomatch h'⟩, fun h => h.1 rfl⟩

theorem attempt_findUserBySession {Q : Option User → Outage → Prop} (token : Text) :
    (findUserBySession token).wp attempt Q E s ↔ (s.fails 0 = true → E poolError (s.done s.backend)) ∧
      (s.fails 0 = false → Q (s.backend.findUserBySession token) (s.done s.backend)) :=
  wp_attempt (r := .findUserBySession token) (f := orInternal) rfl

theorem attempt_setTotpEnabled {Q : Unit → Outage → Prop} (u : Id) (enabled : Bool) :
    (setTotpEnabled u enabled).wp attempt Q E s ↔
      (s.fails 0 = true → E poolError (s.done s.backend)) ∧
        (s.fails 0 = false → Q () (s.done (s.backend.setTotpEnabled u enabled))) :=
  wp_attempt (r := .setTotpEnabled u enabled) (f := orInternal) rfl

theorem attempt_beginTransaction {Q : ℕ → Outage → Prop} :
    beginTransaction.wp attempt Q E s ↔ (s.fails 0 = true → E poolError (s.done s.backend)) ∧
      (s.fails 0 = false →
        Q s.backend.begun (s.done { s.backend with begun := s.backend.begun + 1 })) :=
  wp_attempt (r := .beginTransaction) (f := orInternal) rfl

theorem attempt_deleteRecoveryCodes {Q : List RecoveryCode → Outage → Prop} (tx : ℕ) (u : Id) :
    (deleteRecoveryCodes tx u).wp attempt Q E s ↔
      (s.fails 0 = true → E poolError (s.done s.backend)) ∧
        (s.fails 0 = false → Q (s.backend.deleteRecoveryCodes tx u).1
          (s.done (s.backend.deleteRecoveryCodes tx u).2)) :=
  wp_attempt (r := .deleteRecoveryCodes tx u) (f := orInternal) rfl

theorem attempt_insertRecoveryCode {Q : Unit → Outage → Prop} (tx : ℕ) (u : Id) (hash : Text) :
    (insertRecoveryCode tx u hash).wp attempt Q E s ↔
      (s.fails 0 = true → E poolError (s.done s.backend)) ∧
        (s.fails 0 = false → Q () (s.done (s.backend.insertRecoveryCode tx u hash))) :=
  wp_attempt (r := .insertRecoveryCode tx u hash) (f := orInternal) rfl

theorem attempt_commit {Q : Unit → Outage → Prop} (tx : ℕ) :
    (commit tx).wp attempt Q E s ↔ (s.fails 0 = true → E poolError (s.done s.backend)) ∧
      (s.fails 0 = false → Q () (s.done (s.backend.commit tx))) :=
  wp_attempt (r := .commit tx) (f := orInternal) rfl

/-- The audit log does not tell whether it failed. -/
theorem attempt_auditLog {Q : Unit → Outage → Prop} (u : Option Id) (a : Action) (ip : IpAddr)
    (m : Metadata) : (auditLog u a ip m).wp attempt Q E s ↔
      (s.fails 0 = true → Q () (s.done s.backend)) ∧
        (s.fails 0 = false →
          Q () (s.done { s.backend with auditLog := s.backend.auditLog ++ [⟨u, a, ip, m⟩] })) :=
  wp_attempt (r := .insertAuditLog ⟨u, a, ip, m⟩) (f := fun _ => pure ()) rfl

theorem attempt_ensure {Q : Unit → Outage → Prop} (c : Bool) (e : AppError) :
    (ensure c e).wp attempt Q E s ↔ (c = true → Q () s) ∧ (c = false → E e s) := by
  cases c with
  | false => exact ⟨fun he => ⟨fun h => (nomatch h), fun _ => he⟩, fun h => h.2 rfl⟩
  | true => exact ⟨fun hq => ⟨fun _ => hq, fun h => nomatch h⟩, fun h => h.1 rfl⟩

/-- The clock does not fail. -/
theorem attempt_totpVerify {Q : Bool → Outage → Prop} (C : Crates) (secret code : Text) :
    (totpVerify C secret code).wp attempt Q E s ↔
      Q (Totp.verify C (s.backend.now / 1000000) secret code) s := Iff.rfl

end Rules

/-! ## Storing recovery codes -/

/-- The hashes that are stored for a user. -/
def storedHashes (b : Backend) (u : Id) : List Text :=
  (b.recoveryCodes.filter fun c => c.userId = u).map RecoveryCode.codeHash

/-- Those that a transaction will add. -/
def pendingHashes (b : Backend) (tx : ℕ) (u : Id) : List Text :=
  ((b.transactions tx).inserted.filter fun c => c.userId = u).map RecoveryCode.codeHash

/-- The accounts and the codes are as they were. -/
structure Untouched (b b' : Backend) : Prop where
  users : b'.users = b.users
  recoveryCodes : b'.recoveryCodes = b.recoveryCodes

theorem Untouched.trans {b b' b'' : Backend} (h : Untouched b b') (h' : Untouched b' b'') :
    Untouched b b'' := ⟨h'.users.trans h.users, h'.recoveryCodes.trans h.recoveryCodes⟩

/-- A transaction has marked all the codes that the user had. -/
def Cleared (b : Backend) (tx : ℕ) (u : Id) : Prop :=
  ∀ c ∈ b.recoveryCodes, c.userId = u → c.id ∈ (b.transactions tx).deleted

theorem deleteRecoveryCodes_cleared (b : Backend) (tx : ℕ) (u : Id) :
    Untouched b (b.deleteRecoveryCodes tx u).2 ∧ Cleared (b.deleteRecoveryCodes tx u).2 tx u ∧
      pendingHashes (b.deleteRecoveryCodes tx u).2 tx u = [] := by
  refine ⟨⟨rfl, rfl⟩, ?_, ?_⟩
  · intro c hc hu
    show c.id ∈ (Function.update b.transactions tx _ tx).deleted
    rw [Function.update_self]
    by_cases hdeleted : c.id ∈ (b.transactions tx).deleted
    · exact List.mem_append_left _ hdeleted
    · have hvisible : c ∈ b.visibleCodes tx u :=
        List.mem_filter.2 ⟨hc, decide_eq_true ⟨hu, hdeleted⟩⟩
      exact List.mem_append_right _ (List.mem_map_of_mem hvisible)
  · show ((Function.update b.transactions tx _ tx).inserted.filter _).map _ = []
    rw [Function.update_self]
    simp

theorem insertRecoveryCode_pending (b : Backend) (tx : ℕ) (u : Id) (hash : Text) :
    Untouched b (b.insertRecoveryCode tx u hash) ∧
      ((b.insertRecoveryCode tx u hash).transactions tx).deleted = (b.transactions tx).deleted ∧
      pendingHashes (b.insertRecoveryCode tx u hash) tx u = pendingHashes b tx u ++ [hash] := by
  refine ⟨⟨rfl, rfl⟩, ?_, ?_⟩
  · show (Function.update b.transactions tx _ tx).deleted = _
    rw [Function.update_self]
  · show ((Function.update b.transactions tx _ tx).inserted.filter _).map _ = _
    rw [Function.update_self, List.filter_append, List.map_append]
    simp [pendingHashes]

/-- What is committed replaces the user's codes. -/
theorem storedHashes_commit {b : Backend} {tx : ℕ} {u : Id} (h : Cleared b tx u) :
    storedHashes (b.commit tx) u = pendingHashes b tx u := by
  have hnone : ((b.recoveryCodes.filter fun c => c.id ∉ (b.transactions tx).deleted).filter
      fun c => c.userId = u) = [] := by
    rw [List.filter_eq_nil_iff]
    intro c hc hu
    obtain ⟨hmem, hkept⟩ := List.mem_filter.1 hc
    exact of_decide_eq_true hkept (h c hmem (of_decide_eq_true hu))
  show (((b.recoveryCodes.filter fun c => c.id ∉ (b.transactions tx).deleted) ++
    (b.transactions tx).inserted).filter _).map _ = _
  rw [List.filter_append, hnone]
  rfl

/-- What the inserts of a transaction have done, unless one of them fails. -/
structure Inserted (s : Outage) (tx : ℕ) (u : Id) (hashes : List Text) (t : Outage) : Prop where
  up : ∀ i < hashes.length, s.fails i = false
  fails : t.fails = fun n => s.fails (n + hashes.length)
  kept : Untouched s.backend t.backend
  deleted : (t.backend.transactions tx).deleted = (s.backend.transactions tx).deleted
  pending : pendingHashes t.backend tx u = pendingHashes s.backend tx u ++ hashes

theorem attempt_insertRecoveryCodes (tx : ℕ) (u : Id) (hashes : List Text) (s : Outage) :
    (insertRecoveryCodes tx u hashes).wp attempt (fun _ => Inserted s tx u hashes)
      (fun _ t => (∃ i < hashes.length, s.fails i = true) ∧ Untouched s.backend t.backend) s := by
  induction hashes generalizing s with
  | nil => exact ⟨fun _ h => absurd h (Nat.not_lt_zero _), rfl, ⟨rfl, rfl⟩, rfl, (List.append_nil _).symm⟩
  | cons hash hashes ih =>
    obtain ⟨hkept, hdeleted, hpending⟩ := insertRecoveryCode_pending s.backend tx u hash
    rw [insertRecoveryCodes, Prog.wp_bind, attempt_insertRecoveryCode]
    constructor
    · intro hfails
      exact ⟨⟨0, Nat.zero_lt_succ _, hfails⟩, rfl, rfl⟩
    · intro hup
      refine Prog.wp_mono (ih _) ?_ ?_
      · intro _ t ht
        constructor
        case up =>
          intro i hi
          cases i with
          | zero => exact hup
          | succ i => exact ht.up i (Nat.lt_of_succ_lt_succ hi)
        case fails => exact ht.fails
        case kept => exact hkept.trans ht.kept
        case deleted => exact ht.deleted.trans hdeleted
        case pending =>
          rw [ht.pending]
          show pendingHashes (s.backend.insertRecoveryCode tx u hash) tx u ++ hashes = _
          rw [hpending, List.append_assoc]
          rfl
      · rintro _ t ⟨⟨i, hi, hfails⟩, ht⟩
        exact ⟨⟨i + 1, Nat.succ_lt_succ hi, hfails⟩, hkept.trans ht⟩

/-- What `store_recovery_codes` has done, unless a statement of it fails. -/
structure StoredAll (s : Outage) (u : Id) (hashes : List Text) (t : Outage) : Prop where
  up : ∀ i < hashes.length + 3, s.fails i = false
  users : t.backend.users = s.backend.users
  stored : storedHashes t.backend u = hashes

/-- **The codes are replaced as a whole, or not at all.** -/
theorem attempt_storeRecoveryCodes (u : Id) (hashes : List Text) (s : Outage) :
    (storeRecoveryCodes u hashes).wp attempt (fun _ => StoredAll s u hashes)
      (fun _ t => (∃ i < hashes.length + 3, s.fails i = true) ∧ Untouched s.backend t.backend) s := by
  rw [storeRecoveryCodes, Prog.wp_bind, attempt_beginTransaction]
  constructor
  · intro hfails
    exact ⟨⟨0, Nat.zero_lt_succ _, hfails⟩, rfl, rfl⟩
  intro hbegin
  rw [Prog.wp_bind, attempt_deleteRecoveryCodes]
  constructor
  · intro hfails
    exact ⟨⟨1, by omega, hfails⟩, rfl, rfl⟩
  intro hdelete
  obtain ⟨hkept, hcleared, hnone⟩ := deleteRecoveryCodes_cleared
    { s.backend with begun := s.backend.begun + 1 } s.backend.begun u
  rw [Prog.wp_bind]
  refine Prog.wp_mono (attempt_insertRecoveryCodes s.backend.begun u hashes _) ?_ ?_
  · intro _ t ht
    -- the commit is the last of the statements, after the begin, the delete and one insert for each code
    have hcommit : t.fails 0 = s.fails (hashes.length + 2) := by
      rw [ht.fails]
      show s.fails (0 + hashes.length + 1 + 1) = _
      rw [Nat.zero_add]
    rw [attempt_commit]
    constructor
    · intro hfails
      exact ⟨⟨hashes.length + 2, by omega, hcommit ▸ hfails⟩, ht.kept.users, ht.kept.recoveryCodes⟩
    · intro hup
      constructor
      case up =>
        intro i hi
        rcases i with _ | _ | i
        · exact hbegin
        · exact hdelete
        · by_cases hlast : i = hashes.length
          · rw [hlast, ← hcommit, hup]
          · exact ht.up i (by omega)
      case users => exact ht.kept.users
      case stored =>
        have hstill : Cleared t.backend s.backend.begun u := by
          intro c hc hu
          rw [ht.deleted]
          exact hcleared c (ht.kept.recoveryCodes ▸ hc) hu
        show storedHashes (t.backend.commit s.backend.begun) u = hashes
        rw [storedHashes_commit hstill, ht.pending]
        exact congrArg (· ++ hashes) hnone
  · rintro _ t ⟨⟨i, hi, hfails⟩, ht⟩
    exact ⟨⟨i + 2, by omega, hfails⟩, ht.users, ht.recoveryCodes⟩

/-! ## Switching 2FA on -/

section Confirm
variable (C : Crates) (o : Outside) (headers : Headers) (code : Text)

/-- The request has a session of the user, and a good code for the user's secret. -/
structure ConfirmsFor (b : Backend) (u : User) : Prop where
  session : ∃ token, headers.authorization.bind (Text.stripPrefix "Bearer ".toList) = some token ∧
    b.findUserBySession token = some u
  verified : ∃ secret, u.totpSecret = some secret ∧
    Totp.verify C (b.now / 1000000) secret (normalize2faCode code) = true

/-- Whether 2FA is on for an account. -/
def enabledOf (b : Backend) (id : Id) : Option Bool := (b.findUserById id).map User.totpEnabled

/-- **Either 2FA is on and its codes are stored, or nothing has changed.** -/
def ConfirmAtomic (s : Outage) : Prop :=
  (∃ codes u t, (totpConfirm C o headers code).run attempt s = (.ok (.totpConfirm codes), t) ∧
      codes.length = 10 ∧ ConfirmsFor C headers code s.backend u ∧
      enabledOf t.backend u.id = some true ∧ storedHashes t.backend u.id = codes.map C.sha256Hex) ∨
    ∃ e t, (totpConfirm C o headers code).run attempt s = (.error e, t) ∧
      (∀ id, enabledOf t.backend id = enabledOf s.backend id) ∧
      t.backend.recoveryCodes = s.backend.recoveryCodes

/-- The user's 2FA is off, the statement that switches it on is carried out, and one of those
that store the codes fails. -/
def LeftHalfway (s : Outage) : Prop :=
  ∃ u, ConfirmsFor C headers code s.backend u ∧ u.totpEnabled = false ∧ s.fails 0 = false ∧
    s.fails 1 = false ∧ ∃ i, 2 ≤ i ∧ i < 15 ∧ s.fails i = true

variable {C o headers code}

theorem ConfirmsFor.unique {b : Backend} {u v : User} (hu : ConfirmsFor C headers code b u)
    (hv : ConfirmsFor C headers code b v) : u = v := by
  obtain ⟨token, htoken, hfound⟩ := hu.session
  obtain ⟨token', htoken', hfound'⟩ := hv.session
  obtain rfl := Option.some.inj (htoken.symm.trans htoken')
  exact Option.some.inj (hfound.symm.trans hfound')

/-- What `totp_confirm` has done when it returns. -/
structure Confirmed (C : Crates) (o : Outside) (headers : Headers) (code : Text) (s : Outage)
    (response : Response) (t : Outage) (u : User) : Prop where
  response : response = .totpConfirm o.recoveryCodes
  confirms : ConfirmsFor C headers code s.backend u
  up : ∀ i < o.recoveryCodes.length + 5, s.fails i = false
  users : t.backend.users = (s.backend.setTotpEnabled u.id true).users
  stored : storedHashes t.backend u.id = o.recoveryCodes.map C.sha256Hex

/-- What it has done when it throws after 2FA was switched on. -/
structure Halfway (C : Crates) (o : Outside) (headers : Headers) (code : Text) (s t : Outage)
    (u : User) : Prop where
  confirms : ConfirmsFor C headers code s.backend u
  read : s.fails 0 = false
  written : s.fails 1 = false
  failed : ∃ i, 2 ≤ i ∧ i < o.recoveryCodes.length + 5 ∧ s.fails i = true
  users : t.backend.users = (s.backend.setTotpEnabled u.id true).users
  recoveryCodes : t.backend.recoveryCodes = s.backend.recoveryCodes

theorem attempt_totpConfirm (s : Outage) : (totpConfirm C o headers code).wp attempt
    (fun response t => ∃ u, Confirmed C o headers code s response t u)
    (fun _ t => Untouched s.backend t.backend ∧
        (∀ u, ConfirmsFor C headers code s.backend u → s.fails 0 = false → s.fails 1 = true) ∨
      ∃ u, Halfway C o headers code s t u) s := by
  rw [totpConfirm, Prog.wp_bind, requireAuth, Prog.wp_bind, Prog.wp_ofOption]
  refine ⟨fun token htoken => ?_, fun hnone => ?_⟩
  case refine_2 =>
    refine .inl ⟨⟨rfl, rfl⟩, fun u hu _ => ?_⟩
    obtain ⟨token, htoken, -⟩ := hu.session
    cases hnone.symm.trans htoken
  rw [Prog.wp_bind, attempt_findUserBySession]
  refine ⟨fun hfails => .inl ⟨⟨rfl, rfl⟩, fun _ _ hread => by cases hfails.symm.trans hread⟩,
    fun hread => ?_⟩
  -- whom the request is for
  have hsame : ∀ u, ConfirmsFor C headers code s.backend u → s.backend.findUserBySession token = some u := by
    intro u hu
    obtain ⟨token', htoken', hfound⟩ := hu.session
    obtain rfl := Option.some.inj (htoken.symm.trans htoken')
    exact hfound
  rw [Prog.wp_ofOption]
  refine ⟨fun u hfound => ?_, fun hnone => ?_⟩
  case refine_2 => exact .inl ⟨⟨rfl, rfl⟩, fun u hu _ => by cases hnone.symm.trans (hsame u hu)⟩
  rw [Prog.wp_bind, Prog.wp_ofOption]
  refine ⟨fun secret hsecret => ?_, fun hnone => ?_⟩
  case refine_2 =>
    refine .inl ⟨⟨rfl, rfl⟩, fun v hv _ => ?_⟩
    obtain rfl := Option.some.inj (hfound.symm.trans (hsame v hv))
    obtain ⟨secret, hsecret, -⟩ := hv.verified
    cases hnone.symm.trans hsecret
  rw [Prog.wp_bind, attempt_totpVerify, Prog.wp_bind, attempt_ensure]
  refine ⟨fun hverified => ?_, fun hrefused => ?_⟩
  case refine_2 =>
    refine .inl ⟨⟨rfl, rfl⟩, fun v hv _ => ?_⟩
    obtain rfl := Option.some.inj (hfound.symm.trans (hsame v hv))
    obtain ⟨secret', hsecret', hverified⟩ := hv.verified
    obtain rfl := Option.some.inj (hsecret.symm.trans hsecret')
    cases hrefused.symm.trans hverified
  have hconfirms : ConfirmsFor C headers code s.backend u :=
    ⟨⟨token, htoken, hfound⟩, secret, hsecret, hverified⟩
  rw [Prog.wp_bind, attempt_setTotpEnabled]
  refine ⟨fun hfails => .inl ⟨⟨rfl, rfl⟩, fun _ _ _ => hfails⟩, fun hwritten => ?_⟩
  rw [Prog.wp_bind]
  refine Prog.wp_mono (attempt_storeRecoveryCodes u.id (o.recoveryCodes.map C.sha256Hex) _) ?_ ?_
  · intro _ t ht
    have hdone : ∀ b', b'.users = t.backend.users → b'.recoveryCodes = t.backend.recoveryCodes →
        Confirmed C o headers code s (.totpConfirm o.recoveryCodes) (t.done b') u := by
      intro b' husers hcodes
      constructor
      case response => rfl
      case confirms => exact hconfirms
      case up =>
        intro i hi
        rcases i with _ | _ | i
        · exact hread
        · exact hwritten
        · exact ht.up i (by rw [List.length_map]; omega)
      case users => exact husers.trans ht.users
      case stored =>
        show ((b'.recoveryCodes.filter _).map _) = _
        rw [hcodes]
        exact ht.stored
    rw [Prog.wp_bind, attempt_auditLog]
    exact ⟨fun _ => ⟨u, hdone _ rfl rfl⟩, fun _ => ⟨u, hdone _ rfl rfl⟩⟩
  · rintro _ t ⟨⟨i, hi, hfails⟩, ht⟩
    rw [List.length_map] at hi
    exact .inr ⟨u, hconfirms, hread, hwritten, ⟨i + 2, by omega, by omega, hfails⟩, ht.users,
      ht.recoveryCodes⟩

/-- Switching 2FA on changes that of one account. -/
theorem enabledOf_set {b b' : Backend} {u : User} (husers : b'.users = (b.setTotpEnabled u.id true).users)
    (id : Id) : enabledOf b' id =
      if id = u.id then (b.findUserById id).map fun _ => true else enabledOf b id := by
  have hid : ((fun v : User => decide (v.id = id)) ∘ fun v => if v.id = u.id then
      { v with totpEnabled := true } else v) = fun v => decide (v.id = id) := by
    funext v
    show decide ((if v.id = u.id then { v with totpEnabled := true } else v).id = id) = _
    split <;> rfl
  have hfind : b'.findUserById id = (b.findUserById id).map fun v =>
      if v.id = u.id then { v with totpEnabled := true } else v := by
    rw [Backend.findUserById, husers]
    show List.find? _ (b.users.map _) = _
    rw [List.find?_map, hid]
    rfl
  rw [enabledOf, hfind, enabledOf, Option.map_map]
  cases hrow : b.findUserById id with
  | none => split <;> rfl
  | some v =>
    have hv : v.id = id := of_decide_eq_true (List.find?_some (p := fun v : User => decide (v.id = id)) hrow)
    show some (if v.id = u.id then { v with totpEnabled := true } else v).totpEnabled = _
    by_cases h : id = u.id
    · rw [if_pos (hv.trans h), if_pos h]
      rfl
    · rw [if_neg (hv ▸ h), if_neg h]
      rfl

theorem ConfirmsFor.found {b : Backend} {u : User} (hu : ConfirmsFor C headers code b u) :
    b.findUserById u.id = some u := by
  obtain ⟨token, -, hfound⟩ := hu.session
  obtain ⟨row, -, hrow⟩ := Option.bind_eq_some_iff.1 hfound
  have hid : u.id = row.userId :=
    of_decide_eq_true (List.find?_some (p := fun v : User => decide (v.id = row.userId)) hrow)
  rw [hid]
  exact hrow

/-- **It is atomic unless it is left halfway**, with ten codes. -/
theorem atomic_iff (hten : o.recoveryCodes.length = 10) (s : Outage) :
    ConfirmAtomic C o headers code s ↔ ¬ LeftHalfway C headers code s := by
  have hwp : (totpConfirm C o headers code).wp attempt _ _ s := attempt_totpConfirm s
  obtain ⟨hok, herror⟩ := (Prog.wp_iff _ _).1 hwp
  constructor
  · rintro hatomic ⟨u, hu, hoff, hread, hwritten, i, hlow, hhigh, hfails⟩
    obtain ⟨codes, v, t, hrun, -⟩ | ⟨e, t, hrun, hsame, -⟩ := hatomic
    · obtain ⟨v, hv⟩ := hok _ (by rw [hrun])
      -- it answered, so no statement failed
      have hup := hv.up i (by omega)
      exact nomatch hup.symm.trans hfails
    · obtain ⟨-, hrefused⟩ | ⟨v, hv⟩ := herror e (by rw [hrun])
      · exact nomatch hwritten.symm.trans (hrefused u hu hread)
      · obtain rfl := hu.unique hv.confirms
        rw [hrun] at hv
        -- it threw and changed nothing, yet the user is on
        have hon := hsame u.id
        rw [enabledOf_set hv.users, if_pos rfl, enabledOf, hu.found, Option.map_some, Option.map_some,
          hoff] at hon
        exact nomatch hon
  · intro hwhole
    cases hresult : ((totpConfirm C o headers code).run attempt s).1 with
    | ok response =>
      obtain ⟨u, hu⟩ := hok response hresult
      refine .inl ⟨o.recoveryCodes, u, ((totpConfirm C o headers code).run attempt s).2, ?_, hten,
        hu.confirms, ?_, hu.stored⟩
      · rw [← hu.response, ← hresult]
      · rw [enabledOf_set hu.users, if_pos rfl, hu.confirms.found]
        rfl
    | error e =>
      refine .inr ⟨e, ((totpConfirm C o headers code).run attempt s).2, by rw [← hresult], ?_⟩
      obtain ⟨hsame, -⟩ | ⟨u, hu⟩ := herror e hresult
      · refine ⟨fun id => ?_, hsame.recoveryCodes⟩
        rw [enabledOf, enabledOf, Backend.findUserById, Backend.findUserById, hsame.users]
      · have hon : u.totpEnabled = true := by
          by_contra hoff
          obtain ⟨i, hlow, hhigh, hfails⟩ := hu.failed
          exact hwhole ⟨u, hu.confirms, Bool.eq_false_iff.2 hoff, hu.read, hu.written, i, hlow,
            by omega, hfails⟩
        refine ⟨fun id => ?_, hu.recoveryCodes⟩
        rw [enabledOf_set hu.users]
        split
        · rename_i hid
          rw [hid, enabledOf, hu.confirms.found, Option.map_some, Option.map_some, hon]
        · rfl

/-- **Enabling 2FA is atomic exactly if it is not left halfway**: for all tables and statements that
fail, `totp_confirm` with the codes of `generate_recovery_codes` either answers ten codes, has 2FA
on and exactly their hashes stored, or throws and has changed neither, unless 2FA was switched on
by one statement and one of those that store the codes fails. -/
theorem confirm_atomic_iff (C : Crates) (genRange : ℕ → ℕ → Fin charset.length) (o : Outside)
    (headers : Headers) (code : Text) (s : Outage) :
    ConfirmAtomic C { o with recoveryCodes := (generateRecoveryCodes C genRange).1 } headers code s ↔
      ¬ LeftHalfway C headers code s := by
  have hten : (generateRecoveryCodes C genRange).1.length = 10 := by
    rw [generateRecoveryCodes, List.length_map, List.length_range]
    rfl
  exact atomic_iff (o := { o with recoveryCodes := (generateRecoveryCodes C genRange).1 }) hten s

end Confirm

namespace Sample

/-- The account has a secret, and 2FA off. -/
def awaiting : List Event :=
  .clock 30000000 :: served 0 10 "first" callback ++ served 1 2 "" (.totpSetup headers)

/-- The code is good, and the transaction cannot be begun: 2FA is on, and there are no codes. -/
theorem confirm_left_halfway : ∃ b, (after awaiting).Reached crates ∧ (after awaiting).state = b ∧
    ¬ ConfirmAtomic crates
      { outside "" with recoveryCodes := (generateRecoveryCodes crates fun _ _ => ⟨0, by decide⟩).1 }
      headers "287082".toList ⟨b, fun i => i == 2⟩ := by
  refine ⟨_, after_reached (by decide), rfl, fun hatomic => ?_⟩
  refine (atomic_iff (o := { outside "" with
    recoveryCodes := (generateRecoveryCodes crates fun _ _ => ⟨0, by decide⟩).1 }) ?_ _).mp hatomic ?_
  · decide
  · have huser : ∃ u, (after awaiting).state.findUserBySession "first".toList = some u ∧
        u.totpEnabled = false ∧ u.totpSecret = some secret := by
      decide
    obtain ⟨u, hfound, hoff, hsecret⟩ := huser
    refine ⟨u, ⟨⟨"first".toList, by decide, hfound⟩, secret, hsecret, by decide⟩, hoff, rfl, rfl,
      2, le_rfl, by omega, rfl⟩

end Sample
end Winkd.Server
