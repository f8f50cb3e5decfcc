import Winkd.Service

/-!
# Requests served one after the other

A `Journal` is the tables and a list of the requests served on them, the latest first,
each with the tables it was served on and what it was answered.  The list is a ghost:
no handler reads it.
-/

namespace Winkd.Server

/-- A request that was served. -/
structure Served where
  before : Backend
  outside : Outside
  request : AuthRequest
  result : Except AppError Response
  after : Backend

/-- The tables, and what was served on them. -/
structure Journal where
  state : Backend
  served : List Served

/-- What a journal records, or time that passes. -/
inductive Arrival where
  | request (o : Outside) (req : AuthRequest)
  | clock (now : ℕ)

namespace Journal
variable (C : Crates)

/-- A journal with no entry. -/
def start (b : Backend) : Journal := ⟨b, []⟩

/-- The entry of a request. -/
def entry (j : Journal) (o : Outside) (req : AuthRequest) : Served where
  before := j.state
  outside := o
  request := req
  result := ((handle C o req).run answer j.state).1
  after := ((handle C o req).run answer j.state).2

def next (j : Journal) : Arrival → Journal
  | .request o req => ⟨(j.entry C o req).after, j.entry C o req :: j.served⟩
  | .clock now => { j with state := { j.state with now := now } }

/-- The clock does not run backwards. -/
def InTime (j : Journal) : Arrival → Prop
  | .clock now => j.state.now ≤ now
  | _ => True

instance (j : Journal) : ∀ a, Decidable (j.InTime a)
  | .request _ _ => isTrue trivial
  | .clock now => inferInstanceAs (Decidable (j.state.now ≤ now))

end Journal

/-! ## When a request is accepted -/

/-- A request that has verified the second factor succeeds: the session that
`totp_challenge` creates can be stored. -/
def Completes (b : Backend) (o : Outside) : AuthRequest → Prop
  | .totpChallenge _ _ => b.TokenFree o.token
  | _ => True

/-- The requests that verify the second factor. -/
def AuthRequest.VerifiesFactor : AuthRequest → Prop
  | .totpChallenge _ _ => True
  | .totpDisable _ _ => True
  | .recoveryCodesGenerate _ _ => True
  | _ => False

section Accepted
variable {C : Crates} {o : Outside} {b : Backend}

/-- The second factor is verified for the user of the session. -/
def SessionVerified (C : Crates) (b : Backend) (headers : Headers) (code : Text) : Prop :=
  ∃ u secret, b.sessionUser headers = some u ∧ u.totpEnabled = true ∧ u.totpSecret = some secret ∧
    codeAccepted C b u.id secret code = true

theorem requireSecondFactor_ok (headers : Headers) (code : Text) (notEnabled : String) :
    (requireSecondFactor C headers code notEnabled).wp answer
      (fun _ _ => SessionVerified C b headers code) (fun _ _ => ¬ SessionVerified C b headers code)
      b := by
  simp only [requireSecondFactor, requireEnabled, Prog.wp_bind, wp_requireAuth, wp_ensure,
    Prog.wp_ofOption, Prog.wp_pure, wp_verifyTotpOrRecovery]
  refine ⟨fun u hu => ⟨fun henabled => ⟨fun secret hsecret => ⟨fun haccepted => ?_, ?_⟩, ?_⟩, ?_⟩, ?_⟩
  · exact wp_auditIf _ _ _ fun _ => ⟨u, secret, hu, henabled, hsecret, haccepted⟩
  · rintro hrefused ⟨v, secret', hv, -, hsecret', haccepted⟩
    obtain rfl := Option.some.inj (hu.symm.trans hv)
    obtain rfl := Option.some.inj (hsecret.symm.trans hsecret')
    exact absurd (hrefused.symm.trans haccepted) (by decide)
  · rintro hnone ⟨v, secret', hv, -, hsecret', -⟩
    obtain rfl := Option.some.inj (hu.symm.trans hv)
    exact absurd (hnone.symm.trans hsecret') (by simp)
  · rintro hdisabled ⟨v, secret', hv, henabled, -⟩
    obtain rfl := Option.some.inj (hu.symm.trans hv)
    exact absurd (hdisabled.symm.trans henabled) (by decide)
  · rintro hnone ⟨v, secret', hv, -⟩
    exact absurd (hnone.symm.trans hv) (by simp)

theorem totpDisable_ok (headers : Headers) (code : Text) :
    (totpDisable C headers code).wp answer (fun _ _ => SessionVerified C b headers code)
      (fun _ _ => ¬ SessionVerified C b headers code) b := by
  rw [totpDisable, Prog.wp_bind]
  exact Prog.wp_mono (requireSecondFactor_ok headers code _) (fun _ _ h => h) fun _ _ h => h

theorem recoveryCodesGenerate_ok (headers : Headers) (code : Text) :
    (recoveryCodesGenerate C o headers code).wp answer
      (fun _ _ => SessionVerified C b headers code)
      (fun _ _ => ¬ SessionVerified C b headers code) b := by
  rw [recoveryCodesGenerate, Prog.wp_bind]
  refine Prog.wp_mono (requireSecondFactor_ok headers code _) (fun _ _ h => ?_) fun _ _ h => h
  simp only [Prog.wp_bind, wp_countRecoveryCodes]
  exact wp_storeRecoveryCodes _ _ fun _ _ => h

/-- The second factor is verified for the user of the challenge, and the session can be
stored. -/
def ChallengePassed (C : Crates) (o : Outside) (b : Backend) (body : TotpChallengeRequest) : Prop :=
  b.TokenFree o.token ∧ ∃ u secret, b.challengedUser body.challengeToken = some u ∧
    u.totpSecret = some secret ∧ codeAccepted C b u.id secret body.code = true

theorem totpChallenge_ok (headers : Headers) (body : TotpChallengeRequest) :
    (totpChallenge C o headers body).wp answer (fun _ _ => ChallengePassed C o b body)
      (fun _ _ => ¬ ChallengePassed C o b body) b := by
  simp only [totpChallenge, challengedUser, Prog.wp_bind, wp_consumeTotpChallenge, Prog.wp_ofOption,
    wp_findUserById, Prog.wp_pure, wp_verifyTotpOrRecovery]
  refine ⟨fun userId huserId => ⟨fun u hu => ⟨fun secret hsecret => ?_, ?_⟩, ?_⟩, ?_⟩
  · have hchallenged : b.challengedUser body.challengeToken = some u :=
      Option.bind_eq_some_iff.mpr ⟨userId, huserId, hu⟩
    refine wp_auditIf _ _ _ fun log => ?_
    rw [Prog.wp_ite]
    constructor
    · intro haccepted
      have hsessions : (afterCode C (b.consumeTotpChallenge body.challengeToken).2 u.id
          body.code).sessions = b.sessions := (afterCode_kept u.id body.code).sessions
      rw [Prog.wp_bind]
      refine wp_createSession (fun hfree => ?_) fun htaken _ hpassed => ?_
      · exact ⟨⟨hfree.1, hsessions ▸ hfree.2⟩, u, secret, hchallenged, hsecret, haccepted⟩
      · exact htaken ⟨hpassed.1.1, hsessions.symm ▸ hpassed.1.2⟩
    · rintro hrefused ⟨-, v, secret', hv, hsecret', haccepted⟩
      obtain rfl := Option.some.inj (hchallenged.symm.trans hv)
      obtain rfl := Option.some.inj (hsecret.symm.trans hsecret')
      exact hrefused haccepted
  · rintro hnone ⟨-, v, secret', hv, hsecret', -⟩
    obtain ⟨id, hid, hfind⟩ := Option.bind_eq_some_iff.mp hv
    obtain rfl := Option.some.inj (huserId.symm.trans hid)
    obtain rfl := Option.some.inj (hu.symm.trans hfind)
    exact absurd (hnone.symm.trans hsecret') (by simp)
  · rintro hnone ⟨-, v, -, hv, -⟩
    obtain ⟨id, hid, hfind⟩ := Option.bind_eq_some_iff.mp hv
    obtain rfl := Option.some.inj (huserId.symm.trans hid)
    exact absurd (hnone.symm.trans hfind) (by simp)
  · rintro hnone ⟨-, v, -, hv, -⟩
    obtain ⟨id, hid, -⟩ := Option.bind_eq_some_iff.mp hv
    exact absurd (hnone.symm.trans hid) (by simp)

/-- **A request that verifies the second factor succeeds** exactly when it comes to the
code, the code is accepted, and the session can be stored. -/
theorem accepted_iff {req : AuthRequest} (hreq : req.VerifiesFactor) :
    ((handle C o req).run answer b).1.isOk = true ↔
      Completes b o req ∧ ∃ u, FactorVerified C b req u := by
  have hok : ∀ {P : Prop}, (handle C o req).wp answer (fun _ _ => P) (fun _ _ => ¬ P) b →
      (((handle C o req).run answer b).1.isOk = true ↔ P) := by
    intro P hwp
    have hrun := (Prog.wp_iff _ _).mp hwp
    cases hres : ((handle C o req).run answer b).1 with
    | error e => exact ⟨fun h => (nomatch h), fun h => absurd h (hrun.2 e hres)⟩
    | ok r => exact ⟨fun _ => hrun.1 r hres, fun _ => rfl⟩
  cases req with
  | totpChallenge headers body =>
    rw [hok (totpChallenge_ok headers body)]
    constructor
    · rintro ⟨hfree, u, secret, hu, hsecret, haccepted⟩
      exact ⟨hfree, u, secret, body.code, ⟨hu, hsecret, rfl⟩, haccepted⟩
    · rintro ⟨hfree, u, secret, _, ⟨hu, hsecret, rfl⟩, haccepted⟩
      exact ⟨hfree, u, secret, hu, hsecret, haccepted⟩
  | totpDisable headers code =>
    rw [hok (totpDisable_ok headers code)]
    constructor
    · rintro ⟨u, secret, hu, henabled, hsecret, haccepted⟩
      exact ⟨trivial, u, secret, code, ⟨hu, henabled, hsecret, rfl⟩, haccepted⟩
    · rintro ⟨-, u, secret, _, ⟨hu, henabled, hsecret, rfl⟩, haccepted⟩
      exact ⟨u, secret, hu, henabled, hsecret, haccepted⟩
  | recoveryCodesGenerate headers code =>
    rw [hok (recoveryCodesGenerate_ok headers code)]
    constructor
    · rintro ⟨u, secret, hu, henabled, hsecret, haccepted⟩
      exact ⟨trivial, u, secret, code, ⟨hu, henabled, hsecret, rfl⟩, haccepted⟩
    · rintro ⟨-, u, secret, _, ⟨hu, henabled, hsecret, rfl⟩, haccepted⟩
      exact ⟨u, secret, hu, henabled, hsecret, haccepted⟩
  | _ => exact hreq.elim

end Accepted

/-! ## A journal of one account -/

namespace Sample

/-- The requests by which an account is created and given 2FA. -/
def enrolling : List Arrival :=
  [.clock 30000000, .request (outside "first") callback, .request (outside "") (.totpSetup headers),
    .request (outside "") (.totpConfirm headers "287082".toList)]

/-- The journal after `arrivals`, from empty tables. -/
def recorded (arrivals : List Arrival) : Journal :=
  arrivals.foldl (Journal.next crates) (.start (.init 0))

end Sample
end Winkd.Server
