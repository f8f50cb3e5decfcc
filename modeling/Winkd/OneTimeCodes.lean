import Winkd.Journal

/-!
# Whether a TOTP code is accepted once

`totp::verify` looks at the clock and at nothing else, so a code that was accepted is
accepted again until its step has left the window.  No code is accepted twice exactly in
the journals in which none is presented, while it is good, that was accepted before
(`codes_one_time_iff`).
-/

namespace Winkd.Server
variable {C : Crates}

/-- The request comes to the second factor of the user, with a six-digit code that is the
secret's code of a step in the window. -/
def Served.Presents (C : Crates) (x : Served) (userId : Id) (secret code : Text) (step : ℕ) : Prop :=
  ∃ u c, ComesToVerify x.before x.request u secret c ∧ u.id = userId ∧ normalize2faCode c = code ∧
    isTotpCode code = true ∧ step ∈ Totp.window (x.before.now / 1000000) ∧
    Totp.IsCodeOf C secret code step

/-- The request is accepted with that code. -/
def Served.Accepts (C : Crates) (x : Served) (userId : Id) (secret code : Text) (step : ℕ) : Prop :=
  x.Presents C userId secret code step ∧ x.result.isOk = true

/-- **Once a code has been accepted for a secret and a step, it is not accepted again.** -/
def CodesOneTime (C : Crates) (served : List Served) : Prop :=
  served.Pairwise fun y x => ∀ userId secret code step, x.Accepts C userId secret code step →
    ¬ y.Accepts C userId secret code step

/-- No request that could succeed presents a code that was accepted for its secret and a
step in the window. -/
def NoCodePresentedAgain (C : Crates) (served : List Served) : Prop :=
  served.Pairwise fun y x => ∀ userId secret code step, x.Accepts C userId secret code step →
    ¬ (y.Presents C userId secret code step ∧ Completes y.before y.outside y.request)

/-! ## Acceptance -/

/-- The entry is of a request as the handlers serve it. -/
def Served.Genuine (C : Crates) (x : Served) : Prop :=
  x.result = ((handle C x.outside x.request).run answer x.before).1

theorem served_genuine {b : Backend} {j : Journal}
    (hj : Transitions.Reaches (Journal.next C) Journal.InTime (.start b) j) :
    ∀ x ∈ j.served, x.Genuine C := by
  refine hj.invariant (I := fun j => ∀ x ∈ j.served, x.Genuine C) (fun _ h => nomatch h) ?_
  intro j a hserved _ x hx
  cases a with
  | clock now => exact hserved x hx
  | request o req =>
    rcases List.mem_cons.mp hx with rfl | hx
    · rfl
    · exact hserved x hx

/-- A good code is accepted, whatever happened before. -/
theorem Served.Presents.verified {x : Served} {userId : Id} {secret code : Text} {step : ℕ}
    (h : x.Presents C userId secret code step) : ∃ u, FactorVerified C x.before x.request u := by
  obtain ⟨u, c, hcomes, -, rfl, hsix, hstep, hcode⟩ := h
  refine ⟨u, secret, c, hcomes, ?_⟩
  rw [codeAccepted, if_pos hsix]
  exact Totp.verify_iff.mpr ⟨step, hstep, hcode⟩

theorem Served.Presents.verifies {x : Served} {userId : Id} {secret code : Text} {step : ℕ}
    (h : x.Presents C userId secret code step) : x.request.VerifiesFactor := by
  obtain ⟨u, c, hcomes, -⟩ := h
  cases hreq : x.request with
  | totpChallenge => trivial
  | totpDisable => trivial
  | recoveryCodesGenerate => trivial
  | _ =>
    rw [hreq] at hcomes
    exact hcomes.elim

/-- **A request that presents a good code is accepted** unless its session cannot be
stored. -/
theorem accepts_iff {x : Served} (hx : x.Genuine C) {userId : Id} {secret code : Text} {step : ℕ} :
    x.Accepts C userId secret code step ↔
      x.Presents C userId secret code step ∧ Completes x.before x.outside x.request := by
  refine and_congr_right fun h => ?_
  rw [hx, accepted_iff h.verifies]
  exact ⟨fun hok => hok.1, fun hcompletes => ⟨hcompletes, h.verified⟩⟩

/-- **No code is accepted twice** exactly when none is presented again. -/
theorem codes_one_time_iff {b : Backend} {j : Journal}
    (hj : Transitions.Reaches (Journal.next C) Journal.InTime (.start b) j) :
    CodesOneTime C j.served ↔ NoCodePresentedAgain C j.served := by
  have hgenuine := served_genuine hj
  refine List.Pairwise.iff_of_mem fun {y x} hy _ => ?_
  refine forall₄_congr fun userId secret code step => imp_congr_right fun _ => not_congr ?_
  exact accepts_iff (hgenuine y hy)

namespace Sample

/-- New recovery codes are asked for, with the code of step 1. -/
def regenerate : Arrival :=
  .request (outside "") (.recoveryCodesGenerate headers "287082".toList)

theorem codes_one_time_iff_enrolling :
    CodesOneTime crates (recorded (enrolling ++ [regenerate])).served ↔
      NoCodePresentedAgain crates (recorded (enrolling ++ [regenerate])).served := by
  have hadmits : Transitions.Admits (Journal.next crates) Journal.InTime (.start (.init 0))
      (enrolling ++ [regenerate]) := by
    decide
  exact codes_one_time_iff hadmits.reaches

/-- The code of step 1 is accepted for one request, and then for another. -/
theorem code_accepted_twice :
    ∃ j, Transitions.Reaches (Journal.next crates) Journal.InTime (.start (.init 0)) j ∧
      ¬ CodesOneTime crates j.served := by
  have hadmits : Transitions.Admits (Journal.next crates) Journal.InTime (.start (.init 0))
      (enrolling ++ [regenerate, regenerate]) := by
    decide
  refine ⟨_, hadmits.reaches, fun h => ?_⟩
  let enrolled : Journal := recorded enrolling
  let once : Journal := recorded (enrolling ++ [regenerate])
  have hcode : 1 ∈ Totp.window 30 ∧ Totp.IsCodeOf crates secret "287082".toList 1 :=
    ⟨by decide, by decide, key, by decide, by decide⟩
  have hserved : ∀ j : Journal, j = enrolled ∨ j = once →
      (∃ u ∈ j.state.sessionUser headers,
        u.id = 0 ∧ u.totpEnabled = true ∧ u.totpSecret = some secret) ∧
      j.state.now = 30000000 ∧ (j.entry crates (outside "")
        (.recoveryCodesGenerate headers "287082".toList)).result.isOk = true := by
    rintro j (rfl | rfl) <;> decide
  have haccepts : ∀ j : Journal, j = enrolled ∨ j = once →
      (j.entry crates (outside "") (.recoveryCodesGenerate headers "287082".toList)).Accepts crates 0
        secret "287082".toList 1 := by
    intro j hj
    obtain ⟨⟨u, hu, hid, henabled, hsecret⟩, hnow, hok⟩ := hserved j hj
    refine ⟨⟨u, _, ⟨hu, henabled, hsecret, rfl⟩, hid, by decide, by decide, ?_, hcode.2⟩, hok⟩
    show 1 ∈ Totp.window (j.state.now / 1000000)
    rw [hnow]
    exact hcode.1
  exact List.rel_of_pairwise_cons h List.mem_cons_self _ _ _ _ (haccepts enrolled (.inl rfl))
    (haccepts once (.inr rfl))

end Sample
end Winkd.Server
