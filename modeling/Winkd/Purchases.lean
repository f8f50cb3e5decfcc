import Winkd.Deliveries
import Mathlib.Data.List.Pairwise

/-!
# Whether a purchase is applied

A delivery looks the user up, inserts the row and carries the effect out, by three
statements.  Where one of them fails it goes on as if there were no user, or the row were
there already, or nothing were left to do, and it is answered with success: the event is
not delivered again.  So an event is applied exactly once if one of its deliveries meets no
failure and finds the identifier unrecorded, and not at all otherwise (`applied_once_iff`).
-/

namespace Winkd.Server

/-- Exactly one entry of the list satisfies `P`. -/
def ExactlyOne {α : Type} (P : α → Prop) (l : List α) : Prop :=
  ∃ l₁ a l₂, l = l₁ ++ a :: l₂ ∧ P a ∧ ∀ b ∈ l₁ ++ l₂, ¬ P b

/-- Where no two entries satisfy `P`, exactly one does if any does. -/
theorem exactlyOne_iff {α : Type} {P : α → Prop} {l : List α}
    (hl : l.Pairwise fun a b => ¬ (P a ∧ P b)) : ExactlyOne P l ↔ ∃ a ∈ l, P a := by
  constructor
  · rintro ⟨l₁, a, l₂, rfl, ha, -⟩
    exact ⟨a, by simp, ha⟩
  · rintro ⟨a, hmem, ha⟩
    obtain ⟨l₁, l₂, rfl⟩ := List.append_of_mem hmem
    obtain ⟨-, hcons, hcross⟩ := List.pairwise_append.mp hl
    refine ⟨l₁, a, l₂, rfl, ha, fun b hb h => ?_⟩
    rcases List.mem_append.mp hb with hb | hb
    · exact hcross b hb a List.mem_cons_self ⟨h, ha⟩
    · exact (List.pairwise_cons.mp hcons).1 b hb ⟨ha, h⟩

namespace Deliveries
variable {C : BmacCrates} {config : BmacConfig} {b : Billing} {s : Deliveries}

/-- A statement that carries an effect of the event out. -/
def Applies (s : Deliveries) (payload : Json) (e : Threads.Entry BmacOp BmacOp.Reply Billing) : Prop :=
  e.request.isEffect = true ∧ e.before.error e.request = none ∧
    ∃ row first, (s.handled e.task).row = some (row, first) ∧ row.rawPayload = payload

/-- The event has been applied exactly once, and to the user. -/
structure AppliedOnce (s : Deliveries) (payload : Json) (eff : Effect) (u : Id) : Prop where
  once : ExactlyOne (s.Applies payload) s.trace
  statement : ∀ e ∈ s.trace, s.Applies payload e → eff.IsStatement u e.request

/-- A delivery of the event has been answered that met no failure and found the identifier
unrecorded. -/
def GotThrough (C : BmacCrates) (config : BmacConfig) (s : Deliveries) (payload : Json) : Prop :=
  ∃ i req response, s.response i = some (req, response) ∧ Genuine C config req payload ∧
    (∀ e ∈ s.trace, e.task = i → e.before.error e.request = none) ∧
      ∃ e ∈ s.trace, e.task = i ∧ (∃ userId, e.request = .recordBmacEvent (bmacRow C payload userId)) ∧
        e.before.isRecorded (externalIdOf C payload) = false

/-! ## Effects are tried once -/

/-- What the deliveries have tried, as the trace has it. -/
structure Trials (C : BmacCrates) (config : BmacConfig) (s : Deliveries) : Prop where
  applied : ∀ i, (s.handled i).applied = true ↔ ∃ e ∈ s.trace, e.task = i ∧ e.request.isEffect = true
  entitled : ∀ e ∈ s.trace, e.request.isEffect = true → ∃ row u eff,
    (s.handled e.task).row = some (row, true) ∧ (s.handled e.task).user = some u ∧
      effectOf C config row.rawPayload = some eff ∧ eff.IsStatement u e.request
  distinct : s.trace.Pairwise fun e e' =>
    ¬ (e.request.isEffect = true ∧ e'.request.isEffect = true ∧ e.task = e'.task)

/-- An effect is tried by a delivery that has tried none, after its row was inserted. -/
theorem may_effect {d : Handled} {r : BmacOp} (hr : d.may C config r) (heffect : r.isEffect = true) :
    d.applied = false ∧ ∃ row u eff, d.row = some (row, true) ∧ d.user = some u ∧
      effectOf C config row.rawPayload = some eff ∧ eff.IsStatement u r := by
  cases r with
  | findUserByEmail email => cases heffect
  | recordBmacEvent row => cases heffect
  | utcNow => cases heffect
  | _ => exact hr

/-- Whom a delivery has found, and what it has recorded, it keeps. -/
theorem seen_kept {d : Handled} {r : BmacOp} (hr : d.may C config r) (x : r.Reply)
    {row : BmacEvent} {first : Bool} (hrow : d.row = some (row, first)) :
    (d.seen r x).row = d.row ∧ (d.seen r x).user = d.user := by
  cases r with
  | findUserByEmail email =>
    rw [hr.2] at hrow
    cases hrow
  | recordBmacEvent row' =>
    rw [hr.1] at hrow
    cases hrow
  | _ => exact ⟨rfl, rfl⟩

theorem Trials.step {s : Deliveries} (hs : s.Trials C config) {i : ℕ} {r : BmacOp}
    {k : r.Reply → BmacProg (BmacRequest × BmacResponse)}
    (hr : Handled.may C config (s.handled i) r) : (s.answered i r k).Trials C config := by
  have hown := handled_own s i r k
  have hother : ∀ {j}, i ≠ j → (s.answered i r k).handled j = s.handled j := fun hij =>
    handled_other s hij r k
  have hkept : ∀ {j row first}, (s.handled j).row = some (row, first) →
      ((s.answered i r k).handled j).row = (s.handled j).row ∧
        ((s.answered i r k).handled j).user = (s.handled j).user := by
    intro j row first h
    by_cases hij : i = j
    · subst hij
      rw [hown]
      exact seen_kept hr _ h
    · rw [hother hij]
      exact ⟨rfl, rfl⟩
  constructor
  case applied =>
    refine noted_answered (P := fun e => e.request.isEffect = true) ?_ hs.applied
    rw [Handled.seen_applied, Bool.or_eq_true, or_comm]
    rfl
  case entitled =>
    intro e he heffect
    rcases List.mem_cons.mp he with rfl | he
    · obtain ⟨-, row, u, eff, hrow, huser, heff, hstatement⟩ := may_effect hr heffect
      obtain ⟨hrow', huser'⟩ := hkept hrow
      exact ⟨row, u, eff, hrow'.trans hrow, huser'.trans huser, heff, hstatement⟩
    · obtain ⟨row, u, eff, hrow, huser, heff, hstatement⟩ := hs.entitled e he heffect
      obtain ⟨hrow', huser'⟩ := hkept hrow
      exact ⟨row, u, eff, hrow'.trans hrow, huser'.trans huser, heff, hstatement⟩
  case distinct =>
    refine List.pairwise_cons.mpr ⟨?_, hs.distinct⟩
    rintro e he ⟨heffect, heffect', htask⟩
    -- it would have tried one before
    have happlied := (hs.applied i).mpr ⟨e, he, htask.symm, heffect'⟩
    rw [(may_effect hr heffect).1] at happlied
    cases happlied

theorem trials (h : ReachedFrom C config b s) : s.Trials C config := by
  refine run_invariant h ?_ ?_ ?_ ?_
  · exact ⟨fun _ => ⟨fun h => (nomatch h), fun ⟨_, h, _⟩ => nomatch h⟩, fun _ h => (nomatch h),
      List.Pairwise.nil⟩
  · exact fun s p hs => ⟨hs.applied, hs.entitled, hs.distinct⟩
  · exact fun s db failing hs _ => ⟨hs.applied, hs.entitled, hs.distinct⟩
  · exact fun s i r k hs _ hr => hs.step hr

/-- Two trials are of two deliveries. -/
theorem Trials.ne_task (hs : s.Trials C config) {e e' : Threads.Entry BmacOp BmacOp.Reply Billing}
    (he : e ∈ s.trace) (he' : e' ∈ s.trace) (hne : e ≠ e') (heffect : e.request.isEffect = true)
    (heffect' : e'.request.isEffect = true) : e.task ≠ e'.task := by
  have hsymm : Std.Symm fun e e' : Threads.Entry BmacOp BmacOp.Reply Billing =>
      ¬ (e.request.isEffect = true ∧ e'.request.isEffect = true ∧ e.task = e'.task) :=
    ⟨fun _ _ h h' => h ⟨h'.2.1, h'.1, h'.2.2.symm⟩⟩
  exact fun htask => hs.distinct.forall he he' hne ⟨heffect, heffect', htask⟩

/-! ## Whom they apply to -/

/-- Who is looked up by an address is the user with it, and he is found where the lookup does
not fail. -/
structure Finds (s : Deliveries) (email : Text) (u : Id) : Prop where
  account : ∃ user, s.state.db.findUserByEmail email = some user ∧ user.id = u
  found : ∀ i v, (s.handled i).asked = some email → (s.handled i).user = some v → v = u
  finds : ∀ i, (s.handled i).asked = some email → (s.handled i).failed = false →
    (s.handled i).user = some u

theorem perform_db (r : BmacOp) (b : Billing) : (bmacServe r b).2.db = b.db := by
  cases h : b.error r with
  | some e => rw [serve_failed h]
  | none =>
    rw [serve_performed h]
    cases r with
    | recordBmacEvent row =>
      simp only [Billing.perform, Billing.recordBmacEvent]
      split <;> rfl
    | _ => rfl

/-- What a lookup replies. -/
theorem serve_find {b : Billing} {email : Text} {user : User}
    (hu : b.db.findUserByEmail email = some user) :
    (∃ e, (bmacServe (.findUserByEmail email) b).1 = Except.error e) ∨
      ∃ m : Member, (bmacServe (.findUserByEmail email) b).1 = Except.ok (some m) ∧ m.id = user.id := by
  cases h : b.error (.findUserByEmail email) with
  | some e =>
    rw [serve_failed h]
    exact .inl ⟨e, rfl⟩
  | none =>
    rw [serve_performed h]
    refine .inr ⟨{ toUser := user, toSupporter := b.supporters user.id }, ?_, rfl⟩
    show Except.ok (b.findUserByEmail email) = _
    rw [Billing.findUserByEmail, hu]
    rfl

theorem Finds.step {s : Deliveries} {email : Text} {u : Id} (hs : s.Finds email u) {i : ℕ} {r : BmacOp}
    {k : r.Reply → BmacProg (BmacRequest × BmacResponse)} : (s.answered i r k).Finds email u := by
  have hown := handled_own s i r k
  have hother : ∀ {j}, i ≠ j → (s.answered i r k).handled j = s.handled j := fun hij =>
    handled_other s hij r k
  obtain ⟨user, hu, hid⟩ := hs.account
  -- only a lookup says who the user is
  have hkept : (∀ email, r ≠ .findUserByEmail email) → ∀ x : r.Reply,
      ((s.handled i).seen r x).asked = (s.handled i).asked ∧
        ((s.handled i).seen r x).user = (s.handled i).user := by
    intro hr x
    cases r with
    | findUserByEmail email => exact absurd rfl (hr email)
    | _ => exact ⟨rfl, rfl⟩
  have hasks : ∀ {email'}, ((s.handled i).seen (.findUserByEmail email')
      (bmacServe (.findUserByEmail email') s.state).1).asked = some email' := rfl
  refine ⟨⟨user, (congrArg (fun db => Backend.findUserByEmail db email) (perform_db r s.state)).trans hu,
    hid⟩, ?_, ?_⟩
  · intro j v hasked huser
    by_cases hij : i = j
    · subst hij
      rw [hown] at hasked huser
      by_cases hfind : ∃ email', r = .findUserByEmail email'
      · obtain ⟨email', rfl⟩ := hfind
        cases hasks.symm.trans hasked
        rcases serve_find hu with ⟨e, he⟩ | ⟨m, hm, hmid⟩
        · rw [he] at huser
          cases huser
        · rw [hm] at huser
          cases huser
          exact hmid.trans hid
      · obtain ⟨hasked', huser'⟩ := hkept (fun email' h => hfind ⟨email', h⟩) (bmacServe r s.state).1
        exact hs.found i v (hasked'.symm.trans hasked) (huser'.symm.trans huser)
    · rw [hother hij] at hasked huser
      exact hs.found j v hasked huser
  · intro j hasked hfailed
    by_cases hij : i = j
    · subst hij
      rw [hown] at hasked hfailed ⊢
      by_cases hfind : ∃ email', r = .findUserByEmail email'
      · obtain ⟨email', rfl⟩ := hfind
        cases hasks.symm.trans hasked
        rcases serve_find hu with ⟨e, he⟩ | ⟨m, hm, hmid⟩
        · rw [Handled.seen_failed, he, Bool.or_eq_false_iff] at hfailed
          cases hfailed.2
        · rw [hm]
          exact congrArg some (hmid.trans hid)
      · obtain ⟨hasked', huser'⟩ := hkept (fun email' h => hfind ⟨email', h⟩) (bmacServe r s.state).1
        rw [Handled.seen_failed, Bool.or_eq_false_iff] at hfailed
        exact huser'.trans (hs.finds i (hasked'.symm.trans hasked) hfailed.1)
    · rw [hother hij] at hasked hfailed ⊢
      exact hs.finds j hasked hfailed

theorem finds (h : ReachedFrom C config b s) {email : Text} {u : User}
    (hu : b.db.findUserByEmail email = some u) : s.Finds email u.id := by
  refine run_invariant h (I := fun s => s.Finds email u.id) ?_ ?_ ?_ ?_
  · exact ⟨⟨u, hu, rfl⟩, fun _ _ h => (nomatch h), fun _ h => nomatch h⟩
  · exact fun s p hs => ⟨hs.account, hs.found, hs.finds⟩
  · intro s db failing hs hdb
    obtain ⟨user, huser, hid⟩ := hs.account
    obtain ⟨user', huser', hid'⟩ := hdb email user huser
    exact ⟨⟨user', huser', hid'.trans hid⟩, hs.found, hs.finds⟩
  · exact fun s i r k hs _ _ => hs.step

/-! ## Where a delivery fails -/

/-- What a failure leads to. -/
structure FailsAt (s : Deliveries) : Prop where
  fresh : ∀ i, (s.handled i).asked = none → (s.handled i).row = none → (s.handled i).failed = false
  failed : ∀ i, (s.handled i).failed = true → (s.handled i).user = none ∨
    (∃ row, (s.handled i).row = some (row, false)) ∨
      ∃ e ∈ s.trace, e.task = i ∧ e.request.isEffect = true ∧ (e.before.error e.request).isSome = true

theorem FailsAt.step {s : Deliveries} (hs : s.FailsAt) {i : ℕ} {r : BmacOp}
    {k : r.Reply → BmacProg (BmacRequest × BmacResponse)}
    (hr : Handled.may C config (s.handled i) r) : (s.answered i r k).FailsAt := by
  have hown := handled_own s i r k
  have hother : ∀ {j}, i ≠ j → (s.answered i r k).handled j = s.handled j := fun hij =>
    handled_other s hij r k
  have herror : ((s.handled i).seen r (bmacServe r s.state).1).failed =
      ((s.handled i).failed || (s.state.error r).isSome) := by
    rw [Handled.seen_failed, isError_serve]
  constructor
  · intro j hasked hrow
    by_cases hij : i = j
    · subst hij
      rw [hown] at hasked hrow ⊢
      cases r with
      | findUserByEmail email => cases hasked
      | recordBmacEvent row => cases hrow
      | utcNow =>
        rw [herror, hs.fresh i hasked hrow]
        rfl
      | _ =>
        obtain ⟨-, row, -, -, hsome, -⟩ := hr
        have hnone : (s.handled i).row = none := hrow
        rw [hsome] at hnone
        cases hnone
    · rw [hother hij] at hasked hrow ⊢
      exact hs.fresh j hasked hrow
  · intro j hfailed
    by_cases hij : i = j
    · subst hij
      rw [hown] at hfailed ⊢
      rw [herror, Bool.or_eq_true] at hfailed
      have hnew : r.isEffect = true → (s.state.error r).isSome = true →
          ∃ e ∈ (s.answered i r k).trace, e.task = i ∧ e.request.isEffect = true ∧
            (e.before.error e.request).isSome = true := fun heffect hsome =>
        ⟨_, List.mem_cons_self, rfl, heffect, hsome⟩
      have hold : (∃ e ∈ s.trace, e.task = i ∧ e.request.isEffect = true ∧
          (e.before.error e.request).isSome = true) →
          ∃ e ∈ (s.answered i r k).trace, e.task = i ∧ e.request.isEffect = true ∧
            (e.before.error e.request).isSome = true := fun ⟨e, he, h⟩ =>
        ⟨e, List.mem_cons_of_mem _ he, h⟩
      cases r with
      | findUserByEmail email =>
        -- nothing has failed before the lookup
        rw [hs.fresh i hr.1 hr.2] at hfailed
        obtain ⟨x, hx⟩ := Option.isSome_iff_exists.mp (hfailed.resolve_left Bool.false_ne_true)
        rw [serve_failed hx]
        exact .inl rfl
      | recordBmacEvent row =>
        rcases hfailed with hfailed | hfailed
        · rcases hs.failed i hfailed with h | ⟨row', h⟩ | h
          · exact .inl h
          · rw [hr.1] at h
            cases h
          · exact .inr (.inr (hold h))
        · obtain ⟨x, hx⟩ := Option.isSome_iff_exists.mp hfailed
          rw [serve_failed hx]
          exact .inr (.inl ⟨row, rfl⟩)
      | utcNow =>
        rcases hs.failed i (hfailed.resolve_right fun h => nomatch h) with h | h | h
        · exact .inl h
        · exact .inr (.inl h)
        · exact .inr (.inr (hold h))
      | _ =>
        rcases hfailed with hfailed | hfailed
        · rcases hs.failed i hfailed with h | h | h
          · exact .inl h
          · exact .inr (.inl h)
          · exact .inr (.inr (hold h))
        · exact .inr (.inr (hnew rfl hfailed))
    · rw [hother hij] at hfailed ⊢
      rcases hs.failed j hfailed with h | h | ⟨e, he, h⟩
      · exact .inl h
      · exact .inr (.inl h)
      · exact .inr (.inr ⟨e, List.mem_cons_of_mem _ he, h⟩)

theorem failsAt (h : ReachedFrom C config b s) : s.FailsAt := by
  refine run_invariant h ?_ ?_ ?_ ?_
  · exact ⟨fun _ _ _ => rfl, fun _ h => nomatch h⟩
  · exact fun s p hs => ⟨hs.fresh, hs.failed⟩
  · exact fun s db failing hs _ => ⟨hs.fresh, hs.failed⟩
  · exact fun s i r k hs _ hr => hs.step hr

/-! ## The result -/

/-- The deliveries that have recorded an event have recorded it under its address. -/
theorem asked_of_row (h : ReachedFrom C config b s) {i : ℕ} {row : BmacEvent} {first : Bool}
    (hrow : (s.handled i).row = some (row, first)) :
    row = bmacRow C row.rawPayload (s.handled i).user ∧ row.supporterEmail = (s.handled i).asked := by
  refine run_invariant h (I := fun s => ∀ i row first, (s.handled i).row = some (row, first) →
    row = bmacRow C row.rawPayload (s.handled i).user ∧ row.supporterEmail = (s.handled i).asked)
    ?_ ?_ ?_ ?_ i row first hrow
  · exact fun _ _ _ h => nomatch h
  · exact fun s p hs => hs
  · exact fun s db failing hs _ => hs
  · intro s i r k hs _ hr j row first hrow
    by_cases hij : i = j
    · subst hij
      rw [handled_own] at hrow ⊢
      cases r with
      | recordBmacEvent row' =>
        obtain ⟨-, hbmac, hasked⟩ := hr
        cases hrow
        exact ⟨hbmac, hasked⟩
      | findUserByEmail email =>
        have hnone : (s.handled i).row = some (row, first) := hrow
        rw [hr.2] at hnone
        cases hnone
      | _ => exact hs i row first hrow
    · rw [handled_other s hij] at hrow ⊢
      exact hs j row first hrow

/-- A delivery that has tried the effect has been answered. -/
theorem answered_of_applied (h : ReachedFrom C config b s) {i : ℕ} {row : BmacEvent} {first : Bool}
    (hrow : (s.handled i).row = some (row, first)) (happlied : (s.handled i).applied = true) :
    ∃ req response, s.response i = some (req, response) ∧ Genuine C config req row.rawPayload := by
  have hy := yields h
  obtain ⟨e, he, rfl, -⟩ := ((trials h).applied i).mp happlied
  have hlt := hy.started e he
  have hp : s.tasks[e.task]? = some s.tasks[e.task] := List.getElem?_eq_getElem hlt
  cases htask : s.tasks[e.task] with
  | pure a =>
    rw [htask] at hp
    exact ⟨a.1, a.2, response_eq.mpr hp, (hy.ended hp).genuine row first hrow⟩
  | throw x => exact x.elim
  | request r k =>
    rw [htask] at hp
    have hmay := hy.may_issue hp
    -- nothing is left that it may do
    have happlied' : (Threads.Pool.learned Handled.seen .none e.task s.trace).applied = true := happlied
    have hrow' : (Threads.Pool.learned Handled.seen .none e.task s.trace).row = some (row, first) := hrow
    exfalso
    cases r with
    | findUserByEmail email =>
      rw [hmay.2] at hrow'
      cases hrow'
    | recordBmacEvent row' =>
      rw [hmay.1] at hrow'
      cases hrow'
    | utcNow =>
      rw [show _ = false from hmay] at happlied'
      cases happlied'
    | _ =>
      rw [hmay.1] at happlied'
      cases happlied'

/-- Who carries an effect of an event out has inserted its row. -/
theorem Applies.inserted (h : ReachedFrom C config b s) {payload : Json}
    {e : Threads.Entry BmacOp BmacOp.Reply Billing} (he : e ∈ s.trace)
    (happlies : s.Applies payload e) : ∃ u eff,
      (s.handled e.task).row = some (bmacRow C payload (s.handled e.task).user, true) ∧
        (s.handled e.task).user = some u ∧ effectOf C config payload = some eff ∧
          eff.IsStatement u e.request := by
  obtain ⟨heffect, -, row', first, hrow', rfl⟩ := happlies
  obtain ⟨row, u, eff, hrow, huser, heff, hstatement⟩ := (trials h).entitled e he heffect
  cases hrow'.symm.trans hrow
  refine ⟨u, eff, ?_, huser, heff, hstatement⟩
  rw [← (asked_of_row h hrow).1]
  exact hrow

/-- **No two statements carry an event out.** -/
theorem applies_pairwise (h : ReachedFrom C config b s) (payload : Json) :
    s.trace.Pairwise fun e e' => ¬ (s.Applies payload e ∧ s.Applies payload e') := by
  refine (trials h).distinct.imp_of_mem ?_
  rintro e e' he he' hne ⟨happlies, happlies'⟩
  obtain ⟨_, _, hrow, -⟩ := happlies.inserted h he
  obtain ⟨_, _, hrow', -⟩ := happlies'.inserted h he'
  exact hne ⟨happlies.1, happlies'.1, (consistent h).once _ _ _ _ hrow hrow' rfl⟩

/-- A delivery that carries an effect out meets no failure. -/
theorem Applies.unfailed (h : ReachedFrom C config b s) {payload : Json}
    {e : Threads.Entry BmacOp BmacOp.Reply Billing} (he : e ∈ s.trace)
    (happlies : s.Applies payload e) : (s.handled e.task).failed = false := by
  obtain ⟨u, eff, hrow, huser, -⟩ := happlies.inserted h he
  by_contra hfailed
  rcases (failsAt h).failed e.task (Bool.eq_true_of_not_eq_false hfailed) with hnone | ⟨row, hfalse⟩ | hother
  · rw [huser] at hnone
    cases hnone
  · rw [hrow] at hfalse
    cases hfalse
  · -- the effect is tried once
    obtain ⟨e', he', htask, heffect', hsome⟩ := hother
    have hne : e ≠ e' := by
      rintro rfl
      rw [happlies.2.1] at hsome
      cases hsome
    exact (trials h).ne_task he he' hne happlies.1 heffect' htask.symm

/-- **An event is applied exactly once, and to the user with its address,** exactly if a
delivery of it has got through. -/
theorem applied_once_iff (h : ReachedFrom C config b s) {payload : Json} {email : Text} {u : User}
    {eff : Effect} (hemail : emailOf C payload = some email)
    (hu : b.db.findUserByEmail email = some u) (heff : effectOf C config payload = some eff) :
    s.AppliedOnce payload eff u.id ↔ s.GotThrough C config payload := by
  have hc := consistent h
  constructor
  · rintro ⟨honce, -⟩
    obtain ⟨e, he, happlies⟩ := (exactlyOne_iff (applies_pairwise h payload)).mp honce
    obtain ⟨v, -, hrow, -⟩ := happlies.inserted h he
    have happlied := ((trials h).applied e.task).mpr ⟨e, he, rfl, happlies.1⟩
    obtain ⟨req, response, hresponse, hg⟩ := answered_of_applied h hrow happlied
    refine ⟨e.task, req, response, hresponse, hg, fun e' he' htask => ?_, ?_⟩
    · by_contra herror
      have hfailed := (hc.failed e.task).mpr ⟨e', he', htask, Option.isSome_iff_ne_none.mpr herror⟩
      rw [happlies.unfailed h he] at hfailed
      cases hfailed
    · obtain ⟨e', he', htask, hreq⟩ := hc.recorded e.task _ true hrow
      have htold := hc.told e' he' _ hreq
      rw [htask, hrow, Option.some_inj, Prod.mk.injEq] at htold
      exact ⟨e', he', htask, ⟨_, hreq⟩, (of_decide_eq_true htold.2.symm).2⟩
  · rintro ⟨i, req, response, hresponse, hg, herrors, e, he, rfl, ⟨v, hreq⟩, hfresh⟩
    have hrow := hc.told e he _ hreq
    have hins : e.before.Inserts (bmacRow C payload v) := ⟨hreq ▸ herrors e he rfl, hfresh⟩
    rw [decide_eq_true hins] at hrow
    have hsettled := settled h hresponse hg
    have hfailed : (s.handled e.task).failed = false := by
      by_contra hfailed
      obtain ⟨e', he', htask, hsome⟩ := (hc.failed e.task).mp (Bool.eq_true_of_not_eq_false hfailed)
      rw [herrors e' he' htask] at hsome
      cases hsome
    have huser := (finds h hu).finds e.task (hsettled.asked.trans hemail) hfailed
    have happlied := hsettled.applied _ _ hrow huser (by rw [heff]; rfl)
    obtain ⟨e', he', htask, heffect⟩ := ((trials h).applied e.task).mp happlied
    have happlies : s.Applies payload e' :=
      ⟨heffect, herrors e' he' htask, _, true, htask ▸ hrow, rfl⟩
    refine ⟨(exactlyOne_iff (applies_pairwise h payload)).mpr ⟨e', he', happlies⟩, ?_⟩
    intro e' he' happlies
    -- whose address it is
    obtain ⟨v', eff', hrow', huser', heff', hstatement⟩ := happlies.inserted h he'
    cases heff.symm.trans heff'
    have hasked : (s.handled e'.task).asked = some email := by
      rw [← (asked_of_row h hrow').2]
      exact hemail
    rw [← (finds h hu).found e'.task v' hasked huser']
    exact hstatement

end Deliveries

namespace Deliveries.Sample

/-- Ada buys the unlock. -/
def bought : List DeliveryEvent := handledAs 0 3 unlock

/-- The database fails once her purchase has been recorded. -/
def boughtInVain : List DeliveryEvent :=
  handledAs 0 2 unlock ++ [.failing true, .statement 0, .failing false]

theorem genuine_unlock : Genuine crates config unlock.request unlock.payload :=
  Posted.genuine (n := 2) rfl (by decide +kernel) (by decide +kernel) (by decide +kernel)

theorem applied_once_iff_bought : ∃ u, account.db.findUserByEmail "ada@example.org".toList = some u ∧
    ((after bought).AppliedOnce unlock.payload .groupChat u.id ↔
      (after bought).GotThrough crates config unlock.payload) := by
  obtain ⟨u, hu, -⟩ := ada_found
  have hreach : ReachedFrom crates config account (after bought) := after_reached (by decide)
  have hemail : emailOf crates unlock.payload = some "ada@example.org".toList := by decide
  have heff : effectOf crates config unlock.payload = some .groupChat := by decide
  exact ⟨u, hu, applied_once_iff hreach hemail hu heff⟩

/-- The event is answered with success, and is not applied. -/
theorem purchase_lost :
    ¬ ∀ s : Deliveries, ReachedFrom crates config account s → ∀ i req response payload email u eff,
      s.response i = some (req, response) → response.status = 200 → Genuine crates config req payload →
        emailOf crates payload = some email → account.db.findUserByEmail email = some u →
          effectOf crates config payload = some eff → s.AppliedOnce payload eff u.id := by
  intro h
  have hreach : ReachedFrom crates config account (after boughtInVain) := after_reached (by decide)
  have hresponse : (after boughtInVain).response 0 = some (unlock.request, acknowledged) := by
    decide +kernel
  obtain ⟨u, hu, -⟩ := ada_found
  obtain ⟨⟨l₁, e, l₂, htrace, ⟨heffect, herror, -⟩, -⟩, -⟩ := h _ hreach 0 _ _ _ _ u .groupChat hresponse rfl
    genuine_unlock (by decide) hu (by decide)
  have hnone : ∀ e ∈ (after boughtInVain).trace, e.request.isEffect = true →
      e.before.error e.request ≠ none := by
    decide +kernel
  exact hnone e (by rw [htrace]; simp) heffect herror

end Deliveries.Sample
end Winkd.Server
