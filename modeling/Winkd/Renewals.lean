import Winkd.Deliveries
import Mathlib.Data.List.Pairwise
import Mathlib.Order.Bounds.Basic

/-!
# When a renewed membership runs out

An event that renews a membership writes the end of its period, or 35 days from now, over
the end that was stored, whichever is later.  So the end that is stored last is that of the
event that was handled last, and renewals keep a membership from getting shorter exactly if
they are handled in the order of their ends (`never_shortens_iff`).
-/

namespace Winkd.Server

/-- A delivery that is handled at an instant, and its event. -/
structure Renewal where
  time : ℕ
  request : BmacRequest
  payload : Json

namespace Renewal
variable (C : BmacCrates) (config : BmacConfig)

def periodEnd (d : Renewal) : Option ℤ := parsePeriodEndUtc C (dataOf C d.payload)

/-- The end that the event brings. -/
def expiry (d : Renewal) : ℤ := (d.periodEnd C).getD (d.time + defaultPeriod)

/-- An event that starts or renews the plus membership of the user. -/
structure Renews (b : Billing) (u : Id) (d : Renewal) : Prop where
  genuine : Genuine C config d.request d.payload
  type : eventTypeOf d.payload ∈ renewalTypes
  tier : isPlusMembershipTier (tierNameOf (dataOf C d.payload)) config.bmacPlusTierName = true
  user : ∃ email user, emailOf C d.payload = some email ∧ b.db.findUserByEmail email = some user ∧
    user.id = u

/-- The event is not kept out of the table. -/
def Taken (b : Billing) (d : Renewal) : Prop := b.Inserts (bmacRow C d.payload none)

instance (b : Billing) (d : Renewal) : Decidable (d.Taken C b) :=
  inferInstanceAs (Decidable (b.Inserts _))

end Renewal

namespace Billing
variable (C : BmacCrates) (config : BmacConfig)

def expiresAt (b : Billing) (u : Id) : Option ℤ := (b.supporters u).supporterExpiresAt

/-- The tables at an instant. -/
def atTime (b : Billing) (now : ℕ) : Billing := { b with db := { b.db with now := now } }

/-- The tables once the delivery has been handled. -/
def handle (b : Billing) (d : Renewal) : Billing :=
  ((webhook C config d.request).run bmacServe (b.atTime d.time)).2

def handleAll (b : Billing) (ds : List Renewal) : Billing := ds.foldl (handle C config) b

/-- The tables once the event has been recorded and the membership renewed. -/
def renewed (b : Billing) (u : Id) (d : Renewal) : Billing :=
  { b with bmacEvents := b.bmacEvents ++ [bmacRow C d.payload (some u)] }.updateSupporter u fun s =>
    { s with supporterTier := supporterPlus, supporterExpiresAt := some (d.expiry C) }

end Billing

/-- The end is no earlier than it was, if there was one. -/
def NoEarlier (before after : Option ℤ) : Prop := ∀ e ∈ before, ∃ e' ∈ after, e ≤ e'

namespace Renewal
variable (C : BmacCrates) (config : BmacConfig)

/-- No event makes the membership shorter; where all carry the end of a period, the
membership ends with the last period. -/
structure NeverShortens (b : Billing) (u : Id) (ds : List Renewal) : Prop where
  step : ∀ ds₁ d ds₂, ds = ds₁ ++ d :: ds₂ →
    NoEarlier ((b.handleAll C config ds₁).expiresAt u)
      (((b.handleAll C config ds₁).handle C config d).expiresAt u)
  final : ds ≠ [] → (∀ d ∈ ds, (d.periodEnd C).isSome) → ∃ last,
    (b.handleAll C config ds).expiresAt u = some last ∧
      IsGreatest {e | ∃ d ∈ ds, d.periodEnd C = some e} last

/-- The end that is stored, and those that are written over it, in their order. -/
def ends (b : Billing) (u : Id) (ds : List Renewal) : List ℤ :=
  (b.expiresAt u).toList ++ (ds.filter fun d => d.Taken C b).map (expiry C)

/-- The ends do not go down, and no event that is kept out of the table has a later one. -/
structure Rising (b : Billing) (u : Id) (ds : List Renewal) : Prop where
  rising : (ends C b u ds).Pairwise (· ≤ ·)
  latest : ds ≠ [] → (∀ d ∈ ds, (d.periodEnd C).isSome) → ∃ last ∈ (ends C b u ds).getLast?,
    IsGreatest {e | ∃ d ∈ ds, d.periodEnd C = some e} last

end Renewal

/-! ## One event -/

namespace Billing
variable {C : BmacCrates} {config : BmacConfig} {b : Billing} {u : Id} {d : Renewal}

/-- Who has the address makes no difference to an insert. -/
theorem inserts_iff (userId : Option Id) :
    b.Inserts (bmacRow C d.payload userId) ↔ d.Taken C b := Iff.rfl

theorem failing_of_inserts {row : BmacEvent} (h : b.Inserts row) : b.failing = false := by
  by_contra hfailing
  have herror := h.1
  rw [error, if_pos (Bool.eq_true_of_not_eq_false hfailing)] at herror
  cases herror

/-- The user is found, unless the database fails. -/
theorem run_matchUser (hd : d.Renews C config b u) (hfailing : b.failing = false) :
    (matchUser (emailOf C d.payload)).run bmacServe b = (.ok (some u), b) := by
  obtain ⟨email, user, hemail, huser, rfl⟩ := hd.user
  have hfind : bmacServe (.findUserByEmail email) b = (.ok (b.findUserByEmail email), b) :=
    serve_performed (by simp [error, hfailing])
  rw [hemail, matchUser]
  show (Prog.request _ _ : BmacProg (Option Id)).run bmacServe b = _
  rw [Prog.run, hfind, findUserByEmail, huser]
  rfl

theorem run_expiryOf (data : Json) : (expiryOf C data).run bmacServe b =
    (.ok ((parsePeriodEndUtc C data).getD (b.db.now + defaultPeriod)), b) := by
  unfold expiryOf
  cases parsePeriodEndUtc C data with
  | some e => rfl
  | none =>
    have hnow : (awaitBmac .utcNow).run bmacServe b = (.ok b.db.now, b) := rfl
    exact Prog.run_bind_ok _ hnow

/-- The end of the period is written, or 35 days from now. -/
theorem run_sideEffects (hd : d.Renews C config b u) (hfailing : b.failing = false)
    (hnow : b.db.now = d.time) :
    (applyEventSideEffects C config u (eventTypeOf d.payload) (dataOf C d.payload)).run bmacServe b =
      (.ok (), b.perform (.setSupporterPlus u (d.expiry C))) := by
  have hplus : (awaitBmac (.setSupporterPlus u (d.expiry C))).run bmacServe b =
      (.ok (.ok ()), b.perform (.setSupporterPlus u (d.expiry C))) := by
    rw [Prog.run_ask, serve_performed (by simp [error, hfailing])]
    rfl
  rw [applyEventSideEffects, if_pos hd.type, if_pos hd.tier, Prog.run_bind_ok _ (run_expiryOf _), hnow]
  exact Prog.run_bind_ok _ hplus

/-- An event that is not kept out of the table is recorded, and carried out. -/
theorem handleEvent_taken (hd : d.Renews C config b u) (hnow : b.db.now = d.time) (h : d.Taken C b) :
    ((handleEvent C config d.payload).run bmacServe b).2 = b.renewed C u d := by
  have hfailing := failing_of_inserts h
  have hins : b.Inserts (bmacRow C d.payload (some u)) := (inserts_iff _).mpr h
  have hrecord : bmacServe (.recordBmacEvent (bmacRow C d.payload (some u))) b =
      (.ok true, { b with bmacEvents := b.bmacEvents ++ [bmacRow C d.payload (some u)] }) := by
    rw [serve_performed hins.1]
    simp [reply, perform, recordBmacEvent, hins.2]
  rw [handleEvent, Prog.run_bind_ok _ (run_matchUser hd hfailing)]
  show ((Prog.request _ _ : BmacProg BmacResponse).run bmacServe b).2 = _
  rw [Prog.run, hrecord]
  show ((answerEvent C config d.payload (some u) true).run bmacServe
    { b with bmacEvents := b.bmacEvents ++ [bmacRow C d.payload (some u)] }).2 = _
  rw [answerEvent, if_pos rfl]
  have heffects := run_sideEffects (b := { b with bmacEvents := b.bmacEvents ++ [bmacRow C d.payload (some u)] })
    (d := d) ⟨hd.genuine, hd.type, hd.tier, hd.user⟩ hfailing hnow
  rw [Prog.run_bind_ok _ heffects]
  rfl

/-- An event that is kept out of the table changes nothing. -/
theorem handleEvent_kept (hd : d.Renews C config b u) (h : ¬ d.Taken C b) :
    ((handleEvent C config d.payload).run bmacServe b).2 = b := by
  have hmatch : ∃ userId, (matchUser (emailOf C d.payload)).run bmacServe b = (.ok userId, b) := by
    cases hfailing : b.failing with
    | false => exact ⟨_, run_matchUser hd hfailing⟩
    | true =>
      obtain ⟨email, _, hemail, -⟩ := hd.user
      refine ⟨none, ?_⟩
      have hfind : (awaitBmac (.findUserByEmail email)).run bmacServe b =
          (.ok (.error .poolTimedOut), b) := by
        rw [Prog.run_ask, serve_failed (e := .poolTimedOut) (by simp [error, hfailing])]
        rfl
      rw [hemail, matchUser, Prog.run_bind_ok _ hfind]
      rfl
  obtain ⟨userId, hmatch⟩ := hmatch
  have hnot : ¬ b.Inserts (bmacRow C d.payload userId) := h
  have hstate : (bmacServe (.recordBmacEvent (bmacRow C d.payload userId)) b).2 = b := by
    cases herror : b.error (.recordBmacEvent (bmacRow C d.payload userId)) with
    | some e => rw [serve_failed herror]
    | none =>
      have hrec : b.isRecorded (bmacRow C d.payload userId).externalId = true := by
        by_contra hrec
        exact hnot ⟨herror, Bool.eq_false_iff.mpr hrec⟩
      rw [serve_performed herror, perform, recordBmacEvent, if_pos hrec]
  have hfirst := serve_recorded (bmacRow C d.payload userId) b
  rw [decide_eq_false hnot] at hfirst
  rw [handleEvent, Prog.run_bind_ok _ hmatch, Prog.run_bind_ok _ (Prog.run_ask _ _ _), hfirst, hstate]
  rfl

theorem webhook_genuine {req : BmacRequest} {payload : Json} (hg : Genuine C config req payload) :
    webhook C config req = handleEvent C config payload := by
  obtain ⟨⟨secret, hsecret, hverify⟩, hparse, hid⟩ := hg
  have hid' : (externalIdOf C payload).isEmpty = false := by
    rw [List.isEmpty_eq_false_iff]
    exact hid
  simp [webhook, hsecret, hverify, hparse, hid']

/-- **What an event makes of the tables.** -/
theorem handle_eq (hd : d.Renews C config b u) : b.handle C config d =
    if d.Taken C b then (b.atTime d.time).renewed C u d else b.atTime d.time := by
  have hd' : d.Renews C config (b.atTime d.time) u := ⟨hd.genuine, hd.type, hd.tier, hd.user⟩
  rw [handle, webhook_genuine hd.genuine]
  split
  · rename_i h
    exact handleEvent_taken hd' rfl h
  · rename_i h
    exact handleEvent_kept hd' h

theorem expiresAt_handle (hd : d.Renews C config b u) :
    (b.handle C config d).expiresAt u = if d.Taken C b then some (d.expiry C) else b.expiresAt u := by
  rw [handle_eq hd]
  split
  · simp [expiresAt, renewed, updateSupporter]
  · rfl

/-- The users stay. -/
theorem renews_handle (hd : d.Renews C config b u) {d' : Renewal} (hd' : d'.Renews C config b u) :
    d'.Renews C config (b.handle C config d) u := by
  refine ⟨hd'.genuine, hd'.type, hd'.tier, ?_⟩
  have husers : (b.handle C config d).db.findUserByEmail = b.db.findUserByEmail := by
    rw [handle_eq hd]
    split <;> rfl
  rw [husers]
  exact hd'.user

/-- An event does not keep one with another identifier out. -/
theorem taken_handle (hd : d.Renews C config b u) {d' : Renewal}
    (hid : externalIdOf C d.payload ≠ externalIdOf C d'.payload) :
    d'.Taken C (b.handle C config d) ↔ d'.Taken C b := by
  rw [handle_eq hd]
  split
  · have hrec : ((b.atTime d.time).renewed C u d).isRecorded (bmacRow C d'.payload none).externalId =
        b.isRecorded (bmacRow C d'.payload none).externalId := by
      simp [isRecorded, renewed, updateSupporter, atTime, bmacRow, hid]
    exact and_congr Iff.rfl (by rw [hrec])
  · exact Iff.rfl

end Billing

/-! ## Several events -/

namespace Renewal
variable {C : BmacCrates} {config : BmacConfig} {b : Billing} {u : Id}

/-- The events are those of one user, and have distinct identifiers. -/
structure Series (C : BmacCrates) (config : BmacConfig) (b : Billing) (u : Id) (ds : List Renewal) :
    Prop where
  renews : ∀ d ∈ ds, d.Renews C config b u
  distinct : (ds.map fun d => externalIdOf C d.payload).Nodup

theorem Series.tail {d : Renewal} {ds : List Renewal} (h : Series C config b u (d :: ds)) :
    Series C config (b.handle C config d) u ds :=
  ⟨fun d' hd' => Billing.renews_handle (h.renews d List.mem_cons_self)
    (h.renews d' (List.mem_cons_of_mem _ hd')), (List.nodup_cons.mp h.distinct).2⟩

/-- What is left to be written once the first event has been handled. -/
theorem ends_handle {d : Renewal} {ds : List Renewal} (h : Series C config b u (d :: ds)) :
    ends C (b.handle C config d) u ds =
      ((b.handle C config d).expiresAt u).toList ++ (ds.filter fun d => d.Taken C b).map (expiry C) := by
  have hfilter : (ds.filter fun d' => d'.Taken C (b.handle C config d)) =
      ds.filter fun d' => d'.Taken C b := by
    refine List.filter_congr fun d' hd' => ?_
    refine decide_eq_decide.mpr (Billing.taken_handle (h.renews d List.mem_cons_self) fun hid => ?_)
    exact (List.nodup_cons.mp h.distinct).1 (List.mem_map.mpr ⟨d', hd', hid.symm⟩)
  rw [ends, hfilter]

theorem ends_cons (d : Renewal) (ds : List Renewal) : ends C b u (d :: ds) =
    (b.expiresAt u).toList ++ (if d.Taken C b then [d.expiry C] else []) ++
      (ds.filter fun d => d.Taken C b).map (expiry C) := by
  by_cases h : d.Taken C b
  · simp [ends, h]
  · simp [ends, h]

/-- **The end that is stored last** is the last one written. -/
theorem expiresAt_handleAll {ds : List Renewal} (h : Series C config b u ds) :
    (b.handleAll C config ds).expiresAt u = (ends C b u ds).getLast? := by
  induction ds generalizing b with
  | nil =>
    show b.expiresAt u = (ends C b u []).getLast?
    rw [ends]
    cases b.expiresAt u <;> rfl
  | cons d ds ih =>
    show ((b.handle C config d).handleAll C config ds).expiresAt u = _
    rw [ih h.tail, ends_handle h, ends_cons, Billing.expiresAt_handle (h.renews d List.mem_cons_self)]
    by_cases htaken : d.Taken C b
    · rw [if_pos htaken, if_pos htaken, List.append_assoc]
      exact (List.getLast?_append_cons _ _ _).symm
    · rw [if_neg htaken, if_neg htaken, List.append_nil]

/-- An end is no earlier than the one before it exactly if the two do not go down. -/
theorem pairwise_ends_cons {d : Renewal} {ds : List Renewal} (h : Series C config b u (d :: ds)) :
    (ends C b u (d :: ds)).Pairwise (· ≤ ·) ↔
      NoEarlier (b.expiresAt u) ((b.handle C config d).expiresAt u) ∧
        (ends C (b.handle C config d) u ds).Pairwise (· ≤ ·) := by
  rw [ends_handle h, ends_cons, Billing.expiresAt_handle (h.renews d List.mem_cons_self)]
  by_cases htaken : d.Taken C b
  · rw [if_pos htaken, if_pos htaken]
    cases b.expiresAt u with
    | none => simp [NoEarlier]
    | some e =>
      show (e :: d.expiry C :: _).Pairwise (· ≤ ·) ↔ _ ∧ (d.expiry C :: _).Pairwise (· ≤ ·)
      rw [List.pairwise_cons_cons_iff_of_trans]
      simp [NoEarlier]
  · rw [if_neg htaken, if_neg htaken, List.append_nil]
    exact (and_iff_right fun e he => ⟨e, he, le_rfl⟩).symm

/-- Each event leaves the end no earlier exactly if the ends do not go down. -/
theorem steps_iff {ds : List Renewal} (h : Series C config b u ds) :
    (∀ ds₁ d ds₂, ds = ds₁ ++ d :: ds₂ →
      NoEarlier ((b.handleAll C config ds₁).expiresAt u)
        (((b.handleAll C config ds₁).handle C config d).expiresAt u)) ↔
      (ends C b u ds).Pairwise (· ≤ ·) := by
  induction ds generalizing b with
  | nil =>
    refine ⟨fun _ => ?_, fun _ ds₁ d ds₂ heq => absurd heq (by simp)⟩
    rw [ends]
    cases b.expiresAt u with
    | none => exact List.Pairwise.nil
    | some e => exact List.pairwise_singleton _ _
  | cons d ds ih =>
    rw [pairwise_ends_cons h, ← ih h.tail]
    constructor
    · intro hstep
      exact ⟨hstep [] d ds rfl, fun ds₁ d' ds₂ heq => hstep (d :: ds₁) d' ds₂ (congrArg (d :: ·) heq)⟩
    · rintro ⟨hfirst, hrest⟩ ds₁ d' ds₂ heq
      cases ds₁ with
      | nil =>
        cases heq
        exact hfirst
      | cons d₁ ds₁ =>
        cases heq
        exact hrest ds₁ d' ds₂ rfl

/-! ## The result -/

/-- **Renewals never shorten a membership** exactly if their ends do not go down in the order
of the deliveries, and no event that is kept out of the table has a later one. -/
theorem never_shortens_iff {ds : List Renewal} (h : Series C config b u ds) :
    NeverShortens C config b u ds ↔ Rising C b u ds := by
  constructor
  · intro hnever
    refine ⟨(steps_iff h).mp hnever.step, fun hne hcarry => ?_⟩
    obtain ⟨last, hlast, hgreatest⟩ := hnever.final hne hcarry
    exact ⟨last, (expiresAt_handleAll h).symm.trans hlast, hgreatest⟩
  · intro hrising
    refine ⟨(steps_iff h).mpr hrising.rising, fun hne hcarry => ?_⟩
    obtain ⟨last, hlast, hgreatest⟩ := hrising.latest hne hcarry
    exact ⟨last, (expiresAt_handleAll h).trans hlast, hgreatest⟩

end Renewal

namespace Deliveries.Sample
open Renewal

/-- The events with the shorter and the longer period, delivered in the order of their ends. -/
def inOrder : List Renewal := [⟨0, shorter.request, shorter.payload⟩, ⟨1, longer.request, longer.payload⟩]

/-- The other way round. -/
def outOfOrder : List Renewal := [⟨0, longer.request, longer.payload⟩, ⟨1, shorter.request, shorter.payload⟩]

theorem renews_posted {p : Posted} (hg : Genuine crates config p.request p.payload)
    (htype : eventTypeOf p.payload ∈ renewalTypes)
    (htier : isPlusMembershipTier (tierNameOf (dataOf crates p.payload)) config.bmacPlusTierName = true)
    (hemail : emailOf crates p.payload = some "ada@example.org".toList) (time : ℕ) :
    (⟨time, p.request, p.payload⟩ : Renewal).Renews crates config account 0 := by
  obtain ⟨u, hu, hid⟩ := ada_found
  exact ⟨hg, htype, htier, _, u, hemail, hu, hid⟩

theorem renews_longer (time : ℕ) :
    (⟨time, longer.request, longer.payload⟩ : Renewal).Renews crates config account 0 :=
  renews_posted (Posted.genuine (n := 3) rfl (by decide +kernel) (by decide +kernel) (by decide +kernel))
    (by decide) (by decide) (by decide) time

theorem renews_shorter (time : ℕ) :
    (⟨time, shorter.request, shorter.payload⟩ : Renewal).Renews crates config account 0 :=
  renews_posted (Posted.genuine (n := 4) rfl (by decide +kernel) (by decide +kernel) (by decide +kernel))
    (by decide) (by decide) (by decide) time

theorem never_shortens_iff_inOrder :
    NeverShortens crates config account 0 inOrder ↔ Rising crates account 0 inOrder := by
  have h : Series crates config account 0 inOrder := by
    refine ⟨?_, by decide⟩
    simp only [inOrder, List.forall_mem_cons]
    exact ⟨renews_shorter 0, renews_longer 1, fun _ h => nomatch h⟩
  exact never_shortens_iff h

/-- The membership ends with the shorter period. -/
theorem membership_shortened :
    ¬ ∀ ds, Series crates config account 0 ds → NeverShortens crates config account 0 ds := by
  intro h
  have hseries : Series crates config account 0 outOfOrder := by
    refine ⟨?_, by decide⟩
    simp only [outOfOrder, List.forall_mem_cons]
    exact ⟨renews_longer 0, renews_shorter 1, fun _ h => nomatch h⟩
  obtain ⟨e, he, hle⟩ := (h outOfOrder hseries).step [⟨0, longer.request, longer.payload⟩]
    ⟨1, shorter.request, shorter.payload⟩ [] rfl 1800000000000000 (by decide +kernel)
  have hshorter : ((account.handleAll crates config [⟨0, longer.request, longer.payload⟩]).handle crates config
      ⟨1, shorter.request, shorter.payload⟩).expiresAt 0 = some 1790000000000000 := by
    decide +kernel
  rw [hshorter] at he
  cases he
  omega

end Deliveries.Sample
end Winkd.Server
