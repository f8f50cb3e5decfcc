import Winkd.Histories
import Winkd.Deliveries

/-!
# What was paid for

Anyone can post to the webhook, as often as they like, and the database can fail at any statement.
Still an account gets nothing without a receipt: an event signed with the secret, with the account's
e-mail address, that has been recorded for the first time by the delivery that carries it out.
No two statements have the same event, and what an account has is what it had and what these have given it
(`paid_for`).
-/

namespace Winkd.Server
open Threads

/-- What a delivery has asked and been answered. -/
abbrev Received : Type := History BmacOp BmacOp.Reply

/-! ## The rule -/

namespace Received
variable (C : BmacCrates) (config : BmacConfig) (req : BmacRequest) (past : Received)

/-- The account was found by the e-mail address of the event. -/
def Matched (payload : Json) (id : Id) : Prop :=
  ∃ email member, emailOf C payload = some email ∧
    past.Told (.findUserByEmail email) (.ok (some member)) ∧ member.id = id

/-- The request is genuine, its event is for this account, and was recorded for the first time. -/
structure Receipt (payload : Json) (id : Id) : Prop where
  genuine : Genuine C config req payload
  matched : past.Matched C payload id
  recorded : past.Told (.recordBmacEvent (bmacRow C payload (some id))) (.ok true)

/-- Nothing has been carried out yet. -/
def Unapplied : Prop := ∀ x ∈ past, x.request.isEffect = false

/-- A delivery may carry out the effect of its event, once, for the account that it has a receipt for. -/
def MayApply (r : BmacOp) : Prop :=
  past.Unapplied ∧ ∃ payload id eff, past.Receipt C config req payload id ∧
    effectOf C config payload = some eff ∧ eff.IsStatement id r

/-- The rule for what a delivery asks. -/
def May : BmacOp → Prop
  | .findUserByEmail _ => True
  | .utcNow => True
  | .recordBmacEvent row => ∃ payload user, Genuine C config req payload ∧ row = bmacRow C payload user
  | r => past.MayApply C config req r

end Received

section Deliveries
variable {C : BmacCrates} {config : BmacConfig} {req : BmacRequest} {past : Received} {α β : Type}

theorem may_iff_mayApply {r : BmacOp} (hr : r.isEffect = true) :
    past.May C config req r ↔ past.MayApply C config req r := by
  cases r with
  | findUserByEmail email => cases hr
  | utcNow => cases hr
  | recordBmacEvent row => cases hr
  | _ => exact Iff.rfl

/-- The delivery abides by the rule, and ends with `Q`. -/
abbrev Keeps (C : BmacCrates) (config : BmacConfig) (req : BmacRequest) (past : Received) (p : BmacProg α)
    (Q : Received → α → Prop) : Prop := p.Abides (Received.May C config req) Q (fun _ _ => True) past

theorem Received.Unapplied.seen (h : past.Unapplied) {r : BmacOp} (hr : r.isEffect = false) (x : r.Reply) :
    Received.Unapplied (past.seen r x) := by
  intro y hy
  rcases List.mem_cons.mp hy with rfl | hy
  · exact hr
  · exact h y hy

theorem Received.Receipt.mono {later : Received} {payload : Json} {id : Id}
    (h : past.Receipt C config req payload id) (hsub : past ⊆ later) :
    later.Receipt C config req payload id := by
  obtain ⟨email, member, hemail, htold, hid⟩ := h.matched
  exact ⟨h.genuine, ⟨email, member, hemail, htold.mono hsub, hid⟩, h.recorded.mono hsub⟩

section Effects
variable {payload : Json} {id : Id} (hunapplied : past.Unapplied)
  (hreceipt : past.Receipt C config req payload id)
include hunapplied hreceipt

theorem keeps_statement {eff : Effect} (heff : effectOf C config payload = some eff) {r : BmacOp}
    (hr : eff.IsStatement id r) :
    Keeps C config req past (awaitBmac r >>= fun _ => pure ()) fun _ _ => True :=
  ⟨(may_iff_mayApply hr.isEffect).mpr ⟨hunapplied, payload, id, eff, hreceipt, heff, hr⟩, fun _ => trivial⟩

theorem keeps_purchase {extraId : Text} {quantity : ℤ}
    (heff : effectOf C config payload = purchaseEffect extraId quantity) :
    Keeps C config req past (applyExtraPurchase id extraId quantity) fun _ _ => True := by
  unfold applyExtraPurchase
  unfold purchaseEffect at heff
  split
  · rename_i h
    rw [if_pos h] at heff
    exact keeps_statement hunapplied hreceipt heff rfl
  · rename_i h
    rw [if_neg h] at heff
    split
    · rename_i h
      rw [if_pos h] at heff
      exact keeps_statement hunapplied hreceipt heff rfl
    · rename_i h
      rw [if_neg h] at heff
      split
      · exact trivial
      · rename_i h
        rw [if_neg h] at heff
        exact keeps_statement hunapplied hreceipt heff rfl

theorem keeps_plus (heff : effectOf C config payload = some (.plus (parsePeriodEndUtc C (dataOf C payload)))) :
    Keeps C config req past (do
      let expires ← expiryOf C (dataOf C payload)
      let _ ← awaitBmac (.setSupporterPlus id expires)
      pure ()) fun _ _ => True := by
  unfold expiryOf
  split
  · rename_i periodEnd hend
    rw [hend] at heff
    exact keeps_statement hunapplied hreceipt heff rfl
  · rename_i hend
    rw [hend] at heff
    refine ⟨trivial, fun now => ?_⟩
    exact keeps_statement (hunapplied.seen rfl now) (hreceipt.mono (past.subset_seen _ _)) heff ⟨now, rfl⟩

/-- **The effect of an event is what it says, for the account that it is for.** -/
theorem keeps_sideEffects :
    Keeps C config req past (applyEventSideEffects C config id (eventTypeOf payload) (dataOf C payload))
      fun _ _ => True := by
  unfold applyEventSideEffects
  split
  · rename_i htype
    split
    · rename_i htier
      refine keeps_plus hunapplied hreceipt ?_
      rw [effectOf, if_pos htype, if_pos htier]
    · exact trivial
  · rename_i htype
    split
    · rename_i hcancel
      have heff : effectOf C config payload = some .free := by
        rw [effectOf, if_neg htype, if_pos hcancel]
      exact keeps_statement hunapplied hreceipt heff rfl
    · rename_i hcancel
      split
      · rename_i hpurchase
        refine keeps_purchase hunapplied hreceipt ?_
        rw [effectOf, if_neg htype, if_neg hcancel, if_pos hpurchase]
      · exact trivial

end Effects

theorem keeps_handleEvent {payload : Json} (hgenuine : Genuine C config req payload) :
    Keeps C config req [] (handleEvent C config payload) fun _ _ => True := by
  have hmatch : Keeps C config req [] (matchUser (emailOf C payload)) fun past user =>
      past.Unapplied ∧ ∀ id, user = some id → past.Matched C payload id := by
    unfold matchUser
    split
    · exact ⟨fun x hx => absurd hx List.not_mem_nil, fun id h => by cases h⟩
    · rename_i email hemail
      refine ⟨trivial, fun user => ⟨?_, fun id hid => ?_⟩⟩
      · exact Received.Unapplied.seen (fun x hx => absurd hx List.not_mem_nil) rfl user
      · cases user with
        | error e => cases hid
        | ok user =>
          obtain ⟨member, rfl, hmember⟩ := Option.map_eq_some_iff.mp hid
          exact ⟨email, member, hemail, List.mem_cons_self, hmember⟩
  refine hmatch.bind fun past user _ hpast => ?_
  obtain ⟨hunapplied, hmatched⟩ := hpast
  refine ⟨⟨payload, user, hgenuine, rfl⟩, fun first => ?_⟩
  have hunapplied := hunapplied.seen (r := .recordBmacEvent (bmacRow C payload user)) rfl first
  cases user with
  | none =>
    show Prog.Abides _ _ _ _ (if _ then _ else _)
    split <;> exact trivial
  | some id =>
    cases first with
    | error e => exact trivial
    | ok first =>
      cases first with
      | false => exact trivial
      | true =>
        have hreceipt : Received.Receipt C config req (past.seen (.recordBmacEvent (bmacRow C payload (some id)))
            (.ok true)) payload id := by
          obtain ⟨email, member, hemail, htold, hid⟩ := hmatched id rfl
          exact ⟨hgenuine, ⟨email, member, hemail, htold.mono (past.subset_seen _ _), hid⟩, past.told_seen _ _⟩
        exact (keeps_sideEffects hunapplied hreceipt).bind fun _ _ _ _ => trivial

/-- **Every delivery keeps to the rule.** -/
theorem delivery_keeps (C : BmacCrates) (config : BmacConfig) (req : BmacRequest) :
    Keeps C config req [] (Deliveries.delivery C config req) fun _ _ => True := by
  unfold Deliveries.delivery webhook
  split
  · exact trivial
  · rename_i secret hsecret
    split
    · exact trivial
    · rename_i hgood
      split
      · exact trivial
      · rename_i payload hparse
        split
        · exact trivial
        · rename_i hid
          have hgenuine : Genuine C config req payload :=
            ⟨⟨secret, hsecret, Bool.eq_true_of_not_eq_false hgood⟩, hparse,
              fun h => hid (List.isEmpty_iff.mpr h)⟩
          exact (keeps_handleEvent hgenuine).bind fun _ _ _ _ => trivial

end Deliveries

/-! ## What an account has been given -/

/-- The account that a statement is for. -/
def BmacOp.user? : BmacOp → Option Id
  | .setSupporterPlus u _ => some u
  | .setSupporterFree u => some u
  | .addBuddySlots u _ => some u
  | .unlockGroupChat u => some u
  | .addPurchasedExtra u _ => some u
  | _ => none

/-- What a statement makes of what its account has. -/
def BmacOp.give : BmacOp → Supporter → Supporter
  | .setSupporterPlus _ expiresAt, x =>
      { x with supporterTier := supporterPlus, supporterExpiresAt := some expiresAt }
  | .setSupporterFree _, x => { x with supporterTier := supporterFree, supporterExpiresAt := none }
  | .addBuddySlots _ extra, x => { x with extraBuddySlots := x.extraBuddySlots + extra }
  | .unlockGroupChat _, x => { x with groupChatUnlocked := true }
  | .addPurchasedExtra _ extraId, x => { x with purchasedExtras := (x.purchasedExtras ++ [extraId]).dedup }
  | _, x => x

theorem BmacOp.isEffect_of_user? {r : BmacOp} {u : Id} (h : r.user? = some u) : r.isEffect = true := by
  cases r with
  | findUserByEmail email => cases h
  | recordBmacEvent row => cases h
  | utcNow => cases h
  | _ => rfl

theorem Effect.IsStatement.user {u v : Id} {eff : Effect} {r : BmacOp} (h : eff.IsStatement u r)
    (hv : r.user? = some v) : u = v := by
  cases eff with
  | plus periodEnd =>
    cases periodEnd with
    | none =>
      obtain ⟨now, rfl⟩ := h
      exact Option.some_inj.mp hv
    | some periodEnd =>
      cases h
      exact Option.some_inj.mp hv
  | _ =>
    cases h
    exact Option.some_inj.mp hv

abbrev DeliveryEntry : Type := Entry BmacOp BmacOp.Reply Billing

/-- The statement has given something to account `u`. -/
def gave (u : Id) (e : DeliveryEntry) : Bool :=
  decide (e.request.user? = some u) && !e.request.isError e.reply

/-- The statements that have given something to account `u`. -/
def given (u : Id) (l : List DeliveryEntry) : List BmacOp := (l.filter (gave u)).map fun e => e.request

theorem mem_given {u : Id} {l : List DeliveryEntry} {r : BmacOp} :
    r ∈ given u l ↔ ∃ e ∈ l, gave u e = true ∧ e.request = r := by
  simp only [given, List.mem_map, List.mem_filter, and_assoc]

theorem user_of_mem_given {u : Id} {l : List DeliveryEntry} {r : BmacOp} (h : r ∈ given u l) : r.user? = some u := by
  obtain ⟨e, -, hgave, rfl⟩ := mem_given.mp h
  rw [gave, Bool.and_eq_true, decide_eq_true_eq] at hgave
  exact hgave.1

theorem perform_give {r : BmacOp} {u : Id} (h : r.user? = some u) (b : Billing) :
    b.perform r = b.updateSupporter u r.give := by
  cases r with
  | findUserByEmail email => cases h
  | recordBmacEvent row => cases h
  | utcNow => cases h
  | _ =>
    cases h
    rfl

theorem perform_supporters (r : BmacOp) (b : Billing) (u : Id) :
    (b.perform r).supporters u = if r.user? = some u then r.give (b.supporters u) else b.supporters u := by
  cases hr : r.user? with
  | none =>
    rw [if_neg (by rintro ⟨⟩)]
    cases r with
    | findUserByEmail email => rfl
    | recordBmacEvent row =>
      show (b.recordBmacEvent row).2.supporters u = b.supporters u
      unfold Billing.recordBmacEvent
      split <;> rfl
    | utcNow => rfl
    | _ => cases hr
  | some v =>
    rw [perform_give hr, Billing.updateSupporter]
    by_cases hv : v = u
    · rw [if_pos (congrArg some hv), hv]
      exact Function.update_self ..
    · rw [if_neg fun h => hv (Option.some_inj.mp h)]
      exact Function.update_of_ne (Ne.symm hv) ..

/-- **A statement that does not fail gives its account what it is for**, and no other account anything. -/
theorem bmacServe_supporters (i : ℕ) (r : BmacOp) (b : Billing) (u : Id) :
    (bmacServe r b).2.supporters u =
      if gave u ⟨i, b, r, (bmacServe r b).1⟩ then r.give (b.supporters u) else b.supporters u := by
  rw [gave, isError_serve]
  cases h : b.error r with
  | none =>
    rw [serve_performed h, perform_supporters]
    simp only [Option.isSome_none, Bool.not_false, Bool.and_true, decide_eq_true_eq]
  | some e =>
    rw [serve_failed h]
    simp only [Option.isSome_some, Bool.not_true, Bool.and_false, Bool.false_eq_true, if_false]

/-! ### The account -/

def BmacOp.slots : BmacOp → ℤ
  | .addBuddySlots _ extra => extra
  | _ => 0

theorem foldr_slots (l : List BmacOp) (x : Supporter) :
    (l.foldr BmacOp.give x).extraBuddySlots = x.extraBuddySlots + (l.map BmacOp.slots).sum := by
  induction l with
  | nil => exact (add_zero _).symm
  | cons r l ih =>
    have hgive : (r.give (l.foldr BmacOp.give x)).extraBuddySlots =
        (l.foldr BmacOp.give x).extraBuddySlots + r.slots := by
      cases r with
      | addBuddySlots u extra => rfl
      | _ => exact (add_zero _).symm
    rw [List.foldr_cons, hgive, ih, List.map_cons, List.sum_cons]
    omega

theorem foldr_unlocked (l : List BmacOp) (x : Supporter) :
    (l.foldr BmacOp.give x).groupChatUnlocked = true ↔
      x.groupChatUnlocked = true ∨ ∃ u, .unlockGroupChat u ∈ l := by
  induction l with
  | nil => simp
  | cons r l ih =>
    rw [List.foldr_cons]
    cases r with
    | unlockGroupChat u => simp [BmacOp.give]
    | _ => simpa [BmacOp.give] using ih

theorem foldr_extras (l : List BmacOp) (x : Supporter) (extraId : Text) :
    extraId ∈ (l.foldr BmacOp.give x).purchasedExtras ↔
      extraId ∈ x.purchasedExtras ∨ ∃ u, .addPurchasedExtra u extraId ∈ l := by
  induction l with
  | nil => simp
  | cons r l ih =>
    rw [List.foldr_cons]
    cases r with
    | addPurchasedExtra u bought =>
      simp only [BmacOp.give, List.mem_dedup, List.mem_append, ih, List.mem_cons, BmacOp.addPurchasedExtra.injEq]
      grind
    | _ => simpa [BmacOp.give] using ih

/-- The tier of an account, and its end. -/
def Supporter.membership (x : Supporter) : Text × Option ℤ := (x.supporterTier, x.supporterExpiresAt)

theorem foldr_membership (l : List BmacOp) (x : Supporter) :
    (l.foldr BmacOp.give x).membership = x.membership ∨
      (l.foldr BmacOp.give x).membership = (supporterFree, none) ∨
      ∃ u expiresAt, .setSupporterPlus u expiresAt ∈ l ∧
        (l.foldr BmacOp.give x).membership = (supporterPlus, some expiresAt) := by
  induction l with
  | nil => exact .inl rfl
  | cons r l ih =>
    rw [List.foldr_cons]
    cases r with
    | setSupporterPlus u expiresAt => exact .inr (.inr ⟨u, expiresAt, List.mem_cons_self, rfl⟩)
    | setSupporterFree u => exact .inr (.inl rfl)
    | _ =>
      refine ih.imp id fun h => h.imp id ?_
      rintro ⟨u, expiresAt, hmem, heq⟩
      exact ⟨u, expiresAt, List.mem_cons_of_mem _ hmem, heq⟩

/-! ## Runs -/

namespace Deliveries
variable {C : BmacCrates} {config : BmacConfig} {reqs : ℕ → BmacRequest} {b : Billing} {s : Deliveries}

/-- Delivery `i` is of the request `reqs i`. -/
def Serves (reqs : ℕ → BmacRequest) (s : Deliveries) : DeliveryEvent → Prop
  | .deliver req => req = reqs s.tasks.length
  | _ => True

/-- The states that the webhook can come to from `b`, whatever is posted to it. -/
def ReachedServing (C : BmacCrates) (config : BmacConfig) (reqs : ℕ → BmacRequest) (b : Billing)
    (s : Deliveries) : Prop := Transitions.Reaches (next C config) (Serves reqs) (Pool.idle b) s

theorem next_act (s : Deliveries) (e : DeliveryEvent) : ∃ a, next C config s e = Pool.next bmacServe s a := by
  cases e with
  | deliver req => exact ⟨.start (delivery C config req), rfl⟩
  | statement i => exact ⟨.answer i, rfl⟩
  | failing f => exact ⟨.outside { s.state with failing := f }, rfl⟩
  | clock now => exact ⟨.outside { s.state with db := { s.state.db with now := now } }, rfl⟩
  | account r => exact ⟨.outside { s.state with db := (answer r s.state.db).2 }, rfl⟩

theorem ReachedServing.abiding (hs : ReachedServing C config reqs b s) :
    Pool.Abiding (fun i past => Received.May C config (reqs i) past) (fun _ _ _ => True) (fun _ _ _ => True)
      s := by
  refine hs.invariant (Pool.Abiding.idle b) fun s e hs he => ?_
  have hnext : ∀ a, (∀ p, a = .start p → p = delivery C config (reqs s.tasks.length)) →
      Pool.Abiding (fun i past => Received.May C config (reqs i) past) (fun _ _ _ => True) (fun _ _ _ => True)
        (Pool.next bmacServe s a) := by
    intro a ha
    refine hs.next fun p hp => ?_
    rw [ha p hp]
    exact delivery_keeps C config _
  cases e with
  | deliver req =>
    obtain rfl : req = reqs s.tasks.length := he
    refine hnext (.start _) ?_
    rintro p ⟨⟩
    rfl
  | statement i => exact hnext (.answer i) fun _ hp => by cases hp
  | failing f => exact hnext (.outside _) fun _ hp => by cases hp
  | clock now => exact hnext (.outside _) fun _ hp => by cases hp
  | account r => exact hnext (.outside _) fun _ hp => by cases hp

/-- Each statement was allowed when it was asked, in a state that the webhook has been in. -/
theorem ReachedServing.moment (hs : ReachedServing C config reqs b s) {e : DeliveryEntry}
    {earlier : List DeliveryEntry} (he : e :: earlier <:+ s.trace) :
    ∃ t : Deliveries, ReachedServing C config reqs b t ∧ t.trace = earlier ∧ t.state = e.before ∧
      Received.May C config (reqs e.task) (Pool.history e.task earlier) e.request :=
  Pool.allowed_moment next_act (fun _ ht => ReachedServing.abiding ht) hs rfl he

theorem ReachedServing.answered (hs : ReachedServing C config reqs b s) : Pool.Answered bmacServe s.trace :=
  Pool.answered_trace next_act hs rfl

/-- What every statement that is carried out keeps always holds, if it is about the rows and the trace. -/
theorem ReachedServing.measured {γ : Type} {f : Billing → γ} {g : List DeliveryEntry → γ}
    (hs : ReachedServing C config reqs b s)
    (hanswer : ∀ i r b l, f b = g l → f (bmacServe r b).2 = g (⟨i, b, r, (bmacServe r b).1⟩ :: l))
    (hother : ∀ (b : Billing) db failing, f { b with db := db, failing := failing } = f b)
    (hinit : f b = g []) : f s.state = g s.trace := by
  refine Pool.measured (h := bmacServe) hanswer (fun s e _ => ?_) hs hinit
  cases e with
  | deliver req => exact .inr ⟨rfl, rfl⟩
  | statement i => exact .inl ⟨i, rfl⟩
  | failing f => exact .inr ⟨rfl, hother s.state s.state.db f⟩
  | clock now => exact .inr ⟨rfl, hother s.state _ s.state.failing⟩
  | account r => exact .inr ⟨rfl, hother s.state _ s.state.failing⟩

/-- **What an account has is what it had, and what it has been given.** -/
theorem ReachedServing.balance (hs : ReachedServing C config reqs b s) (u : Id) :
    s.state.supporters u = (given u s.trace).foldr BmacOp.give (b.supporters u) := by
  refine hs.measured (f := fun b' => b'.supporters u)
    (g := fun l => (given u l).foldr BmacOp.give (b.supporters u)) (fun i r b' l hl => ?_)
    (fun _ _ _ => rfl) rfl
  rw [bmacServe_supporters i, given, List.filter_cons]
  split
  · exact congrArg r.give hl
  · exact hl

/-! ### Events that have been recorded -/

/-- The statement has recorded an event with this id for the first time. -/
def Recorded (e : DeliveryEntry) (externalId : Text) : Prop :=
  ∃ row, e.exchange = ⟨.recordBmacEvent row, .ok true⟩ ∧ row.externalId = externalId

theorem told_true {row : BmacEvent} {b : Billing} (h : (bmacServe (.recordBmacEvent row) b).1 = .ok true) :
    b.Inserts row := by
  have hrecorded := serve_recorded row b
  rw [h] at hrecorded
  exact of_decide_eq_true hrecorded.symm

theorem recorded_inserts {e : DeliveryEntry} (hreply : e.reply = (bmacServe e.request e.before).1)
    {externalId : Text} (h : Recorded e externalId) :
    ∃ row, e.request = .recordBmacEvent row ∧ e.before.Inserts row ∧ row.externalId = externalId := by
  obtain ⟨i, b, r, x⟩ := e
  obtain ⟨row, hexchange, hid⟩ := h
  cases hexchange
  exact ⟨row, rfl, told_true hreply.symm, hid⟩

/-- An event that has been recorded is in the table. -/
theorem ReachedServing.listed (hs : ReachedServing C config reqs b s) :
    ∀ e ∈ s.trace, ∀ externalId, Recorded e externalId → s.state.isRecorded externalId = true := by
  intro e he externalId h
  obtain ⟨row, hrequest, hinserts, rfl⟩ := recorded_inserts (hs.answered e he) h
  refine Pool.remains (h := bmacServe) (P := fun b => b.isRecorded row.externalId = true)
    (fun r b hb => ?_) (fun s e _ => ?_) hs rfl he ?_
  · obtain ⟨row', hrow', hid⟩ := List.any_eq_true.mp hb
    exact List.any_eq_true.mpr ⟨row', bmacEvents_kept r hrow', hid⟩
  · cases e with
    | statement i => exact .inl ⟨i, rfl⟩
    | _ => exact .inr ⟨rfl, id⟩
  · rw [hrequest]
    rcases serve_bmacEvents (.recordBmacEvent row) e.before with ⟨-, hnot⟩ | ⟨row', hreq, -, hrows⟩
    · exact absurd hinserts (hnot row rfl)
    · cases hreq
      refine List.any_eq_true.mpr ⟨row, ?_, decide_eq_true rfl⟩
      rw [hrows]
      exact List.mem_append_right _ (List.mem_singleton_self row)

/-- **No event is recorded for the first time twice.** -/
theorem ReachedServing.recorded_once (hs : ReachedServing C config reqs b s) :
    s.trace.Pairwise fun e e' => ∀ externalId, Recorded e externalId → ¬ Recorded e' externalId := by
  refine Pool.pairwise_of_suffix fun e earlier hsuffix e' he' externalId h h' => ?_
  obtain ⟨t, ht, rfl, hstate, -⟩ := hs.moment hsuffix
  have hreply := hs.answered e (hsuffix.subset List.mem_cons_self)
  obtain ⟨row, -, hinserts, rfl⟩ := recorded_inserts hreply h
  have hlisted := ht.listed e' he' _ h'
  rw [hstate, hinserts.2] at hlisted
  cases hlisted

theorem ReachedServing.recorded_apart (hs : ReachedServing C config reqs b s) {f f' : DeliveryEntry}
    (hf : f ∈ s.trace) (hf' : f' ∈ s.trace) (hne : f ≠ f') {externalId : Text} (h : Recorded f externalId) :
    ¬ Recorded f' externalId := by
  have hsymm : Std.Symm fun e e' => ∀ externalId, Recorded e externalId → ¬ Recorded e' externalId :=
    ⟨fun _ _ h externalId he' he => h externalId he he'⟩
  exact hs.recorded_once.forall hf hf' hne externalId h

/-- What a receipt tells was recorded for its event. -/
theorem recorded_of_receipt {l : List DeliveryEntry} {i : ℕ} {payload : Json} {u : Id}
    (h : Received.Receipt C config (reqs i) (Pool.history i l) payload u) :
    ∃ e ∈ l, e.task = i ∧ Recorded e (externalIdOf C payload) := by
  obtain ⟨e, he, htask, hexchange⟩ := Pool.mem_history.mp h.recorded
  exact ⟨e, he, htask, _, hexchange, rfl⟩

/-! ### Every account has what was paid for -/

/-- What the accounts have been given was paid for. -/
structure PaidFor (C : BmacCrates) (config : BmacConfig) (reqs : ℕ → BmacRequest) (b : Billing)
    (s : Deliveries) : Prop where
  /-- Every statement for an account has a receipt. -/
  receipts : ∀ e earlier, e :: earlier <:+ s.trace → ∀ u, e.request.user? = some u →
    ∃ payload eff, Received.Receipt C config (reqs e.task) (Pool.history e.task earlier) payload u ∧
      effectOf C config payload = some eff ∧ eff.IsStatement u e.request
  /-- No two statements have the same event. -/
  once : s.trace.Pairwise fun e e' => e.request.isEffect = true → e'.request.isEffect = true →
    ∀ payload payload', Genuine C config (reqs e.task) payload → Genuine C config (reqs e'.task) payload' →
      externalIdOf C payload ≠ externalIdOf C payload'
  slots : ∀ u, (s.state.supporters u).extraBuddySlots =
    (b.supporters u).extraBuddySlots + ((given u s.trace).map BmacOp.slots).sum
  unlocked : ∀ u, (s.state.supporters u).groupChatUnlocked = true ↔
    (b.supporters u).groupChatUnlocked = true ∨ .unlockGroupChat u ∈ given u s.trace
  extras : ∀ u extraId, extraId ∈ (s.state.supporters u).purchasedExtras ↔
    extraId ∈ (b.supporters u).purchasedExtras ∨ .addPurchasedExtra u extraId ∈ given u s.trace
  membership : ∀ u, (s.state.supporters u).membership = (b.supporters u).membership ∨
    (s.state.supporters u).membership = (supporterFree, none) ∨
    ∃ expiresAt, .setSupporterPlus u expiresAt ∈ given u s.trace ∧
      (s.state.supporters u).membership = (supporterPlus, some expiresAt)

theorem ReachedServing.receipt (hs : ReachedServing C config reqs b s) {e : DeliveryEntry}
    {earlier : List DeliveryEntry} (he : e :: earlier <:+ s.trace) (heffect : e.request.isEffect = true) :
    Received.Unapplied (Pool.history e.task earlier) ∧ ∃ payload u eff,
      Received.Receipt C config (reqs e.task) (Pool.history e.task earlier) payload u ∧
      effectOf C config payload = some eff ∧ eff.IsStatement u e.request := by
  obtain ⟨-, -, -, -, hmay⟩ := hs.moment he
  exact (may_iff_mayApply heffect).mp hmay

/-- No two statements are of the same delivery, or on the same event. -/
theorem ReachedServing.apart (hs : ReachedServing C config reqs b s) {e : DeliveryEntry}
    {earlier : List DeliveryEntry} (he : e :: earlier <:+ s.trace) {e' : DeliveryEntry} (he' : e' ∈ earlier)
    (heffect : e.request.isEffect = true) (heffect' : e'.request.isEffect = true) {payload payload' : Json}
    (hgenuine : Genuine C config (reqs e.task) payload) (hgenuine' : Genuine C config (reqs e'.task) payload') :
    externalIdOf C payload ≠ externalIdOf C payload' := by
  intro hid
  obtain ⟨hunapplied, p, u, -, hreceipt, -⟩ := hs.receipt he heffect
  have hother : e'.task ≠ e.task := by
    intro htask
    have hpast : e'.exchange ∈ Pool.history e.task earlier := Pool.mem_history.mpr ⟨e', he', htask, rfl⟩
    cases heffect'.symm.trans (hunapplied _ hpast)
  obtain ⟨earlier', hsuffix'⟩ := Pool.exists_suffix he'
  have hall : e' :: earlier' <:+ s.trace := hsuffix'.trans ((List.suffix_cons e earlier).trans he)
  obtain ⟨-, p', u', -, hreceipt', -⟩ := hs.receipt hall heffect'
  -- each of the two deliveries has recorded its event
  obtain ⟨f, hf, htask, hrecorded⟩ := recorded_of_receipt hreceipt
  obtain ⟨f', hf', htask', hrecorded'⟩ := recorded_of_receipt hreceipt'
  obtain rfl : payload = p := Option.some_inj.mp (hgenuine.parsed.symm.trans hreceipt.genuine.parsed)
  obtain rfl : payload' = p' := Option.some_inj.mp (hgenuine'.parsed.symm.trans hreceipt'.genuine.parsed)
  have hne : f ≠ f' := by
    rintro rfl
    exact hother (htask'.symm.trans htask)
  have hmem : f ∈ s.trace := he.subset (List.mem_cons_of_mem _ hf)
  have hmem' : f' ∈ s.trace := hall.subset (List.mem_cons_of_mem _ hf')
  exact hs.recorded_apart hmem hmem' hne hrecorded (hid ▸ hrecorded')

/-- **Every account has what was paid for**, whatever is posted and whenever the database fails. -/
theorem paid_for (hs : ReachedServing C config reqs b s) : PaidFor C config reqs b s where
  receipts e earlier he u hu := by
    obtain ⟨-, payload, v, eff, hreceipt, heff, hstatement⟩ := hs.receipt he (BmacOp.isEffect_of_user? hu)
    obtain rfl := hstatement.user hu
    exact ⟨payload, eff, hreceipt, heff, hstatement⟩
  once := Pool.pairwise_of_suffix fun _ _ he _ he' heffect heffect' _ _ hgenuine hgenuine' =>
    hs.apart he he' heffect heffect' hgenuine hgenuine'
  slots u := by
    rw [hs.balance u, foldr_slots]
  unlocked u := by
    rw [hs.balance u, foldr_unlocked]
    refine or_congr Iff.rfl ⟨?_, fun h => ⟨u, h⟩⟩
    rintro ⟨v, hv⟩
    obtain rfl : v = u := Option.some_inj.mp (user_of_mem_given hv)
    exact hv
  extras u extraId := by
    rw [hs.balance u, foldr_extras]
    refine or_congr Iff.rfl ⟨?_, fun h => ⟨u, h⟩⟩
    rintro ⟨v, hv⟩
    obtain rfl : v = u := Option.some_inj.mp (user_of_mem_given hv)
    exact hv
  membership u := by
    rw [hs.balance u]
    refine (foldr_membership _ _).imp id fun h => h.imp id ?_
    rintro ⟨v, expiresAt, hv, heq⟩
    obtain rfl : v = u := Option.some_inj.mp (user_of_mem_given hv)
    exact ⟨expiresAt, hv, heq⟩

end Deliveries

namespace Deliveries.Sample

/-- The event of Ada's purchase is posted twice at once. -/
def postedTwice : List DeliveryEvent :=
  [.deliver unlock.request, .deliver unlock.request, .statement 0, .statement 1, .statement 1, .statement 0,
    .statement 0, .statement 1]

theorem paid_for_postedTwice :
    PaidFor crates config (fun _ => unlock.request) account (after postedTwice) := by
  have hadmits : Transitions.Admits (next crates config) (Serves fun _ => unlock.request) (Pool.idle account)
      postedTwice :=
    ⟨rfl, rfl, trivial, trivial, trivial, trivial, trivial, trivial, trivial⟩
  exact paid_for hadmits.reaches

end Deliveries.Sample
end Winkd.Server
