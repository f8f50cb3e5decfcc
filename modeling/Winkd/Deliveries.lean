import Winkd.Bmac
import Winkd.Service

/-!
# Deliveries of events

An event is delivered again until it has been answered with success; each delivery is a
request of its own, and the statements of several interleave.  The database may fail at any
of them, and the accounts change meanwhile.

What an event is for is its `Effect`: a tier, slots, an unlock or an extra.  A delivery
carries it out at most once, after its row has been inserted (`delivery_yields`).
-/

namespace Winkd.Server

/-! ## What an event is for -/

inductive Effect where
  /-- The plus tier, up to the end of the period if there is one. -/
  | plus (periodEnd : Option ℤ)
  | free
  | slots (extra : ℤ)
  | groupChat
  | extra (extraId : Text)
  deriving DecidableEq

/-- The statements on a user's row that carry an effect out. -/
def Effect.IsStatement (u : Id) : Effect → BmacOp → Prop
  | .plus (some periodEnd), r => r = .setSupporterPlus u periodEnd
  | .plus none, r => ∃ now : ℕ, r = .setSupporterPlus u (now + defaultPeriod)
  | .free, r => r = .setSupporterFree u
  | .slots n, r => r = .addBuddySlots u n
  | .groupChat, r => r = .unlockGroupChat u
  | .extra extraId, r => r = .addPurchasedExtra u extraId

def purchaseEffect (extraId : Text) (quantity : ℤ) : Option Effect :=
  if extraId = "buddy-slots-10".toList then some (.slots (asI32 (buddySlotPackSize * quantity)))
  else if extraId = "group-unlock".toList then some .groupChat
  else if extraId.isEmpty then none
  else some (.extra extraId)

/-- The statement changes what a user has bought. -/
def BmacOp.isEffect : BmacOp → Bool
  | .findUserByEmail _ => false
  | .recordBmacEvent _ => false
  | .utcNow => false
  | _ => true

theorem Effect.IsStatement.isEffect {u : Id} {eff : Effect} {r : BmacOp} (h : eff.IsStatement u r) :
    r.isEffect = true := by
  cases eff with
  | plus periodEnd =>
    cases periodEnd with
    | none =>
      obtain ⟨now, rfl⟩ := h
      rfl
    | some periodEnd =>
      cases h
      rfl
  | _ =>
    cases h
    rfl

section Events
variable (C : BmacCrates) (config : BmacConfig)

local instance lawfulText : LawfulBEq Text := inferInstance

def effectOf (payload : Json) : Option Effect :=
  if eventTypeOf payload ∈ renewalTypes then
    if isPlusMembershipTier (tierNameOf (dataOf C payload)) config.bmacPlusTierName then
      some (.plus (parsePeriodEndUtc C (dataOf C payload)))
    else none
  else if eventTypeOf payload ∈ cancellationTypes then some .free
  else if eventTypeOf payload ∈ purchaseTypes then
    purchaseEffect (extraIdOf (dataOf C payload)) (quantityOf (dataOf C payload))
  else none

/-- A correctly signed request with an event that has an identifier. -/
structure Genuine (req : BmacRequest) (payload : Json) : Prop where
  signed : ∃ secret, config.bmacWebhookSecret = some secret ∧
    verifySignature C secret.asBytes req.body (req.signature.getD []) = true
  parsed : C.parseBody req.body = some payload
  identified : externalIdOf C payload ≠ []

end Events

/-! ## Runs -/

/-- The tables, with the deliveries under way; each ends with its request and the
response. -/
abbrev Deliveries : Type :=
  Threads.Pool BmacOp BmacOp.Reply Empty (BmacRequest × BmacResponse) Billing

/-- What happens at the webhook. -/
inductive DeliveryEvent where
  | deliver (req : BmacRequest)
  /-- The statement a delivery has come to is carried out, or fails. -/
  | statement (delivery : ℕ)
  /-- The database fails from now on, or no longer. -/
  | failing (failing : Bool)
  | clock (now : ℕ)
  /-- An account endpoint carries out a statement. -/
  | account (r : Op)

namespace Deliveries
variable (C : BmacCrates) (config : BmacConfig)

def delivery (req : BmacRequest) : BmacProg (BmacRequest × BmacResponse) := do
  let response ← webhook C config req
  pure (req, response)

def next (s : Deliveries) : DeliveryEvent → Deliveries
  | .deliver req => Threads.Pool.next bmacServe s (.start (delivery C config req))
  | .statement i => Threads.Pool.next bmacServe s (.answer i)
  | .failing failing => Threads.Pool.next bmacServe s (.outside { s.state with failing := failing })
  | .clock now =>
      Threads.Pool.next bmacServe s (.outside { s.state with db := { s.state.db with now := now } })
  | .account r =>
      Threads.Pool.next bmacServe s (.outside { s.state with db := (answer r s.state.db).2 })

/-- The request and the response of a delivery that has been answered. -/
def response (s : Deliveries) (i : ℕ) : Option (BmacRequest × BmacResponse) :=
  match s.tasks[i]? with
  | some (.pure a) => some a
  | _ => none

/-- An event is not delivered again once it has been answered with success. -/
def MayHappen (s : Deliveries) : DeliveryEvent → Prop
  | .deliver req => ∀ i < s.tasks.length, ∀ a ∈ s.response i, a.1.body = req.body → a.2.status ≠ 200
  | .clock now => s.state.db.now ≤ now
  | _ => True

instance (s : Deliveries) : ∀ e, Decidable (s.MayHappen e)
  | .deliver req => inferInstanceAs (Decidable (∀ i < s.tasks.length, ∀ a ∈ s.response i,
      a.1.body = req.body → a.2.status ≠ 200))
  | .clock now => inferInstanceAs (Decidable (s.state.db.now ≤ now))
  | .statement _ => isTrue trivial
  | .failing _ => isTrue trivial
  | .account _ => isTrue trivial

/-- The states that the webhook can come to from `b`. -/
def ReachedFrom (b : Billing) (s : Deliveries) : Prop :=
  Transitions.Reaches (next C config) MayHappen (Threads.Pool.idle b) s

variable {C config}

theorem response_eq {s : Deliveries} {i : ℕ} {a : BmacRequest × BmacResponse} :
    s.response i = some a ↔ s.tasks[i]? = some (.pure a) := by
  unfold response
  constructor
  · intro h
    split at h
    · cases h
      assumption
    · cases h
  · intro h
    rw [h]

/-- A delivery that has come to `r` has it answered. -/
abbrev answered (s : Deliveries) (i : ℕ) (r : BmacOp)
    (k : r.Reply → BmacProg (BmacRequest × BmacResponse)) : Deliveries :=
  Threads.Pool.answered bmacServe s i r k

end Deliveries

/-! ## What a delivery has done -/

structure Handled where
  /-- Some statement has failed. -/
  failed : Bool
  /-- The address that was looked up. -/
  asked : Option Text
  user : Option Id
  /-- The row, and whether it was inserted. -/
  row : Option (BmacEvent × Bool)
  /-- The statement that carries the effect out has been tried. -/
  applied : Bool

/-- The reply is an error. -/
def BmacOp.isError : (r : BmacOp) → r.Reply → Bool
  | .findUserByEmail _ => fun x => x.toOption.isNone
  | .recordBmacEvent _ => fun x => x.toOption.isNone
  | .setSupporterPlus _ _ => fun x => x.toOption.isNone
  | .setSupporterFree _ => fun x => x.toOption.isNone
  | .addBuddySlots _ _ => fun x => x.toOption.isNone
  | .unlockGroupChat _ => fun x => x.toOption.isNone
  | .addPurchasedExtra _ _ => fun x => x.toOption.isNone
  | .utcNow => fun _ => false

namespace Handled

def none : Handled := ⟨false, .none, .none, .none, false⟩

/-- What a delivery may do next. -/
def may (C : BmacCrates) (config : BmacConfig) (d : Handled) : BmacOp → Prop
  | .findUserByEmail _ => d.asked = .none ∧ d.row = .none
  | .recordBmacEvent row => d.row = .none ∧ row = bmacRow C row.rawPayload d.user ∧
      row.supporterEmail = d.asked
  | .utcNow => d.applied = false
  | r => d.applied = false ∧ ∃ row u eff, d.row = some (row, true) ∧ d.user = some u ∧
      effectOf C config row.rawPayload = some eff ∧ eff.IsStatement u r

/-- What a reply makes of it. -/
def seen (d : Handled) (r : BmacOp) (x : r.Reply) : Handled :=
  let d := { d with failed := d.failed || r.isError x }
  match r, x with
  | .findUserByEmail email, user =>
      { d with asked := some email, user := (user.toOption.getD .none).map fun m => m.id }
  | .recordBmacEvent row, first => { d with row := some (row, first.toOption.getD false) }
  | .utcNow, _ => d
  | _, _ => { d with applied := true }

/-- A delivery of an event has ended as it should. -/
structure Settled (C : BmacCrates) (config : BmacConfig) (d : Handled) (payload : Json)
    (response : BmacResponse) : Prop where
  row : ∃ first, d.row = some (bmacRow C payload d.user, first) ∧
    response = if first then acknowledged else replayed
  asked : d.asked = emailOf C payload
  applied : ∀ row u, d.row = some (row, true) → d.user = some u → (effectOf C config payload).isSome →
    d.applied = true

/-- The delivery goes along, from `d`, to a point where `Q` holds. -/
abbrev Goes {α : Type} (C : BmacCrates) (config : BmacConfig) (d : Handled) (Q : Handled → α → Prop)
    (p : BmacProg α) : Prop := p.Along (may C config) seen Q d

variable {C : BmacCrates} {config : BmacConfig}

/-- What has been looked up and recorded stays so, and the effect has been tried if there is
one. -/
structure Tried (effect : Option Effect) (d d' : Handled) : Prop where
  row : d'.row = d.row
  asked : d'.asked = d.asked
  user : d'.user = d.user
  applied : effect.isSome → d'.applied = true

/-- A statement that carries the effect out, tried once. -/
theorem goes_statement {d : Handled} {row : BmacEvent} {u : Id} {eff : Effect}
    (hrow : d.row = some (row, true)) (huser : d.user = some u) (happlied : d.applied = false)
    (heff : effectOf C config row.rawPayload = some eff) {r : BmacOp} (hr : eff.IsStatement u r) :
    Goes C config d (fun d' _ => Tried (some eff) d d') (awaitBmac r) := by
  have hex : ∃ row u eff, d.row = some (row, true) ∧ d.user = some u ∧
      effectOf C config row.rawPayload = some eff ∧ eff.IsStatement u r :=
    ⟨row, u, eff, hrow, huser, heff, hr⟩
  have heffect := hr.isEffect
  cases r with
  | findUserByEmail email => cases heffect
  | recordBmacEvent row => cases heffect
  | utcNow => cases heffect
  | _ => exact ⟨⟨happlied, hex⟩, fun _ => ⟨rfl, rfl, rfl, fun _ => rfl⟩⟩

theorem goes_bind {α β : Type} {d : Handled} {M : Handled → α → Prop} {Q : Handled → β → Prop}
    {p : BmacProg α} {f : α → BmacProg β} (hp : Goes C config d M p)
    (hf : ∀ d' a, M d' a → Goes C config d' Q (f a)) : Goes C config d Q (p >>= f) :=
  (Prog.along_bind p f).mpr (hp.mono (fun _ _ h => h) hf)

theorem goes_purchase {d : Handled} {row : BmacEvent} {u : Id} {extraId : Text} {quantity : ℤ}
    (hrow : d.row = some (row, true)) (huser : d.user = some u) (happlied : d.applied = false)
    (heff : effectOf C config row.rawPayload = purchaseEffect extraId quantity) :
    Goes C config d (fun d' _ => Tried (purchaseEffect extraId quantity) d d')
      (applyExtraPurchase u extraId quantity) := by
  unfold applyExtraPurchase
  unfold purchaseEffect at heff ⊢
  split
  · rename_i h
    rw [if_pos h] at heff
    exact goes_bind (goes_statement hrow huser happlied heff rfl) fun _ _ h => h
  · rename_i h
    rw [if_neg h] at heff
    split
    · rename_i h
      rw [if_pos h] at heff
      exact goes_bind (goes_statement hrow huser happlied heff rfl) fun _ _ h => h
    · rename_i h
      rw [if_neg h] at heff
      split
      · exact ⟨rfl, rfl, rfl, fun h => nomatch h⟩
      · rename_i h
        rw [if_neg h] at heff
        exact goes_bind (goes_statement hrow huser happlied heff rfl) fun _ _ h => h

theorem goes_plus {d : Handled} {row : BmacEvent} {u : Id} {data : Json}
    (hrow : d.row = some (row, true)) (huser : d.user = some u) (happlied : d.applied = false)
    (heff : effectOf C config row.rawPayload = some (.plus (parsePeriodEndUtc C data))) :
    Goes C config d (fun d' _ => Tried (some (.plus (parsePeriodEndUtc C data))) d d') (do
      let expires ← expiryOf C data
      let _ ← awaitBmac (.setSupporterPlus u expires)
      pure ()) := by
  unfold expiryOf
  cases hend : parsePeriodEndUtc C data with
  | some periodEnd =>
    rw [hend] at heff
    exact goes_bind (goes_statement hrow huser happlied heff rfl) fun _ _ h => h
  | none =>
    rw [hend] at heff
    refine ⟨happlied, fun now => ?_⟩
    have hseen : d.seen .utcNow now = d := by simp [seen, BmacOp.isError]
    rw [hseen]
    exact goes_bind (goes_statement hrow huser happlied heff ⟨now, rfl⟩) fun _ _ h => h

/-- **The effect of an event is tried once.** -/
theorem goes_sideEffects {d : Handled} {row : BmacEvent} {u : Id}
    (hrow : d.row = some (row, true)) (huser : d.user = some u) (happlied : d.applied = false) :
    Goes C config d (fun d' _ => Tried (effectOf C config row.rawPayload) d d')
      (applyEventSideEffects C config u (eventTypeOf row.rawPayload) (dataOf C row.rawPayload)) := by
  have hnone : effectOf C config row.rawPayload = .none →
      Tried (effectOf C config row.rawPayload) d d :=
    fun h => ⟨rfl, rfl, rfl, fun hs => by rw [h] at hs; cases hs⟩
  unfold applyEventSideEffects
  split
  · rename_i htype
    split
    · rename_i htier
      have heff : effectOf C config row.rawPayload =
          some (.plus (parsePeriodEndUtc C (dataOf C row.rawPayload))) := by
        rw [effectOf, if_pos htype, if_pos htier]
      rw [heff]
      exact goes_plus hrow huser happlied heff
    · rename_i htier
      exact hnone (by rw [effectOf, if_pos htype, if_neg htier])
  · rename_i htype
    split
    · rename_i hcancel
      have heff : effectOf C config row.rawPayload = some .free := by
        rw [effectOf, if_neg htype, if_pos hcancel]
      rw [heff]
      exact goes_bind (goes_statement hrow huser happlied heff rfl) fun _ _ h => h
    · rename_i hcancel
      split
      · rename_i hpurchase
        have heff : effectOf C config row.rawPayload =
            purchaseEffect (extraIdOf (dataOf C row.rawPayload))
              (quantityOf (dataOf C row.rawPayload)) := by
          rw [effectOf, if_neg htype, if_neg hcancel, if_pos hpurchase]
        rw [heff]
        exact goes_purchase hrow huser happlied heff
      · rename_i hpurchase
        exact hnone (by rw [effectOf, if_neg htype, if_neg hcancel, if_neg hpurchase])

/-- The lookup asks for the address, and finds the user or none. -/
theorem goes_matchUser (email : Option Text) {d : Handled} (hasked : d.asked = .none)
    (hrow : d.row = .none) (huser : d.user = .none) (happlied : d.applied = false) :
    Goes C config d (fun d' matchedUser => d'.row = .none ∧ d'.asked = email ∧
      d'.user = matchedUser ∧ d'.applied = false) (matchUser email) := by
  cases email with
  | none => exact ⟨hrow, hasked, huser, happlied⟩
  | some email => exact ⟨⟨hasked, hrow⟩, fun user => ⟨hrow, rfl, rfl, happlied⟩⟩

/-- An event that has been recorded for the first time has its effect tried. -/
theorem goes_answerEvent {d : Handled} {payload : Json} {firstTime : Bool}
    (hrow : d.row = some (bmacRow C payload d.user, firstTime)) (hasked : d.asked = emailOf C payload)
    (happlied : d.applied = false) :
    Goes C config d (fun d' response => d'.Settled C config payload response)
      (answerEvent C config payload d.user firstTime) := by
  unfold answerEvent
  cases firstTime with
  | false =>
    refine ⟨⟨false, hrow, rfl⟩, hasked, fun row u h => ?_⟩
    rw [hrow] at h
    cases h
  | true =>
    cases huser : d.user with
    | none =>
      refine ⟨⟨true, hrow, rfl⟩, hasked, fun row u _ h => ?_⟩
      rw [huser] at h
      cases h
    | some u =>
      refine goes_bind (goes_sideEffects hrow huser happlied) ?_
      intro d' _ h
      refine ⟨⟨true, ?_, rfl⟩, h.asked.trans hasked, fun _ _ _ _ => h.applied⟩
      rw [h.row, h.user]
      exact hrow

theorem goes_handleEvent (payload : Json) :
    Goes C config none (fun d response => d.Settled C config payload response)
      (handleEvent C config payload) := by
  refine goes_bind (goes_matchUser _ rfl rfl rfl rfl) ?_
  rintro d matchedUser ⟨hrow, hasked, rfl, happlied⟩
  refine ⟨⟨hrow, rfl, hasked.symm⟩, fun firstTime => ?_⟩
  exact goes_answerEvent (d := d.seen (.recordBmacEvent (bmacRow C payload d.user)) firstTime) rfl hasked
    happlied

/-- How a delivery of a request ends. -/
structure Ends (C : BmacCrates) (config : BmacConfig) (d : Handled) (a : BmacRequest × BmacResponse) :
    Prop where
  settled : ∀ payload, Genuine C config a.1 payload → d.Settled C config payload a.2
  /-- What was recorded is an event that was delivered. -/
  genuine : ∀ row first, d.row = some (row, first) → Genuine C config a.1 row.rawPayload

/-- A request with no event leaves nothing done. -/
theorem Ends.of_none {req : BmacRequest} {response : BmacResponse}
    (h : ∀ payload, ¬ Genuine C config req payload) : Ends C config none (req, response) :=
  ⟨fun payload hg => absurd hg (h payload), fun _ _ h => nomatch h⟩

theorem Settled.ends {d : Handled} {payload : Json} {req : BmacRequest} {response : BmacResponse}
    (hg : Genuine C config req payload) (h : d.Settled C config payload response) :
    Ends C config d (req, response) := by
  constructor
  · intro payload' hg'
    have hp := hg'.parsed
    rw [hg.parsed] at hp
    cases hp
    exact h
  · intro row first hrow
    obtain ⟨first', hrow', -⟩ := h.row
    rw [hrow', Option.some_inj, Prod.mk.injEq] at hrow
    rw [← hrow.1]
    exact hg

/-- **What a delivery does**, and how it ends. -/
theorem delivery_yields (req : BmacRequest) :
    Goes C config none (Ends C config) (Deliveries.delivery C config req) := by
  unfold Deliveries.delivery webhook
  split
  · rename_i hsecret
    refine .of_none fun payload hg => ?_
    obtain ⟨secret, hs, -⟩ := hg.signed
    rw [hsecret] at hs
    cases hs
  · rename_i secret hsecret
    split
    · rename_i hbad
      refine .of_none fun payload hg => ?_
      obtain ⟨secret', hs, hv⟩ := hg.signed
      rw [hsecret] at hs
      cases hs
      rw [hbad] at hv
      cases hv
    · rename_i hgood
      split
      · rename_i hparse
        refine .of_none fun payload hg => ?_
        have hp := hg.parsed
        rw [hparse] at hp
        cases hp
      · rename_i payload hparse
        split
        · rename_i hempty
          refine .of_none fun payload' hg => ?_
          have hp := hg.parsed
          rw [hparse] at hp
          cases hp
          exact hg.identified (List.isEmpty_iff.mp hempty)
        · rename_i hid
          have hg : Genuine C config req payload :=
            ⟨⟨secret, hsecret, Bool.eq_true_of_not_eq_false hgood⟩, hparse,
              fun h => hid (List.isEmpty_iff.mpr h)⟩
          exact goes_bind (goes_handleEvent payload) fun d response h => h.ends hg

theorem seen_failed (d : Handled) (r : BmacOp) (x : r.Reply) :
    (d.seen r x).failed = (d.failed || r.isError x) := by
  cases r <;> rfl

theorem seen_applied (d : Handled) (r : BmacOp) (x : r.Reply) :
    (d.seen r x).applied = (d.applied || r.isEffect) := by
  cases r with
  | findUserByEmail email => exact (Bool.or_false _).symm
  | recordBmacEvent row => exact (Bool.or_false _).symm
  | utcNow => exact (Bool.or_false _).symm
  | _ => exact (Bool.or_true _).symm

theorem seen_row (d : Handled) {r : BmacOp} (hr : ∀ row, r ≠ .recordBmacEvent row) (x : r.Reply) :
    (d.seen r x).row = d.row := by
  cases r with
  | recordBmacEvent row => exact absurd rfl (hr row)
  | _ => rfl

end Handled

/-! ## What a statement does -/

theorem serve_failed {r : BmacOp} {b : Billing} {e : DbError} (h : b.error r = some e) :
    bmacServe r b = (r.failed e b, b) := by
  rw [bmacServe, h]

theorem serve_performed {r : BmacOp} {b : Billing} (h : b.error r = none) :
    bmacServe r b = (b.reply r, b.perform r) := by
  rw [bmacServe, h]

/-- A reply is an error where the statement fails. -/
theorem isError_serve (r : BmacOp) (b : Billing) :
    r.isError (bmacServe r b).1 = (b.error r).isSome := by
  cases h : b.error r with
  | none =>
    rw [serve_performed h]
    cases r <;> rfl
  | some e =>
    rw [serve_failed h]
    cases r with
    | utcNow => cases h
    | _ => rfl

/-- A row is inserted where its external id is not in the table, and the statement does not
fail. -/
def Billing.Inserts (b : Billing) (row : BmacEvent) : Prop :=
  b.error (.recordBmacEvent row) = none ∧ b.isRecorded row.externalId = false

instance (b : Billing) (row : BmacEvent) : Decidable (b.Inserts row) :=
  inferInstanceAs (Decidable (_ ∧ _))

/-- What a statement makes of the rows. -/
theorem serve_bmacEvents (r : BmacOp) (b : Billing) :
    (bmacServe r b).2.bmacEvents = b.bmacEvents ∧ (∀ row, r = .recordBmacEvent row → ¬ b.Inserts row) ∨
      ∃ row, r = .recordBmacEvent row ∧ b.Inserts row ∧
        (bmacServe r b).2.bmacEvents = b.bmacEvents ++ [row] := by
  cases h : b.error r with
  | some e =>
    rw [serve_failed h]
    refine .inl ⟨rfl, ?_⟩
    rintro row rfl ⟨hnone, -⟩
    rw [h] at hnone
    cases hnone
  | none =>
    rw [serve_performed h]
    cases r with
    | recordBmacEvent row =>
      cases hrec : b.isRecorded row.externalId with
      | true =>
        refine .inl ⟨by simp only [Billing.perform, Billing.recordBmacEvent, hrec, if_true], ?_⟩
        rintro row' heq ⟨-, hnot⟩
        cases heq
        rw [hrec] at hnot
        cases hnot
      | false =>
        refine .inr ⟨row, rfl, ⟨h, hrec⟩, ?_⟩
        simp [Billing.perform, Billing.recordBmacEvent, hrec]
    | _ => exact .inl ⟨rfl, fun _ h => nomatch h⟩

/-- The reply to an insert says whether the row was inserted. -/
theorem serve_recorded (row : BmacEvent) (b : Billing) :
    ((bmacServe (.recordBmacEvent row) b).1 : Except DbError Bool).toOption.getD false =
      decide (b.Inserts row) := by
  cases h : b.error (.recordBmacEvent row) with
  | some e =>
    have hnot : ¬ b.Inserts row := fun hi => by
      rw [hi.1] at h
      cases h
    rw [serve_failed h, decide_eq_false hnot]
    rfl
  | none =>
    rw [serve_performed h]
    show (b.recordBmacEvent row).1 = _
    cases hrec : b.isRecorded row.externalId with
    | true =>
      have hnot : ¬ b.Inserts row := fun hi => by
        rw [hi.2] at hrec
        cases hrec
      rw [decide_eq_false hnot, Billing.recordBmacEvent, hrec]
      rfl
    | false =>
      rw [decide_eq_true ⟨h, hrec⟩, Billing.recordBmacEvent, hrec]
      rfl

/-! ## In a run -/

/-- Whose address it is stays so. -/
def Backend.KeepsEmails (b b' : Backend) : Prop :=
  ∀ email u, b.findUserByEmail email = some u → ∃ u', b'.findUserByEmail email = some u' ∧ u'.id = u.id

theorem Backend.KeepsEmails.of_users {b b' : Backend} (h : b'.users = b.users) : b.KeepsEmails b' :=
  fun email u hu => ⟨u, by rw [findUserByEmail, h]; exact hu, rfl⟩

theorem Backend.keepsEmails_updateUser (b : Backend) (id : Id) {f : User → User}
    (hemail : ∀ u, (f u).email = u.email) (hid : ∀ u, (f u).id = u.id) :
    b.KeepsEmails (b.updateUser id f) := by
  intro email u hu
  have hsame : ∀ v : User, (if v.id = id then f v else v).email = v.email := by
    intro v
    split
    · exact hemail v
    · rfl
  refine ⟨if u.id = id then f u else u, ?_, ?_⟩
  · simp only [findUserByEmail, updateUser, List.find?_map, Function.comp_def, hsame] at hu ⊢
    rw [hu]
    rfl
  · split
    · exact hid u
    · rfl

theorem answer_keepsEmails (r : Op) (b : Backend) : b.KeepsEmails (answer r b).2 := by
  cases answer_users r b with
  | kept _ husers _ => exact .of_users husers
  | created _ u _ husers _ =>
    intro email v hv
    refine ⟨v, ?_, rfl⟩
    rw [Backend.findUserByEmail, husers, List.find?_append]
    rw [Backend.findUserByEmail] at hv
    rw [hv]
    rfl
  | secretSet id secret _ hstate =>
    exact hstate ▸ b.keepsEmails_updateUser id (fun _ => rfl) fun _ => rfl
  | enabledSet id enabled _ hstate =>
    rw [hstate]
    cases enabled with
    | false => exact b.keepsEmails_updateUser id (fun _ => rfl) fun _ => rfl
    | true => exact b.keepsEmails_updateUser id (fun _ => rfl) fun _ => rfl

namespace Deliveries
variable {C : BmacCrates} {config : BmacConfig} {b : Billing} {s : Deliveries}

/-- What delivery `i` has done. -/
def handled (s : Deliveries) (i : ℕ) : Handled := Threads.Pool.learned Handled.seen .none i s.trace

theorem handled_own (s : Deliveries) (i : ℕ) (r : BmacOp)
    (k : r.Reply → BmacProg (BmacRequest × BmacResponse)) :
    (s.answered i r k).handled i = (s.handled i).seen r (bmacServe r s.state).1 :=
  Threads.Pool.learned_own rfl _

theorem handled_other (s : Deliveries) {i j : ℕ} (hij : i ≠ j) (r : BmacOp)
    (k : r.Reply → BmacProg (BmacRequest × BmacResponse)) :
    (s.answered i r k).handled j = s.handled j := Threads.Pool.learned_other hij _

/-- Every delivery ends as it should. -/
theorem yields (h : ReachedFrom C config b s) :
    Threads.Pool.Yields (Handled.may C config) Handled.seen .none (Handled.Ends C config) s := by
  refine h.invariant (Threads.Pool.Yields.idle b) fun s e hs _ => ?_
  have hnext : ∀ a, (∀ p, a = .start p → ∃ req, p = delivery C config req) →
      Threads.Pool.Yields (Handled.may C config) Handled.seen .none (Handled.Ends C config)
        (Threads.Pool.next bmacServe s a) := by
    intro a ha
    refine hs.next fun p hp => ?_
    obtain ⟨req, rfl⟩ := ha p hp
    exact Handled.delivery_yields req
  cases e with
  | deliver req =>
    refine hnext (.start _) ?_
    rintro p ⟨⟩
    exact ⟨req, rfl⟩
  | statement i => exact hnext (.answer i) fun _ h => nomatch h
  | failing f => exact hnext (.outside _) fun _ h => nomatch h
  | clock now => exact hnext (.outside _) fun _ h => nomatch h
  | account r => exact hnext (.outside _) fun _ h => nomatch h

/-- A delivery that has been answered has ended as it should. -/
theorem settled (h : ReachedFrom C config b s) {i : ℕ} {req : BmacRequest} {response : BmacResponse}
    (hresponse : s.response i = some (req, response)) {payload : Json}
    (hg : Genuine C config req payload) : (s.handled i).Settled C config payload response :=
  ((yields h).ended (response_eq.mp hresponse)).settled payload hg

/-- **An invariant of runs** is one of deliveries that start, of the accounts and the
database, and of the statements that deliveries may come to. -/
theorem run_invariant (h : ReachedFrom C config b s) {I : Deliveries → Prop}
    (hinit : I (Threads.Pool.idle b))
    (hstart : ∀ (s : Deliveries) p, I s → I { s with tasks := s.tasks ++ [p] })
    (houtside : ∀ (s : Deliveries) db failing, I s → s.state.db.KeepsEmails db →
      I { s with state := { s.state with db := db, failing := failing } })
    (hstep : ∀ (s : Deliveries) i r k, I s → s.tasks[i]? = some (.request r k) →
      Handled.may C config (s.handled i) r → I (s.answered i r k)) : I s := by
  suffices hI : ReachedFrom C config b s ∧ I s from hI.2
  refine h.invariant (I := fun s => ReachedFrom C config b s ∧ I s) ⟨.refl _, hinit⟩ ?_
  rintro s e ⟨hs, hI⟩ he
  refine ⟨hs.tail he, ?_⟩
  cases e with
  | deliver req => exact hstart s _ hI
  | failing f => exact houtside s _ f hI (.of_users rfl)
  | clock now => exact houtside s _ _ hI (.of_users rfl)
  | account r => exact houtside s _ _ hI (answer_keepsEmails r _)
  | statement i =>
    show I (Threads.Pool.next bmacServe s (.answer i))
    rcases Threads.Pool.next_answer_cases (h := bmacServe) s i with heq | ⟨r, k, hp, heq⟩
    · rw [heq]
      exact hI
    · rw [heq]
      exact hstep s i r k hI hp ((yields hs).may_issue hp)

/-- What the deliveries have done, as the trace and the table have it. -/
structure Consistent (s : Deliveries) : Prop where
  told : ∀ e ∈ s.trace, ∀ row, e.request = .recordBmacEvent row →
    (s.handled e.task).row = some (row, decide (e.before.Inserts row))
  recorded : ∀ i row first, (s.handled i).row = some (row, first) →
    ∃ e ∈ s.trace, e.task = i ∧ e.request = .recordBmacEvent row
  failed : ∀ i, (s.handled i).failed = true ↔
    ∃ e ∈ s.trace, e.task = i ∧ (e.before.error e.request).isSome = true
  /-- A row that a delivery has inserted is in the table. -/
  inserted : ∀ i row, (s.handled i).row = some (row, true) → row ∈ s.state.bmacEvents
  /-- No two deliveries have inserted a row with the same id. -/
  once : ∀ i j row row', (s.handled i).row = some (row, true) →
    (s.handled j).row = some (row', true) → row.externalId = row'.externalId → i = j

/-- The row of the delivery that takes the step. -/
theorem row_step {s : Deliveries} {i : ℕ} {r : BmacOp}
    (hr : Handled.may C config (s.handled i) r) :
    (∃ row, r = .recordBmacEvent row ∧ (s.handled i).row = none ∧
      ((s.handled i).seen r (bmacServe r s.state).1).row = some (row, decide (s.state.Inserts row))) ∨
    (∀ row, r ≠ .recordBmacEvent row) ∧
      ((s.handled i).seen r (bmacServe r s.state).1).row = (s.handled i).row := by
  cases r with
  | recordBmacEvent row =>
    refine .inl ⟨row, rfl, hr.1, ?_⟩
    rw [← serve_recorded]
    rfl
  | _ =>
    refine .inr ⟨?_, Handled.seen_row _ ?_ _⟩
    · exact fun _ h => nomatch h
    · exact fun _ h => nomatch h

/-- The row of a delivery after a step: it had it before, or the step has recorded it. -/
theorem row_answered {s : Deliveries} {i j : ℕ} {r : BmacOp}
    {k : r.Reply → BmacProg (BmacRequest × BmacResponse)} (hr : Handled.may C config (s.handled i) r)
    {row : BmacEvent} {first : Bool} (h : ((s.answered i r k).handled j).row = some (row, first)) :
    (s.handled j).row = some (row, first) ∨
      i = j ∧ r = .recordBmacEvent row ∧ first = decide (s.state.Inserts row) := by
  by_cases hij : i = j
  · subst hij
    rw [handled_own] at h
    rcases row_step hr with ⟨row', rfl, -, hseen⟩ | ⟨-, hseen⟩
    · rw [hseen, Option.some_inj, Prod.mk.injEq] at h
      obtain ⟨rfl, rfl⟩ := h
      exact .inr ⟨rfl, rfl, rfl⟩
    · exact .inl (hseen.symm.trans h)
  · rw [handled_other s hij] at h
    exact .inl h

/-- A row that a delivery has it keeps. -/
theorem row_kept {s : Deliveries} {i j : ℕ} {r : BmacOp}
    {k : r.Reply → BmacProg (BmacRequest × BmacResponse)} (hr : Handled.may C config (s.handled i) r)
    {row : BmacEvent} {first : Bool} (h : (s.handled j).row = some (row, first)) :
    ((s.answered i r k).handled j).row = some (row, first) := by
  by_cases hij : i = j
  · subst hij
    rw [handled_own]
    rcases row_step hr with ⟨-, -, hnone, -⟩ | ⟨-, hseen⟩
    · rw [h] at hnone
      cases hnone
    · exact hseen.trans h
  · rw [handled_other s hij]
    exact h

/-- What a delivery notes of the statements that are so, the trace has. -/
theorem noted_answered {s : Deliveries} {noted : Handled → Bool}
    {P : Threads.Entry BmacOp BmacOp.Reply Billing → Prop} {i : ℕ} {r : BmacOp}
    {k : r.Reply → BmacProg (BmacRequest × BmacResponse)}
    (hseen : noted ((s.handled i).seen r (bmacServe r s.state).1) = true ↔
      P (s.entry bmacServe i r) ∨ noted (s.handled i) = true)
    (hs : ∀ j, noted (s.handled j) = true ↔ ∃ e ∈ s.trace, e.task = j ∧ P e) (j : ℕ) :
    noted ((s.answered i r k).handled j) = true ↔
      ∃ e ∈ (s.answered i r k).trace, e.task = j ∧ P e := by
  have hcons : (∃ e ∈ (s.answered i r k).trace, e.task = j ∧ P e) ↔
      (i = j ∧ P (s.entry bmacServe i r)) ∨ ∃ e ∈ s.trace, e.task = j ∧ P e := List.exists_mem_cons_iff _ _ _
  rw [hcons, ← hs j]
  by_cases hij : i = j
  · subst hij
    rw [handled_own, hseen, and_iff_right rfl]
  · rw [handled_other s hij]
    exact ⟨.inr, fun h => h.resolve_left fun h => hij h.1⟩

theorem bmacEvents_kept {row : BmacEvent} (r : BmacOp) {b : Billing} (h : row ∈ b.bmacEvents) :
    row ∈ (bmacServe r b).2.bmacEvents := by
  rcases serve_bmacEvents r b with ⟨heq, -⟩ | ⟨row', -, -, heq⟩
  · rw [heq]
    exact h
  · rw [heq]
    exact List.mem_append_left _ h

/-- An id that is in the table is not inserted again. -/
theorem Consistent.fresh {s : Deliveries} (hs : s.Consistent) {j : ℕ} {row row' : BmacEvent}
    (h : (s.handled j).row = some (row, true)) (hins : s.state.Inserts row') :
    row.externalId ≠ row'.externalId := by
  intro hid
  have hrec : s.state.isRecorded row'.externalId = true :=
    List.any_eq_true.mpr ⟨row, hs.inserted j row h, decide_eq_true hid⟩
  rw [hins.2] at hrec
  cases hrec

theorem Consistent.step {s : Deliveries} (hs : s.Consistent) {i : ℕ} {r : BmacOp}
    {k : r.Reply → BmacProg (BmacRequest × BmacResponse)}
    (hr : Handled.may C config (s.handled i) r) : (s.answered i r k).Consistent := by
  constructor
  case told =>
    intro e he row hreq
    rcases List.mem_cons.mp he with rfl | he
    · cases hreq
      show ((s.answered i _ k).handled i).row = _
      rw [handled_own]
      rcases row_step hr with ⟨row', heq, -, hseen⟩ | ⟨hne, -⟩
      · cases heq
        exact hseen
      · exact absurd rfl (hne row)
    · exact row_kept hr (hs.told e he row hreq)
  case recorded =>
    intro j row first h
    rcases row_answered hr h with h | ⟨rfl, rfl, -⟩
    · obtain ⟨e, he, htask, hreq⟩ := hs.recorded j row first h
      exact ⟨e, List.mem_cons_of_mem _ he, htask, hreq⟩
    · exact ⟨_, List.mem_cons_self, rfl, rfl⟩
  case failed =>
    refine noted_answered (P := fun e => (e.before.error e.request).isSome = true) ?_ hs.failed
    rw [Handled.seen_failed, isError_serve, Bool.or_eq_true, or_comm]
    rfl
  case inserted =>
    intro j row h
    -- the row was there before, or this is the request that has inserted it
    rcases row_answered hr h with h | ⟨rfl, rfl, hins⟩
    · exact bmacEvents_kept r (hs.inserted j row h)
    · rcases serve_bmacEvents (.recordBmacEvent row) s.state with ⟨-, hnot⟩ | ⟨row', hreq, -, heq⟩
      · exact absurd (of_decide_eq_true hins.symm) (hnot row rfl)
      · cases hreq
        show row ∈ (bmacServe (.recordBmacEvent row) s.state).2.bmacEvents
        rw [heq]
        exact List.mem_append_right _ (List.mem_singleton_self row)
  case once =>
    intro j j' row row' h h' hid
    rcases row_answered hr h with h | ⟨rfl, -, hins⟩
    · rcases row_answered hr h' with h' | ⟨rfl, -, hins'⟩
      · exact hs.once j j' row row' h h' hid
      · exact absurd hid (hs.fresh h (of_decide_eq_true hins'.symm))
    · rcases row_answered hr h' with h' | ⟨rfl, -, hins'⟩
      · exact absurd hid.symm (hs.fresh h' (of_decide_eq_true hins.symm))
      · rfl

/-- **What the deliveries have done is consistent**, in every state reached. -/
theorem consistent (h : ReachedFrom C config b s) : s.Consistent := by
  refine run_invariant h ?_ ?_ ?_ ?_
  · exact ⟨fun _ h => (nomatch h), fun _ _ _ h => (nomatch h),
      fun _ => ⟨fun h => (nomatch h), fun ⟨_, h, _⟩ => nomatch h⟩, fun _ _ h => (nomatch h),
      fun _ _ _ _ h => nomatch h⟩
  · exact fun s p hs => ⟨hs.told, hs.recorded, hs.failed, hs.inserted, hs.once⟩
  · exact fun s db failing hs _ => ⟨hs.told, hs.recorded, hs.failed, hs.inserted, hs.once⟩
  · exact fun s i r k hs _ hr => hs.step hr

end Deliveries

/-! ## Events of one account -/

namespace Deliveries.Sample

mutual

/-- A value whose texts need no escapes, as `serde_json` writes it. -/
def write : Json → Text
  | .null => "null".toList
  | .bool b => if b then "true".toList else "false".toList
  | .num literal => literal
  | .str t => '"' :: t ++ ['"']
  | .arr items => '[' :: writeItems items ++ [']']
  | .obj fields => '{' :: writeFields fields ++ ['}']

def writeItems : List Json → Text
  | [] => []
  | [j] => write j
  | j :: items => write j ++ ',' :: writeItems items

def writeFields : List (String × Json) → Text
  | [] => []
  | [(key, j)] => '"' :: key.toList ++ ['"', ':'] ++ write j
  | (key, j) :: fields => '"' :: key.toList ++ ['"', ':'] ++ write j ++ ',' :: writeFields fields

end

/-- An event, and the HMAC-SHA256 of its body under the key `secret`. -/
structure Posted where
  payload : Json
  mac : String

/-- An event of Ada's. -/
def event (type : String) (fields : List (String × Json)) : Json :=
  .obj [("type", .ofString type),
    ("data", .obj (fields ++ [("supporter_email", .ofString "ada@example.org")]))]

def plusLevel : String × Json := ("membership_level_name", .ofString "Winkd Plus!")

def started : Posted :=
  ⟨event "membership.started" [("subscription_id", .ofString "sub_1"), plusLevel],
    "fb7607407148566d1ccaf6b3712237954d0969d3b66b74a1a839e785ddd6981e"⟩

def cancelled : Posted :=
  ⟨event "membership.cancelled" [("subscription_id", .ofString "sub_1")],
    "caf9a6b005b2b8cea2b013e1d855c734c6ac6a0bb84fd1aae99db217477ea1ac"⟩

def unlock : Posted :=
  ⟨event "extra_purchase.created" [("transaction_id", .ofString "tx_1"), ("sku", .ofString "group-unlock")],
    "2ba5d16a4ac73e35f462b4fbd4ac31fd8715f008629995dd2cbaf0256f231a35"⟩

/-- A membership up to 2027, and an event that brings an earlier end of it. -/
def longer : Posted :=
  ⟨event "membership.started" [("transaction_id", .ofString "tx_2"), plusLevel,
      ("current_period_end", .ofNat 1800000000)],
    "29fab56b537098d7c00c7a0dea9572b1f1f3ed631cc29abe3a8e9175574a4c3d"⟩

def shorter : Posted :=
  ⟨event "membership.updated" [("transaction_id", .ofString "tx_3"), plusLevel,
      ("current_period_end", .ofNat 1790000000)],
    "12cd52976ef2053b6e294c125fa020c1ec317cd30de4abc8ea5c7826a87ff443"⟩

def Posted.body (p : Posted) : List UInt8 := Text.asBytes (write p.payload)

def Posted.request (p : Posted) : BmacRequest := ⟨some p.mac.toList, p.body⟩

def posted : List Posted := [started, cancelled, unlock, longer, shorter]

def hexDigit (c : Char) : ℕ := if c.isDigit then c.toNat - '0'.toNat else c.toNat - 'a'.toNat + 10

def hexDecode : Text → Option (List UInt8)
  | [] => some []
  | [_] => none
  | c :: d :: t => (hexDecode t).map fun bytes => UInt8.ofNat (16 * hexDigit c + hexDigit d) :: bytes

def crates : BmacCrates where
  hmacSha256 _ message :=
    ((posted.find? fun p => p.body = message).bind fun p => hexDecode p.mac.toList).getD []
  hexDecode := hexDecode
  parseBody body := posted[posted.findIdx fun p => p.body = body]?.map Posted.payload
  parseText _ := none
  parseRfc3339 _ := none
  fromTimestamp ts := some (ts * 1000000)
  cents _ := 0

def config : BmacConfig := ⟨some "secret".toList, "Winkd Plus!".toList⟩

/-- Ada's account, before any event. -/
def account : Billing where
  db := ((Backend.init 0).createUser "ada".toList "ada#0001".toList "Ada".toList
    (some "ada@example.org".toList) none).2
  supporters _ := .initial
  bmacEvents := []
  failing := false

theorem ada_found : ∃ u, account.db.findUserByEmail "ada@example.org".toList = some u ∧ u.id = 0 :=
  ⟨_, rfl, rfl⟩

/-- The deliveries after `events`. -/
def after (events : List DeliveryEvent) : Deliveries :=
  events.foldl (next crates config) (Threads.Pool.idle account)

theorem after_reached {events : List DeliveryEvent}
    (h : Transitions.Admits (next crates config) MayHappen (Threads.Pool.idle account) events) :
    ReachedFrom crates config account (after events) := h.reaches

/-- The delivery of one of these events is genuine. -/
theorem Posted.genuine {p : Posted} {n : ℕ} (hp : posted[n]? = some p)
    (hfind : posted.findIdx (fun q => q.body = p.body) = n)
    (hverify : verifySignature crates (Text.asBytes "secret".toList) p.body p.mac.toList = true)
    (hid : externalIdOf crates p.payload ≠ []) : Genuine crates config p.request p.payload := by
  refine ⟨⟨"secret".toList, rfl, hverify⟩, ?_, hid⟩
  simp only [crates, Posted.request, hfind, hp, Option.map_some]

/-- A delivery, and its statements. -/
def handledAs (i n : ℕ) (p : Posted) : List DeliveryEvent :=
  .deliver p.request :: List.replicate n (.statement i)

end Deliveries.Sample
end Winkd.Server
