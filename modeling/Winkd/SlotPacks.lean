import Winkd.Deliveries

/-!
# Packs of buddy slots

The quantity of a purchase comes as 64 bits, is cast to 32, and is multiplied by the slots of a
pack before the database sees it.  Neither step checks its result.  So an account gets what was
paid for just if the number of slots fits in 32 bits (`slots_exact_iff`); beyond that it may lose
slots.
-/

namespace Winkd.Server

/-! ## What 32 bits keep -/

/-- A cast keeps the values of the type. -/
theorem asI32_eq_self_iff {n : ℤ} : asI32 n = n ↔ -2 ^ 31 ≤ n ∧ n < 2 ^ 31 := by
  have hwidth : 0 < 2 ^ 32 := by decide
  rw [asI32, Int.bmod_eq_iff hwidth]
  constructor
  · rintro ⟨hlow, hhigh, -⟩
    omega
  · rintro ⟨hlow, hhigh⟩
    exact ⟨by omega, by omega, by omega⟩

/-! ## Purchases -/

/-- How many packs are bought: the quantity where it is a 64-bit integer, and at least one. -/
def packsOf (data : Json) : ℤ := max 1 (((data.get "quantity").bind Json.asI64).getD 1)

/-- The statements are carried out, and the errors of those that fail are kept. -/
def bmacWatched : Prog.Handler BmacOp BmacOp.Reply (Billing × List DbError) := fun r s =>
  ((bmacServe r s.1).1, (bmacServe r s.1).2, s.2 ++ (s.1.error r).toList)

section Purchases
variable (C : BmacCrates) (config : BmacConfig)

/-- The event is a purchase of buddy slots. -/
structure BuysSlots (payload : Json) : Prop where
  type : eventTypeOf payload ∈ purchaseTypes
  extra : extraIdOf (dataOf C payload) = "buddy-slots-10".toList

/-- The tables after an event has been handled for an account, and the errors on the way. -/
def handledEvent (b : Billing) (u : Id) (payload : Json) : Billing × List DbError :=
  ((answerEvent C config payload (some u) true).run bmacWatched (b, [])).2

/-- The account gets the slots that were bought, or the purchase fails and changes nothing; and
every number on the way is the one it stands for. -/
structure SlotsExact (b : Billing) (u : Id) (payload : Json) : Prop where
  exact :
    (handledEvent C config b u payload).2 = [] ∧
        ((handledEvent C config b u payload).1.supporters u).extraBuddySlots =
          (b.supporters u).extraBuddySlots + 10 * packsOf (dataOf C payload) ∨
      (handledEvent C config b u payload).2 ≠ [] ∧
        ((handledEvent C config b u payload).1.supporters u).extraBuddySlots =
          (b.supporters u).extraBuddySlots
  kept : (b.supporters u).extraBuddySlots ≤
    ((handledEvent C config b u payload).1.supporters u).extraBuddySlots
  clamped : quantityOf (dataOf C payload) = packsOf (dataOf C payload)
  multiplied : asI32 (buddySlotPackSize * quantityOf (dataOf C payload)) =
    buddySlotPackSize * quantityOf (dataOf C payload)

end Purchases

section Slots
variable {C : BmacCrates} {config : BmacConfig} {b : Billing} {u : Id} {payload : Json}

/-- The quantity is the number of packs, cast. -/
theorem quantityOf_eq (data : Json) : quantityOf data = asI32 (packsOf data) := by
  rw [quantityOf, packsOf]
  cases (data.get "quantity").bind Json.asI64 with
  | none => rfl
  | some n => exact congrArg asI32 (max_comm n 1)

/-- **Handling a purchase is one statement.** -/
theorem handledEvent_purchase (config : BmacConfig) (b : Billing) (u : Id) (h : BuysSlots C payload) :
    handledEvent C config b u payload =
      ((bmacServe (.addBuddySlots u (asI32 (buddySlotPackSize * quantityOf (dataOf C payload)))) b).2,
        (b.error (.addBuddySlots u
          (asI32 (buddySlotPackSize * quantityOf (dataOf C payload))))).toList) := by
  have hother : eventTypeOf payload ∉ renewalTypes ∧ eventTypeOf payload ∉ cancellationTypes := by
    have htype := h.type
    rw [purchaseTypes, List.mem_pair] at htype
    obtain htype | htype := htype <;> rw [htype] <;> decide
  rw [handledEvent, answerEvent, if_pos rfl, applyEventSideEffects, if_neg hother.1, if_neg hother.2,
    if_pos h.type, applyExtraPurchase, if_pos h.extra]
  rfl

theorem one_le_packsOf (data : Json) : 1 ≤ packsOf data := le_max_left 1 _

/-- The slots after the statement: the old ones where it fails. -/
theorem addBuddySlots_slots (b : Billing) (u : Id) (extra : ℤ) :
    (((bmacServe (.addBuddySlots u extra) b).2.supporters u).extraBuddySlots =
        (b.supporters u).extraBuddySlots + extra ∧ b.error (.addBuddySlots u extra) = none) ∨
      (((bmacServe (.addBuddySlots u extra) b).2.supporters u).extraBuddySlots =
        (b.supporters u).extraBuddySlots ∧ b.error (.addBuddySlots u extra) ≠ none) := by
  rw [bmacServe]
  cases herror : b.error (.addBuddySlots u extra) with
  | none =>
    refine .inl ⟨?_, rfl⟩
    show (Function.update b.supporters u _ u).extraBuddySlots = _
    rw [Function.update_self]
  | some e => exact .inr ⟨rfl, Option.some_ne_none e⟩

/-- **The slots are exact just if there are fewer than 2^31 of them.** -/
theorem slots_exact_iff (config : BmacConfig) (b : Billing) (u : Id) (h : BuysSlots C payload) :
    SlotsExact C config b u payload ↔ 10 * packsOf (dataOf C payload) < 2 ^ 31 := by
  have hone := one_le_packsOf (dataOf C payload)
  constructor
  · intro hexact
    have hfits := (asI32_eq_self_iff.1 hexact.multiplied).2
    rw [hexact.clamped] at hfits
    exact hfits
  · intro hfits
    have hclamped : quantityOf (dataOf C payload) = packsOf (dataOf C payload) := by
      rw [quantityOf_eq]
      exact asI32_eq_self_iff.2 ⟨by omega, by omega⟩
    have hmultiplied : asI32 (buddySlotPackSize * quantityOf (dataOf C payload)) =
        buddySlotPackSize * quantityOf (dataOf C payload) := by
      rw [hclamped]
      exact asI32_eq_self_iff.2 ⟨by rw [buddySlotPackSize]; omega, hfits⟩
    have hextra : asI32 (buddySlotPackSize * quantityOf (dataOf C payload)) =
        10 * packsOf (dataOf C payload) := by
      rw [hmultiplied, hclamped, buddySlotPackSize]
    have hrun := handledEvent_purchase config b u h
    rw [hextra] at hrun
    obtain ⟨hslots, herror⟩ | ⟨hslots, herror⟩ :=
      addBuddySlots_slots b u (10 * packsOf (dataOf C payload))
    · refine ⟨.inl ?_, ?_, hclamped, hmultiplied⟩
      · rw [hrun, herror]
        exact ⟨rfl, hslots⟩
      · rw [hrun, hslots]
        omega
    · refine ⟨.inr ?_, ?_, hclamped, hmultiplied⟩
      · rw [hrun]
        exact ⟨fun hnil => herror (Option.toList_eq_nil_iff.1 hnil), hslots⟩
      · rw [hrun, hslots]

/-- Where there are more, the account gets fewer than were bought. -/
theorem slots_short (config : BmacConfig) (b : Billing) (u : Id) (h : BuysSlots C payload)
    (hmany : 2 ^ 31 ≤ 10 * packsOf (dataOf C payload)) :
    ((handledEvent C config b u payload).1.supporters u).extraBuddySlots <
      (b.supporters u).extraBuddySlots + 10 * packsOf (dataOf C payload) := by
  rw [handledEvent_purchase config b u h]
  have hwidth : 0 < 2 ^ 32 := by decide
  have hcast : asI32 (buddySlotPackSize * quantityOf (dataOf C payload)) < (2 ^ 32 + 1) / 2 :=
    Int.bmod_lt hwidth
  obtain ⟨hslots, -⟩ | ⟨hslots, -⟩ := addBuddySlots_slots b u
    (asI32 (buddySlotPackSize * quantityOf (dataOf C payload)))
  · rw [hslots]
    omega
  · rw [hslots]
    omega

end Slots

/-! ## Two purchases -/

namespace Deliveries.Sample

/-- A purchase of buddy slots. -/
def packs (quantity : ℕ) : Json :=
  event "extra_purchase.created" [("transaction_id", .ofString "tx_4"),
    ("sku", .ofString "buddy-slots-10"), ("quantity", .ofNat quantity)]

theorem packs_buysSlots (quantity : ℕ) : BuysSlots crates (packs quantity) :=
  ⟨List.mem_cons_self, rfl⟩

end Deliveries.Sample

open Deliveries.Sample in
/-- The largest number of packs. -/
theorem slots_exact_largest : SlotsExact crates config account 0 (packs 214748364) :=
  (slots_exact_iff config account 0 (packs_buysSlots 214748364)).2 (by decide)

open Deliveries.Sample in
/-- One pack more, and the account has fewer slots than before. -/
theorem slots_lost :
    ((handledEvent crates config account 0 (packs 214748365)).1.supporters 0).extraBuddySlots =
        -2147483646 ∧
      ¬ SlotsExact crates config account 0 (packs 214748365) := by
  have hslots : ((handledEvent crates config account 0 (packs 214748365)).1.supporters
      0).extraBuddySlots = -2147483646 := by
    rw [handledEvent_purchase config account 0 (packs_buysSlots 214748365)]
    decide
  refine ⟨hslots, fun hexact => ?_⟩
  have hkept := hexact.kept
  rw [hslots] at hkept
  exact absurd hkept (by decide)

end Winkd.Server
