import Winkd.Limits

/-!
# The membership webhook

`bmac.rs`, with the statements of `db.rs` that it uses: Buy Me a Coffee tells of
memberships and purchases, and the webhook writes what was bought to the account with the
supporter's e-mail address.

The statements of one event are carried out one after the other, without a transaction.
Each of them may fail; then it has changed nothing.
-/

namespace Winkd.Server

/-! ## Tables -/

/-- A row of `bmac_events`, without its id and the time at which it was processed. -/
structure BmacEvent where
  /-- UNIQUE. -/
  externalId : Text
  eventType : Text
  supporterEmail : Option Text
  userId : Option Id
  amountCents : Option ℤ
  currency : Option Text
  rawPayload : Json

/-- The tables that the webhook works on. -/
structure Billing where
  db : Backend
  supporters : Id → Supporter
  bmacEvents : List BmacEvent
  /-- The database cannot be reached. -/
  failing : Bool

/-- The points at which the webhook touches them. -/
inductive BmacOp where
  | findUserByEmail (email : Text)
  | recordBmacEvent (row : BmacEvent)
  | setSupporterPlus (userId : Id) (expiresAt : ℤ)
  | setSupporterFree (userId : Id)
  | addBuddySlots (userId : Id) (extra : ℤ)
  | unlockGroupChat (userId : Id)
  | addPurchasedExtra (userId : Id) (extraId : Text)
  | utcNow

/-- The type of each reply. -/
@[reducible] def BmacOp.Reply : BmacOp → Type
  | .findUserByEmail _ => Except DbError (Option Member)
  | .recordBmacEvent _ => Except DbError Bool
  | .setSupporterPlus _ _ => Except DbError Unit
  | .setSupporterFree _ => Except DbError Unit
  | .addBuddySlots _ _ => Except DbError Unit
  | .unlockGroupChat _ => Except DbError Unit
  | .addPurchasedExtra _ _ => Except DbError Unit
  | .utcNow => ℕ

/-- The pool has no connection to give. -/
def DbError.poolTimedOut : DbError :=
  ⟨"pool timed out while waiting for an open connection"⟩

/-- A sum that is no INTEGER. -/
def DbError.outOfRange : DbError := ⟨"error returned from database: integer out of range"⟩

namespace Billing

/-- The external id is in the table. -/
def isRecorded (b : Billing) (externalId : Text) : Bool :=
  b.bmacEvents.any fun row => row.externalId = externalId

/-- Why a statement fails. -/
def error (b : Billing) : BmacOp → Option DbError
  | .utcNow => none
  | .recordBmacEvent row =>
      if b.failing then some .poolTimedOut
      else if 8 < (row.currency.getD []).length then some (.tooLong 8)
      else none
  | .addBuddySlots userId extra =>
      if b.failing then some .poolTimedOut
      else if (b.supporters userId).extraBuddySlots + extra < -2 ^ 31 ∨
          2 ^ 31 ≤ (b.supporters userId).extraBuddySlots + extra then some .outOfRange
      else none
  | _ => if b.failing then some .poolTimedOut else none

/-- `UPDATE users … WHERE id = $1`. -/
def updateSupporter (b : Billing) (userId : Id) (f : Supporter → Supporter) : Billing :=
  { b with supporters := Function.update b.supporters userId (f (b.supporters userId)) }

def findUserByEmail (b : Billing) (email : Text) : Option Member :=
  (b.db.findUserByEmail email).map fun u => { toUser := u, toSupporter := b.supporters u.id }

/-- `ON CONFLICT (external_id) DO NOTHING`, and whether a row was inserted. -/
def recordBmacEvent (b : Billing) (row : BmacEvent) : Bool × Billing :=
  if b.isRecorded row.externalId then (false, b)
  else (true, { b with bmacEvents := b.bmacEvents ++ [row] })

/-- What a statement that does not fail makes of the tables. -/
def perform (b : Billing) : BmacOp → Billing
  | .findUserByEmail _ => b
  | .recordBmacEvent row => (b.recordBmacEvent row).2
  | .setSupporterPlus userId expiresAt =>
      b.updateSupporter userId fun u =>
        { u with supporterTier := supporterPlus, supporterExpiresAt := some expiresAt }
  | .setSupporterFree userId =>
      b.updateSupporter userId fun u =>
        { u with supporterTier := supporterFree, supporterExpiresAt := none }
  | .addBuddySlots userId extra =>
      b.updateSupporter userId fun u => { u with extraBuddySlots := u.extraBuddySlots + extra }
  | .unlockGroupChat userId => b.updateSupporter userId fun u => { u with groupChatUnlocked := true }
  | .addPurchasedExtra userId extraId =>
      b.updateSupporter userId fun u =>
        { u with purchasedExtras := (u.purchasedExtras ++ [extraId]).dedup }
  | .utcNow => b

/-- What a statement that does not fail replies. -/
def reply (b : Billing) : (r : BmacOp) → r.Reply
  | .findUserByEmail email => .ok (b.findUserByEmail email)
  | .recordBmacEvent row => .ok (b.recordBmacEvent row).1
  | .setSupporterPlus _ _ => .ok ()
  | .setSupporterFree _ => .ok ()
  | .addBuddySlots _ _ => .ok ()
  | .unlockGroupChat _ => .ok ()
  | .addPurchasedExtra _ _ => .ok ()
  | .utcNow => b.db.now

end Billing

/-- What a statement that fails replies. -/
def BmacOp.failed (e : DbError) (b : Billing) : (r : BmacOp) → r.Reply
  | .findUserByEmail _ => .error e
  | .recordBmacEvent _ => .error e
  | .setSupporterPlus _ _ => .error e
  | .setSupporterFree _ => .error e
  | .addBuddySlots _ _ => .error e
  | .unlockGroupChat _ => .error e
  | .addPurchasedExtra _ _ => .error e
  | .utcNow => b.db.now

/-- How each statement is answered. -/
def bmacServe : Prog.Handler BmacOp BmacOp.Reply Billing := fun r b =>
  match b.error r with
  | some e => (r.failed e b, b)
  | none => (b.reply r, b.perform r)

/-! ## Reading an event -/

/-- What the webhook uses of the crates `hmac`, `hex`, `serde_json` and `chrono`, and of
floating-point numbers.  An instant is in microseconds, as its column keeps it. -/
structure BmacCrates where
  hmacSha256 : (key message : List UInt8) → List UInt8
  hexDecode : Text → Option (List UInt8)
  /-- `serde_json::from_slice`. -/
  parseBody : List UInt8 → Option Json
  /-- `serde_json::from_str`. -/
  parseText : Text → Option Json
  /-- `DateTime::parse_from_rfc3339`. -/
  parseRfc3339 : Text → Option ℤ
  /-- `DateTime::from_timestamp`, of whole seconds. -/
  fromTimestamp : ℤ → Option ℤ
  /-- A number times 100, rounded, as an `i32`. -/
  cents : Text → ℤ

structure BmacConfig where
  bmacWebhookSecret : Option Text
  bmacPlusTierName : Text

/-- A request: the header `x-signature-sha256`, if it is there and a text, and the body. -/
structure BmacRequest where
  signature : Option Text
  body : List UInt8
  deriving DecidableEq

inductive BmacResponse where
  | text (status : ℕ) (message : String)
  /-- The fields of an object.  Status 200. -/
  | json (ok : Bool) (replayed : Option Bool)
  deriving DecidableEq

def BmacResponse.status : BmacResponse → ℕ
  | .text status _ => status
  | .json _ _ => 200

def jsonText : Json → Option Text
  | .str t => some t
  | .num literal => some literal
  | .bool b => some (if b then "true".toList else "false".toList)
  | _ => none

/-- `n as i32`. -/
def asI32 (n : ℤ) : ℤ := Int.bmod n (2 ^ 32)

/-- `ct_eq`: slices of one length are compared to the end, whatever differs. -/
def ctEq (x y : List UInt8) : Bool :=
  if x.length ≠ y.length then false
  else (x.zip y).foldl (fun diff p => diff ||| (p.1 ^^^ p.2)) 0 == 0

section Reading
variable (C : BmacCrates)

def verifySignature (secret body : List UInt8) (providedHex : Text) : Bool :=
  match C.hexDecode (Text.trimStartMatches "sha256=".toList providedHex) with
  | some provided => ctEq (C.hmacSha256 secret body) provided
  | none => false

/-- The data of an event: an object, or a text that is parsed. -/
def parseBmacData (payload : Json) : Option Json :=
  match payload.get "data" with
  | some (.obj fields) => some (.obj fields)
  | some (.str t) => C.parseText t
  | _ => none

def dataOf (payload : Json) : Json := (parseBmacData C payload).getD payload

def parsePeriodEndUtc (data : Json) : Option ℤ :=
  match data.get "current_period_end" with
  | none => none
  | some (.str t) =>
      match C.parseRfc3339 t with
      | some instant => some instant
      | none => (Text.parseI64 t).bind C.fromTimestamp
  | some v => v.asI64.bind C.fromTimestamp

def eventTypeOf (payload : Json) : Text := (payload.getStr "type").getD "unknown".toList

/-- The first of the names that is a field decides, whatever its value. -/
def externalIdOf (payload : Json) : Text :=
  ((((dataOf C payload).getAny ["transaction_id", "subscription_id", "id"]).or
    (payload.get "event_id")).bind jsonText).getD []

def emailOf (payload : Json) : Option Text :=
  ((dataOf C payload).getAny ["supporter_email", "payer_email"]).bind jsonText

def amountCentsOf (payload : Json) : Option ℤ :=
  match (dataOf C payload).get "amount" with
  | some (.num literal) => some (C.cents literal)
  | _ => none

/-- The row that an event is recorded as. -/
def bmacRow (payload : Json) (userId : Option Id) : BmacEvent where
  externalId := externalIdOf C payload
  eventType := eventTypeOf payload
  supporterEmail := emailOf C payload
  userId := userId
  amountCents := amountCentsOf C payload
  currency := (dataOf C payload).getStr "currency"
  rawPayload := payload

end Reading

def isPlusMembershipTier (incomingTierName configuredPlusTierName : Text) : Bool :=
  let incoming := Text.trim incomingTierName
  let configured := Text.trim configuredPlusTierName
  if incoming.isEmpty || configured.isEmpty then false
  else Text.eqIgnoreAsciiCase incoming configured ||
    (Text.toAsciiLowercase configured ++ [' ']).isPrefixOf (Text.toAsciiLowercase incoming)

example : isPlusMembershipTier "winkd plus! annual".toList "Winkd Plus!".toList = true := by decide

/-! ## The handler -/

/-- The webhook, up to the point where it returns. -/
abbrev BmacProg (α : Type) : Type := Prog BmacOp BmacOp.Reply Empty α

/-- One point of the webhook. -/
abbrev awaitBmac (r : BmacOp) : BmacProg r.Reply := Prog.ask r

/-- 35 days, in microseconds. -/
def defaultPeriod : ℤ := 35 * 24 * 60 * 60 * 1000000

/-- The number of slots of a pack. -/
def buddySlotPackSize : ℤ := 10

/-- What is bought decides on the statement; one that fails is only logged.  The product
of the slots wraps around. -/
def applyExtraPurchase (userId : Id) (extraId : Text) (quantity : ℤ) : BmacProg Unit :=
  if extraId = "buddy-slots-10".toList then do
    let _ ← awaitBmac (.addBuddySlots userId (asI32 (buddySlotPackSize * quantity)))
    pure ()
  else if extraId = "group-unlock".toList then do
    let _ ← awaitBmac (.unlockGroupChat userId)
    pure ()
  else if extraId.isEmpty then pure ()
  else do
    let _ ← awaitBmac (.addPurchasedExtra userId extraId)
    pure ()

def tierNameOf (data : Json) : Text :=
  ((data.getAny ["membership_level_name", "tier_name"]).bind Json.asStr).getD []

def extraIdOf (data : Json) : Text :=
  ((data.getAny ["extra_id", "extra_slug", "sku"]).bind Json.asStr).getD []

def quantityOf (data : Json) : ℤ :=
  (((data.get "quantity").bind Json.asI64).map fun n => asI32 (max n 1)).getD 1

/-- The types of events that start or renew a membership. -/
def renewalTypes : List Text :=
  ["membership.started".toList, "membership.updated".toList, "subscription.created".toList,
    "subscription.renewed".toList]

def cancellationTypes : List Text :=
  ["membership.cancelled".toList, "subscription.cancelled".toList, "subscription.ended".toList]

def purchaseTypes : List Text := ["extra_purchase.created".toList, "purchase.created".toList]

section Handler
variable (C : BmacCrates) (config : BmacConfig)

/-- When a membership runs out: at the end of its period, else in 35 days. -/
def expiryOf (data : Json) : BmacProg ℤ :=
  match parsePeriodEndUtc C data with
  | some expires => pure expires
  | none => do
    let now ← awaitBmac .utcNow
    pure (now + defaultPeriod)

def applyEventSideEffects (userId : Id) (eventType : Text) (data : Json) : BmacProg Unit :=
  if eventType ∈ renewalTypes then
    if isPlusMembershipTier (tierNameOf data) config.bmacPlusTierName then do
      let expires ← expiryOf C data
      let _ ← awaitBmac (.setSupporterPlus userId expires)
      pure ()
    else pure ()
  else if eventType ∈ cancellationTypes then do
    let _ ← awaitBmac (.setSupporterFree userId)
    pure ()
  else if eventType ∈ purchaseTypes then
    applyExtraPurchase userId (extraIdOf data) (quantityOf data)
  else pure ()

/-- The user with the e-mail address; no user where the lookup fails. -/
def matchUser : Option Text → BmacProg (Option Id)
  | none => pure none
  | some email => do
    let user ← awaitBmac (.findUserByEmail email)
    pure ((user.toOption.getD none).map fun m => m.id)

def acknowledged : BmacResponse := .json true none

def replayed : BmacResponse := .json true (some true)

/-- The side effects of an event that has been recorded for the first time. -/
def answerEvent (payload : Json) (matchedUser : Option Id) (firstTime : Bool) :
    BmacProg BmacResponse :=
  if firstTime then
    match matchedUser with
    | some userId => do
      applyEventSideEffects C config userId (eventTypeOf payload) (dataOf C payload)
      pure acknowledged
    | none => pure acknowledged
  else pure replayed

/-- An event with an identifier.  It counts as recorded before where the insert fails. -/
def handleEvent (payload : Json) : BmacProg BmacResponse := do
  let matchedUser ← matchUser (emailOf C payload)
  let firstTime ← awaitBmac (.recordBmacEvent (bmacRow C payload matchedUser))
  answerEvent C config payload matchedUser (firstTime.toOption.getD false)

/-- The entry point for every event. -/
def webhook (req : BmacRequest) : BmacProg BmacResponse :=
  match config.bmacWebhookSecret with
  | none => pure (.text 503 "bmac webhook disabled")
  | some secret =>
    if verifySignature C secret.asBytes req.body (req.signature.getD []) = false then
      pure (.text 401 "bad signature")
    else
      match C.parseBody req.body with
      | none => pure (.text 400 "malformed json")
      | some payload =>
        if (externalIdOf C payload).isEmpty then pure (.text 400 "missing transaction id")
        else handleEvent C config payload

end Handler
end Winkd.Server
