/-
GreenGarden/Checkout.lean

The public checkout (`orders/public_router.py`, `bot_protection/service.py`):
the bot signals, the hourly limit per phone, then the order, in one session.
The limit and `orders.created_at` read the same clock, the start of the
transaction.
-/
import GreenGarden.Payments

namespace GreenGarden

open Transaction

/-- A form that was filled in faster than this is a bot's. -/
def minFormFillMs : ℤ := 3000

/-- Orders that one phone number may place within the window. -/
def checkoutPhoneLimit : ℕ := 3

/-- One hour, in microseconds. -/
def checkoutPhoneWindow : ℤ := 3600 * 1000000

/-- The hidden fields that every public form carries. -/
structure BotSignals where
  website : Option Text
  formElapsedMs : Option ℤ
  deriving DecidableEq

/-- Public checkout payload. -/
structure StorefrontOrderCreate extends BotSignals where
  phone : Text
  name : Text
  paymentMethod : PaymentMethod
  shippingAddress : Text
  note : Option Text
  items : List OrderItemInput
  deriving DecidableEq

/-- Reject a filled honeypot and a missing or too-short fill time. -/
def verifyBotSignals (signals : BotSignals) : Except Error Unit :=
  if present signals.website then
    .error (.botSignalRejected "Honeypot field was filled".toList)
  else if signals.formElapsedMs.all fun ms => ms < minFormFillMs then
    .error (.botSignalRejected "Form was submitted too quickly".toList)
  else .ok ()

/-- The order belongs to the customer with this phone. -/
def filedUnder (db : Db) (phone : Text) (order : Order) : Bool :=
  (db.customers.get order.customerId).any fun c => c.phone = phone

/-- Creation times of the orders of a phone since a moment, newest first. -/
def ordersSince (db : Db) (phone : Text) (since : Instant) : List Instant :=
  ((db.orders.rows.filter fun o => filedUnder db phone o && since ≤ o.createdAt).map
    Order.createdAt).insertionSort (· ≥ ·)

/-- Seconds until `oldest` leaves the window, at least one. -/
def retryAfter (oldest now : Instant) : ℤ :=
  max 1 ((oldest + checkoutPhoneWindow - now + 999999) / 1000000)

/-- Fail once the phone is at its hourly limit. -/
def checkCheckoutPhoneLimit (now : Instant) (phone : Text) : Session Unit := do
  -- counts committed orders only, and nothing keeps others from committing
  let canonical := normalizeVnPhone phone
  let rows ← query fun db =>
    (ordersSince db canonical (now - checkoutPhoneWindow)).take checkoutPhoneLimit
  raiseIf (¬ rows.length < checkoutPhoneLimit)
    (.checkoutRateLimited (retryAfter (rows.getLastD now) now))

/-- The order a checkout asks for. -/
def StorefrontOrderCreate.draft (payload : StorefrontOrderCreate) : OrderDraft where
  customerPhone := payload.phone
  customerName := payload.name
  customerEmail := none
  shippingAddress := payload.shippingAddress
  note := payload.note
  items := payload.items
  source := .storefront
  paymentMethod := payload.paymentMethod

/-- A checkout at the storefront: bot signals, the phone limit, the customer, the order. -/
def postStorefrontOrder (settings : Settings) (payload : StorefrontOrderCreate) :
    Session UUID := do
  Tx.ofExcept (verifyBotSignals payload.toBotSignals)
  raiseIf (payload.paymentMethod = .bankTransfer ∧ settings.bankTransferEnabled = false)
    .bankTransferUnavailable
  -- `now()` is fixed at the start of the transaction
  let now ← Tx.outside Outside.now
  checkCheckoutPhoneLimit now payload.phone
  createOrderAt now payload.draft

end GreenGarden
