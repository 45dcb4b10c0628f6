/-
GreenGarden/Schema.lean

The relational schema of the shop: rows, tables, the rows' enumerations, and
the errors a request can end with.

Rows hold the columns that the modelled operations read or write.  Primary
keys are the keys of the tables.  An order row carries its items, which are
written with it and never again.  Money columns are non-negative
`NUMERIC(12, 2)` values by construction, as their columns and check
constraints require.

`Key` lists what a transaction can lock: rows, entries of unique indexes (an
insert waits for a competing insert of the same value), and the advisory lock
of order numbering.  `Key.request` is no database lock: it is the caller's
reservation used when at most one status request per order is in flight.
-/
import GreenGarden.Table
import GreenGarden.Decimal
import GreenGarden.Transaction
import GreenGarden.Text

namespace GreenGarden

open Transaction

/-- A UUID, as a number. -/
abbrev UUID := ℕ

/-- A money column. -/
abbrev Money := Numeric 12

/-! ### Time -/

/-- Days in a month of the Gregorian calendar. -/
def daysInMonth (year month : ℕ) : ℕ :=
  if month = 2 then
    if year % 4 = 0 ∧ (year % 100 ≠ 0 ∨ year % 400 = 0) then 29 else 28
  else if month ∈ [4, 6, 9, 11] then 30 else 31

/-- A UTC calendar date with a four-digit year. -/
structure UtcDate where
  year : ℕ
  month : ℕ
  day : ℕ
  year_range : 1000 ≤ year ∧ year ≤ 9999
  month_range : 1 ≤ month ∧ month ≤ 12
  day_range : 1 ≤ day ∧ day ≤ daysInMonth year month
  deriving DecidableEq

/-- `datetime.now(UTC)`: a date and the microseconds since its midnight. -/
structure UtcDateTime where
  date : UtcDate
  micros : ℕ
  deriving DecidableEq

/-- `now()` of the database: microseconds since the epoch. -/
abbrev Instant := ℤ

/-! ### Enumerations -/

/-- Where an order stands. -/
inductive OrderStatus where
  | pending | confirmed | processing | shipping | completed | cancelled
  deriving DecidableEq

/-- How an order is paid for. -/
inductive PaymentMethod where
  | cod | bankTransfer
  deriving DecidableEq

/-- `paid` is only ever set by a verified bank transfer. -/
inductive PaymentStatus where
  | pending | paid
  deriving DecidableEq

/-- What a received transaction did to the order it names, if any. -/
inductive PaymentMatchStatus where
  | matched | amountMismatch | alreadyPaid | unmatched | ignored
  deriving DecidableEq

/-- Where an order was placed. -/
inductive OrderSource where
  | admin | storefront
  deriving DecidableEq

/-- What a notification is about. -/
inductive NotificationType where
  | newOrder
  deriving DecidableEq

/-- The kinds of plants. -/
inductive PlantType where
  | foliage | flowering | succulent | cactus | herb | fern | vine | tree | palm | bamboo
  | aquatic | other
  deriving DecidableEq

/-- How hard a plant is to keep. -/
inductive PlantDifficulty where
  | easy | moderate | hard
  deriving DecidableEq

/-- How fast a plant grows. -/
inductive PlantGrowthRate where
  | slow | moderate | fast
  deriving DecidableEq

/-- The light a plant needs. -/
inductive PlantSunlight where
  | fullSun | partialSun | partialShade | shade | lowLight
  deriving DecidableEq

/-- How much water a plant needs. -/
inductive PlantWatering where
  | low | moderate | high
  deriving DecidableEq

/-- How much room a plant needs. -/
inductive PlantSpaceRequirement where
  | small | medium | large
  deriving DecidableEq

/-! ### Rows -/

/-- Sellable plant product. -/
structure Plant where
  categoryId : UUID
  name : Text
  nameVi : Option Text
  slug : Text
  description : Option Text
  descriptionVi : Option Text
  longDescription : Option Text
  longDescriptionVi : Option Text
  ogImageUrl : Option Text
  price : Money
  priceVi : Option Money
  stock : ℤ
  sku : Text
  isFeatured : Bool
  isActive : Bool
  plantType : Option PlantType
  difficulty : Option PlantDifficulty
  growthRate : Option PlantGrowthRate
  sunlight : Option PlantSunlight
  watering : Option PlantWatering
  spaceRequirement : Option PlantSpaceRequirement
  indoorSuitable : Option Bool
  outdoorSuitable : Option Bool
  petSafe : Option Bool
  beginnerFriendly : Option Bool
  deriving DecidableEq

/-- A slug a plant used before. -/
structure PlantSlugHistory where
  plantId : UUID
  slug : Text
  deriving DecidableEq

/-- Guest customer identified by phone number. -/
structure Customer where
  phone : Text
  name : Text
  email : Option Text
  isActive : Bool
  deriving DecidableEq

/-- Line item with the plant name and price at purchase time. -/
structure OrderItem where
  plantId : UUID
  plantName : Text
  quantity : ℤ
  unitPrice : Money
  deriving DecidableEq

/-- Customer order with its items and a snapshot of the shipping address. -/
structure Order where
  customerId : UUID
  orderNumber : Text
  status : OrderStatus
  currency : Text
  subtotalAmount : Money
  shippingFee : Money
  totalAmount : Money
  shippingAddress : Text
  note : Option Text
  paymentMethod : PaymentMethod
  paymentStatus : PaymentStatus
  paymentReference : Option Text
  paidAt : Option UtcDateTime
  items : List OrderItem
  createdAt : Instant
  deriving DecidableEq

/-- Admin inbox item. -/
structure Notification where
  type : NotificationType
  title : Text
  message : Text
  entityId : UUID
  isRead : Bool
  deriving DecidableEq

/-- Transaction body SePay POSTs to the webhook URL. -/
structure SePayWebhookPayload where
  id : ℤ
  gateway : Option Text
  transactionDate : Option Text
  accountNumber : Option Text
  subAccount : Option Text
  code : Option Text
  content : Option Text
  transferType : Option Text
  description : Option Text
  transferAmount : Decimal
  referenceCode : Option Text
  deriving DecidableEq

/-- One bank transaction reported by SePay.  `rawPayload` is the body as it was
received; the other fields are what their columns made of it. -/
structure PaymentTransaction where
  providerTransactionId : ℤ
  orderId : Option UUID
  gateway : Option Text
  accountNumber : Option Text
  subAccount : Option Text
  code : Option Text
  content : Option Text
  transferType : Option Text
  transferAmount : Numeric 14
  referenceCode : Option Text
  transactionDate : Option Text
  matchStatus : PaymentMatchStatus
  rawPayload : SePayWebhookPayload
  deriving DecidableEq

/-! ### The database -/

/-- A product category, with the column that is counted. -/
structure Category where
  isActive : Bool
  deriving DecidableEq

/-- The tables of the shop. -/
structure Db where
  categories : Table UUID Category
  plants : Table UUID Plant
  slugHistory : Table UUID PlantSlugHistory
  customers : Table UUID Customer
  orders : Table UUID Order
  notifications : Table UUID Notification
  transactions : Table UUID PaymentTransaction

/-- What a transaction can lock. -/
inductive Key where
  | plant (id : UUID)
  | plantSlug (slug : Text)
  | plantSku (sku : Text)
  | slugHistory (id : UUID)
  | historySlug (slug : Text)
  | customer (id : UUID)
  | customerPhone (phone : Text)
  | order (id : UUID)
  | orderNumber (number : Text)
  | paymentReference (reference : Text)
  | notification (id : UUID)
  | transaction (id : UUID)
  | providerTransaction (id : ℤ)
  | advisory (key : ℕ)
  | request (orderId : UUID)
  deriving DecidableEq

/-- The constraints a write can violate. -/
inductive Constraint where
  | primaryKey
  | plantsSlug | plantsSku | plantsStockNonNegative
  | slugHistorySlug
  | customersPhone
  | ordersOrderNumber | ordersPaymentReference | ordersTotalIsSubtotalPlusShipping
  | orderItemsQuantityPositive
  deriving DecidableEq

/-- How a request can fail: the application's own errors, then those of the
database and of `decimal`. -/
inductive Error where
  | categoryNotFound
  | plantNotFound
  | slugConflict (slug : Text)
  | skuConflict (sku : Text)
  | plantUnavailable (name : Text)
  | insufficientStock (name : Text) (requested available : ℤ)
  | customerNotFound
  | customerPhoneConflict (phone : Text)
  | customerInactive (phone : Text)
  | orderNotFound
  | orderTotalTooLarge
  | terminalStatus (current : OrderStatus)
  | backwardsStatus (current target : OrderStatus)
  | botSignalRejected (reason : Text)
  | checkoutRateLimited (retryAfter : ℤ)
  | bankTransferUnavailable
  | integrity (c : Constraint)
  | numericOverflow
  | stringTooLong
  | invalidOperation
  | diverged
  deriving DecidableEq

/-- A decimal integer as text. -/
def showInt (n : ℤ) : Text :=
  if n < 0 then '-' :: Nat.toDigits 10 n.natAbs else Nat.toDigits 10 n.natAbs

/-- What a request takes from outside the database: a generated UUID, the
clock of the application, the clock of the database at the start of the
transaction, and the choice a query makes among rows that tie. -/
structure Outside where
  uuid : UUID
  clock : UtcDateTime
  now : Instant
  pick : ℕ

/-- The body of one database transaction. -/
abbrev Session := Tx Db Key Outside Error

/-- `session.execute(select(...))`. -/
abbrev query {α : Type} (f : Db → α) : Session α := Tx.query f

/-- Raise `e` when `c` holds. -/
abbrev raiseIf (c : Prop) [Decidable c] (e : Error) : Session Unit := Tx.failIf c e

/-- `gen_random_uuid()` as the default of a primary key: the new row's key is
locked, and a clash with an existing row is an integrity error. -/
def newId (key : UUID → Key) (used : Db → UUID → Bool) : Session UUID := do
  let id ← Tx.outside Outside.uuid
  Tx.acquire (key id)
  let clash ← query fun db => used db id
  raiseIf (clash = true) (.integrity .primaryKey)
  return id

/-- A new entry of a unique index: wait for whoever is writing the same value,
then fail if a row has it. -/
def claimUnique (key : Key) (c : Constraint) (taken : Db → Bool) : Session Unit := do
  Tx.acquire key
  let clash ← query taken
  raiseIf (clash = true) (.integrity c)

/-! ### Columns -/

/-- Store a number in a money column. -/
def storeMoney (d : Decimal) : Except Error Money :=
  match Numeric.store 12 d with
  | some n => .ok n
  | none => .error .numericOverflow

/-- Store a number in a `BIGINT` column. -/
def storeBigInteger (n : ℤ) : Except Error ℤ :=
  if -2 ^ 63 ≤ n ∧ n < 2 ^ 63 then .ok n else .error .numericOverflow

/-- Store a text in a `VARCHAR(n)` column.  What stands behind the limit must
be blanks, and they are cut off. -/
def storeString (n : ℕ) (value : Text) : Except Error Text :=
  if (value.drop n).all (· = ' ') then .ok (value.take n) else .error .stringTooLong

/-- Store a text or NULL. -/
def storeNullable (n : ℕ) : Option Text → Except Error (Option Text)
  | none => .ok none
  | some value => (storeString n value).map some

end GreenGarden
