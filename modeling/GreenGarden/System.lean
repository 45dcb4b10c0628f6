/-
GreenGarden/System.lean

The whole shop: the requests it serves, each one database transaction, and
the workload of any family of them running side by side.

Callers of `update_order_status` may or may not wait for each other.  With
`serialized` set, a status request reserves its order from its start to its
end, so at most one is in flight per order.
-/
import GreenGarden.Checkout

namespace GreenGarden

open Transaction

/-- What can be asked of the shop. -/
inductive Request where
  | createOrder (draft : OrderDraft)
  | postStorefrontOrder (payload : StorefrontOrderCreate)
  | updateOrderStatus (id : UUID) (status : OrderStatus)
  | processSepayWebhook (payload : SePayWebhookPayload)
  | createPlant (plant : Plant)
  | updatePlant (id : UUID) (patch : PlantPatch)
  | setPlantStatus (id : UUID) (isActive : Bool)
  | createCustomer (phone name : Text) (email : Option Text)
  | updateCustomer (id : UUID) (patch : CustomerPatch)
  | setCustomerStatus (id : UUID) (isActive : Bool)

/-- What a request returns: the row it is about, or what a webhook did. -/
inductive Reply where
  | row (id : UUID)
  | webhook (status : Option PaymentMatchStatus)
  deriving DecidableEq

/-- What the deployment fixes: its settings, and upper-casing. -/
structure Deployment where
  settings : Settings
  caseMap : CaseMap

/-- Hand on the row a request is about. -/
def replyRow (t : Session UUID) : Session Reply := do
  let id ← t
  return .row id

/-- One request, as a transaction. -/
def Request.body (site : Deployment) : Request → Session Reply
  | .createOrder draft => replyRow (GreenGarden.createOrder draft)
  | .postStorefrontOrder payload =>
      replyRow (GreenGarden.postStorefrontOrder site.settings payload)
  | .updateOrderStatus id status => replyRow (GreenGarden.updateOrderStatus id status)
  | .processSepayWebhook payload => do
      let status ← GreenGarden.processSepayWebhook site.caseMap payload
      return .webhook status
  | .createPlant plant => replyRow (GreenGarden.createPlant plant)
  | .updatePlant id patch => replyRow (GreenGarden.updatePlant id patch)
  | .setPlantStatus id isActive => replyRow (GreenGarden.setPlantStatus id isActive)
  | .createCustomer phone name email => replyRow (GreenGarden.createCustomer phone name email)
  | .updateCustomer id patch => replyRow (GreenGarden.updateCustomer id patch)
  | .setCustomerStatus id isActive => replyRow (GreenGarden.setCustomerStatus id isActive)

/-- What a status request reserves when callers wait for each other. -/
def Request.token : Request → List Key
  | .updateOrderStatus id _ => [.request id]
  | _ => []

/-- A family of requests running side by side. -/
def shop {ι : Type} (site : Deployment) (serialized : Bool) (requests : ι → Request) :
    Workload ι Db Key Outside Error Reply where
  body i := (requests i).body site
  token i := if serialized then (requests i).token else []

/-! ### A shop to start from -/

/-- A database without rows. -/
def Db.empty : Db where
  categories := Table.empty
  plants := .empty
  slugHistory := .empty
  customers := .empty
  orders := .empty
  notifications := .empty
  transactions := .empty

/-- An order of one plant, cash on delivery. -/
def oneFern : OrderDraft where
  customerPhone := "0901234567".toList
  customerName := "An".toList
  customerEmail := none
  shippingAddress := "Hue".toList
  note := none
  items := [⟨7, 1⟩]
  source := .admin
  paymentMethod := .cod

/-- What `oneFern` asks for. -/
def fern : Plant where
  categoryId := 1
  name := "Fern".toList
  nameVi := none
  slug := "fern".toList
  description := none
  descriptionVi := none
  longDescription := none
  longDescriptionVi := none
  ogImageUrl := none
  price := ⟨1000, by decide⟩
  priceVi := some ⟨15000050, by decide⟩
  stock := 3
  sku := "F-1".toList
  isFeatured := false
  isActive := true
  plantType := some .fern
  difficulty := none
  growthRate := none
  sunlight := none
  watering := none
  spaceRequirement := none
  indoorSuitable := none
  outdoorSuitable := none
  petSafe := none
  beginnerFriendly := none

/-- A database with that plant. -/
def Db.ferns : Db :=
  { Db.empty with categories := Table.empty.insert 1 ⟨true⟩, plants := Table.empty.insert 7 fern }

/-- An order of one such plant, placed by a customer who is kept under 3. -/
def fernOrder : Order where
  customerId := 3
  orderNumber := "GG-20250501-0001".toList
  status := .pending
  currency := "VND".toList
  subtotalAmount := ⟨15000050, by decide⟩
  shippingFee := ⟨5000000, by decide⟩
  totalAmount := ⟨20000050, by decide⟩
  shippingAddress := "Hue".toList
  note := none
  paymentMethod := .cod
  paymentStatus := .pending
  paymentReference := none
  paidAt := none
  items := [⟨7, "Fern".toList, 1, ⟨15000050, by decide⟩⟩]
  createdAt := 1746100800000000

/-- A database with that plant and that order. -/
def Db.oneOrder : Db :=
  { Db.ferns with
    customers := Table.empty.insert 3 ⟨"0901234567".toList, "An".toList, none, true⟩
    orders := Table.empty.insert 5 fernOrder }

/-- An order of one such plant, to be paid by transfer. -/
def transferOrder (number : Text) (createdAt : Instant) : Order :=
  { fernOrder with
    orderNumber := number
    paymentMethod := .bankTransfer
    paymentReference := some (paymentReferenceFor number)
    createdAt := createdAt }

/-- A payment that came in. -/
def payment (id : ℤ) (code content : Option Text) (amount : Decimal) : SePayWebhookPayload where
  id := id
  gateway := none
  transactionDate := none
  accountNumber := none
  subAccount := none
  code := code
  content := content
  transferType := some "in".toList
  description := none
  transferAmount := amount
  referenceCode := none

/-- What a transaction takes from outside on one first of May at noon. -/
def atNoon (uuid : UUID) : Outside where
  uuid := uuid
  clock := ⟨⟨2025, 5, 1, by decide, by decide, by decide⟩, 12 * 3600 * 1000000⟩
  now := 1746100800000000
  pick := 0

/-- A deployment that takes bank transfers. -/
def smallShop : Deployment where
  settings :=
    { sepayWebhookApiKey := some "key".toList
      sepayBankCode := "MB".toList
      sepayBankName := none
      sepayAccountNumber := some "0123456789".toList
      sepayAccountHolder := none }
  caseMap := .ascii

end GreenGarden
