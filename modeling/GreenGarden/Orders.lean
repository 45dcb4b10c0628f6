/-
GreenGarden/Orders.lean

Creating orders, quoting carts and moving orders along the pipeline
(`orders/service.py`).

`createOrder` is one transaction: it resolves the customer, locks the plants,
checks stock, prices the lines, allocates an order number under the advisory
lock and stages every write.  The item rows are part of the order row, which
is staged once its own checks and theirs have passed; no later query of the
transaction looks at it.  The stock UPDATE of a plant carries the number
computed from the locked row, as the ORM writes it.
-/
import GreenGarden.Pricing
import GreenGarden.Plants
import GreenGarden.Tally

namespace GreenGarden

open Transaction

/-! ### Order numbers -/

/-- `f"{year:04d}{month:02d}{day:02d}"`. -/
def UtcDate.compact (date : UtcDate) : Text :=
  zeroPad 4 date.year ++ zeroPad 2 date.month ++ zeroPad 2 date.day

/-- The prefix of the numbers of one day. -/
def numberPrefix (date : UtcDate) : Text := 'G' :: 'G' :: '-' :: date.compact ++ ['-']

/-- `f"{pre}{sequence:04d}"`. -/
def formatNumber (pre : Text) (sequence : ℕ) : Text := pre ++ zeroPad 4 sequence

/-- `GG-20261004-0001` becomes `GG202610040001`: banks drop dashes from content. -/
def paymentReferenceFor (orderNumber : Text) : Text := orderNumber.filter fun c => c ≠ '-'

/-- The advisory lock of the order numbers. -/
def orderNumberLockKey : ℕ := 20260916

/-- Every order number, oldest order first. -/
def Db.orderNumbers (db : Db) : List Text := db.orders.rows.map Order.orderNumber

/-- The probing loop; `none` when the fuel is used up. -/
def probe (pre : Text) (taken : List Text) : ℕ → ℕ → Option ℕ
  | 0, _ => none
  | fuel + 1, sequence =>
      if formatNumber pre sequence ∈ taken then probe pre taken fuel (sequence + 1)
      else some sequence

/-- The sequence number after `taken`, a set. -/
def nextSequence (pre : Text) (taken : List Text) : Option ℕ :=
  probe pre taken (taken.dedup.length + 1) (taken.dedup.length + 1)

/-- Allocate the next number of today.  The prefix is read from the clock
before the lock is waited for. -/
def generateOrderNumber : Session Text := do
  let pre ← Tx.outside fun v => numberPrefix v.clock.date
  -- the day may be over when the lock is free: the prefix stays
  Tx.acquire (.advisory orderNumberLockKey)
  let taken ← query fun db => db.orderNumbers.filter pre.isPrefixOf
  match nextSequence pre taken with
  | some sequence => return formatNumber pre sequence
  | none => Tx.fail .diverged

/-! ### Creating an order -/

/-- Arguments of `create_order`. -/
structure OrderDraft where
  customerPhone : Text
  customerName : Text
  customerEmail : Option Text
  shippingAddress : Text
  note : Option Text
  items : List OrderItemInput
  source : OrderSource
  paymentMethod : PaymentMethod
  deriving DecidableEq

/-- The plants of a cart, each once. -/
def plantIds (items : List OrderItemInput) : List UUID :=
  (items.map OrderItemInput.plantId).dedup

/-- Quantities per line, keyed by plant. -/
def itemAmounts (items : List OrderItemInput) : List (UUID × ℤ) :=
  items.map fun item => (item.plantId, item.quantity)

/-- Quantities summed per plant: the same plant may appear on several lines. -/
def requestedOf (items : List OrderItemInput) : List (UUID × ℤ) := Tally.tally (itemAmounts items)

/-- The product name to freeze on the line: Vietnamese, else the default. -/
def snapshotName (plant : Plant) : Text :=
  let name := strip (plant.nameVi.getD [])
  if name.isEmpty then plant.name else name

/-- The stock check, plant by plant. -/
def checkStock (plants : UUID → Option Plant) : List (UUID × ℤ) → Except Error Unit
  | [] => .ok ()
  | (plantId, quantity) :: requested =>
      match plants plantId with
      | none => .error .plantNotFound
      | some plant =>
          if plant.isActive = false then .error (.plantUnavailable plant.name)
          -- the quantity is the sum over all lines of the plant
          else if plant.stock < quantity then
            .error (.insufficientStock plant.name quantity plant.stock)
          else checkStock plants requested

/-- The first error among the priced lines. -/
def checkLines (lines : List PricedLine) : Except Error Unit :=
  match lines.findSome? PricedLine.error with
  | some e => .error e
  | none => .ok ()

/-- The phone an order is filed under. -/
def OrderDraft.phone (draft : OrderDraft) : Text :=
  match draft.source with
  | .storefront => normalizeVnPhone draft.customerPhone
  | .admin => draft.customerPhone

/-- An item row. -/
def orderItem (plants : UUID → Option Plant) (line : PricedLine) : Except Error OrderItem := do
  let unitPrice ← storeMoney line.unitPrice
  if line.item.quantity ≤ 0 then .error (.integrity .orderItemsQuantityPositive)
  else
    .ok
      { plantId := line.item.plantId
        plantName := ((plants line.item.plantId).map snapshotName).getD []
        quantity := line.item.quantity
        unitPrice := unitPrice }

/-- The order row, as its columns and check constraints accept it. -/
def orderRow (now : Instant) (draft : OrderDraft) (customerId : UUID) (orderNumber : Text)
    (priced : OrderPrice) (plants : UUID → Option Plant) : Except Error Order := do
  let subtotal ← storeMoney priced.subtotal
  let shipping ← storeMoney priced.shippingFee
  let total ← storeMoney priced.total
  if total.units ≠ subtotal.units + shipping.units then
    .error (.integrity .ordersTotalIsSubtotalPlusShipping)
  else
    let items ← priced.lines.mapM (orderItem plants)
    .ok
      { customerId := customerId
        orderNumber := orderNumber
        status := .pending
        currency := priced.currency
        subtotalAmount := subtotal
        shippingFee := shipping
        totalAmount := total
        shippingAddress := draft.shippingAddress
        note := draft.note
        paymentMethod := draft.paymentMethod
        paymentStatus := .pending
        paymentReference :=
          match draft.paymentMethod with
          | .bankTransfer => some (paymentReferenceFor orderNumber)
          | .cod => none
        paidAt := none
        items := items
        createdAt := now }

/-- Some order has this payment reference. -/
def referenceTaken (db : Db) (reference : Option Text) : Bool :=
  db.orders.rows.any fun o => o.paymentReference = reference

/-- INSERT of the order: its key, then its unique columns, then the row. -/
def insertOrder (row : Except Error Order) : Session UUID := do
  let id ← newId .order fun db id => (db.orders.get id).isSome
  -- the check constraints of the row and of its items
  let order ← Tx.ofExcept row
  claimUnique (.orderNumber order.orderNumber) .ordersOrderNumber
    fun db => db.orderNumbers.contains order.orderNumber
  Tx.whenElse (order.paymentReference ≠ none)
    (claimUnique (.paymentReference (order.paymentReference.getD [])) .ordersPaymentReference
      fun db => referenceTaken db order.paymentReference)
    ()
  Tx.stage fun db => { db with orders := db.orders.insert id order }
  return id

/-- UPDATE of one stock column, with the value computed from the locked row. -/
def writeStock (plantId : UUID) (stock : ℤ) : Session Unit := do
  raiseIf (stock < 0) (.integrity .plantsStockNonNegative)
  Tx.stage fun db =>
    { db with plants := db.plants.modify plantId fun p => { p with stock := stock } }

/-- Move the stock of one plant by `sign` times `amount`; a plant that is not
there is passed over. -/
def moveOne (sign : ℤ) (plants : UUID → Option Plant) (amount : UUID × ℤ) : Session Unit :=
  match plants amount.1 with
  | none => return ()
  | some plant => writeStock amount.1 (plant.stock + sign * amount.2)

/-- The stock of several plants moves, one row after the other. -/
def moveStock (sign : ℤ) (plants : UUID → Option Plant) : List (UUID × ℤ) → Session Unit
  | [] => return ()
  | amount :: amounts => do
      moveOne sign plants amount
      moveStock sign plants amounts

/-- Stage a `new_order` notification. -/
def queueNewOrderNotification (orderId : UUID) (orderNumber customerName : Text) :
    Session Unit := do
  let id ← newId .notification fun db id => (db.notifications.get id).isSome
  Tx.stage fun db =>
    { db with
      notifications := db.notifications.insert id
        { type := .newOrder
          title := "New order".toList
          message := "Order ".toList ++ orderNumber ++ " from ".toList ++ customerName
          entityId := orderId
          isRead := false } }

/-- The middle of `create_order`: lock the plants, check them against the
requested quantities and price the lines. -/
def checkCart (items : List OrderItemInput) :
    Session ((UUID → Option Plant) × OrderPrice) := do
  let plants ← lockPlants (plantIds items)
  raiseIf (∃ id ∈ plantIds items, plants id = none) .plantNotFound
  Tx.ofExcept (checkStock plants (requestedOf items))
  let priced ← Tx.ofExcept (priceOrder items plants)
  Tx.ofExcept (checkLines priced.lines)
  raiseIf (¬ priced.total.le maxTotalAmount) .orderTotalTooLarge
  return (plants, priced)

/-- `create_order` in a transaction whose `now()` is `now`. -/
def createOrderAt (now : Instant) (draft : OrderDraft) : Session UUID := do
  let customer ← resolveCustomerForOrder draft.phone draft.customerName draft.customerEmail
  let (plants, priced) ← checkCart draft.items
  let orderNumber ← generateOrderNumber
  -- a filled-in email goes out with the flush of the order
  customer.flush
  let id ← insertOrder (orderRow now draft customer.id orderNumber priced plants)
  moveStock (-1) plants (requestedOf draft.items)
  Tx.whenElse (draft.source = .storefront)
    (queueNewOrderNotification id orderNumber customer.name) ()
  return id

/-- Create an order from the current catalogue state in one transaction. -/
def createOrder (draft : OrderDraft) : Session UUID := do
  let now ← Tx.outside Outside.now
  createOrderAt now draft

/-- Price a cart exactly as `createOrder` would, without locks or writes. -/
def quoteOrder (items : List OrderItemInput) : Session OrderPrice := do
  let plants ← query fun db id => if id ∈ plantIds items then db.plants.get id else none
  Tx.ofExcept (priceOrder items plants)

/-! ### Status changes -/

/-- The position of a status in the pipeline. -/
def OrderStatus.flowIndex : OrderStatus → ℕ
  | .pending => 0
  | .confirmed => 1
  | .processing => 2
  | .shipping => 3
  | .completed => 4
  | .cancelled => 5

/-- Nothing follows on it. -/
def OrderStatus.terminal (s : OrderStatus) : Prop := s = .completed ∨ s = .cancelled

instance (s : OrderStatus) : Decidable s.terminal := by unfold OrderStatus.terminal; infer_instance

/-- Forward only; cancellation is allowed from any status that is not terminal. -/
def ensureTransitionAllowed (current target : OrderStatus) : Except Error Unit :=
  if current.terminal then .error (.terminalStatus current)
  else if target = .cancelled then .ok ()
  else if target.flowIndex < current.flowIndex then .error (.backwardsStatus current target)
  else .ok ()

/-- Quantities per item, keyed by plant. -/
def Order.amounts (order : Order) : List (UUID × ℤ) :=
  order.items.map fun item => (item.plantId, item.quantity)

/-- Load an order. -/
def getOrder (id : UUID) : Session Order := do
  match ← query fun db => db.orders.get id with
  | none => Tx.fail .orderNotFound
  | some order => return order

/-- Give the ordered quantities back to the plants. -/
def restoreStock (order : Order) : Session Unit := do
  let quantities := Tally.tally order.amounts
  let plants ← lockPlants (quantities.map Prod.fst)
  moveStock 1 plants quantities

/-- UPDATE of the status column. -/
def writeStatus (id : UUID) (status : OrderStatus) : Session Unit := do
  Tx.acquire (.order id)
  Tx.stage fun db =>
    { db with orders := db.orders.modify id fun o => { o with status := status } }

/-- Move an order along the pipeline, restocking on cancellation. -/
def updateOrderStatus (id : UUID) (status : OrderStatus) : Session UUID := do
  let order ← getOrder id
  Tx.whenElse (status ≠ order.status)
    (do
      Tx.ofExcept (ensureTransitionAllowed order.status status)
      Tx.whenElse (status = .cancelled) (restoreStock order) ()
      writeStatus id status)
    ()
  return id

end GreenGarden
