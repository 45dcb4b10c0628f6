/-
GreenGarden/Payments.lean

Bank transfer payments through SePay (`payments/service.py`).

`bankTransferInfo` is what the customer is told to pay; `processSepayWebhook`
records one reported transaction and settles the order it pays.  The INSERT
with ON CONFLICT DO NOTHING waits for another delivery of the same provider id
and then either finds its row or inserts.  Among several orders that a
transaction names, the query takes the one created first, and which one that
is when creation times tie is not determined (`Outside.pick`).
-/
import GreenGarden.Orders
import GreenGarden.Scan

namespace GreenGarden

open Transaction

/-! ### What the customer sees -/

/-- The settings of the payment provider. -/
structure Settings where
  sepayWebhookApiKey : Option Text
  sepayBankCode : Text
  sepayBankName : Option Text
  sepayAccountNumber : Option Text
  sepayAccountHolder : Option Text

/-- `bool(value)` of an optional string. -/
def present (value : Option Text) : Bool := !(value.getD []).isEmpty

/-- An account and the key of the webhook are configured. -/
def Settings.bankTransferEnabled (settings : Settings) : Bool :=
  present settings.sepayAccountNumber && present settings.sepayWebhookApiKey

/-- Where and how much to transfer. -/
structure BankTransferDetails where
  bankCode : Text
  bankName : Text
  accountNumber : Text
  accountHolder : Option Text
  amount : Decimal
  reference : Text
  qrUrl : Text
  deriving DecidableEq

/-- One byte as `%XX`. -/
def percentByte (b : UInt8) : Text :=
  '%' :: (List.replicate (2 - (Nat.toDigits 16 b.toNat).length) '0'
    ++ (Nat.toDigits 16 b.toNat).map Char.toUpper)

/-- `urllib.parse.quote_plus`. -/
def quotePlus (s : Text) : Text :=
  s.flatMap fun c =>
    if c.isAlphanum || ['_', '.', '-', '~'].contains c then [c]
    else if c = ' ' then ['+']
    else (String.utf8EncodeChar c).flatMap percentByte

/-- `urllib.parse.urlencode`. -/
def urlencode (query : List (Text × Text)) : Text :=
  ['&'].intercalate (query.map fun kv => quotePlus kv.1 ++ '=' :: quotePlus kv.2)

/-- Where the QR code is drawn. -/
def qrBaseUrl : Text := "https://qr.sepay.vn/img".toList

/-- What the customer needs to pay `order` by transfer, or `none`. -/
def bankTransferInfo (settings : Settings) (order : Order) :
    Except Error (Option BankTransferDetails) :=
  match order.paymentMethod, order.paymentReference, settings.sepayAccountNumber with
  | .bankTransfer, some reference, some accountNumber =>
      if accountNumber.isEmpty then .ok none
      else
        -- VND has no minor unit on bank transfers
        match order.totalAmount.toDecimal.quantize 0 with
        | none => .error .invalidOperation
        | some amount =>
            let query := [("acc".toList, accountNumber), ("bank".toList, settings.sepayBankCode),
              ("amount".toList, showInt amount.coeff), ("des".toList, reference),
              ("template".toList, "compact".toList)]
            .ok (some
              { bankCode := settings.sepayBankCode
                bankName :=
                  if present settings.sepayBankName then settings.sepayBankName.getD []
                  else settings.sepayBankCode
                accountNumber := accountNumber
                accountHolder := settings.sepayAccountHolder
                amount := amount
                reference := reference
                qrUrl := qrBaseUrl ++ '?' :: urlencode query })
  | _, _, _ => .ok none

/-! ### The webhook -/

/-- `GG\d{12}`, in any letter case. -/
def referencePattern : List (Char → Bool) :=
  List.replicate 2 (fun c => c = 'G' || c = 'g') ++ List.replicate 12 isDecimal

/-- `code` first (SePay's own extraction), then the matches in `content` and
`description`, each value once. -/
def candidateReferences (cm : CaseMap) (payload : SePayWebhookPayload) : List Text :=
  let code := if present payload.code then [cm.upper (strip (payload.code.getD []))] else []
  let found := [payload.content, payload.description].flatMap fun text =>
    (Scan.findall referencePattern (text.getD [])).map cm.upper
  (code ++ found).eraseDups

/-- The bank-transfer orders that a list of references names. -/
def namedOrders (db : Db) (references : List Text) : List (UUID × Order) :=
  db.orders.entries.filter fun e =>
    e.2.paymentMethod = .bankTransfer ∧ ∃ r ∈ references, e.2.paymentReference = some r

/-- `ORDER BY created_at LIMIT 1`. -/
def oldest (orders : List (UUID × Order)) (pick : ℕ) : Option (UUID × Order) :=
  -- all that the ORDER BY allows to come first
  let first := orders.filter fun e => ∀ e' ∈ orders, e.2.createdAt ≤ e'.2.createdAt
  first[pick % first.length]?

/-- The oldest order that is named, locked and read again. -/
def lockOrderByReference (references : List Text) : Session (Option (UUID × Order)) := do
  let pick ← Tx.outside Outside.pick
  match ← query fun db => oldest (namedOrders db references) pick with
  | none => return none
  | some (id, _) => do
      Tx.acquire (.order id)
      -- the row as it is once it is locked
      let order ← query fun db => db.orders.get id
      return order.map fun order => (id, order)

/-- Mark an order paid. -/
def payOrder (id : UUID) : Session Unit := do
  let paidAt ← Tx.outside Outside.clock
  Tx.stage fun db =>
    { db with
      orders := db.orders.modify id fun o =>
        { o with paymentStatus := .paid, paidAt := some paidAt } }

/-- Settle the order a transaction names, and say what became of it. -/
def settleOrder (cm : CaseMap) (payload : SePayWebhookPayload) :
    Session (Option UUID × PaymentMatchStatus) :=
  Tx.whenElse (payload.transferType = some "in".toList)
    (do
      match ← lockOrderByReference (candidateReferences cm payload) with
      | none => return (none, .unmatched)
      | some (id, order) =>
          -- decided on the locked row, not on the one that was chosen
          if order.paymentStatus = .paid then return (some id, .alreadyPaid)
          else if ¬ payload.transferAmount.eqv order.totalAmount.toDecimal then
            return (some id, .amountMismatch)
          else do
            payOrder id
            return (some id, .matched))
    (none, .ignored)

/-- The amount as the `NUMERIC(14, 2)` column takes it. -/
def storeAmount (d : Decimal) : Except Error (Numeric 14) :=
  match Numeric.store 14 d with
  | some n => .ok n
  | none => .error .numericOverflow

/-- The row a delivery inserts; it starts out unmatched.  The payload bounds
none of its fields, and the columns refuse what they cannot hold. -/
def transactionRow (payload : SePayWebhookPayload) : Except Error PaymentTransaction := do
  let providerTransactionId ← storeBigInteger payload.id
  let gateway ← storeNullable 100 payload.gateway
  let accountNumber ← storeNullable 100 payload.accountNumber
  let subAccount ← storeNullable 250 payload.subAccount
  let code ← storeNullable 250 payload.code
  let transferType ← storeNullable 10 payload.transferType
  let transferAmount ← storeAmount payload.transferAmount
  let referenceCode ← storeNullable 255 payload.referenceCode
  let transactionDate ← storeNullable 32 payload.transactionDate
  return {
    providerTransactionId, gateway, accountNumber, subAccount, code, transferType,
    transferAmount, referenceCode, transactionDate
    orderId := none
    content := payload.content
    matchStatus := .unmatched
    rawPayload := payload }

/-- Some transaction is recorded under this provider id. -/
def recorded (db : Db) (id : ℤ) : Bool :=
  db.transactions.rows.any fun t => t.providerTransactionId = id

/-- Record a transaction that was not recorded before. -/
def recordTransaction (cm : CaseMap) (payload : SePayWebhookPayload) (row : PaymentTransaction) :
    Session PaymentMatchStatus := do
  let id ← newId .transaction fun db id => (db.transactions.get id).isSome
  Tx.stage fun db => { db with transactions := db.transactions.insert id row }
  let (orderId, status) ← settleOrder cm payload
  Tx.stage fun db =>
    { db with
      transactions := db.transactions.modify id fun t =>
        { t with orderId := orderId, matchStatus := status } }
  return status

/-- Record one SePay transaction and settle the order it pays; `none` when an
earlier delivery recorded it. -/
def processSepayWebhook (cm : CaseMap) (payload : SePayWebhookPayload) :
    Session (Option PaymentMatchStatus) := do
  -- the columns take or refuse the values before there can be a conflict
  let row ← Tx.ofExcept (transactionRow payload)
  -- ON CONFLICT waits here for another delivery of the same id
  Tx.acquire (.providerTransaction payload.id)
  let again ← query fun db => recorded db payload.id
  Tx.whenElse (again = false)
    (do
      let status ← recordTransaction cm payload row
      return some status)
    none

end GreenGarden
