/-
GreenGarden/Customers.lean

Guest customers (`customers/service.py`).

The ORM writes an UPDATE at the next flush, for the columns whose value
differs from the one it loaded and for no others (`changed`): an edit is
therefore a merge of the loaded row, the edited row and whatever the row has
become by then.  `resolveCustomerForOrder` leaves such an edit behind without
flushing it (`OrderCustomer.pendingEmail`); the order that follows flushes it.
-/
import GreenGarden.Schema

namespace GreenGarden

open Transaction

/-- A column after an UPDATE: the edited value if the edit changed it, else
the value the row has now. -/
def changed {α : Type} [DecidableEq α] (loaded edited current : α) : α :=
  if edited = loaded then current else edited

/-- The row after an UPDATE of the changed columns. -/
def Customer.update (loaded edited current : Customer) : Customer where
  phone := changed loaded.phone edited.phone current.phone
  name := changed loaded.name edited.name current.name
  email := changed loaded.email edited.email current.email
  isActive := changed loaded.isActive edited.isActive current.isActive

/-- Some customer has this phone. -/
def phoneTaken (db : Db) (phone : Text) : Bool :=
  (db.customers.find? fun c => c.phone = phone).isSome

/-- Nobody else has this phone. -/
def ensurePhoneAvailable (phone : Text) (excludeId : Option UUID) : Session Unit := do
  let taken ← query fun db =>
    db.customers.entries.any fun e => e.2.phone = phone ∧ some e.1 ≠ excludeId
  raiseIf (taken = true) (.customerPhoneConflict phone)

/-- Load a customer. -/
def getCustomer (id : UUID) : Session Customer := do
  match ← query fun db => db.customers.get id with
  | none => Tx.fail .customerNotFound
  | some customer => return customer

/-- Look a customer up by phone, as it is stored. -/
def getCustomerByPhone (phone : Text) : Session (Option (UUID × Customer)) :=
  query fun db => db.customers.find? fun c => c.phone = phone

/-- INSERT of a customer row. -/
def insertCustomer (customer : Customer) : Session UUID := do
  let id ← newId .customer fun db id => (db.customers.get id).isSome
  claimUnique (.customerPhone customer.phone) .customersPhone
    fun db => phoneTaken db customer.phone
  Tx.stage fun db => { db with customers := db.customers.insert id customer }
  return id

/-- UPDATE of the columns that differ; none differ, no UPDATE. -/
def flushCustomer (id : UUID) (loaded edited : Customer) : Session Unit :=
  Tx.whenElse (edited ≠ loaded)
    (do
      Tx.acquire (.customer id)
      Tx.whenElse (edited.phone ≠ loaded.phone)
        (claimUnique (.customerPhone edited.phone) .customersPhone
          fun db => phoneTaken db edited.phone)
        ()
      Tx.stage fun db =>
        { db with customers := db.customers.modify id (Customer.update loaded edited) })
    ()

/-- Create an active customer under a phone that is free. -/
def createCustomer (phone name : Text) (email : Option Text) : Session UUID := do
  ensurePhoneAvailable phone none
  insertCustomer ⟨phone, name, email, true⟩

/-- Arguments of `update_customer`; `email` is `none` when it is not provided. -/
structure CustomerPatch where
  phone : Option Text
  name : Option Text
  email : Option (Option Text)
  deriving DecidableEq

/-- Identity fields only; order history and timestamps are never touched. -/
def updateCustomer (id : UUID) (patch : CustomerPatch) : Session UUID := do
  let customer ← getCustomer id
  let phone := patch.phone.getD customer.phone
  Tx.whenElse (phone ≠ customer.phone) (ensurePhoneAvailable phone (some id)) ()
  flushCustomer id customer
    { customer with
      phone := phone
      name := patch.name.getD customer.name
      email := patch.email.getD customer.email }
  return id

/-- Soft deactivation: the row and its orders always stay in place. -/
def setCustomerStatus (id : UUID) (isActive : Bool) : Session UUID := do
  let customer ← getCustomer id
  flushCustomer id customer { customer with isActive := isActive }
  return id

/-- The customer of an order in the making; `pendingEmail` is an edit of the
row that has not been flushed yet. -/
structure OrderCustomer where
  id : UUID
  name : Text
  pendingEmail : Option Text

/-- Find the customer behind a checkout phone number, creating one when new.
An existing profile keeps its name; a missing email is filled in. -/
def resolveCustomerForOrder (phone name : Text) (email : Option Text) :
    Session OrderCustomer := do
  match ← getCustomerByPhone phone with
  | some (id, customer) =>
      raiseIf (customer.isActive = false) (.customerInactive phone)
      return ⟨id, customer.name, if customer.email = none then email else none⟩
  | none =>
      let id ← insertCustomer ⟨phone, name, email, true⟩
      return ⟨id, name, none⟩

/-- Flush what `resolveCustomerForOrder` left behind. -/
def OrderCustomer.flush (customer : OrderCustomer) : Session Unit :=
  match customer.pendingEmail with
  | none => return ()
  | some email => do
      -- the UPDATE writes the email it decided on when it read the row
      Tx.acquire (.customer customer.id)
      Tx.stage fun db =>
        { db with customers := db.customers.modify customer.id fun c => { c with email := email } }

end GreenGarden
