/-
GreenGarden/Admins.lean

Administrators (`admins/service.py`, `auth/dependencies.py`), on a database of
their own.

A request authenticates its caller and then does its work in one session, so
a request about the caller's own row works on the row as it was when the
caller was authenticated: a second SELECT does not refresh it
(`getAdmin`).  The UPDATE writes the changed columns only.

The access token is taken to be valid; its subject is the caller.  Argon2id
is salted, so a hash is a value from outside.
-/
import GreenGarden.Customers

namespace GreenGarden

open Transaction

/-- Admin users who can access the admin panel. -/
structure Admin where
  name : Text
  email : Text
  passwordHash : Text
  isActive : Bool
  deriving DecidableEq

/-- The table of the admin panel. -/
structure AdminDb where
  admins : Table UUID Admin

/-- A row, or an entry of the unique index on emails. -/
inductive AdminKey where
  | admin (id : UUID)
  | adminEmail (email : Text)
  deriving DecidableEq

/-- How a call of the admin panel can fail. -/
inductive AdminError where
  | notAuthenticated
  | adminNotFound
  | emailConflict (email : Text)
  | selfDeactivation
  | weakPassword (message : Text)
  | primaryKey
  | adminsEmail
  deriving DecidableEq

/-- What a request takes from outside the database. -/
structure AdminOutside where
  uuid : UUID
  hash : Text

/-- A transaction of the admin panel. -/
abbrev AdminSession := Tx AdminDb AdminKey AdminOutside AdminError

/-- `str.lower`, `str.isalpha` and `str.isdigit`. -/
structure Letters where
  lower : Text → Text
  isAlpha : Char → Bool
  isDigit : Char → Bool

/-- The row after an UPDATE of the changed columns. -/
def Admin.update (loaded edited current : Admin) : Admin where
  name := changed loaded.name edited.name current.name
  email := changed loaded.email edited.email current.email
  passwordHash := changed loaded.passwordHash edited.passwordHash current.passwordHash
  isActive := changed loaded.isActive edited.isActive current.isActive

/-! ### Authentication -/

/-- An admin in a session, as it was loaded. -/
structure LoadedAdmin where
  id : UUID
  row : Admin

/-- The caller, who has to be active. -/
def getCurrentAdmin (caller : UUID) : AdminSession LoadedAdmin := do
  match ← Tx.query fun db : AdminDb => db.admins.get caller with
  | none => Tx.fail .notAuthenticated
  | some admin =>
      if admin.isActive then return ⟨caller, admin⟩
      else Tx.fail .notAuthenticated

/-- A row of the session; `me` is in it already. -/
def getAdmin (me : LoadedAdmin) (id : UUID) : AdminSession LoadedAdmin := do
  match ← Tx.query fun db : AdminDb => db.admins.get id with
  | none => Tx.fail .adminNotFound
  | some admin => return if id = me.id then me else ⟨id, admin⟩

/-- Look an admin up by email; emails are stored normalized. -/
def getAdminByEmail (letters : Letters) (email : Text) : AdminSession (Option UUID) :=
  let normalized := normalizeEmail letters.lower email
  Tx.query fun db => (db.admins.find? fun admin => admin.email = normalized).map Prod.fst

/-- Password rules for admin accounts. -/
def validatePasswordStrength (letters : Letters) (password : Text) : Except AdminError Unit :=
  if password.length < 8 then
    .error (.weakPassword "Password must be at least 8 characters".toList)
  else if !password.any letters.isAlpha then
    .error (.weakPassword "Password must contain at least one letter".toList)
  else if !password.any letters.isDigit then
    .error (.weakPassword "Password must contain at least one digit".toList)
  else .ok ()

/-! ### Writing -/

/-- A new entry of the index on emails. -/
def claimEmail (email : Text) : AdminSession Unit := do
  Tx.acquire (.adminEmail email)
  let clash ← Tx.query fun db : AdminDb =>
    (db.admins.find? fun admin => admin.email = email).isSome
  Tx.failIf (clash = true) .adminsEmail

/-- UPDATE of the columns that differ; none differ, no UPDATE. -/
def flushAdmin (id : UUID) (loaded edited : Admin) : AdminSession Unit :=
  Tx.whenElse (edited ≠ loaded)
    (do
      Tx.acquire (.admin id)
      Tx.whenElse (edited.email ≠ loaded.email) (claimEmail edited.email) ()
      Tx.stage fun db => { db with admins := db.admins.modify id (Admin.update loaded edited) })
    ()

/-- Create an active admin, with a password that passes and an email that is free. -/
def createAdminAccount (letters : Letters) (name email password : Text) : AdminSession UUID := do
  Tx.ofExcept (validatePasswordStrength letters password)
  let normalized := normalizeEmail letters.lower email
  let existing ← getAdminByEmail letters normalized
  Tx.failIf (existing ≠ none) (.emailConflict normalized)
  let hash ← Tx.outside AdminOutside.hash
  let id ← Tx.outside AdminOutside.uuid
  Tx.acquire (.admin id)
  let clash ← Tx.query fun db : AdminDb => (db.admins.get id).isSome
  Tx.failIf (clash = true) .primaryKey
  claimEmail normalized
  Tx.stage fun db => { db with admins := db.admins.insert id ⟨strip name, normalized, hash, true⟩ }
  return id

/-- Arguments of `update_admin`. -/
structure AdminPatch where
  name : Option Text
  email : Option Text
  isActive : Option Bool
  deriving DecidableEq

/-- The loaded row with the patch applied. -/
def AdminPatch.apply (letters : Letters) (patch : AdminPatch) (admin : Admin) : Admin where
  name := (patch.name.map strip).getD admin.name
  email := (patch.email.map (normalizeEmail letters.lower)).getD admin.email
  passwordHash := admin.passwordHash
  isActive := patch.isActive.getD admin.isActive

/-- Update an admin; nobody deactivates themselves. -/
def updateAdmin (letters : Letters) (me : LoadedAdmin) (id : UUID) (patch : AdminPatch) :
    AdminSession UUID := do
  let admin ← getAdmin me id
  let edited := patch.apply letters admin.row
  Tx.whenElse (edited.email ≠ admin.row.email)
    (do
      let existing ← getAdminByEmail letters edited.email
      Tx.failIf (existing.any (· ≠ id)) (.emailConflict edited.email))
    ()
  Tx.failIf (id = me.id ∧ patch.isActive = some false) .selfDeactivation
  flushAdmin id admin.row edited
  return id

/-- Activate or deactivate an admin. -/
def updateAdminStatus (letters : Letters) (me : LoadedAdmin) (id : UUID) (isActive : Bool) :
    AdminSession UUID :=
  updateAdmin letters me id ⟨none, none, some isActive⟩

/-- Set a new password. -/
def changeAdminPassword (letters : Letters) (me : LoadedAdmin) (id : UUID) (password : Text) :
    AdminSession UUID := do
  Tx.ofExcept (validatePasswordStrength letters password)
  let admin ← getAdmin me id
  let hash ← Tx.outside AdminOutside.hash
  flushAdmin id admin.row { admin.row with passwordHash := hash }
  return id

/-! ### Requests -/

/-- What a caller can ask of the panel. -/
inductive AdminRequest where
  | createAdmin (name email password : Text)
  | patchAdmin (id : UUID) (payload : AdminPatch)
  | patchAdminStatus (id : UUID) (isActive : Bool)
  | patchAdminPassword (id : UUID) (password : Text)
  deriving DecidableEq

/-- A request and the subject of its access token. -/
structure AdminCall where
  caller : UUID
  request : AdminRequest
  deriving DecidableEq

/-- One request, from its authentication to the commit. -/
def AdminCall.body (letters : Letters) (call : AdminCall) : AdminSession UUID := do
  let me ← getCurrentAdmin call.caller
  match call.request with
  | .createAdmin name email password => createAdminAccount letters name email password
  | .patchAdmin id payload => updateAdmin letters me id payload
  | .patchAdminStatus id isActive => updateAdminStatus letters me id isActive
  | .patchAdminPassword id password => changeAdminPassword letters me id password

/-- Calls running side by side. -/
def adminPanel {ι : Type} (letters : Letters) (calls : ι → AdminCall) :
    Workload ι AdminDb AdminKey AdminOutside AdminError UUID where
  body i := (calls i).body letters
  token _ := []

end GreenGarden
