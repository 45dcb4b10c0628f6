/-
GreenGarden/Plants.lean

The catalogue (`plants/service.py`): creating, editing and (de)activating
plants, and the row locks that stock movements take.

An edit reads the row without a lock, and its UPDATE writes the changed
columns only (`Plant.update`): an edit that carries no stock value leaves the
stock to whoever changed it in between.
-/
import GreenGarden.Customers

namespace GreenGarden

open Transaction

/-- The row after an UPDATE of the changed columns. -/
def Plant.update (loaded edited current : Plant) : Plant where
  categoryId := changed loaded.categoryId edited.categoryId current.categoryId
  name := changed loaded.name edited.name current.name
  nameVi := changed loaded.nameVi edited.nameVi current.nameVi
  slug := changed loaded.slug edited.slug current.slug
  description := changed loaded.description edited.description current.description
  descriptionVi := changed loaded.descriptionVi edited.descriptionVi current.descriptionVi
  longDescription :=
    changed loaded.longDescription edited.longDescription current.longDescription
  longDescriptionVi :=
    changed loaded.longDescriptionVi edited.longDescriptionVi current.longDescriptionVi
  ogImageUrl := changed loaded.ogImageUrl edited.ogImageUrl current.ogImageUrl
  price := changed loaded.price edited.price current.price
  priceVi := changed loaded.priceVi edited.priceVi current.priceVi
  stock := changed loaded.stock edited.stock current.stock
  sku := changed loaded.sku edited.sku current.sku
  isFeatured := changed loaded.isFeatured edited.isFeatured current.isFeatured
  isActive := changed loaded.isActive edited.isActive current.isActive
  plantType := changed loaded.plantType edited.plantType current.plantType
  difficulty := changed loaded.difficulty edited.difficulty current.difficulty
  growthRate := changed loaded.growthRate edited.growthRate current.growthRate
  sunlight := changed loaded.sunlight edited.sunlight current.sunlight
  watering := changed loaded.watering edited.watering current.watering
  spaceRequirement :=
    changed loaded.spaceRequirement edited.spaceRequirement current.spaceRequirement
  indoorSuitable := changed loaded.indoorSuitable edited.indoorSuitable current.indoorSuitable
  outdoorSuitable :=
    changed loaded.outdoorSuitable edited.outdoorSuitable current.outdoorSuitable
  petSafe := changed loaded.petSafe edited.petSafe current.petSafe
  beginnerFriendly :=
    changed loaded.beginnerFriendly edited.beginnerFriendly current.beginnerFriendly

/-- An edit that does not change the stock value leaves the stock alone. -/
theorem Plant.update_stock {loaded edited : Plant} (h : edited.stock = loaded.stock)
    (current : Plant) : (Plant.update loaded edited current).stock = current.stock := if_pos h

/-- The category exists. -/
def getCategory (id : UUID) : Session Unit := do
  let found ← query fun db => (db.categories.get id).isSome
  raiseIf (found = false) .categoryNotFound

/-- Load a plant. -/
def getPlant (id : UUID) : Session Plant := do
  match ← query fun db => db.plants.get id with
  | none => Tx.fail .plantNotFound
  | some plant => return plant

/-- No other plant has this slug. -/
def ensureSlugAvailable (slug : Text) (excludeId : Option UUID) : Session Unit := do
  let taken ← query fun db =>
    db.plants.entries.any fun e => e.2.slug = slug ∧ some e.1 ≠ excludeId
  raiseIf (taken = true) (.slugConflict slug)

/-- No other plant has this SKU. -/
def ensureSkuAvailable (sku : Text) (excludeId : Option UUID) : Session Unit := do
  let taken ← query fun db =>
    db.plants.entries.any fun e => e.2.sku = sku ∧ some e.1 ≠ excludeId
  raiseIf (taken = true) (.skuConflict sku)

/-- Drop `slug` from history so a live plant can take it over. -/
def releaseHistoricalSlug (slug : Text) : Session Unit := do
  Tx.acquire (.historySlug slug)
  Tx.stage fun db => { db with slugHistory := db.slugHistory.remove fun r => r.slug = slug }

/-- Take the entry of the unique index on slugs. -/
def claimSlug (slug : Text) : Session Unit :=
  claimUnique (.plantSlug slug) .plantsSlug
    fun db => (db.plants.find? fun p => p.slug = slug).isSome

/-- Take the entry of the unique index on SKUs. -/
def claimSku (sku : Text) : Session Unit :=
  claimUnique (.plantSku sku) .plantsSku
    fun db => (db.plants.find? fun p => p.sku = sku).isSome

/-- Create a plant under a slug and a SKU that are free. -/
def createPlant (plant : Plant) : Session UUID := do
  getCategory plant.categoryId
  ensureSlugAvailable plant.slug none
  ensureSkuAvailable plant.sku none
  releaseHistoricalSlug plant.slug
  let id ← newId .plant fun db id => (db.plants.get id).isSome
  -- the INSERT: its check constraint, then its unique columns
  raiseIf (plant.stock < 0) (.integrity .plantsStockNonNegative)
  claimSlug plant.slug
  claimSku plant.sku
  Tx.stage fun db => { db with plants := db.plants.insert id plant }
  return id

/-- UPDATE of the columns that differ; none differ, no UPDATE. -/
def flushPlant (id : UUID) (loaded edited : Plant) : Session Unit :=
  Tx.whenElse (edited ≠ loaded)
    (do
      Tx.acquire (.plant id)
      raiseIf (edited.stock ≠ loaded.stock ∧ edited.stock < 0)
        (.integrity .plantsStockNonNegative)
      Tx.whenElse (edited.slug ≠ loaded.slug) (claimSlug edited.slug) ()
      Tx.whenElse (edited.sku ≠ loaded.sku) (claimSku edited.sku) ()
      Tx.stage fun db =>
        { db with plants := db.plants.modify id (Plant.update loaded edited) })
    ()

/-- Arguments of `update_plant`.  A column that may be NULL is `none` when it
is not provided and `some v` when its `_provided` flag is set. -/
structure PlantPatch where
  categoryId : Option UUID
  name : Option Text
  nameVi : Option (Option Text)
  slug : Option Text
  description : Option (Option Text)
  descriptionVi : Option (Option Text)
  longDescription : Option (Option Text)
  longDescriptionVi : Option (Option Text)
  ogImageUrl : Option (Option Text)
  price : Option Money
  priceVi : Option (Option Money)
  stock : Option ℤ
  sku : Option Text
  isFeatured : Option Bool
  isActive : Option Bool
  plantType : Option (Option PlantType)
  difficulty : Option (Option PlantDifficulty)
  growthRate : Option (Option PlantGrowthRate)
  sunlight : Option (Option PlantSunlight)
  watering : Option (Option PlantWatering)
  spaceRequirement : Option (Option PlantSpaceRequirement)
  indoorSuitable : Option (Option Bool)
  outdoorSuitable : Option (Option Bool)
  petSafe : Option (Option Bool)
  beginnerFriendly : Option (Option Bool)
  deriving DecidableEq

/-- The loaded row with the patch applied. -/
def PlantPatch.apply (patch : PlantPatch) (plant : Plant) : Plant where
  categoryId := patch.categoryId.getD plant.categoryId
  name := patch.name.getD plant.name
  nameVi := patch.nameVi.getD plant.nameVi
  slug := patch.slug.getD plant.slug
  description := patch.description.getD plant.description
  descriptionVi := patch.descriptionVi.getD plant.descriptionVi
  longDescription := patch.longDescription.getD plant.longDescription
  longDescriptionVi := patch.longDescriptionVi.getD plant.longDescriptionVi
  ogImageUrl := patch.ogImageUrl.getD plant.ogImageUrl
  price := patch.price.getD plant.price
  priceVi := patch.priceVi.getD plant.priceVi
  stock := patch.stock.getD plant.stock
  sku := patch.sku.getD plant.sku
  isFeatured := patch.isFeatured.getD plant.isFeatured
  isActive := patch.isActive.getD plant.isActive
  plantType := patch.plantType.getD plant.plantType
  difficulty := patch.difficulty.getD plant.difficulty
  growthRate := patch.growthRate.getD plant.growthRate
  sunlight := patch.sunlight.getD plant.sunlight
  watering := patch.watering.getD plant.watering
  spaceRequirement := patch.spaceRequirement.getD plant.spaceRequirement
  indoorSuitable := patch.indoorSuitable.getD plant.indoorSuitable
  outdoorSuitable := patch.outdoorSuitable.getD plant.outdoorSuitable
  petSafe := patch.petSafe.getD plant.petSafe
  beginnerFriendly := patch.beginnerFriendly.getD plant.beginnerFriendly

/-- The slug part of an edit: free the new slug in the history now, keep the
old one there at the flush. -/
def releaseSlug (id : UUID) (plant edited : Plant) : Session Unit :=
  Tx.whenElse (edited.slug ≠ plant.slug)
    (do
      ensureSlugAvailable edited.slug (some id)
      releaseHistoricalSlug edited.slug)
    ()

/-- Remember a slug that the plant had. -/
def insertSlugHistory (id : UUID) (slug : Text) : Session Unit := do
  let rowId ← newId .slugHistory fun db id => (db.slugHistory.get id).isSome
  claimUnique (.historySlug slug) .slugHistorySlug
    fun db => (db.slugHistory.find? fun r => r.slug = slug).isSome
  Tx.stage fun db => { db with slugHistory := db.slugHistory.insert rowId ⟨id, slug⟩ }

/-- Update a plant; a slug it had is remembered. -/
def updatePlant (id : UUID) (patch : PlantPatch) : Session UUID := do
  let plant ← getPlant id
  let edited := patch.apply plant
  Tx.whenElse (edited.categoryId ≠ plant.categoryId) (getCategory edited.categoryId) ()
  releaseSlug id plant edited
  Tx.whenElse (edited.sku ≠ plant.sku) (ensureSkuAvailable edited.sku (some id)) ()
  -- the UPDATE goes out before the INSERT of the history row
  flushPlant id plant edited
  Tx.whenElse (edited.slug ≠ plant.slug) (insertSlugHistory id plant.slug) ()
  return id

/-- Put a plant on sale or take it off. -/
def setPlantStatus (id : UUID) (isActive : Bool) : Session UUID := do
  let plant ← getPlant id
  flushPlant id plant { plant with isActive := isActive }
  return id

/-! ### What a request leaves in its session

The response and the knowledge mirror are built from the session's own object:
a second SELECT of the same row does not refresh it. -/

/-- A plant in the session of a request that saved it: the row it loaded, if
it loaded one, and the row as it left it. -/
structure SavedPlant where
  id : UUID
  loaded : Option Plant
  copy : Plant
  deriving DecidableEq

/-- `updatePlant` after it has loaded `plant`, with `edited` to be saved. -/
def saveEdit (id : UUID) (plant edited : Plant) : Session Unit := do
  Tx.whenElse (edited.categoryId ≠ plant.categoryId) (getCategory edited.categoryId) ()
  releaseSlug id plant edited
  Tx.whenElse (edited.sku ≠ plant.sku) (ensureSkuAvailable edited.sku (some id)) ()
  flushPlant id plant edited
  Tx.whenElse (edited.slug ≠ plant.slug) (insertSlugHistory id plant.slug) ()

/-- Load a plant, edit it and save it. -/
def editPlant (id : UUID) (edit : Plant → Plant) : Session SavedPlant := do
  let plant ← getPlant id
  saveEdit id plant (edit plant)
  return ⟨id, some plant, edit plant⟩

/-- The edit of `set_plant_status`. -/
def Plant.activated (isActive : Bool) (plant : Plant) : Plant := { plant with isActive := isActive }

/-- `createPlant`, with the row it saves. -/
def createPlantSaved (plant : Plant) : Session SavedPlant := do
  let id ← createPlant plant
  return ⟨id, none, plant⟩

/-- `updatePlant`, with the row it saves. -/
def updatePlantSaved (id : UUID) (patch : PlantPatch) : Session SavedPlant :=
  editPlant id patch.apply

/-- `setPlantStatus`, with the row it saves. -/
def setPlantStatusSaved (id : UUID) (isActive : Bool) : Session SavedPlant :=
  editPlant id (Plant.activated isActive)

theorem createPlant_eq (plant : Plant) :
    createPlant plant = SavedPlant.id <$> createPlantSaved plant := by
  simp [createPlantSaved]

theorem updatePlant_eq (id : UUID) (patch : PlantPatch) :
    updatePlant id patch = SavedPlant.id <$> updatePlantSaved id patch := by
  simp [updatePlant, updatePlantSaved, editPlant, saveEdit]

/-- A status change touches neither category, slug nor SKU. -/
theorem setPlantStatus_eq (id : UUID) (isActive : Bool) :
    setPlantStatus id isActive = SavedPlant.id <$> setPlantStatusSaved id isActive := by
  have skip : ∀ {α : Type} (a : α) (g : α → Session SavedPlant), (Tx.ret a >>= g) = g a :=
    fun _ _ => rfl
  simp only [setPlantStatus, setPlantStatusSaved, editPlant, saveEdit, releaseSlug,
    Plant.activated, Tx.whenElse, ne_eq, not_true, if_false, skip, bind_assoc, pure_bind,
    map_eq_pure_bind]

/-- The requests that write the catalogue. -/
inductive PlantRequest where
  | createPlant (plant : Plant)
  | updatePlant (id : UUID) (patch : PlantPatch)
  | setPlantStatus (id : UUID) (isActive : Bool)
  deriving DecidableEq

/-- One request, as a transaction. -/
def PlantRequest.body : PlantRequest → Session UUID
  | .createPlant plant => GreenGarden.createPlant plant
  | .updatePlant id patch => GreenGarden.updatePlant id patch
  | .setPlantStatus id isActive => GreenGarden.setPlantStatus id isActive

/-- One request, with the row it saves. -/
def PlantRequest.saved : PlantRequest → Session SavedPlant
  | .createPlant plant => createPlantSaved plant
  | .updatePlant id patch => updatePlantSaved id patch
  | .setPlantStatus id isActive => setPlantStatusSaved id isActive

theorem PlantRequest.body_eq (request : PlantRequest) :
    request.body = SavedPlant.id <$> request.saved := by
  cases request with
  | createPlant plant => exact createPlant_eq plant
  | updatePlant id patch => exact updatePlant_eq id patch
  | setPlantStatus id isActive => exact setPlantStatus_eq id isActive

/-! ### Looking a plant up by slug -/

/-- What a listing shows: everything, or active plants only. -/
def Plant.shown (activeOnly : Bool) (plant : Plant) : Bool := !activeOnly || plant.isActive

/-- The plants that used `slug` before, with their keys. -/
def usedBefore (db : Db) (slug : Text) : List (UUID × Plant) :=
  (db.slugHistory.rows.filter fun r => r.slug = slug).filterMap fun r =>
    (db.plants.get r.plantId).map fun plant => (r.plantId, plant)

/-- Resolve a plant by its current slug, falling back to slugs it used before.
A historical match returns the plant with its current slug. -/
def getPlantBySlug (slug : Text) (activeOnly : Bool) : Session (UUID × Plant) := do
  -- both slug columns are unique, so neither query finds two rows
  match ← query fun db => db.plants.find? fun p => p.slug = slug && p.shown activeOnly with
  | some found => return found
  | none =>
      match ← query fun db => (usedBefore db slug).find? fun e => e.2.shown activeOnly with
      | some found => return found
      | none => Tx.fail .plantNotFound

/-! ### Row locks for stock movements -/

/-- `SELECT ... WHERE id IN (...) ORDER BY id FOR UPDATE`: the rows that exist
now are locked in the order of their ids, and each is returned as it is once
it is locked. -/
def lockPlants (ids : List UUID) : Session (UUID → Option Plant) := do
  let found ← query fun db => ids.filter fun id => (db.plants.get id).isSome
  -- one order of locking for everybody
  Tx.acquireAll ((found.insertionSort (· ≤ ·)).map .plant)
  query fun db id => if id ∈ found then db.plants.get id else none

end GreenGarden
