/-
GreenGarden/Mirror.lean

The `PlantKnowledge` collection (`knowledge/plant_indexer.py`,
`knowledge/weaviate.py`): one plant's chunks replaced at a time, after a save
or in a pass over the whole catalogue.

Indexing an active plant replaces its objects (`indexPlant_active`), in the
sense of `GreenGarden/Replica.lean`.  `reindexAllPlants` visits the active
plants only, so what it repairs is exactly what it reaches:
`reindex_exact_iff`.  Weaviate is taken to be switched on.
-/
import GreenGarden.Knowledge
import GreenGarden.System

namespace GreenGarden

open Replica

/-- The objects of `PlantKnowledge`, under their UUIDs. -/
abbrev Collection := Store UUID KnowledgeObject

/-- `delete_many` on `source_type` and `source_id`. -/
def deletePlantKnowledgeBySource (id : UUID) (collection : Collection) : Collection :=
  deleteMany (ofPlant id) collection

/-- `insert_many`, with the number of objects; one without content is left
out. -/
def upsertPlantKnowledgeObjects (objects : List (UUID × KnowledgeObject))
    (collection : Collection) : Collection × ℕ :=
  let dataObjects := objects.filter fun e => !e.2.content.isEmpty
  (insertMany dataObjects collection, dataObjects.length)

/-- Replace the knowledge of an active plant; returns the number of objects
written.  An inactive plant is removed instead. -/
def indexPlant (indexer : Indexer) (id : UUID) (plant : Plant) (collection : Collection) :
    Collection × ℕ :=
  if plant.isActive = false then (deletePlantKnowledgeBySource id collection, 0)
  else
    let chunks := plantChunksToWeaviateObjects indexer id plant
    let cleared := deletePlantKnowledgeBySource id collection
    if chunks.isEmpty then (cleared, 0) else upsertPlantKnowledgeObjects chunks cleared

/-- The calls to the store that the sync of a saved plant makes, in order. -/
def syncCalls (indexer : Indexer) (id : UUID) (plant : Plant) : List (Collection → Collection) :=
  if plant.isActive = false then [deletePlantKnowledgeBySource id]
  else
    let chunks := plantChunksToWeaviateObjects indexer id plant
    if chunks.isEmpty then [deletePlantKnowledgeBySource id]
    else [deletePlantKnowledgeBySource id, fun c => (upsertPlantKnowledgeObjects chunks c).1]

/-- The order in which a query without ORDER BY returns rows. -/
structure RowOrder where
  rows : List (UUID × Plant) → List (UUID × Plant)
  perm : ∀ l, (rows l).Perm l

/-- Re-index plants; returns the number of objects written. -/
def reindexAllPlants (indexer : Indexer) (order : RowOrder) (activeOnly : Bool) (db : Db)
    (collection : Collection) : Collection × ℕ :=
  let plants := order.rows (db.plants.entries.filter fun e => !activeOnly || e.2.isActive)
  plants.foldl (fun state e =>
    let indexed := indexPlant indexer e.1 e.2 state.1
    (indexed.1, state.2 + indexed.2)) (collection, 0)

/-! ### What a collection should hold -/

/-- The object is one of an active plant's. -/
def ActiveObject (indexer : Indexer) (db : Db) (uuid : UUID) (object : KnowledgeObject) : Prop :=
  ∃ id plant, db.plants.get id = some plant ∧ plant.isActive = true ∧
    (uuid, object) ∈ plantChunksToWeaviateObjects indexer id plant

/-- The collection holds the objects of the active plants and nothing else. -/
def MirrorsCatalogue (indexer : Indexer) (db : Db) (collection : Collection) : Prop :=
  ∀ uuid object, collection uuid = some object ↔ ActiveObject indexer db uuid object

/-- The object is kept for an active plant, or lies where one of an active
plant's objects belongs. -/
def Reclaimed (indexer : Indexer) (db : Db) (uuid : UUID) (object : KnowledgeObject) : Prop :=
  ∃ id plant, db.plants.get id = some plant ∧ plant.isActive = true ∧
    (ofPlant id object = true ∨
      uuid ∈ (plantChunksToWeaviateObjects indexer id plant).map Prod.fst)

/-! ### Indexing is a replacement -/

section Indexing

variable {indexer : Indexer} {id : UUID} {plant : Plant} {collection : Collection}

/-- Nothing is left out of what is prepared. -/
theorem filter_objects :
    ((plantChunksToWeaviateObjects indexer id plant).filter fun e => !e.2.content.isEmpty)
      = plantChunksToWeaviateObjects indexer id plant := by
  refine List.filter_eq_self.mpr fun e he => ?_
  simp [content_ne_nil he]

theorem upsert_objects :
    (upsertPlantKnowledgeObjects (plantChunksToWeaviateObjects indexer id plant) collection).1
      = (plantLayout indexer).fill id plant collection := by
  show insertMany _ collection = insertMany _ collection
  rw [filter_objects]
  rfl

theorem indexPlant_active (h : plant.isActive = true) :
    (indexPlant indexer id plant collection).1
      = (plantLayout indexer).fill id plant ((plantLayout indexer).clear id collection) := by
  rw [indexPlant, if_neg (by simp [h])]
  dsimp only
  split
  · rename_i hempty
    show _ = insertMany (plantChunksToWeaviateObjects indexer id plant) _
    rw [List.isEmpty_iff.mp hempty]
    rfl
  · exact upsert_objects

/-- A sync is its calls, one after the other. -/
theorem foldl_syncCalls (indexer : Indexer) (id : UUID) (plant : Plant) (collection : Collection) :
    (syncCalls indexer id plant).foldl (fun c call => call c) collection
      = (indexPlant indexer id plant collection).1 := by
  rw [syncCalls, indexPlant]
  split
  · rfl
  · dsimp only
    split
    · rfl
    · rfl

/-- A pass over active plants replaces the objects of one after the other. -/
theorem foldl_indexPlant {es : List (UUID × Plant)} (h : ∀ e ∈ es, e.2.isActive = true)
    (state : Collection × ℕ) :
    (es.foldl (fun state e =>
      let indexed := indexPlant indexer e.1 e.2 state.1
      (indexed.1, state.2 + indexed.2)) state).1
      = (plantLayout indexer).replaceAll es state.1 := by
  induction es generalizing state with
  | nil => rfl
  | cons e es ih =>
    rw [List.foldl_cons, ih fun e' he' => h e' (List.mem_cons_of_mem _ he'),
      indexPlant_active (h e List.mem_cons_self)]
    rfl

end Indexing

/-- **What re-indexing repairs.**  Afterwards the collection holds exactly the
objects of the active plants if and only if everything it held before is kept
for an active plant or lies where an active plant's object belongs. -/
theorem reindex_exact_iff (indexer : Indexer) (order : RowOrder) (db : Db)
    (collection : Collection) :
    MirrorsCatalogue indexer db (reindexAllPlants indexer order true db collection).1 ↔
      ∀ uuid object, collection uuid = some object → Reclaimed indexer db uuid object := by
  let plants := order.rows (db.plants.entries.filter fun e => !true || e.2.isActive)
  have hmem : ∀ {e}, e ∈ plants ↔ db.plants.get e.1 = some e.2 ∧ e.2.isActive = true := by
    intro e
    rw [(order.perm _).mem_iff, List.mem_filter, Table.get_eq_some]
    simp
  have hnd : (plants.map Prod.fst).Nodup := by
    rw [((order.perm _).map Prod.fst).nodup_iff]
    exact db.plants.nodup.sublist (List.filter_sublist.map Prod.fst)
  have hfold : (reindexAllPlants indexer order true db collection).1
      = (plantLayout indexer).replaceAll plants collection :=
    foldl_indexPlant (fun e he => (hmem.mp he).2) _
  have hactive : ∀ {uuid object}, ActiveObject indexer db uuid object ↔
      ∃ e ∈ plants, (uuid, object) ∈ (plantLayout indexer).objects e.1 e.2 := by
    intro uuid object
    simp only [hmem, Prod.exists, and_assoc]
    rfl
  have hreclaimed : ∀ {uuid object}, Reclaimed indexer db uuid object ↔
      (plantLayout indexer).Reached plants uuid object := by
    intro uuid object
    simp only [Layout.Reached, hmem, Prod.exists, and_assoc]
    rfl
  rw [MirrorsCatalogue, hfold]
  simp only [hactive, hreclaimed]
  exact Layout.replaceAll_exact_iff hnd

/-! ### A leftover -/

/-- An injective code of texts. -/
def textCode : Text → ℕ
  | [] => 0
  | c :: cs => textCode cs * 0x110000 + c.toNat + 1

theorem textCode_injective : Function.Injective textCode := by
  intro s t h
  induction s generalizing t with
  | nil =>
    cases t with
    | nil => rfl
    | cons d t => exact absurd h (Nat.succ_ne_zero _).symm
  | cons c s ih =>
    cases t with
    | nil => exact absurd h (Nat.succ_ne_zero _)
    | cons d t =>
      have bound : ∀ c : Char, c.toNat < 0x110000 := fun c => by
        rcases c.valid with h | ⟨-, h⟩ <;> simp only [Char.toNat, UInt32.toNat] at h ⊢ <;> omega
      have hc := bound c
      have hd := bound d
      simp only [textCode] at h
      have hchar : c.toNat = d.toNat := by omega
      rw [ih (show textCode s = textCode t by omega), Char.toNat_inj.mp hchar]

/-- Splitters for short texts with at most one `##` heading. -/
def shortTexts : Indexer where
  nfkd := id
  combining _ := false
  lower s := s.map Char.toLower
  headerSplit s :=
    if "## ".toList.isPrefixOf s then
      [⟨none, some ((s.drop 3).takeWhile (· ≠ '\n')), none,
        strip ((s.drop 3).dropWhile (· ≠ '\n'))⟩]
    else []
  sizeSplit s := [s]
  uuid5 := textCode
  uuid5_injective := textCode_injective

/-- The fern without care attributes. -/
def plainFern : Plant := { fern with plantType := none }

example : (plantChunksToWeaviateObjects shortTexts 7 plainFern).map (fun e => e.2.chunkId)
    = ["name:0".toList] := by decide +kernel

/-- The catalogue once the plant is no longer sold. -/
def Db.retiredFern : Db :=
  { Db.empty with plants := Table.empty.insert 7 (plainFern.activated false) }

/-- Its object is still there: its removal from the collection failed. -/
def leftover : Collection := (plantLayout shortTexts).fill 7 plainFern fun _ => none

/-- No pass takes the leftover away. -/
theorem reindex_leaves_inactive :
    ¬ ∀ (indexer : Indexer) (order : RowOrder) (db : Db) (collection : Collection),
      MirrorsCatalogue indexer db (reindexAllPlants indexer order true db collection).1 := by
  intro h
  have hmirror := h shortTexts ⟨fun l => l, fun l => .refl l⟩ Db.retiredFern leftover
  -- nothing is selected, so nothing is touched
  have hsame : (reindexAllPlants shortTexts ⟨fun l => l, fun l => .refl l⟩ true Db.retiredFern
      leftover).1 = leftover := rfl
  rw [hsame] at hmirror
  have hne : plantChunksToWeaviateObjects shortTexts 7 plainFern ≠ [] := by decide +kernel
  obtain ⟨⟨uuid, object⟩, hmem⟩ := List.exists_mem_of_ne_nil _ hne
  have hkept : leftover uuid = some object :=
    insertMany_of_mem ((plantLayout shortTexts).nodup 7 plainFern) hmem fun _ => none
  obtain ⟨id, plant, hget, hactive, -⟩ := (hmirror uuid object).mp hkept
  have hrow : ∀ p ∈ Db.retiredFern.plants.rows, p.isActive = false := by decide
  rw [hrow plant (Table.mem_rows_of_get hget)] at hactive
  cases hactive

end GreenGarden
