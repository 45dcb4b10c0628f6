/-
GreenGarden/ChunkIdentity.lean

Plant chunks under identities of their own (`plant_chunks_to_weaviate_objects`,
`knowledge_object_uuid`).

A section heading becomes a slug that forgets most of it, so chunks of one
language and slug are told apart by a counter, languages by the end of the key,
and plants by their ids.  `chunk_identities` puts this together for any plants
and any chunks: no two objects share a key, and what is upserted for one plant
leaves the objects of the others and of itself alone.
-/
import GreenGarden.Mirror

namespace GreenGarden

open Replica

/-- A plant with the chunks prepared for it, which all have content. -/
structure PreparedPlant where
  id : UUID
  plant : Plant
  chunks : List PlantChunk
  filled : ∀ chunk ∈ chunks, chunk.content ≠ []

/-- The upsert payloads of the chunks. -/
def PreparedPlant.objects (indexer : Indexer) (p : PreparedPlant) :
    List (UUID × KnowledgeObject) :=
  chunkObjects indexer p.id p.plant (fun _ => 0) p.chunks

/-- The chunks that the builder prepares. -/
def PreparedPlant.built (indexer : Indexer) (id : UUID) (plant : Plant) : PreparedPlant where
  id := id
  plant := plant
  chunks := preparePlantChunks indexer id plant
  filled _ := content_ne_nil_of_prepared

theorem PreparedPlant.objects_built (indexer : Indexer) (id : UUID) (plant : Plant) :
    (built indexer id plant).objects indexer = plantChunksToWeaviateObjects indexer id plant := rfl

/-- Upsert one plant after the other; the number counts the objects written. -/
def upsertPlants (indexer : Indexer) (plants : List PreparedPlant) (state : Collection × ℕ) :
    Collection × ℕ :=
  plants.foldl (fun state p =>
    let upserted := upsertPlantKnowledgeObjects (p.objects indexer) state.1
    (upserted.1, state.2 + upserted.2)) state

section Identity

variable {indexer : Indexer} {p q : PreparedPlant} {plants : List PreparedPlant}

theorem PreparedPlant.key_ne (hid : p.id ≠ q.id) {e e' : UUID × KnowledgeObject}
    (he : e ∈ p.objects indexer) (he' : e' ∈ q.objects indexer) : e.2.key ≠ e'.2.key := by
  obtain ⟨chunk, -, index, -, rfl⟩ := mem_chunkObjects he
  obtain ⟨chunk', -, index', -, rfl⟩ := mem_chunkObjects he'
  exact fun hkey => hid (weaviateObject_key hkey).1

/-- **Keys do not collide**, within a plant or across plants. -/
theorem nodup_keys (hids : (plants.map PreparedPlant.id).Nodup) :
    ((plants.flatMap (PreparedPlant.objects indexer)).map fun e => e.2.key).Nodup := by
  rw [List.map_flatMap, List.nodup_flatMap]
  constructor
  · exact fun p _ => nodup_keys_chunkObjects
  · rw [List.Nodup, List.pairwise_map] at hids
    refine hids.imp fun {p q} hne => ?_
    rw [Function.onFun, List.disjoint_left]
    rintro _ h h'
    obtain ⟨e, he, rfl⟩ := List.mem_map.mp h
    obtain ⟨e', he', hkey⟩ := List.mem_map.mp h'
    exact PreparedPlant.key_ne hne he he' hkey.symm

/-- So the UUIDs do not collide either. -/
theorem nodup_uuids (hids : (plants.map PreparedPlant.id).Nodup) :
    ((plants.flatMap (PreparedPlant.objects indexer)).map Prod.fst).Nodup := by
  have huuid : ∀ e ∈ plants.flatMap (PreparedPlant.objects indexer),
      e.1 = indexer.uuid5 e.2.key := by
    intro e he
    obtain ⟨p, -, he⟩ := List.mem_flatMap.mp he
    exact uuid_chunkObjects he
  exact nodup_uuids_of_keys huuid (nodup_keys hids)

/-- Every object has content, so none is left out. -/
theorem PreparedPlant.upsert_eq (p : PreparedPlant) (collection : Collection) :
    upsertPlantKnowledgeObjects (p.objects indexer) collection
      = (insertMany (p.objects indexer) collection, p.chunks.length) := by
  have hfilled : ((p.objects indexer).filter fun e => !e.2.content.isEmpty)
      = p.objects indexer := by
    refine List.filter_eq_self.mpr fun e he => ?_
    obtain ⟨chunk, hchunk, index, -, rfl⟩ := mem_chunkObjects he
    simpa [weaviateObject] using p.filled chunk hchunk
  simp only [upsertPlantKnowledgeObjects, hfilled]
  rw [PreparedPlant.objects, length_chunkObjects]

/-- Upserts one after the other are one upsert of everything. -/
theorem upsertPlants_eq (plants : List PreparedPlant) (state : Collection × ℕ) :
    upsertPlants indexer plants state
      = (insertMany (plants.flatMap (PreparedPlant.objects indexer)) state.1,
          state.2 + (plants.map fun p => p.chunks.length).sum) := by
  induction plants generalizing state with
  | nil => rfl
  | cons p plants ih =>
    have hstep : upsertPlants indexer (p :: plants) state
        = upsertPlants indexer plants
            (insertMany (p.objects indexer) state.1, state.2 + p.chunks.length) := by
      rw [upsertPlants, List.foldl_cons, p.upsert_eq]
      rfl
    rw [hstep, ih, List.flatMap_cons, insertMany_append, List.map_cons, List.sum_cons, add_assoc]

end Identity

/-- What the identities of chunks are for. -/
structure IdentitiesApart (indexer : Indexer) (plants : List PreparedPlant) : Prop where
  keys : ((plants.flatMap (PreparedPlant.objects indexer)).map fun e => e.2.key).Nodup
  kept : ∀ state, ∀ e ∈ plants.flatMap (PreparedPlant.objects indexer),
    (upsertPlants indexer plants state).1 e.1 = some e.2
  stored : {uuid | ((upsertPlants indexer plants (fun _ => none, 0)).1 uuid).isSome}.ncard
    = (plants.map fun p => p.chunks.length).sum
  counted : (upsertPlants indexer plants (fun _ => none, 0)).2
    = (plants.map fun p => p.chunks.length).sum

theorem chunk_identities (indexer : Indexer) (plants : List PreparedPlant)
    (hids : (plants.map PreparedPlant.id).Nodup) : IdentitiesApart indexer plants where
  keys := nodup_keys hids
  kept state e he := by
    rw [upsertPlants_eq]
    exact insertMany_of_mem (nodup_uuids hids) he state.1
  stored := by
    simp only [upsertPlants_eq]
    rw [ncard_insertMany (nodup_uuids hids), List.length_flatMap]
    exact congrArg List.sum (List.map_congr_left fun p _ => length_chunkObjects)
  counted := by rw [upsertPlants_eq, zero_add]

/-- A chunk under a heading. -/
def headedChunk (locale : Locale) (heading : Option String) : PlantChunk where
  plantId := []
  slug := "fern".toList
  locale := locale
  title := "Fern".toList
  sectionLabel := heading.map String.toList
  content := "Shade.".toList

/-- A fern with chunks whose headings leave nothing, or the same, for a slug. -/
def headedFern (id : UUID) : PreparedPlant where
  id := id
  plant := plainFern
  chunks := [headedChunk .en none, headedChunk .en (some "???"), headedChunk .en (some "Body"),
    headedChunk .vi (some "???")]
  filled := by decide

example : ((headedFern 1).objects shortTexts).map (fun e => e.2.chunkId)
    = ["body:0".toList, "body:1".toList, "body:2".toList, "body:0".toList] := by decide +kernel

theorem chunk_identities_ferns : IdentitiesApart shortTexts [headedFern 1, headedFern 2] :=
  chunk_identities shortTexts [headedFern 1, headedFern 2] (by decide)

end GreenGarden
