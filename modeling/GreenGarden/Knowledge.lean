/-
GreenGarden/Knowledge.lean

What is mirrored of a plant (`knowledge/builder.py`, `knowledge/plant_indexer.py`):
the descriptive and care columns as one Markdown text per language, cut into
chunks, each chunk an object under a UUID of its own.

`Indexer` holds what the repository takes from elsewhere: the two text
splitters, the Unicode tables behind `NFKD` and `lower`, and `uuid5`, of which
only that it does not collide is used.

`objectKey_injective` and `nodup_chunkObjects` are why no chunk overwrites
another; `plantLayout` puts them in the form `GreenGarden/Replica.lean` asks
for.
-/
import GreenGarden.Replica
import GreenGarden.Schema

namespace GreenGarden

open Replica

/-! ### Text of a plant -/

/-- The languages of the shop. -/
inductive Locale where
  | en | vi
  deriving DecidableEq

/-- The language tag. -/
def Locale.value : Locale → Text
  | .en => "en".toList
  | .vi => "vi".toList

/-- A part of a document under its Markdown headings. -/
structure HeaderDoc where
  h1 : Option Text
  h2 : Option Text
  h3 : Option Text
  pageContent : Text
  deriving DecidableEq

/-- The libraries that indexing rests on. -/
structure Indexer where
  nfkd : Text → Text
  combining : Char → Bool
  lower : Text → Text
  /-- `MarkdownHeaderTextSplitter` on `#`, `##` and `###`, headings stripped. -/
  headerSplit : Text → List HeaderDoc
  /-- `RecursiveCharacterTextSplitter` with the default size and overlap. -/
  sizeSplit : Text → List Text
  /-- `uuid.uuid5` in the knowledge namespace. -/
  uuid5 : Text → UUID
  uuid5_injective : Function.Injective uuid5

/-- The stripped text, if anything is left of it. -/
def cleanText (value : Option Text) : Option Text :=
  match value with
  | none => none
  | some value => if (strip value).isEmpty then none else some (strip value)

/-- The value that is stored and shown. -/
def PlantType.value : PlantType → Text
  | .foliage => "foliage".toList
  | .flowering => "flowering".toList
  | .succulent => "succulent".toList
  | .cactus => "cactus".toList
  | .herb => "herb".toList
  | .fern => "fern".toList
  | .vine => "vine".toList
  | .tree => "tree".toList
  | .palm => "palm".toList
  | .bamboo => "bamboo".toList
  | .aquatic => "aquatic".toList
  | .other => "other".toList

/-- The value that is stored and shown. -/
def PlantDifficulty.value : PlantDifficulty → Text
  | .easy => "easy".toList
  | .moderate => "moderate".toList
  | .hard => "hard".toList

/-- The value that is stored and shown. -/
def PlantGrowthRate.value : PlantGrowthRate → Text
  | .slow => "slow".toList
  | .moderate => "moderate".toList
  | .fast => "fast".toList

/-- The value that is stored and shown. -/
def PlantSunlight.value : PlantSunlight → Text
  | .fullSun => "full_sun".toList
  | .partialSun => "partial_sun".toList
  | .partialShade => "partial_shade".toList
  | .shade => "shade".toList
  | .lowLight => "low_light".toList

/-- The value that is stored and shown. -/
def PlantWatering.value : PlantWatering → Text
  | .low => "low".toList
  | .moderate => "moderate".toList
  | .high => "high".toList

/-- The value that is stored and shown. -/
def PlantSpaceRequirement.value : PlantSpaceRequirement → Text
  | .small => "small".toList
  | .medium => "medium".toList
  | .large => "large".toList

/-- What sections and care attributes are called. -/
structure Labels where
  name : Text
  description : Text
  longDescription : Text
  careSection : Text
  plantType : Text
  difficulty : Text
  growthRate : Text
  sunlight : Text
  watering : Text
  spaceRequirement : Text
  indoorSuitable : Text
  outdoorSuitable : Text
  petSafe : Text
  beginnerFriendly : Text

/-- The headings in English. -/
def enLabels : Labels where
  name := "Name".toList
  description := "Description".toList
  longDescription := "Long description".toList
  careSection := "Care attributes".toList
  plantType := "Plant type".toList
  difficulty := "Difficulty".toList
  growthRate := "Growth rate".toList
  sunlight := "Sunlight".toList
  watering := "Watering".toList
  spaceRequirement := "Space requirement".toList
  indoorSuitable := "Indoor suitable".toList
  outdoorSuitable := "Outdoor suitable".toList
  petSafe := "Pet safe".toList
  beginnerFriendly := "Beginner friendly".toList

/-- The headings in Vietnamese. -/
def viLabels : Labels where
  name := "Tên".toList
  description := "Mô tả".toList
  longDescription := "Mô tả chi tiết".toList
  careSection := "Thuộc tính chăm sóc".toList
  plantType := "Loại cây".toList
  difficulty := "Độ khó chăm sóc".toList
  growthRate := "Tốc độ tăng trưởng".toList
  sunlight := "Ánh sáng".toList
  watering := "Tưới nước".toList
  spaceRequirement := "Không gian".toList
  indoorSuitable := "Phù hợp trong nhà".toList
  outdoorSuitable := "Phù hợp ngoài trời".toList
  petSafe := "An toàn với thú cưng".toList
  beginnerFriendly := "Phù hợp người mới".toList

/-- The headings of a language. -/
def labels : Locale → Labels
  | .en => enLabels
  | .vi => viLabels

/-- Yes and no. -/
def boolLabel : Locale → Bool → Text
  | .vi, true => "có".toList
  | .vi, false => "không".toList
  | .en, true => "yes".toList
  | .en, false => "no".toList

/-- The care attributes that are filled in, one per line. -/
def careLines (locale : Locale) (plant : Plant) : List Text :=
  let labels := labels locale
  let values : List (Text × Option Text) :=
    [(labels.plantType, cleanText (plant.plantType.map PlantType.value)),
      (labels.difficulty, cleanText (plant.difficulty.map PlantDifficulty.value)),
      (labels.growthRate, cleanText (plant.growthRate.map PlantGrowthRate.value)),
      (labels.sunlight, cleanText (plant.sunlight.map PlantSunlight.value)),
      (labels.watering, cleanText (plant.watering.map PlantWatering.value)),
      (labels.spaceRequirement, cleanText (plant.spaceRequirement.map PlantSpaceRequirement.value)),
      (labels.indoorSuitable, plant.indoorSuitable.map (boolLabel locale)),
      (labels.outdoorSuitable, plant.outdoorSuitable.map (boolLabel locale)),
      (labels.petSafe, plant.petSafe.map (boolLabel locale)),
      (labels.beginnerFriendly, plant.beginnerFriendly.map (boolLabel locale))]
  values.filterMap fun e => e.2.map fun value => e.1 ++ ": ".toList ++ value

/-- Ordered sections with their labels. -/
def plantContentSections (locale : Locale) (plant : Plant) : List (Text × Option Text) :=
  let labels := labels locale
  let sections :=
    match locale with
    | .vi =>
      [(labels.name, plant.nameVi), (labels.description, plant.descriptionVi),
        (labels.longDescription, plant.longDescriptionVi)]
    | .en =>
      [(labels.name, some plant.name), (labels.description, plant.description),
        (labels.longDescription, plant.longDescription)]
  let care := careLines locale plant
  if care.isEmpty then sections
  else sections ++ [(labels.careSection, some (List.intercalate "\n".toList care))]

/-- Fields as `##` sections; a field that starts with a heading of its own is
kept as it is. -/
def joinMarkdownSections (sections : List (Text × Option Text)) : Text :=
  let parts := sections.filterMap fun e => (cleanText e.2).map fun cleaned =>
    if (cleaned.dropWhile isSpace).head? = some '#' then cleaned
    else "## ".toList ++ e.1 ++ "\n\n".toList ++ cleaned
  List.intercalate "\n\n".toList parts

/-- A plant's text in a language, as Markdown. -/
def buildPlantContent (locale : Locale) (plant : Plant) : Text :=
  joinMarkdownSections (plantContentSections locale plant)

/-- The name in a language, or else the other one. -/
def plantTitle (locale : Locale) (plant : Plant) : Text :=
  match locale with
  | .vi => ((cleanText plant.nameVi).or (cleanText (some plant.name))).getD []
  | .en => (cleanText (some plant.name)).getD []

/-! ### Chunks -/

/-- `str` of a UUID: 32 hexadecimal digits in five groups. -/
def hexDigits (id : UUID) : Text :=
  List.replicate (32 - (Nat.toDigits 16 id).length) '0' ++ Nat.toDigits 16 id

/-- A UUID in its canonical form. -/
def uuidText (id : UUID) : Text :=
  let hex := hexDigits id
  hex.take 8 ++ '-' :: ((hex.drop 8).take 4 ++ '-' :: ((hex.drop 12).take 4 ++
    '-' :: ((hex.drop 16).take 4 ++ '-' :: hex.drop 20)))

/-- A piece of a plant's text, ready to be indexed. -/
structure PlantChunk where
  plantId : Text
  slug : Text
  locale : Locale
  title : Text
  sectionLabel : Option Text
  content : Text
  deriving DecidableEq

/-- The most specific heading of a part. -/
def sectionFromHeaderMetadata (doc : HeaderDoc) : Option Text :=
  ((cleanText doc.h3).or (cleanText doc.h2)).or (cleanText doc.h1)

/-- Chunks behind the first of a section repeat its heading. -/
def withHeadingContext (content : Text) (sectionLabel : Option Text) (isContinuation : Bool) :
    Text :=
  let cleaned := strip content
  match sectionLabel with
  | none => cleaned
  | some label =>
      if cleaned.isEmpty || label.isEmpty || !isContinuation then cleaned
      else if label.isPrefixOf cleaned then cleaned
      else label ++ "\n\n".toList ++ cleaned

/-- The chunks of one part of a text. -/
def docChunks (indexer : Indexer) (plantId slug title : Text) (locale : Locale)
    (doc : HeaderDoc) : List PlantChunk :=
  let sectionLabel := sectionFromHeaderMetadata doc
  let body := strip doc.pageContent
  if body.isEmpty then []
  else
    let pieces := if (indexer.sizeSplit body).isEmpty then [body] else indexer.sizeSplit body
    pieces.zipIdx.filterMap fun e =>
      let content := withHeadingContext e.1 sectionLabel (e.2 > 0)
      (cleanText (some content)).map fun cleaned =>
        ⟨plantId, slug, locale, title, sectionLabel, cleaned⟩

/-- The chunks of a plant in one language. -/
def localeChunks (indexer : Indexer) (id : UUID) (plant : Plant) (locale : Locale) :
    List PlantChunk :=
  let markdown := buildPlantContent locale plant
  if markdown.isEmpty then []
  else
    let docs := indexer.headerSplit markdown
    let docs := if docs.isEmpty then [⟨none, none, none, markdown⟩] else docs
    docs.flatMap (docChunks indexer (uuidText id) ((cleanText (some plant.slug)).getD [])
      (plantTitle locale plant) locale)

/-- The chunks of both languages. -/
def preparePlantChunks (indexer : Indexer) (id : UUID) (plant : Plant) : List PlantChunk :=
  [Locale.en, .vi].flatMap (localeChunks indexer id plant)

/-! ### Objects -/

/-- What an object of a collection was made from. -/
inductive KnowledgeSourceType where
  | plant | faq | blog
  deriving DecidableEq

/-- The value that is stored and filtered by. -/
def KnowledgeSourceType.value : KnowledgeSourceType → Text
  | .plant => "plant".toList
  | .faq => "faq".toList
  | .blog => "blog".toList

/-- The properties of an object of the collection. -/
structure KnowledgeObject where
  sourceId : Text
  sourceType : Text
  chunkId : Text
  locale : Text
  plantId : Text
  name : Text
  nameVi : Text
  title : Text
  slug : Text
  sectionLabel : Text
  content : Text
  deriving DecidableEq

/-- The identity that an object shows in its properties. -/
def KnowledgeObject.key (object : KnowledgeObject) : Text :=
  object.sourceType ++ ':' :: (object.sourceId ++ ':' :: (object.chunkId ++ ':' :: object.locale))

/-- Identity of an object; nothing of its text enters it. -/
def knowledgeObjectKey (sourceType : KnowledgeSourceType) (sourceId : UUID) (chunkId : Text)
    (locale : Locale) : Text :=
  sourceType.value ++ ':' :: (uuidText sourceId ++ ':' :: (chunkId ++ ':' :: locale.value))

/-- The identity of an object in its collection. -/
def knowledgeObjectUuid (indexer : Indexer) (sourceType : KnowledgeSourceType) (sourceId : UUID)
    (chunkId : Text) (locale : Locale) : UUID :=
  indexer.uuid5 (knowledgeObjectKey sourceType sourceId chunkId locale)

/-- `[a-z0-9]`. -/
def isSlugChar (c : Char) : Bool := c.isLower || c.isDigit

/-- `re.sub("[^a-z0-9]+", "-", s)`; `inRun` is set inside a run. -/
def dashRuns (inRun : Bool) : Text → Text
  | [] => []
  | c :: cs =>
      if isSlugChar c then c :: dashRuns false cs
      else if inRun then dashRuns true cs
      else '-' :: dashRuns true cs

/-- `s.strip("-")`. -/
def stripDashes (s : Text) : Text := (s.dropWhile (· = '-')).rdropWhile (· = '-')

/-- The key of a chunk without a section. -/
def bodyKey : Text := "body".toList

/-- Stable ASCII slug of a section label. -/
def sectionChunkKey (indexer : Indexer) (sectionLabel : Option Text) : Text :=
  match sectionLabel with
  | none => bodyKey
  | some label =>
      if label.isEmpty then bodyKey
      else
        let asciiText := (indexer.nfkd label).filter fun c => !indexer.combining c
        let slug := stripDashes (dashRuns false (indexer.lower asciiText))
        (if slug.isEmpty then bodyKey else slug).take 80

/-- Section and number. -/
def chunkIdText (sectionKey : Text) (index : ℕ) : Text :=
  sectionKey ++ ':' :: Nat.toDigits 10 index

/-- What the chunks of a plant are counted by. -/
def chunkKey (indexer : Indexer) (chunk : PlantChunk) : Locale × Text :=
  (chunk.locale, sectionChunkKey indexer chunk.sectionLabel)

/-- Upsert payload of one chunk, numbered `index` in its section. -/
def weaviateObject (indexer : Indexer) (id : UUID) (plant : Plant) (chunk : PlantChunk)
    (index : ℕ) : UUID × KnowledgeObject :=
  let chunkId := chunkIdText (sectionChunkKey indexer chunk.sectionLabel) index
  (knowledgeObjectUuid indexer .plant id chunkId chunk.locale,
    { sourceId := uuidText id
      sourceType := KnowledgeSourceType.plant.value
      chunkId := chunkId
      locale := chunk.locale.value
      plantId := uuidText id
      name := plant.name
      nameVi := plant.nameVi.getD []
      title := chunk.title
      slug := chunk.slug
      sectionLabel := chunk.sectionLabel.getD []
      content := chunk.content })

/-- Upsert payloads of prepared chunks; `counters` counts the chunks of each
language and section so far. -/
def chunkObjects (indexer : Indexer) (id : UUID) (plant : Plant)
    (counters : Locale × Text → ℕ) : List PlantChunk → List (UUID × KnowledgeObject)
  | [] => []
  | chunk :: chunks =>
      let key := chunkKey indexer chunk
      let index := counters key
      weaviateObject indexer id plant chunk index ::
        chunkObjects indexer id plant (Function.update counters key (index + 1)) chunks

/-- The objects of a plant, numbered within each section. -/
def plantChunksToWeaviateObjects (indexer : Indexer) (id : UUID) (plant : Plant) :
    List (UUID × KnowledgeObject) :=
  chunkObjects indexer id plant (fun _ => 0) (preparePlantChunks indexer id plant)

/-! ### No two objects share an identity -/

/-- A text up to a separator that does not occur in it. -/
theorem append_separator_inj {c : Char} {s s' t t' : Text} (hs : c ∉ s) (hs' : c ∉ s')
    (h : s ++ c :: t = s' ++ c :: t') : s = s' ∧ t = t' := by
  induction s generalizing s' with
  | nil =>
    cases s' with
    | nil => exact ⟨rfl, (List.cons.inj h).2⟩
    | cons d s' =>
      obtain ⟨rfl, -⟩ := List.cons.inj h
      exact absurd List.mem_cons_self hs'
  | cons d s ih =>
    cases s' with
    | nil =>
      obtain ⟨rfl, -⟩ := List.cons.inj h
      exact absurd List.mem_cons_self hs
    | cons d' s' =>
      obtain ⟨rfl, htail⟩ := List.cons.inj h
      rw [List.mem_cons, not_or] at hs hs'
      obtain ⟨rfl, ht⟩ := ih hs.2 hs'.2 htail
      exact ⟨rfl, ht⟩

/-- What a hexadecimal digit stands for. -/
def hexValue (c : Char) : ℕ := if c.isDigit then c.toNat - 48 else c.toNat - 87

theorem hexValue_digitChar {n : ℕ} (h : n < 16) : hexValue (Nat.digitChar n) = n := by
  have hall : ∀ n < 16, hexValue (Nat.digitChar n) = n := by decide
  exact hall n h

theorem isSlugChar_of_mem_toDigits {n : ℕ} {c : Char} (h : c ∈ Nat.toDigits 16 n) :
    isSlugChar c = true := by
  have hall : ∀ n < 16, isSlugChar (Nat.digitChar n) = true := by decide
  induction n using Nat.strong_induction_on with
  | _ n ih =>
    rw [Nat.toDigits_eq_if (by norm_num)] at h
    split at h
    · rename_i hlt
      rw [List.mem_singleton.mp h]
      exact hall n hlt
    · rename_i hge
      rcases List.mem_append.mp h with h | h
      · exact ih (n / 16) (by omega) h
      · rw [List.mem_singleton.mp h]
        exact hall _ (Nat.mod_lt _ (by norm_num))

/-- Reading a hexadecimal numeral, padded or not. -/
theorem foldl_hexDigits (id : UUID) :
    (hexDigits id).foldl (fun n c => 16 * n + hexValue c) 0 = id := by
  have hzeros : ∀ k, (List.replicate k '0').foldl (fun n c => 16 * n + hexValue c) 0 = 0 := by
    intro k
    induction k with
    | zero => rfl
    | succ k ih => rw [List.replicate_succ, List.foldl_cons]; exact ih
  rw [hexDigits, List.foldl_append, hzeros]
  induction id using Nat.strong_induction_on with
  | _ n ih =>
    rw [Nat.toDigits_eq_if (by norm_num)]
    split
    · rename_i hlt
      simp [hexValue_digitChar hlt]
    · rename_i hge
      rw [List.foldl_append, ih (n / 16) (by omega)]
      simp only [List.foldl_cons, List.foldl_nil,
        hexValue_digitChar (Nat.mod_lt n (show 16 > 0 by norm_num))]
      exact Nat.div_add_mod n 16

theorem isSlugChar_of_mem_hexDigits {id : UUID} {c : Char} (h : c ∈ hexDigits id) :
    isSlugChar c = true := by
  rcases List.mem_append.mp h with h | h
  · rw [List.eq_of_mem_replicate h]
    decide
  · exact isSlugChar_of_mem_toDigits h

/-- Without its dashes a UUID is its digits. -/
theorem filter_uuidText (id : UUID) : (uuidText id).filter (· ≠ '-') = hexDigits id := by
  have keep : ∀ {s : Text}, (∀ c ∈ s, c ∈ hexDigits id) → s.filter (· ≠ '-') = s := by
    intro s hs
    refine List.filter_eq_self.mpr fun c hc => ?_
    have hslug := isSlugChar_of_mem_hexDigits (hs c hc)
    rw [decide_eq_true_eq]
    rintro rfl
    exact absurd hslug (by decide)
  have hjoin : ∀ n k, ((hexDigits id).drop n).take k ++ (hexDigits id).drop (n + k)
      = (hexDigits id).drop n := by
    intro n k
    rw [← List.drop_drop, List.take_append_drop]
  have hdash : ∀ t : Text, List.filter (· ≠ '-') ('-' :: t) = List.filter (· ≠ '-') t :=
    fun t => List.filter_cons_of_neg (by simp)
  have hdrop : ∀ {n c}, c ∈ (hexDigits id).drop n → c ∈ hexDigits id := List.mem_of_mem_drop
  simp only [uuidText, List.filter_append, hdash]
  rw [keep fun c hc => List.mem_of_mem_take hc, keep fun c hc => hdrop (List.mem_of_mem_take hc),
    keep fun c hc => hdrop (List.mem_of_mem_take hc),
    keep fun c hc => hdrop (List.mem_of_mem_take hc), keep fun c hc => hdrop hc,
    hjoin 16 4, hjoin 12 4, hjoin 8 4, List.take_append_drop]

theorem uuidText_injective : Function.Injective uuidText := by
  intro id id' h
  have hhex : hexDigits id = hexDigits id' := by
    rw [← filter_uuidText, h, filter_uuidText]
  rw [← foldl_hexDigits id, hhex, foldl_hexDigits]

/-- Neither digits nor slugs contain the separator of a key. -/
theorem ne_colon_of_isSlugChar {c : Char} (h : isSlugChar c = true) : c ≠ ':' := by
  rintro rfl
  exact absurd h (by decide)

theorem colon_notMem_uuidText (id : UUID) : ':' ∉ uuidText id := by
  intro h
  have hmem : ':' ∈ (uuidText id).filter (· ≠ '-') := List.mem_filter.mpr ⟨h, by decide⟩
  rw [filter_uuidText] at hmem
  exact ne_colon_of_isSlugChar (isSlugChar_of_mem_hexDigits hmem) rfl

theorem mem_dashRuns {inRun : Bool} {s : Text} {c : Char} (h : c ∈ dashRuns inRun s) :
    isSlugChar c = true ∨ c = '-' := by
  induction s generalizing inRun with
  | nil => exact absurd h List.not_mem_nil
  | cons d s ih =>
    rw [dashRuns] at h
    split at h
    · rename_i hd
      rcases List.mem_cons.mp h with rfl | h
      · exact .inl hd
      · exact ih h
    · split at h
      · exact ih h
      · rcases List.mem_cons.mp h with rfl | h
        · exact .inr rfl
        · exact ih h

theorem mem_of_mem_stripDashes {s : Text} {c : Char} (h : c ∈ stripDashes s) : c ∈ s :=
  (List.dropWhile_sublist _).subset ((List.rdropWhile_prefix _ _).subset h)

theorem colon_notMem_sectionChunkKey (indexer : Indexer) (sectionLabel : Option Text) :
    ':' ∉ sectionChunkKey indexer sectionLabel := by
  have hbody : ':' ∉ bodyKey := by decide
  cases sectionLabel with
  | none => exact hbody
  | some label =>
    rw [sectionChunkKey]
    split
    · exact hbody
    · intro h
      have h := List.mem_of_mem_take h
      split at h
      · exact hbody h
      · rcases mem_dashRuns (mem_of_mem_stripDashes h) with hslug | hdash
        · exact ne_colon_of_isSlugChar hslug rfl
        · exact absurd hdash (by decide)

theorem colon_notMem_toDigits (n : ℕ) : ':' ∉ Nat.toDigits 10 n := by
  intro h
  have hdigit : ':'.isDigit = true :=
    Nat.isDigit_of_mem_toDigits (by norm_num) (by norm_num) h
  exact absurd hdigit (by decide)

/-- **A key tells its parts.** -/
theorem objectKey_injective {sourceType sourceType' : KnowledgeSourceType} {id id' : UUID}
    {sectionKey sectionKey' : Text} {index index' : ℕ} {locale locale' : Locale}
    (hs : ':' ∉ sectionKey) (hs' : ':' ∉ sectionKey')
    (h : knowledgeObjectKey sourceType id (chunkIdText sectionKey index) locale
      = knowledgeObjectKey sourceType' id' (chunkIdText sectionKey' index') locale') :
    sourceType = sourceType' ∧ id = id' ∧ sectionKey = sectionKey' ∧ index = index' ∧
      locale = locale' := by
  have htype : ∀ t : KnowledgeSourceType, ':' ∉ t.value := by
    intro t
    cases t <;> decide
  simp only [knowledgeObjectKey, chunkIdText, List.append_assoc, List.cons_append] at h
  obtain ⟨h₁, h⟩ := append_separator_inj (htype _) (htype _) h
  obtain ⟨h₂, h⟩ := append_separator_inj (colon_notMem_uuidText _) (colon_notMem_uuidText _) h
  obtain ⟨h₃, h⟩ := append_separator_inj hs hs' h
  obtain ⟨h₄, h₅⟩ := append_separator_inj (colon_notMem_toDigits _) (colon_notMem_toDigits _) h
  refine ⟨?_, uuidText_injective h₂, h₃, ?_, ?_⟩
  · cases sourceType <;> cases sourceType' <;> first | rfl | exact absurd h₁ (by decide)
  · rw [← Nat.ofDigitChars_ten_toDigits (n := index), h₄, Nat.ofDigitChars_ten_toDigits]
  · cases locale <;> cases locale' <;> first | rfl | exact absurd h₅ (by decide)

section Objects

variable {indexer : Indexer} {id id' : UUID} {plant plant' : Plant}
variable {counters : Locale × Text → ℕ} {chunks : List PlantChunk} {e e' : UUID × KnowledgeObject}

theorem key_weaviateObject (chunk : PlantChunk) (index : ℕ) :
    (weaviateObject indexer id plant chunk index).2.key
      = knowledgeObjectKey .plant id
          (chunkIdText (sectionChunkKey indexer chunk.sectionLabel) index) chunk.locale := rfl

theorem weaviateObject_key {chunk chunk' : PlantChunk} {index index' : ℕ}
    (h : (weaviateObject indexer id plant chunk index).2.key
      = (weaviateObject indexer id' plant' chunk' index').2.key) :
    id = id' ∧ chunkKey indexer chunk = chunkKey indexer chunk' ∧ index = index' := by
  rw [key_weaviateObject, key_weaviateObject] at h
  obtain ⟨-, hid, hsection, hindex, hlocale⟩ :=
    objectKey_injective (colon_notMem_sectionChunkKey indexer _)
      (colon_notMem_sectionChunkKey indexer _) h
  exact ⟨hid, Prod.ext hlocale hsection, hindex⟩

theorem weaviateObject_uuid {chunk chunk' : PlantChunk} {index index' : ℕ}
    (h : (weaviateObject indexer id plant chunk index).1
      = (weaviateObject indexer id' plant' chunk' index').1) :
    id = id' ∧ chunkKey indexer chunk = chunkKey indexer chunk' ∧ index = index' := by
  have hkey : (weaviateObject indexer id plant chunk index).2.key
      = (weaviateObject indexer id' plant' chunk' index').2.key := indexer.uuid5_injective h
  exact weaviateObject_key hkey

/-- Every object is that of a chunk, numbered from where counting began. -/
theorem mem_chunkObjects (h : e ∈ chunkObjects indexer id plant counters chunks) :
    ∃ chunk ∈ chunks, ∃ index, counters (chunkKey indexer chunk) ≤ index ∧
      e = weaviateObject indexer id plant chunk index := by
  induction chunks generalizing counters with
  | nil => exact absurd h List.not_mem_nil
  | cons chunk chunks ih =>
    rcases List.mem_cons.mp h with rfl | h
    · exact ⟨chunk, List.mem_cons_self, _, le_rfl, rfl⟩
    · obtain ⟨chunk', hmem, index, hle, rfl⟩ := ih h
      refine ⟨chunk', List.mem_cons_of_mem _ hmem, index, le_trans ?_ hle, rfl⟩
      rcases eq_or_ne (chunkKey indexer chunk') (chunkKey indexer chunk) with heq | hne
      · rw [heq, Function.update_self]
        exact Nat.le_succ _
      · rw [Function.update_of_ne hne]

/-- The UUID of an object comes from its key. -/
theorem uuid_chunkObjects (h : e ∈ chunkObjects indexer id plant counters chunks) :
    e.1 = indexer.uuid5 e.2.key := by
  obtain ⟨chunk, -, index, -, rfl⟩ := mem_chunkObjects h
  rfl

theorem nodup_keys_chunkObjects :
    ((chunkObjects indexer id plant counters chunks).map fun e => e.2.key).Nodup := by
  induction chunks generalizing counters with
  | nil => exact List.nodup_nil
  | cons chunk chunks ih =>
    rw [chunkObjects, List.map_cons, List.nodup_cons]
    refine ⟨fun hmem => ?_, ih⟩
    -- a later chunk of the same section has a later number
    obtain ⟨e, he, hkey⟩ := List.mem_map.mp hmem
    obtain ⟨chunk', -, index, hle, rfl⟩ := mem_chunkObjects he
    obtain ⟨-, hsame, hindex⟩ := weaviateObject_key hkey
    rw [hsame, Function.update_self, hindex] at hle
    exact absurd hle (Nat.not_succ_le_self _)

/-- UUIDs are apart where the keys are. -/
theorem nodup_uuids_of_keys {objects : List (UUID × KnowledgeObject)}
    (huuid : ∀ e ∈ objects, e.1 = indexer.uuid5 e.2.key)
    (hkeys : (objects.map fun e => e.2.key).Nodup) : (objects.map Prod.fst).Nodup := by
  have huuids : objects.map Prod.fst = (objects.map fun e => e.2.key).map indexer.uuid5 := by
    rw [List.map_map]
    exact List.map_congr_left huuid
  rw [huuids]
  exact hkeys.map indexer.uuid5_injective

theorem nodup_chunkObjects :
    ((chunkObjects indexer id plant counters chunks).map Prod.fst).Nodup :=
  nodup_uuids_of_keys (fun _ => uuid_chunkObjects) nodup_keys_chunkObjects

theorem length_chunkObjects :
    (chunkObjects indexer id plant counters chunks).length = chunks.length := by
  induction chunks generalizing counters with
  | nil => rfl
  | cons chunk chunks ih => rw [chunkObjects, List.length_cons, ih, List.length_cons]

/-- Cleaned text is stripped, and not empty. -/
theorem cleanText_eq_some {value : Option Text} {cleaned : Text}
    (h : cleanText value = some cleaned) : strip cleaned = cleaned ∧ cleaned ≠ [] := by
  cases value with
  | none => cases h
  | some value =>
    rw [cleanText] at h
    split at h
    · cases h
    · rename_i hne
      cases h
      exact ⟨strip_strip value, by simpa using hne⟩

/-- Chunks without content are not prepared. -/
theorem content_ne_nil_of_prepared {chunk : PlantChunk}
    (h : chunk ∈ preparePlantChunks indexer id plant) : chunk.content ≠ [] := by
  obtain ⟨locale, -, h⟩ := List.mem_flatMap.mp h
  rw [localeChunks] at h
  split at h
  · cases h
  obtain ⟨doc, -, h⟩ := List.mem_flatMap.mp h
  rw [docChunks] at h
  split at h
  · cases h
  obtain ⟨piece, -, hpiece⟩ := List.mem_filterMap.mp h
  obtain ⟨cleaned, hclean, rfl⟩ := Option.map_eq_some_iff.mp hpiece
  exact (cleanText_eq_some hclean).2

theorem content_ne_nil (h : e ∈ plantChunksToWeaviateObjects indexer id plant) :
    e.2.content ≠ [] := by
  obtain ⟨chunk, hmem, index, -, rfl⟩ := mem_chunkObjects h
  exact content_ne_nil_of_prepared hmem

end Objects

/-- An object that the collection keeps for a plant. -/
def ofPlant (id : UUID) (object : KnowledgeObject) : Bool :=
  object.sourceType = KnowledgeSourceType.plant.value ∧ object.sourceId = uuidText id

/-- How plants are mirrored. -/
def plantLayout (indexer : Indexer) : Layout UUID Plant UUID KnowledgeObject where
  belongs := ofPlant
  objects := plantChunksToWeaviateObjects indexer
  own := by
    intro w w' plant e he
    obtain ⟨chunk, -, index, -, rfl⟩ := mem_chunkObjects he
    simp only [ofPlant, weaviateObject, true_and, decide_eq_true_eq]
    exact ⟨fun h => (uuidText_injective h).symm, fun h => h ▸ rfl⟩
  nodup _ _ := nodup_chunkObjects
  apart := by
    intro w w' plant plant' e e' he he' h
    obtain ⟨chunk, -, index, -, rfl⟩ := mem_chunkObjects he
    obtain ⟨chunk', -, index', -, rfl⟩ := mem_chunkObjects he'
    exact (weaviateObject_uuid h).1

end GreenGarden
