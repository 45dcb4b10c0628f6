/-
GreenGarden/Corpus.lean

The `NgocNganKnowledge` collection, which FAQs and blog posts share
(`knowledge/faq_indexer.py`, `knowledge/blog_indexer.py`,
`knowledge/weaviate.py`).

An indexer is a job that makes calls to the vector store, one after the other;
nothing holds the jobs apart, and a call that raises may have done part of its
work.  `corpusApart` says that the FAQs and the blog posts do not meet in the
collection all the same, in the sense of `GreenGarden/Jobs.lean`: an object
lies under an identity that begins with its source type, and deletions select
by the source type first.

Which ids the store takes for one another is left open in `TextFilter`.
-/
import GreenGarden.FaqSearch
import GreenGarden.Jobs
import GreenGarden.Mirror

namespace GreenGarden

open Replica Jobs

/-! ### Objects of a source -/

/-- What the two texts of a source are built from. -/
structure Source where
  id : Text
  slug : Text
  text : Locale → Text
  title : Locale → Text

/-- The chunk id of a text that is not split. -/
def chunkMain : Text := "main".toList

/-- `knowledge_object_uuid` of an id that is a text. -/
def knowledgeTextUuid (indexer : Indexer) (sourceType : KnowledgeSourceType)
    (sourceId chunkId : Text) (locale : Locale) : UUID :=
  indexer.uuid5
    (sourceType.value ++ ':' :: (sourceId ++ ':' :: (chunkId ++ ':' :: locale.value)))

/-- `knowledge_chunk` with the properties that are stored of it. -/
def sourceObject (indexer : Indexer) (sourceType : KnowledgeSourceType) (source : Source)
    (locale : Locale) : Option (UUID × KnowledgeObject) :=
  (cleanText (some (source.text locale))).map fun cleaned =>
    (knowledgeTextUuid indexer sourceType source.id chunkMain locale,
      { sourceId := source.id
        sourceType := sourceType.value
        chunkId := chunkMain
        locale := locale.value
        plantId := if sourceType = .plant then source.id else []
        name := []
        nameVi := []
        title := source.title locale
        slug := source.slug
        sectionLabel := []
        content := cleaned })

/-- `bilingual_chunks`. -/
def sourceObjects (indexer : Indexer) (sourceType : KnowledgeSourceType) (source : Source) :
    List (UUID × KnowledgeObject) :=
  [Locale.en, .vi].filterMap (sourceObject indexer sourceType source)

/-- An FAQ as the indexer is given it; from the snapshot, its id is its slug. -/
structure FaqRow where
  id : Text
  /-- `getattr(faq, "is_active", True) is not False`. -/
  isActive : Bool
  faq : Faq

/-- What is indexed of an FAQ row. -/
def FaqRow.source (row : FaqRow) : Source where
  id := row.id
  slug := row.faq.slug
  text := buildFaqKnowledgeText row.faq
  title := faqTitle row.faq

/-- The objects of an FAQ, in both languages. -/
def faqObjects (indexer : Indexer) (row : FaqRow) : List (UUID × KnowledgeObject) :=
  sourceObjects indexer .faq row.source

/-- A blog post, as the indexer reads it. -/
structure Blog where
  id : Text
  slug : Text
  title : Option Text
  titleVi : Option Text
  summary : Option Text
  summaryVi : Option Text
  content : Option Text
  contentVi : Option Text
  body : Option Text
  bodyVi : Option Text
  isActive : Bool
  isPublished : Bool

/-- `first or second`. -/
def filledOr (first second : Option Text) : Option Text :=
  if first.all List.isEmpty then second else first

/-- The text that is searched. -/
def buildBlogKnowledgeText (blog : Blog) : Locale → Text
  | .vi => joinSections [("Tiêu đề".toList, blog.titleVi), ("Tóm tắt".toList, blog.summaryVi),
      ("Nội dung".toList, filledOr blog.contentVi blog.bodyVi)]
  | .en => joinSections [("Title".toList, blog.title), ("Summary".toList, blog.summary),
      ("Content".toList, filledOr blog.content blog.body)]

/-- The title in a language, empty where there is none. -/
def blogTitle (blog : Blog) : Locale → Text
  | .vi => (cleanText blog.titleVi).getD []
  | .en => (cleanText blog.title).getD []

/-- What is indexed of a post. -/
def Blog.source (blog : Blog) : Source where
  id := blog.id
  slug := blog.slug
  text := buildBlogKnowledgeText blog
  title := blogTitle blog

/-- The objects of a post, in both languages. -/
def blogObjects (indexer : Indexer) (blog : Blog) : List (UUID × KnowledgeObject) :=
  sourceObjects indexer .blog blog.source

/-- An item of the exported snapshot. -/
structure SnapshotItem where
  id : Option Text
  isActive : Bool
  faq : Faq

/-- The items with an id; there is no snapshot when the file is missing. -/
def loadFaqSnapshot (items : Option (List SnapshotItem)) : Option (List FaqRow) :=
  items.map fun items => items.filterMap fun item =>
    let faqId := strip (item.id.getD [])
    if faqId.isEmpty then none else some ⟨faqId, item.isActive, { item.faq with slug := faqId }⟩

/-! ### Calls to the store -/

/-- The `equal` filter on a text property.  It compares words, so which ids it
takes for one another is not known here; the source types are words. -/
structure TextFilter where
  equal : Text → Text → Bool
  equal_self : ∀ text, equal text text = true
  equal_sourceType : ∀ {t t' : KnowledgeSourceType}, equal t.value t'.value = true → t = t'

/-- One call to the collection. -/
inductive KnowledgeCall where
  | ensureKnowledgeCollection
  | deleteKnowledgeBySource (sourceType : KnowledgeSourceType) (sourceId : Text)
  | deleteKnowledgeBySourceType (sourceType : KnowledgeSourceType)
  | upsertKnowledgeObjects (objects : List (UUID × KnowledgeObject))

/-- How far a call got that raises. -/
structure Fault where
  created : Bool
  reached : UUID → KnowledgeObject → Bool

/-- Whether the call gets to create the collection. -/
def Fault.creates (fault : Option Fault) : Bool := fault.all Fault.created

/-- Whether the call gets to this object. -/
def Fault.reaches (fault : Option Fault) (uuid : UUID) (object : KnowledgeObject) : Bool :=
  fault.all fun f => f.reached uuid object

/-- The objects of a collection; one that is missing has none. -/
def contents (corpus : Option Collection) : Collection := corpus.getD fun _ => none

/-- `delete_many`, as far as it gets. -/
def deleteReached (p : KnowledgeObject → Bool) (fault : Option Fault) (collection : Collection) :
    Collection :=
  fun uuid => (collection uuid).filter fun object => !(p object && Fault.reaches fault uuid object)

/-- The filter on source type and id. -/
def bySource (filter : TextFilter) (sourceType : KnowledgeSourceType) (sourceId : Text)
    (object : KnowledgeObject) : Bool :=
  filter.equal object.sourceType sourceType.value && filter.equal object.sourceId sourceId

/-- The filter on the source type alone. -/
def bySourceType (filter : TextFilter) (sourceType : KnowledgeSourceType)
    (object : KnowledgeObject) : Bool :=
  filter.equal object.sourceType sourceType.value

/-- What a call does to the collection, if there is one. -/
def KnowledgeCall.perform (filter : TextFilter) (call : KnowledgeCall) (fault : Option Fault)
    (corpus : Option Collection) : Option Collection :=
  match call with
  | .ensureKnowledgeCollection =>
      if Fault.creates fault then some (contents corpus) else corpus
  | .deleteKnowledgeBySource sourceType sourceId =>
      corpus.map (deleteReached (bySource filter sourceType sourceId) fault)
  | .deleteKnowledgeBySourceType sourceType =>
      corpus.map (deleteReached (bySourceType filter sourceType) fault)
  | .upsertKnowledgeObjects objects =>
      if objects.isEmpty then corpus
      else if Fault.creates fault then
        -- the collection is ensured first
        some (upsertPlantKnowledgeObjects
          (objects.filter fun e => Fault.reaches fault e.1 e.2) (contents corpus)).1
      else corpus

/-! ### Jobs -/

/-- A job on the FAQs or the blog posts. -/
inductive KnowledgeJob where
  | indexFaq (row : FaqRow)
  | deleteFaqKnowledge (faqId : Text)
  | reindexAllFaqs (faqs : Option (List FaqRow)) (snapshot : Option (List SnapshotItem))
  | indexBlog (blog : Blog)
  | deleteBlogKnowledge (blogId : Text)
  | reindexAllBlogs (blogs : List Blog)

/-- The type of the objects that a job is about. -/
def KnowledgeJob.sourceType : KnowledgeJob → KnowledgeSourceType
  | .indexFaq _ | .deleteFaqKnowledge _ | .reindexAllFaqs _ _ => .faq
  | .indexBlog _ | .deleteBlogKnowledge _ | .reindexAllBlogs _ => .blog

/-- Create or replace the objects of one source. -/
def indexSource (sourceType : KnowledgeSourceType) (sourceId : Text)
    (objects : List (UUID × KnowledgeObject)) : List KnowledgeCall :=
  if objects.isEmpty then [.deleteKnowledgeBySource sourceType sourceId]
  else [.ensureKnowledgeCollection, .deleteKnowledgeBySource sourceType sourceId,
    .upsertKnowledgeObjects objects]

/-- Index one FAQ anew. -/
def indexFaq (indexer : Indexer) (row : FaqRow) : List KnowledgeCall :=
  indexSource .faq row.id (faqObjects indexer row)

/-- Index one post anew. -/
def indexBlog (indexer : Indexer) (blog : Blog) : List KnowledgeCall :=
  indexSource .blog blog.id (blogObjects indexer blog)

/-- The objects of the active rows. -/
def activeFaqObjects (indexer : Indexer) (rows : List FaqRow) : List (UUID × KnowledgeObject) :=
  (rows.filter FaqRow.isActive).flatMap (faqObjects indexer)

/-- Replace all FAQ knowledge; without a snapshot nothing is touched. -/
def reindexAllFaqs (indexer : Indexer) (rows : Option (List FaqRow)) : List KnowledgeCall :=
  match rows with
  | none => []
  | some rows => [.ensureKnowledgeCollection, .deleteKnowledgeBySourceType .faq,
      .upsertKnowledgeObjects (activeFaqObjects indexer rows)]

/-- Index the posts that are to be seen, and remove the others. -/
def reindexAllBlogs (indexer : Indexer) (blogs : List Blog) : List KnowledgeCall :=
  blogs.flatMap fun blog =>
    if blog.isActive = false ∨ blog.isPublished = false then
      [.deleteKnowledgeBySource .blog blog.id]
    else indexBlog indexer blog

/-- The calls that a job makes, in order, unless one raises. -/
def KnowledgeJob.calls (indexer : Indexer) (settings : RagSettings) (job : KnowledgeJob) :
    List KnowledgeCall :=
  if !settings.weaviateEnabled then []
  else
    match job with
    | .indexFaq row => GreenGarden.indexFaq indexer row
    | .deleteFaqKnowledge faqId => [.deleteKnowledgeBySource .faq faqId]
    | .reindexAllFaqs faqs snapshot =>
        GreenGarden.reindexAllFaqs indexer (faqs.or (loadFaqSnapshot snapshot))
    | .indexBlog blog => GreenGarden.indexBlog indexer blog
    | .deleteBlogKnowledge blogId => [.deleteKnowledgeBySource .blog blogId]
    | .reindexAllBlogs blogs => GreenGarden.reindexAllBlogs indexer blogs

/-- Jobs on one collection. -/
def knowledgeJobs {ι : Type} (indexer : Indexer) (settings : RagSettings) (filter : TextFilter)
    (jobs : ι → KnowledgeJob) : System ι KnowledgeCall Fault (Option Collection) where
  calls i := (jobs i).calls indexer settings
  perform := KnowledgeCall.perform filter

/-- The objects of one source type. -/
def partOf (sourceType : KnowledgeSourceType) (corpus : Option Collection) : Collection :=
  fun uuid => (contents corpus uuid).filter fun object => object.sourceType = sourceType.value

/-! ### Identities -/

/-- An object under the identity that it shows. -/
structure WellKeyed (indexer : Indexer) (uuid : UUID) (object : KnowledgeObject) : Prop where
  sourceType : ∃ t : KnowledgeSourceType, object.sourceType = t.value
  chunkId : object.chunkId = chunkMain
  locale : ∃ l : Locale, object.locale = l.value
  uuid : uuid = indexer.uuid5 object.key

/-- Every object lies under its own identity. -/
def AllKeyed (indexer : Indexer) (corpus : Option Collection) : Prop :=
  ∀ uuid object, contents corpus uuid = some object → WellKeyed indexer uuid object

theorem colon_notMem_value (t : KnowledgeSourceType) : ':' ∉ t.value := by
  cases t <;> decide

theorem KnowledgeSourceType.value_inj {t t' : KnowledgeSourceType} (h : t.value = t'.value) :
    t = t' := by
  cases t <;> cases t' <;> first | rfl | exact absurd h (by decide)

theorem Locale.length_value (l : Locale) : l.value.length = 2 := by
  cases l <;> rfl

/-- **An identity tells its source**, whatever is in the id. -/
theorem WellKeyed.same {indexer : Indexer} {uuid : UUID} {o o' : KnowledgeObject}
    (h : WellKeyed indexer uuid o) (h' : WellKeyed indexer uuid o') :
    o.sourceType = o'.sourceType ∧ o.sourceId = o'.sourceId ∧ o.locale = o'.locale := by
  obtain ⟨t, ht⟩ := h.sourceType
  obtain ⟨t', ht'⟩ := h'.sourceType
  obtain ⟨l, hl⟩ := h.locale
  obtain ⟨l', hl'⟩ := h'.locale
  have hkey : o.key = o'.key := indexer.uuid5_injective (h.uuid.symm.trans h'.uuid)
  rw [KnowledgeObject.key, KnowledgeObject.key] at hkey
  have hcolon : ':' ∉ o.sourceType := ht ▸ colon_notMem_value t
  have hcolon' : ':' ∉ o'.sourceType := ht' ▸ colon_notMem_value t'
  obtain ⟨htype, hrest⟩ := append_separator_inj hcolon hcolon' hkey
  -- an id may hold colons of its own: the end is read from the right
  rw [h.chunkId, h'.chunkId] at hrest
  have hlength : (':' :: (chunkMain ++ ':' :: o.locale)).length
      = (':' :: (chunkMain ++ ':' :: o'.locale)).length := by
    simp only [List.length_cons, List.length_append, hl, hl', Locale.length_value]
  obtain ⟨hid, hend⟩ := List.append_inj' hrest hlength
  refine ⟨htype, hid, ?_⟩
  exact (List.cons.inj (List.append_cancel_left (List.cons.inj hend).2)).2

/-- An object is that of a source in a language. -/
structure IsObjectOf (indexer : Indexer) (t : KnowledgeSourceType) (source : Source) (l : Locale)
    (e : UUID × KnowledgeObject) : Prop where
  keyed : WellKeyed indexer e.1 e.2
  sourceType : e.2.sourceType = t.value
  sourceId : e.2.sourceId = source.id
  locale : e.2.locale = l.value
  slug : e.2.slug = source.slug
  title : e.2.title = source.title l
  sectionLabel : e.2.sectionLabel = []
  content : cleanText (some (source.text l)) = some e.2.content

section Objects

variable {indexer : Indexer} {t : KnowledgeSourceType} {source : Source} {l : Locale}
variable {e : UUID × KnowledgeObject}

theorem sourceObject_spec (h : sourceObject indexer t source l = some e) :
    IsObjectOf indexer t source l e := by
  obtain ⟨cleaned, hclean, rfl⟩ := Option.map_eq_some_iff.mp h
  exact ⟨⟨⟨t, rfl⟩, rfl, ⟨l, rfl⟩, rfl⟩, rfl, rfl, rfl, rfl, rfl, rfl, hclean⟩

theorem mem_sourceObjects : e ∈ sourceObjects indexer t source ↔
    ∃ l, sourceObject indexer t source l = some e := by
  rw [sourceObjects, List.mem_filterMap]
  constructor
  · rintro ⟨l, -, h⟩
    exact ⟨l, h⟩
  · rintro ⟨l, h⟩
    refine ⟨l, ?_, h⟩
    cases l
    · exact List.mem_cons_self
    · exact List.mem_cons_of_mem _ List.mem_cons_self

theorem sourceObjects_keyed (h : e ∈ sourceObjects indexer t source) :
    WellKeyed indexer e.1 e.2 ∧ e.2.sourceType = t.value := by
  obtain ⟨l, h⟩ := mem_sourceObjects.mp h
  exact ⟨(sourceObject_spec h).keyed, (sourceObject_spec h).sourceType⟩

/-- The two texts of a source lie under two identities. -/
theorem nodup_sourceObjects : ((sourceObjects indexer t source).map Prod.fst).Nodup := by
  have hnd : ((sourceObjects indexer t source).map fun e => e.2.locale).Nodup := by
    rw [sourceObjects, List.filterMap_cons, List.filterMap_cons, List.filterMap_nil]
    rcases hen : sourceObject indexer t source .en with - | en <;>
      rcases hvi : sourceObject indexer t source .vi with - | vi
    · exact List.nodup_nil
    · exact List.nodup_singleton _
    · exact List.nodup_singleton _
    · show [en.2.locale, vi.2.locale].Nodup
      rw [(sourceObject_spec hen).locale, (sourceObject_spec hvi).locale]
      decide
  rw [List.Nodup, List.pairwise_map] at hnd ⊢
  refine hnd.imp_of_mem fun {e e'} he he' hne heq => hne ?_
  have hkeyed := (sourceObjects_keyed he).1
  rw [heq] at hkeyed
  exact (hkeyed.same (sourceObjects_keyed he').1).2.2

theorem sourceObjects_content (h : e ∈ sourceObjects indexer t source) :
    (!e.2.content.isEmpty) = true := by
  obtain ⟨l, h⟩ := mem_sourceObjects.mp h
  simpa using (cleanText_eq_some (sourceObject_spec h).content).2

end Objects

/-! ### What a call can do -/

/-- The call is about sources of this type. -/
def KnowledgeCall.OfType (indexer : Indexer) (t : KnowledgeSourceType) : KnowledgeCall → Prop
  | .ensureKnowledgeCollection => True
  | .deleteKnowledgeBySource t' _ => t' = t
  | .deleteKnowledgeBySourceType t' => t' = t
  | .upsertKnowledgeObjects objects =>
      ∀ e ∈ objects, WellKeyed indexer e.1 e.2 ∧ e.2.sourceType = t.value

/-- Take away what `p` selects. -/
def removing (p : UUID → KnowledgeObject → Bool) (collection : Collection) : Collection :=
  fun uuid => (collection uuid).filter fun object => !p uuid object

/-- The objects of one source type, in a collection. -/
def selecting (t : KnowledgeSourceType) (collection : Collection) : Collection :=
  fun uuid => (collection uuid).filter fun object => object.sourceType = t.value

section Calls

variable {indexer : Indexer} {filter : TextFilter} {t : KnowledgeSourceType}
variable {call : KnowledgeCall}

theorem removing_nothing (collection : Collection) :
    removing (fun _ _ => false) collection = collection := by
  funext uuid
  show (collection uuid).filter (fun _ => true) = collection uuid
  rcases collection uuid with - | object
  · rfl
  · rfl

/-- **A call**, with a fault or without, removes objects of its source type and
then writes objects of its source type. -/
theorem perform_eq (filter : TextFilter) (h : call.OfType indexer t) (fault : Option Fault) :
    ∃ p es, (∀ corpus, contents (call.perform filter fault corpus)
        = insertMany es (removing p (contents corpus))) ∧
      (∀ uuid object, p uuid object = true → filter.equal object.sourceType t.value = true) ∧
      ∀ e ∈ es, WellKeyed indexer e.1 e.2 ∧ e.2.sourceType = t.value := by
  cases call with
  | ensureKnowledgeCollection =>
    refine ⟨fun _ _ => false, [], fun corpus => ?_, fun _ _ h => absurd h (by simp),
      fun e he => absurd he List.not_mem_nil⟩
    rw [removing_nothing, KnowledgeCall.perform]
    split
    · rfl
    · rfl
  | deleteKnowledgeBySource t' sourceId =>
    obtain rfl : t' = t := h
    refine ⟨fun uuid object =>
      bySource filter t' sourceId object && Fault.reaches fault uuid object,
      [], fun corpus => ?_, fun uuid object hp => ?_, fun e he => absurd he List.not_mem_nil⟩
    · cases corpus with
      | none => rfl
      | some collection => rfl
    · exact (Bool.and_eq_true_iff.mp (Bool.and_eq_true_iff.mp hp).1).1
  | deleteKnowledgeBySourceType t' =>
    obtain rfl : t' = t := h
    refine ⟨fun uuid object => bySourceType filter t' object && Fault.reaches fault uuid object,
      [], fun corpus => ?_, fun uuid object hp => ?_, fun e he => absurd he List.not_mem_nil⟩
    · cases corpus with
      | none => rfl
      | some collection => rfl
    · exact (Bool.and_eq_true_iff.mp hp).1
  | upsertKnowledgeObjects objects =>
    have untouched : ∀ corpus, contents corpus
        = insertMany [] (removing (fun _ _ => false) (contents corpus)) :=
      fun corpus => (removing_nothing _).symm
    by_cases hempty : objects.isEmpty = true
    · refine ⟨fun _ _ => false, [], fun corpus => ?_, fun _ _ h => absurd h (by simp),
        fun e he => absurd he List.not_mem_nil⟩
      rw [KnowledgeCall.perform, if_pos hempty]
      exact untouched corpus
    · by_cases hcreates : Fault.creates fault = true
      · refine ⟨fun _ _ => false, (objects.filter fun e => Fault.reaches fault e.1 e.2).filter
          fun e => !e.2.content.isEmpty, fun corpus => ?_, fun _ _ h => absurd h (by simp),
          fun e he => h e (List.mem_filter.mp (List.mem_filter.mp he).1).1⟩
        rw [KnowledgeCall.perform, if_neg hempty, if_pos hcreates, removing_nothing]
        rfl
      · refine ⟨fun _ _ => false, [], fun corpus => ?_, fun _ _ h => absurd h (by simp),
          fun e he => absurd he List.not_mem_nil⟩
        rw [KnowledgeCall.perform, if_neg hempty, if_neg hcreates]
        exact untouched corpus

theorem mem_of_insertMany {es : List (UUID × KnowledgeObject)} {collection : Collection}
    {uuid : UUID} {object : KnowledgeObject} (h : insertMany es collection uuid = some object) :
    (uuid, object) ∈ es ∨ collection uuid = some object := by
  rw [insertMany_eq] at h
  rcases Option.or_eq_some_iff.mp h with hfound | ⟨-, hkept⟩
  · obtain ⟨e, hfind, rfl⟩ := Option.map_eq_some_iff.mp hfound
    obtain rfl : e.1 = uuid := by simpa using List.find?_some hfind
    exact .inl (List.mem_reverse.mp (List.mem_of_find?_eq_some hfind))
  · exact .inr hkept

theorem eq_some_of_removing {p : UUID → KnowledgeObject → Bool} {collection : Collection}
    {uuid : UUID} {object : KnowledgeObject} (h : removing p collection uuid = some object) :
    collection uuid = some object :=
  (Option.filter_eq_some_iff.mp h).1

/-- What is of the type is changed by itself alone. -/
theorem selecting_own {es : List (UUID × KnowledgeObject)}
    (hes : ∀ e ∈ es, e.2.sourceType = t.value) (p : UUID → KnowledgeObject → Bool)
    (collection : Collection) :
    selecting t (insertMany es (removing p collection))
      = insertMany es (removing p (selecting t collection)) := by
  funext uuid
  rw [selecting, insertMany_eq, insertMany_eq]
  cases hfind : List.find? (fun e => decide (e.1 = uuid)) es.reverse with
  | none =>
    rw [Option.map_none, Option.none_or, Option.none_or, removing, removing, selecting,
      Option.filter_filter, Option.filter_filter]
    congr 1
    funext object
    exact Bool.and_comm _ _
  | some e =>
    have htype := hes e (List.mem_reverse.mp (List.mem_of_find?_eq_some hfind))
    simp [htype]

/-- What is of another type is left alone. -/
theorem selecting_other {es : List (UUID × KnowledgeObject)} {t' : KnowledgeSourceType}
    (hne : t ≠ t') (hes : ∀ e ∈ es, WellKeyed indexer e.1 e.2 ∧ e.2.sourceType = t.value)
    {p : UUID → KnowledgeObject → Bool}
    (hp : ∀ uuid object, p uuid object = true → filter.equal object.sourceType t.value = true)
    {collection : Collection}
    (hkeyed : ∀ uuid object, collection uuid = some object → WellKeyed indexer uuid object) :
    selecting t' (insertMany es (removing p collection)) = selecting t' collection := by
  funext uuid
  ext object
  rw [selecting, selecting, Option.filter_eq_some_iff, Option.filter_eq_some_iff,
    decide_eq_true_eq]
  constructor
  · rintro ⟨hget, htype⟩
    rcases mem_of_insertMany hget with hmem | hkept
    · exact absurd (KnowledgeSourceType.value_inj ((hes _ hmem).2.symm.trans htype)) hne
    · exact ⟨eq_some_of_removing hkept, htype⟩
  · rintro ⟨hget, htype⟩
    refine ⟨?_, htype⟩
    have hstays : p uuid object = false := by
      rw [Bool.eq_false_iff]
      intro hsel
      have hequal := hp uuid object hsel
      rw [htype] at hequal
      exact hne (filter.equal_sourceType hequal).symm
    have hfresh : uuid ∉ es.map Prod.fst := by
      intro hk
      obtain ⟨e, he, rfl⟩ := List.mem_map.mp hk
      have hsame := ((hes e he).1.same (hkeyed _ _ hget)).1
      rw [(hes e he).2, htype] at hsame
      exact hne (KnowledgeSourceType.value_inj hsame)
    rw [insertMany_of_notMem hfresh, removing, hget]
    simp [hstays]

end Calls

/-! ### Jobs keep apart -/

section Jobs

variable {indexer : Indexer} {settings : RagSettings} {t : KnowledgeSourceType}
variable {call : KnowledgeCall}

theorem ofType_indexSource {source : Source}
    (h : call ∈ indexSource t source.id (sourceObjects indexer t source)) :
    call.OfType indexer t := by
  rw [indexSource] at h
  split at h
  · rw [List.mem_singleton.mp h]
    rfl
  · simp only [List.mem_cons, List.not_mem_nil, or_false] at h
    rcases h with rfl | rfl | rfl
    · trivial
    · rfl
    · exact fun e he => sourceObjects_keyed he

theorem ofType_reindexAllFaqs {rows : Option (List FaqRow)}
    (h : call ∈ reindexAllFaqs indexer rows) : call.OfType indexer .faq := by
  cases rows with
  | none => cases h
  | some rows =>
    simp only [reindexAllFaqs, List.mem_cons, List.not_mem_nil, or_false] at h
    rcases h with rfl | rfl | rfl
    · trivial
    · rfl
    · intro e he
      obtain ⟨row, -, he⟩ := List.mem_flatMap.mp he
      exact sourceObjects_keyed he

theorem ofType_reindexAllBlogs {blogs : List Blog}
    (h : call ∈ reindexAllBlogs indexer blogs) : call.OfType indexer .blog := by
  obtain ⟨blog, -, h⟩ := List.mem_flatMap.mp h
  split at h
  · rw [List.mem_singleton.mp h]
    rfl
  · exact ofType_indexSource h

/-- A job calls for its own source type. -/
theorem ofType_calls {job : KnowledgeJob} (h : call ∈ job.calls indexer settings) :
    call.OfType indexer job.sourceType := by
  unfold KnowledgeJob.calls at h
  split at h
  · cases h
  · cases job with
    | indexFaq row => exact ofType_indexSource h
    | deleteFaqKnowledge faqId =>
      rw [List.mem_singleton.mp h]
      rfl
    | reindexAllFaqs faqs snapshot => exact ofType_reindexAllFaqs h
    | indexBlog blog => exact ofType_indexSource h
    | deleteBlogKnowledge blogId =>
      rw [List.mem_singleton.mp h]
      rfl
    | reindexAllBlogs blogs => exact ofType_reindexAllBlogs h

/-- **Source types do not meet**: the part of the collection that belongs to a
source type is changed by its own jobs alone, and by what is in it alone. -/
theorem corpusApart {ι : Type} (indexer : Indexer) (settings : RagSettings) (filter : TextFilter)
    (jobs : ι → KnowledgeJob) :
    (knowledgeJobs indexer settings filter jobs).Apart (fun i => (jobs i).sourceType) partOf
      (AllKeyed indexer) where
  keeps i call hcall fault corpus hkeyed := by
    obtain ⟨p, es, heq, -, hes⟩ := perform_eq filter (ofType_calls hcall) fault
    intro uuid object hget
    rw [show contents ((knowledgeJobs indexer settings filter jobs).perform call fault corpus)
      = _ from heq corpus] at hget
    rcases mem_of_insertMany hget with hmem | hkept
    · exact (hes _ hmem).1
    · exact hkeyed uuid object (eq_some_of_removing hkept)
  frame i call hcall fault corpus t hkeyed hne := by
    obtain ⟨p, es, heq, hp, hes⟩ := perform_eq filter (ofType_calls hcall) fault
    show selecting t (contents (call.perform filter fault corpus)) = selecting t (contents corpus)
    rw [heq]
    exact selecting_other hne hes hp hkeyed
  within i call hcall fault corpus corpus' _ _ hpart := by
    obtain ⟨p, es, heq, -, hes⟩ := perform_eq filter (ofType_calls hcall) fault
    show selecting _ (contents (call.perform filter fault corpus))
      = selecting _ (contents (call.perform filter fault corpus'))
    have hown : ∀ e ∈ es, _ := fun e he => (hes e he).2
    rw [heq, heq, selecting_own hown, selecting_own hown]
    exact congrArg (fun c => insertMany es (removing p c)) hpart

end Jobs

end GreenGarden
