/-
GreenGarden/Reindexing.lean

What passes over FAQs and blog posts leave in the collection, whatever runs
beside them and whatever went before.

The FAQs are replaced as a whole: once `reindex_all_faqs` is through, its rows
are all that is left of any FAQ, and all that a search can answer with
(`faqs_reindexed`).  Blog posts are replaced one by one: what a pass does not
list stays as it was (`blogs_reindexed`).
-/
import GreenGarden.Corpus

namespace GreenGarden

open Replica Jobs

section Runs

variable {ι : Type} [DecidableEq ι]
variable {indexer : Indexer} {settings : RagSettings} {filter : TextFilter}
variable {jobs : ι → KnowledgeJob}

theorem allKeyed_initial (indexer : Indexer) : AllKeyed indexer none := by
  intro uuid object h
  cases h

/-- No job brings an object under an identity that is not its own. -/
theorem allKeyed_run (indexer : Indexer) (settings : RagSettings) (filter : TextFilter)
    (jobs : ι → KnowledgeJob) (moves : List (Move ι Fault)) :
    AllKeyed indexer
      ((knowledgeJobs indexer settings filter jobs).run moves (initial none)).store :=
  System.run_keeps (corpusApart indexer settings filter jobs).keeps (allKeyed_initial indexer)

/-- **Source types never meet.**  In every run, with every fault, the part of
the collection that belongs to a source type is what the jobs of this type
alone would have made of it, and they are as far as they would have been. -/
theorem sources_never_meet (indexer : Indexer) (settings : RagSettings) (filter : TextFilter)
    (jobs : ι → KnowledgeJob) (t : KnowledgeSourceType) (moves : List (Move ι Fault)) :
    let S := knowledgeJobs indexer settings filter jobs
    let together := S.run moves (initial none)
    let alone := S.run (moves.filter fun m => (jobs m.job).sourceType = t) (initial none)
    partOf t together.store = partOf t alone.store ∧
      ∀ i, (jobs i).sourceType = t → (S.Finished together i ↔ S.Finished alone i) := by
  intro S together alone
  have hagree := System.agree_run (corpusApart indexer settings filter jobs) t moves
    (s := initial none) (allKeyed_initial indexer)
  refine ⟨hagree.part, fun i hi => ?_⟩
  rw [System.Finished, System.Finished, hagree.made i hi, hagree.raised i hi]

/-- A job that finishes among jobs of another type has done to its part of the
collection what its calls do. -/
theorem part_of_finished {before after : List (Move ι Fault)} {i : ι}
    (hbefore : ∀ m ∈ before, m.job ≠ i)
    (hafter : ∀ m ∈ after, m.job = i ∨ (jobs m.job).sourceType ≠ (jobs i).sourceType)
    (hend : (knowledgeJobs indexer settings filter jobs).Finished
      ((knowledgeJobs indexer settings filter jobs).run (before ++ after) (initial none)) i) :
    partOf (jobs i).sourceType
        ((knowledgeJobs indexer settings filter jobs).run (before ++ after) (initial none)).store
      = partOf (jobs i).sourceType
          ((knowledgeJobs indexer settings filter jobs).performAll
            ((jobs i).calls indexer settings)
            ((knowledgeJobs indexer settings filter jobs).run before (initial none)).store) := by
  set S := knowledgeJobs indexer settings filter jobs with hS
  obtain ⟨hmade, hraised⟩ := S.run_other hbefore (s := initial none)
  set s := S.run before (initial none) with hs
  have hagree := System.agree_run (corpusApart indexer settings filter jobs) (jobs i).sourceType
    after (s := s) (allKeyed_run indexer settings filter jobs before)
  rw [System.run_append, ← hs] at hend ⊢
  -- of its type, only the job itself has moved
  have hown : ∀ m ∈ after.filter fun m => (jobs m.job).sourceType = (jobs i).sourceType,
      m.job = i := by
    intro m hm
    obtain ⟨hmem, htype⟩ := List.mem_filter.mp hm
    exact (hafter m hmem).resolve_right fun hne => hne (of_decide_eq_true htype)
  have hend' : S.Finished (S.run (after.filter fun m =>
      (jobs m.job).sourceType = (jobs i).sourceType) s) i := by
    rw [System.Finished, ← hagree.made i rfl, ← hagree.raised i rfl]
    exact hend
  rw [hagree.part, System.store_of_finished hown hraised hend', hmade]
  rfl

end Runs

/-! ### Calls without a fault -/

section Calls

variable {indexer : Indexer} {filter : TextFilter} {corpus : Option Collection}

theorem contents_ensure :
    contents (KnowledgeCall.perform filter .ensureKnowledgeCollection none corpus)
      = contents corpus := rfl

theorem contents_deleteBySource (t : KnowledgeSourceType) (sourceId : Text) :
    contents (KnowledgeCall.perform filter (.deleteKnowledgeBySource t sourceId) none corpus)
      = deleteMany (bySource filter t sourceId) (contents corpus) := by
  have hreached : deleteReached (bySource filter t sourceId) none
      = deleteMany (bySource filter t sourceId) := by
    funext collection uuid
    simp [deleteReached, deleteMany, Fault.reaches]
  cases corpus with
  | none => rfl
  | some collection =>
    show deleteReached (bySource filter t sourceId) none collection = _
    rw [hreached]
    rfl

theorem contents_deleteBySourceType (t : KnowledgeSourceType) :
    contents (KnowledgeCall.perform filter (.deleteKnowledgeBySourceType t) none corpus)
      = deleteMany (bySourceType filter t) (contents corpus) := by
  have hreached : deleteReached (bySourceType filter t) none
      = deleteMany (bySourceType filter t) := by
    funext collection uuid
    simp [deleteReached, deleteMany, Fault.reaches]
  cases corpus with
  | none => rfl
  | some collection =>
    show deleteReached (bySourceType filter t) none collection = _
    rw [hreached]
    rfl

theorem contents_upsert {objects : List (UUID × KnowledgeObject)}
    (h : ∀ e ∈ objects, (!e.2.content.isEmpty) = true) :
    contents (KnowledgeCall.perform filter (.upsertKnowledgeObjects objects) none corpus)
      = insertMany objects (contents corpus) := by
  by_cases hempty : objects.isEmpty = true
  · rw [KnowledgeCall.perform, if_pos hempty, List.isEmpty_iff.mp hempty]
    rfl
  · rw [KnowledgeCall.perform, if_neg hempty,
      if_pos (show Fault.creates none = true from rfl)]
    have hreached : (objects.filter fun e => Fault.reaches none e.1 e.2) = objects :=
      List.filter_eq_self.mpr fun _ _ => rfl
    show insertMany ((objects.filter fun e => Fault.reaches none e.1 e.2).filter
      fun e => !e.2.content.isEmpty) (contents corpus) = _
    rw [hreached, List.filter_eq_self.mpr h]

theorem mem_activeFaqObjects {rows : List FaqRow} {e : UUID × KnowledgeObject}
    (h : e ∈ activeFaqObjects indexer rows) :
    ∃ row ∈ rows, row.isActive = true ∧ e ∈ faqObjects indexer row := by
  obtain ⟨row, hrow, he⟩ := List.mem_flatMap.mp h
  obtain ⟨hmem, hactive⟩ := List.mem_filter.mp hrow
  exact ⟨row, hmem, hactive, he⟩

end Calls

/-! ### FAQs -/

/-- The last object of the list under this identity. -/
def lastUnder (objects : List (UUID × KnowledgeObject)) (uuid : UUID) : Option KnowledgeObject :=
  (objects.reverse.find? fun e => e.1 = uuid).map Prod.snd

theorem mem_of_lastUnder {objects : List (UUID × KnowledgeObject)} {uuid : UUID}
    {object : KnowledgeObject} (h : lastUnder objects uuid = some object) :
    (uuid, object) ∈ objects := by
  obtain ⟨e, hfind, rfl⟩ := Option.map_eq_some_iff.mp h
  obtain rfl : e.1 = uuid := by simpa using List.find?_some hfind
  exact List.mem_reverse.mp (List.mem_of_find?_eq_some hfind)

/-- What the search reads of an object. -/
def KnowledgeObject.properties (object : KnowledgeObject) : Properties where
  sourceType := some object.sourceType
  locale := some object.locale
  title := some object.title
  slug := some object.slug
  sectionLabel := some object.sectionLabel
  content := some object.content

/-- A row in one language, as a search answers with it. -/
def FaqRow.answer (row : FaqRow) (l : Locale) : SearchChunk where
  title := faqTitle row.faq l
  slug := row.faq.slug
  locale := l.value
  sectionLabel := []
  content := strip (buildFaqKnowledgeText row.faq l)

/-- The FAQs of the collection are these rows, and a search of the collection
finds no others. -/
structure ServesOnly (indexer : Indexer) (rows : List FaqRow) (corpus : Option Collection) :
    Prop where
  objects : ∀ uuid object, (contents corpus uuid = some object ∧
    object.sourceType = KnowledgeSourceType.faq.value) ↔
      lastUnder (activeFaqObjects indexer rows) uuid = some object
  found : ∀ (store : VectorStore) (settings : RagSettings) (query : Text) (limit : Option ℕ)
    (locale : Option Text) (listing : List KnowledgeObject),
    store.collection collectionName = some (listing.map KnowledgeObject.properties) →
    (∀ object ∈ listing, ∃ uuid, contents corpus uuid = some object) →
    ∀ chunk ∈ (searchFaqKnowledge store settings query limit locale).chunks,
      ∃ row ∈ rows, row.isActive = true ∧ ∃ l, chunk = row.answer l ∧
        ∀ l', locale = some l'.value → l = l'

section Faqs

variable {store : VectorStore} {settings : RagSettings} {query : Text} {limit : Option ℕ}
variable {locale : Option Text} {chunk : SearchChunk}

/-- A search answers with objects of the collection that pass its conditions. -/
theorem mem_searchCollection {label name : Text} {sourceType : Option KnowledgeSourceType}
    (h : chunk ∈
      (searchCollection store settings query name label sourceType limit locale).chunks) :
    ∃ objects, store.collection name = some objects ∧ ∃ o ∈ objects,
      passes sourceType locale o = true ∧ searchChunk o = some chunk := by
  rw [searchCollection] at h
  split at h
  · cases h
  · dsimp only at h
    split at h
    · cases h
    · split at h
      · cases h
      · split at h
        · cases h
        · rename_i objects hobjects
          split at h
          · cases h
          · rename_i ranking hranking
            obtain ⟨o, ho, hchunk⟩ := List.mem_filterMap.mp h
            have hmem := (VectorStore.ranking_subperm hranking).subset (List.mem_of_mem_take ho)
            obtain ⟨hmem, hpasses⟩ := List.mem_filter.mp hmem
            exact ⟨objects, hobjects, o, hmem, hpasses, hchunk⟩

theorem mem_searchFaqKnowledge
    (h : chunk ∈ (searchFaqKnowledge store settings query limit locale).chunks) :
    ∃ objects, store.collection collectionName = some objects ∧ ∃ o ∈ objects,
      passes (some .faq) locale o = true ∧ searchChunk o = some chunk := by
  have h := List.mem_of_mem_take h
  rw [Firsts.keepUnseen_empty] at h
  exact mem_searchCollection ((Firsts.firsts_sublist _).subset h)

/-- A language that is asked for is the language of what passes. -/
theorem locale_of_passes {o : Properties} {l : Locale}
    (h : passes (some .faq) (some l.value) o = true) : o.locale = some l.value := by
  have hlocale : (if [Locale.en.value, Locale.vi.value].contains l.value then
      decide (o.locale = some l.value) else true) = true := (Bool.and_eq_true_iff.mp h).2
  have hknown : [Locale.en.value, Locale.vi.value].contains l.value = true := by
    cases l <;> decide
  rw [if_pos hknown] at hlocale
  exact of_decide_eq_true hlocale

theorem Locale.value_inj {l l' : Locale} (h : l.value = l'.value) : l = l' := by
  cases l <;> cases l' <;> first | rfl | exact absurd h (by decide)

theorem chunk_of_searchChunk {o : Properties} (h : searchChunk o = some chunk) :
    chunk = o.chunk := by
  rw [searchChunk] at h
  split at h
  · cases h
  · exact (Option.some.inj h).symm

/-- What is stored is the stripped text. -/
theorem strip_cleanText {text cleaned : Text} (h : cleanText (some text) = some cleaned) :
    strip cleaned = strip text := by
  rw [cleanText] at h
  split at h
  · cases h
  · rw [← Option.some.inj h, strip_strip]

/-- Nothing but the rows is found where the FAQs are the rows. -/
theorem serves_of_part {indexer : Indexer} {rows : List FaqRow} {corpus : Option Collection}
    (h : partOf .faq corpus = lastUnder (activeFaqObjects indexer rows)) :
    ServesOnly indexer rows corpus := by
  have hobjects : ∀ uuid object, (contents corpus uuid = some object ∧
      object.sourceType = KnowledgeSourceType.faq.value) ↔
        lastUnder (activeFaqObjects indexer rows) uuid = some object := by
    intro uuid object
    rw [← h, partOf, Option.filter_eq_some_iff, decide_eq_true_eq]
  refine ⟨hobjects, ?_⟩
  intro store settings query limit locale listing hlisting hstored chunk hchunk
  obtain ⟨objects, hcollection, o, ho, hpasses, hchunk⟩ := mem_searchFaqKnowledge hchunk
  obtain rfl := Option.some.inj (hlisting.symm.trans hcollection)
  obtain ⟨object, hobject, rfl⟩ := List.mem_map.mp ho
  obtain ⟨uuid, huuid⟩ := hstored object hobject
  have htype : object.sourceType = KnowledgeSourceType.faq.value := by
    have hfaq := of_decide_eq_true (isFaq_of_passes hpasses)
    exact Option.some.inj hfaq
  obtain ⟨row, hrow, hactive, hmem⟩ :=
    mem_activeFaqObjects (mem_of_lastUnder ((hobjects uuid object).mp ⟨huuid, htype⟩))
  obtain ⟨l, hl⟩ := mem_sourceObjects.mp hmem
  have hsource : IsObjectOf indexer .faq row.source l (uuid, object) := sourceObject_spec hl
  refine ⟨row, hrow, hactive, l, ?_, ?_⟩
  · rw [chunk_of_searchChunk hchunk]
    show SearchChunk.mk object.title object.slug object.locale object.sectionLabel
      (strip object.content) = _
    rw [strip_cleanText hsource.content, hsource.title, hsource.slug, hsource.locale,
      hsource.sectionLabel]
    rfl
  · rintro l' rfl
    exact Locale.value_inj (hsource.locale.symm.trans (Option.some.inj (locale_of_passes hpasses)))

end Faqs

section Runs

variable {ι : Type} [DecidableEq ι]
variable {indexer : Indexer} {settings : RagSettings} {filter : TextFilter}
variable {jobs : ι → KnowledgeJob} {before after : List (Move ι Fault)} {i : ι}

omit [DecidableEq ι] in
/-- The FAQs after a pass that was not disturbed. -/
theorem part_reindexAllFaqs (rows : List FaqRow) (corpus : Option Collection) :
    partOf .faq ((knowledgeJobs indexer settings filter jobs).performAll
        (reindexAllFaqs indexer (some rows)) corpus)
      = lastUnder (activeFaqObjects indexer rows) := by
  have hkeyed : ∀ e ∈ activeFaqObjects indexer rows,
      e.2.sourceType = KnowledgeSourceType.faq.value ∧ (!e.2.content.isEmpty) = true := by
    intro e he
    obtain ⟨row, -, -, he⟩ := mem_activeFaqObjects he
    exact ⟨(sourceObjects_keyed he).2, sourceObjects_content he⟩
  show selecting .faq (contents (KnowledgeCall.perform filter
    (.upsertKnowledgeObjects (activeFaqObjects indexer rows)) none
    (KnowledgeCall.perform filter (.deleteKnowledgeBySourceType .faq) none
      (KnowledgeCall.perform filter .ensureKnowledgeCollection none corpus)))) = _
  rw [contents_upsert fun e he => (hkeyed e he).2, contents_deleteBySourceType, contents_ensure]
  show selecting .faq (insertMany _ (removing (fun _ o => bySourceType filter .faq o) _)) = _
  rw [selecting_own fun e he => (hkeyed e he).1]
  -- no FAQ survives the deletion
  have hgone : removing (fun _ o => bySourceType filter .faq o)
      (selecting .faq (contents corpus)) = fun _ => none := by
    funext uuid
    rw [Option.eq_none_iff_forall_ne_some]
    intro object hget
    obtain ⟨hsel, hnot⟩ := Option.filter_eq_some_iff.mp hget
    have htype := of_decide_eq_true (Option.filter_eq_some_iff.mp hsel).2
    simp only [bySourceType, htype, filter.equal_self] at hnot
    cases hnot
  rw [hgone]
  funext uuid
  rw [insertMany_eq, Option.or_none]
  rfl

/-- **The FAQs are the snapshot.**  Whatever ran before, and whatever runs
beside it on blog posts, a pass over the FAQs that comes to its end leaves its
active rows and no other FAQ, and a search finds no other. -/
theorem faqs_reindexed {faqs : Option (List FaqRow)} {snapshot : Option (List SnapshotItem)}
    {rows : List FaqRow} (hjob : jobs i = .reindexAllFaqs faqs snapshot)
    (hrows : faqs.or (loadFaqSnapshot snapshot) = some rows)
    (henabled : settings.weaviateEnabled = true)
    (hbefore : ∀ m ∈ before, m.job ≠ i)
    (hafter : ∀ m ∈ after, m.job = i ∨ (jobs m.job).sourceType ≠ .faq)
    (hend : (knowledgeJobs indexer settings filter jobs).Finished
      ((knowledgeJobs indexer settings filter jobs).run (before ++ after) (initial none)) i) :
    ServesOnly indexer rows
      ((knowledgeJobs indexer settings filter jobs).run
        (before ++ after) (initial none)).store := by
  have htype : (jobs i).sourceType = .faq := by rw [hjob]; rfl
  have hcalls : (jobs i).calls indexer settings = reindexAllFaqs indexer (some rows) := by
    rw [hjob, ← hrows]
    unfold KnowledgeJob.calls
    rw [henabled]
    rfl
  have hpart := part_of_finished hbefore (by rwa [htype]) hend
  rw [htype, hcalls, part_reindexAllFaqs] at hpart
  exact serves_of_part hpart

end Runs

/-- A filter that takes no two texts for one another. -/
def exactFilter : TextFilter where
  equal a b := decide (a = b)
  equal_self _ := decide_eq_true rfl
  equal_sourceType h := KnowledgeSourceType.value_inj (of_decide_eq_true h)

/-- An active post with a title and nothing else. -/
def shortPost (id title : String) (isPublished : Bool) : Blog where
  id := id.toList
  slug := id.toList
  title := some title.toList
  titleVi := none
  summary := none
  summaryVi := none
  content := none
  contentVi := none
  body := none
  bodyVi := none
  isActive := true
  isPublished := isPublished

/-- An FAQ on shipping. -/
def shippingRow (isActive : Bool) : FaqRow where
  id := "shipping".toList
  isActive := isActive
  faq := sampleFaq "shipping" "Shipping?" "Giao hàng?"

/-- An active FAQ on returns. -/
def returnsRow : FaqRow where
  id := "returns".toList
  isActive := true
  faq := sampleFaq "returns" "Returns?" "Đổi trả?"

/-- An FAQ is indexed, and then a pass finds it inactive and another one
active while a post is indexed. -/
def faqPass : ℕ → KnowledgeJob
  | 0 => .indexFaq (shippingRow true)
  | 1 => .reindexAllFaqs (some [shippingRow false, returnsRow]) none
  | _ => .indexBlog (shortPost "moss" "Moss" true)

/-- One call of each job of the list. -/
def callsMade (jobs : List ℕ) : List (Move ℕ Fault) := jobs.map fun i => ⟨i, none⟩

theorem faqs_reindexed_retired :
    ServesOnly shortTexts [shippingRow false, returnsRow]
      ((knowledgeJobs shortTexts keywordSettings exactFilter faqPass).run
        (callsMade [0, 0, 0] ++ callsMade [2, 1, 2, 1, 2, 1]) (initial none)).store :=
  faqs_reindexed (i := 1) rfl rfl rfl (by decide) (by decide) (by constructor <;> decide +kernel)

/-! ### Blog posts -/

/-- Whether the post is to be seen. -/
def Blog.shown (blog : Blog) : Prop := blog.isActive = true ∧ blog.isPublished = true

instance (blog : Blog) : Decidable blog.shown := inferInstanceAs (Decidable (_ ∧ _))

/-- The store takes none of the ids for another one. -/
def IdsApart (filter : TextFilter) (blogs : List Blog) : Prop :=
  blogs.Pairwise fun a b => filter.equal a.id b.id = false ∧ filter.equal b.id a.id = false

/-- What is left of the blog posts: those of the list that are to be seen, and
those that the store takes for none of the list. -/
def BlogsReplaced (indexer : Indexer) (filter : TextFilter) (blogs : List Blog)
    (corpus corpus' : Option Collection) : Prop :=
  ∀ uuid object, partOf .blog corpus' uuid = some object ↔
    (∃ blog ∈ blogs, blog.shown ∧ (uuid, object) ∈ blogObjects indexer blog) ∨
    partOf .blog corpus uuid = some object ∧
      ∀ blog ∈ blogs, filter.equal object.sourceId blog.id = false

section Blogs

variable {indexer : Indexer} {filter : TextFilter} {blogs : List Blog}

theorem IdsApart.eq_of_equal (h : IdsApart filter blogs) {a b : Blog} (ha : a ∈ blogs)
    (hb : b ∈ blogs) (heq : filter.equal a.id b.id = true) : a = b := by
  by_contra hne
  have hsymm : Std.Symm fun a b : Blog =>
      filter.equal a.id b.id = false ∧ filter.equal b.id a.id = false := ⟨fun _ _ h => h.symm⟩
  have hapart := (List.Pairwise.forall h) ha hb hne
  rw [hapart.1] at heq
  cases heq

/-- How the listed posts are mirrored. -/
def blogLayout (indexer : Indexer) (h : IdsApart filter blogs) :
    Layout {blog // blog ∈ blogs} Unit UUID KnowledgeObject where
  belongs w object := bySource filter .blog w.1.id object
  objects w _ := if w.1.shown then blogObjects indexer w.1 else []
  own := by
    rintro ⟨a, ha⟩ ⟨b, hb⟩ - e he
    have hmem : e ∈ blogObjects indexer a := by
      split at he
      · exact he
      · cases he
    obtain ⟨l, hl⟩ := mem_sourceObjects.mp hmem
    have hsource := sourceObject_spec hl
    simp only [bySource, hsource.sourceType, hsource.sourceId, filter.equal_self, Bool.true_and]
    constructor
    · exact fun heq => Subtype.ext (h.eq_of_equal ha hb heq).symm
    · rintro ⟨⟩
      exact filter.equal_self _
  nodup w _ := by
    split
    · exact nodup_sourceObjects
    · exact List.nodup_nil
  apart := by
    rintro ⟨a, ha⟩ ⟨b, hb⟩ - - e e' he he' heq
    have hmem : e ∈ blogObjects indexer a := by
      split at he
      · exact he
      · cases he
    have hmem' : e' ∈ blogObjects indexer b := by
      split at he'
      · exact he'
      · cases he'
    obtain ⟨l, hl⟩ := mem_sourceObjects.mp hmem
    obtain ⟨l', hl'⟩ := mem_sourceObjects.mp hmem'
    have hkeyed := (sourceObject_spec hl).keyed
    rw [heq] at hkeyed
    have hid : a.id = b.id := (sourceObject_spec hl).sourceId.symm.trans
      ((hkeyed.same (sourceObject_spec hl').keyed).2.1.trans (sourceObject_spec hl').sourceId)
    refine Subtype.ext (h.eq_of_equal ha hb ?_)
    rw [hid]
    exact filter.equal_self _

theorem IdsApart.nodup (h : IdsApart filter blogs) : blogs.Nodup := by
  refine List.Pairwise.imp ?_ h
  rintro a b ⟨hab, -⟩ rfl
  rw [filter.equal_self] at hab
  cases hab

/-- The calls for one post replace its objects. -/
theorem contents_of_blog {ι : Type} {settings : RagSettings} {jobs : ι → KnowledgeJob}
    (h : IdsApart filter blogs) (w : {blog // blog ∈ blogs}) (corpus : Option Collection) :
    contents ((knowledgeJobs indexer settings filter jobs).performAll
        (reindexAllBlogs indexer [w.1]) corpus)
      = (blogLayout indexer h).fill w () ((blogLayout indexer h).clear w (contents corpus)) := by
  have hfill : ∀ s : Collection, (blogLayout indexer h).fill w () s
      = insertMany (if w.1.shown then blogObjects indexer w.1 else []) s := fun s => rfl
  have hclear : (blogLayout indexer h).clear w (contents corpus)
      = deleteMany (bySource filter .blog w.1.id) (contents corpus) := rfl
  rw [hfill, hclear, reindexAllBlogs, List.flatMap_singleton]
  by_cases hshown : w.1.shown
  · have hlisted : ¬ (w.1.isActive = false ∨ w.1.isPublished = false) := by
      rw [hshown.1, hshown.2]
      simp
    rw [if_neg hlisted, if_pos hshown, indexBlog, indexSource]
    split
    · rename_i hempty
      rw [List.isEmpty_iff.mp hempty]
      exact contents_deleteBySource .blog w.1.id
    · have hfilled : ∀ e ∈ blogObjects indexer w.1, (!e.2.content.isEmpty) = true :=
        fun e he => sourceObjects_content he
      show contents (KnowledgeCall.perform filter
        (.upsertKnowledgeObjects (blogObjects indexer w.1)) none
        (KnowledgeCall.perform filter (.deleteKnowledgeBySource .blog w.1.id) none
          (KnowledgeCall.perform filter .ensureKnowledgeCollection none corpus))) = _
      rw [contents_upsert hfilled, contents_deleteBySource, contents_ensure]
  · have hhidden : w.1.isActive = false ∨ w.1.isPublished = false := by
      rw [Blog.shown, not_and_or, Bool.not_eq_true, Bool.not_eq_true] at hshown
      exact hshown
    rw [if_pos hhidden, if_neg hshown]
    exact contents_deleteBySource .blog w.1.id

/-- A pass replaces the objects of one post after the other. -/
theorem contents_reindexAllBlogs {ι : Type} {settings : RagSettings} {jobs : ι → KnowledgeJob}
    (h : IdsApart filter blogs) (corpus : Option Collection) :
    contents ((knowledgeJobs indexer settings filter jobs).performAll
        (reindexAllBlogs indexer blogs) corpus)
      = (blogLayout indexer h).replaceAll (blogs.attach.map fun w => (w, ()))
        (contents corpus) := by
  have hall : ∀ (ws : List {blog // blog ∈ blogs}) (corpus : Option Collection),
      contents ((knowledgeJobs indexer settings filter jobs).performAll
          (reindexAllBlogs indexer (ws.map Subtype.val)) corpus)
        = (blogLayout indexer h).replaceAll (ws.map fun w => (w, ())) (contents corpus) := by
    intro ws
    induction ws with
    | nil => exact fun corpus => rfl
    | cons w ws ih =>
      intro corpus
      have hcons : reindexAllBlogs indexer ((w :: ws).map Subtype.val)
          = reindexAllBlogs indexer [w.1] ++ reindexAllBlogs indexer (ws.map Subtype.val) := by
        simp [reindexAllBlogs]
      rw [hcons, System.performAll_append, ih, contents_of_blog h w]
      rfl
  rw [← hall, List.attach_map_subtype_val]

end Blogs

section Runs

variable {ι : Type} [DecidableEq ι]
variable {indexer : Indexer} {settings : RagSettings} {filter : TextFilter}
variable {jobs : ι → KnowledgeJob} {before after : List (Move ι Fault)} {i : ι}

/-- What a pass over posts reaches is what the store takes for one of them. -/
theorem reached_iff {blogs : List Blog} (h : IdsApart filter blogs) {uuid : UUID}
    {object : KnowledgeObject} (hkeyed : WellKeyed indexer uuid object)
    (htype : object.sourceType = KnowledgeSourceType.blog.value) :
    (blogLayout indexer h).Reached (blogs.attach.map fun w => (w, ())) uuid object ↔
      ∃ blog ∈ blogs, filter.equal object.sourceId blog.id = true := by
  have hbelongs : ∀ w, (blogLayout indexer h).belongs w object
      = filter.equal object.sourceId w.1.id := by
    intro w
    show (filter.equal object.sourceType _ && _) = _
    rw [htype, filter.equal_self, Bool.true_and]
  constructor
  · rintro ⟨e, he, hreached⟩
    obtain ⟨w, -, rfl⟩ := List.mem_map.mp he
    refine ⟨w.1, w.2, ?_⟩
    rcases hreached with hbelongs' | hkey
    · rwa [hbelongs] at hbelongs'
    · -- it lies under the identity of one of the objects
      obtain ⟨e, he, rfl⟩ := List.mem_map.mp hkey
      have hblog : e ∈ blogObjects indexer w.1 := by
        change e ∈ (if w.1.shown then blogObjects indexer w.1 else []) at he
        split at he
        · exact he
        · cases he
      obtain ⟨l, hl⟩ := mem_sourceObjects.mp hblog
      rw [(hkeyed.same (sourceObject_spec hl).keyed).2.1, (sourceObject_spec hl).sourceId]
      exact filter.equal_self _
  · rintro ⟨blog, hblog, hequal⟩
    refine ⟨(⟨blog, hblog⟩, ()), List.mem_map_of_mem (List.mem_attach _ _), .inl ?_⟩
    rw [hbelongs]
    exact hequal

/-- **A pass over blog posts** that comes to its end leaves the objects of the
posts that are to be seen, nothing of the other posts that it lists, and what
was there of posts that it does not list. -/
theorem blogs_reindexed {blogs : List Blog} (hjob : jobs i = .reindexAllBlogs blogs)
    (hids : IdsApart filter blogs) (henabled : settings.weaviateEnabled = true)
    (hbefore : ∀ m ∈ before, m.job ≠ i)
    (hafter : ∀ m ∈ after, m.job = i ∨ (jobs m.job).sourceType ≠ .blog)
    (hend : (knowledgeJobs indexer settings filter jobs).Finished
      ((knowledgeJobs indexer settings filter jobs).run (before ++ after) (initial none)) i) :
    let S := knowledgeJobs indexer settings filter jobs
    BlogsReplaced indexer filter blogs (S.run before (initial none)).store
      (S.run (before ++ after) (initial none)).store := by
  intro S uuid object
  have htype : (jobs i).sourceType = .blog := by rw [hjob]; rfl
  have hcalls : (jobs i).calls indexer settings = reindexAllBlogs indexer blogs := by
    rw [hjob]
    unfold KnowledgeJob.calls
    rw [henabled]
    rfl
  have hpart := part_of_finished hbefore (by rwa [htype]) hend
  rw [htype, hcalls] at hpart
  have hkeyed := allKeyed_run indexer settings filter jobs before
  set corpus := (S.run before (initial none)).store with hcorpus
  have hnd : ((blogs.attach.map fun w => (w, ())).map Prod.fst).Nodup := by
    rw [List.map_map]
    exact List.Nodup.map (fun _ _ h => h) (List.nodup_attach.mpr hids.nodup)
  have hobjects : (∃ e ∈ blogs.attach.map fun w => (w, ()),
      (uuid, object) ∈ (blogLayout indexer hids).objects e.1 e.2) ↔
        ∃ blog ∈ blogs, blog.shown ∧ (uuid, object) ∈ blogObjects indexer blog := by
    constructor
    · rintro ⟨e, he, hmem⟩
      obtain ⟨w, -, rfl⟩ := List.mem_map.mp he
      change (uuid, object) ∈ (if w.1.shown then blogObjects indexer w.1 else []) at hmem
      split at hmem
      · rename_i hshown
        exact ⟨w.1, w.2, hshown, hmem⟩
      · cases hmem
    · rintro ⟨blog, hblog, hshown, hmem⟩
      refine ⟨(⟨blog, hblog⟩, ()), List.mem_map_of_mem (List.mem_attach _ _), ?_⟩
      show (uuid, object) ∈ (if blog.shown then blogObjects indexer blog else [])
      rwa [if_pos hshown]
  rw [hpart, partOf, partOf, Option.filter_eq_some_iff, Option.filter_eq_some_iff,
    contents_reindexAllBlogs hids, Layout.get_replaceAll hnd, hobjects, decide_eq_true_eq]
  constructor
  · rintro ⟨hwritten | ⟨hkept, hno⟩, hblog⟩
    · exact .inl hwritten
    · refine .inr ⟨⟨hkept, hblog⟩, fun blog hmem => ?_⟩
      rw [reached_iff hids (hkeyed uuid object hkept) hblog] at hno
      rw [Bool.eq_false_iff]
      exact fun heq => hno ⟨blog, hmem, heq⟩
  · rintro (⟨blog, hmem, hshown, hobject⟩ | ⟨⟨hkept, hblog⟩, hno⟩)
    · exact ⟨.inl ⟨blog, hmem, hshown, hobject⟩, (sourceObjects_keyed hobject).2⟩
    · refine ⟨.inr ⟨hkept, ?_⟩, hblog⟩
      rw [reached_iff hids (hkeyed uuid object hkept) hblog]
      rintro ⟨blog, hmem, heq⟩
      rw [hno blog hmem] at heq
      cases heq

end Runs

/-- A post that a pass does not list, and one that it finds taken back. -/
def blogPass : ℕ → KnowledgeJob
  | 0 => .indexBlog (shortPost "moss" "Moss" true)
  | 1 => .reindexAllBlogs [shortPost "fern" "Ferns" true, shortPost "ivy" "Ivy" false]
  | _ => .indexFaq (shippingRow true)

theorem blogs_reindexed_posts :
    let S := knowledgeJobs shortTexts keywordSettings exactFilter blogPass
    BlogsReplaced shortTexts exactFilter
      [shortPost "fern" "Ferns" true, shortPost "ivy" "Ivy" false]
      (S.run (callsMade [0, 0, 0]) (initial none)).store
      (S.run (callsMade [0, 0, 0] ++ callsMade [1, 2, 1, 2, 1, 1]) (initial none)).store :=
  blogs_reindexed (i := 1) rfl (by constructor <;> decide +kernel) rfl (by decide) (by decide)
    (by constructor <;> decide +kernel)

end GreenGarden
