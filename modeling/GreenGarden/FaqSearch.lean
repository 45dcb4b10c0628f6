/-
GreenGarden/FaqSearch.lean

Searching the shop FAQ (`knowledge/retriever.py`), and the objects that FAQs are
indexed as (`knowledge/builder.py`).

The vector store is a parameter: asked for `n` objects it gives the first `n` of
one ranking of the objects that pass the filter.  A search without a language
finds an FAQ in both, so `search_faq_knowledge` asks for twice as many objects
as it wants FAQs and keeps the first of each.  `searchFaqKnowledge_eq` says that
this is what a pass over the whole ranking would have kept; the counting behind
it is `Firsts.take_firsts_take`, with `FaqIndex.count_slug_le` for the two
languages.
-/
import GreenGarden.Firsts
import GreenGarden.Knowledge

namespace GreenGarden

/-! ### What is indexed of an FAQ -/

/-- The properties of an object that a search reads; one that was not stored is missing. -/
structure Properties where
  sourceType : Option Text
  locale : Option Text
  title : Option Text
  slug : Option Text
  sectionLabel : Option Text
  content : Option Text
  deriving DecidableEq

/-- An entry of the FAQ snapshot, whose id is its slug. -/
structure Faq where
  slug : Text
  categoryLabel : Option Text
  categoryLabelVi : Option Text
  question : Option Text
  questionVi : Option Text
  title : Option Text
  titleVi : Option Text
  answer : Option Text
  answerVi : Option Text

/-- Join labeled fields as plain `Label: value` lines. -/
def joinSections (sections : List (Text × Option Text)) : Text :=
  let parts := sections.filterMap fun e => (cleanText e.2).map fun cleaned =>
    e.1 ++ ": ".toList ++ cleaned
  List.intercalate "\n".toList parts

/-- The text that is searched. -/
def buildFaqKnowledgeText (faq : Faq) (locale : Locale) : Text :=
  let (category, question, answer, cLabel, qLabel, aLabel) :=
    match locale with
    | .vi => (faq.categoryLabelVi, faq.questionVi, faq.answerVi, "Chủ đề".toList,
        "Câu hỏi".toList, "Trả lời".toList)
    | .en => (faq.categoryLabel, faq.question, faq.answer, "Topic".toList, "Question".toList,
        "Answer".toList)
  if cleanText question = none ∧ cleanText answer = none then []
  else joinSections [(cLabel, category), (qLabel, question), (aLabel, answer)]

/-- The question in a language, or else the title. -/
def faqTitle (faq : Faq) : Locale → Text
  | .vi => ((cleanText faq.questionVi).or (cleanText faq.titleVi)).getD []
  | .en => ((cleanText faq.question).or (cleanText faq.title)).getD []

/-- Build one knowledge object, or none if its content is empty. -/
def knowledgeChunk (sourceType : KnowledgeSourceType) (slug : Text) (locale : Locale)
    (title content : Text) : Option Properties :=
  (cleanText (some content)).map fun cleaned =>
    { sourceType := some sourceType.value
      locale := some locale.value
      title := some title
      slug := some slug
      sectionLabel := none
      content := some cleaned }

/-- Separate objects for the two languages. -/
def bilingualChunks (sourceType : KnowledgeSourceType) (slug : Text)
    (buildText buildTitle : Locale → Text) : List Properties :=
  [Locale.en, .vi].filterMap fun locale =>
    knowledgeChunk sourceType slug locale (buildTitle locale) (buildText locale)

/-- The chunks of an FAQ, one for each language with a text. -/
def faqChunks (faq : Faq) : List Properties :=
  bilingualChunks .faq faq.slug (buildFaqKnowledgeText faq) (faqTitle faq)

/-! ### The search -/

/-- The settings that the search reads. -/
structure RagSettings where
  weaviateEnabled : Bool
  ragTopK : ℤ
  openaiApiKey : Option Text

/-- The vector store.  A ranking is of all the objects it is given, or of those that have
something to do with the query; there is none when the call fails. -/
structure VectorStore where
  connects : Bool
  collection : Text → Option (List Properties)
  nearText : Text → List Properties → Option (List Properties)
  bm25 : Text → List Properties → Option (List Properties)
  nearText_subperm : ∀ {query objects ranking}, nearText query objects = some ranking →
    ranking.Subperm objects
  bm25_subperm : ∀ {query objects ranking}, bm25 query objects = some ranking →
    ranking.Subperm objects

/-- A part of the answer to a search. -/
structure SearchChunk where
  title : Text
  slug : Text
  locale : Text
  sectionLabel : Text
  content : Text
  deriving DecidableEq

/-- What a search answers with. -/
structure SearchResult where
  found : Bool
  chunks : List SearchChunk
  error : Option Text
  query : Option Text
  deriving DecidableEq

/-- A search that came to nothing, with the reason. -/
def SearchResult.failed (error : Text) : SearchResult := ⟨false, [], some error, none⟩

/-- The collection of FAQs and posts. -/
def collectionName : Text := "NgocNganKnowledge".toList

/-- How many hits a search asks for that names no limit. -/
def faqTopK : ℕ := 5

/-- The conditions on the source and, for a language that is known, on the language. -/
def passes (sourceType : Option KnowledgeSourceType) (locale : Option Text)
    (properties : Properties) : Bool :=
  (match sourceType with
    | none => true
    | some sourceType => properties.sourceType = some sourceType.value) &&
  (match locale with
    | none => true
    | some locale =>
        if [Locale.en.value, Locale.vi.value].contains locale then
          properties.locale = some locale
        else true)

/-- Objects without content are left out of the answer. -/
def searchChunk (properties : Properties) : Option SearchChunk :=
  let content := strip (properties.content.getD [])
  if content.isEmpty then none
  else some
    { title := properties.title.getD []
      slug := properties.slug.getD []
      locale := properties.locale.getD []
      sectionLabel := properties.sectionLabel.getD []
      content := content }

/-- `near_text` when embeddings are configured, with a BM25 fallback. -/
def VectorStore.ranking (store : VectorStore) (settings : RagSettings) (query : Text)
    (objects : List Properties) : Option (List Properties) :=
  let near := if settings.openaiApiKey.all List.isEmpty then none else store.nearText query objects
  near.or (store.bm25 query objects)

/-- Search a collection: the hits of the query that are of the type and language. -/
def searchCollection (store : VectorStore) (settings : RagSettings)
    (query collectionName label : Text) (sourceType : Option KnowledgeSourceType)
    (limit : Option ℕ) (locale : Option Text) : SearchResult :=
  let cleaned := strip query
  if cleaned.isEmpty then .failed "Empty search query".toList
  else
    let topK := limit.getD (max 1 settings.ragTopK).toNat
    let title := (label.take 1).map Char.toUpper ++ label.drop 1
    if !settings.weaviateEnabled then
      .failed (title ++ " search is temporarily unavailable".toList)
    else if !store.connects then .failed (title ++ " search failed".toList)
    else
      match store.collection collectionName with
      | none => .failed ("No ".toList ++ label ++ " indexed yet".toList)
      | some objects =>
          match store.ranking settings cleaned (objects.filter (passes sourceType locale)) with
          | none => .failed (title ++ " search failed".toList)
          | some ranking =>
              let chunks := (ranking.take topK).filterMap searchChunk
              ⟨!chunks.isEmpty, chunks, none, some cleaned⟩

/-- The collection of the plants. -/
def plantCollectionName : Text := "PlantKnowledge".toList

/-- Retrieve parts of plant texts. -/
def searchPlantKnowledge (store : VectorStore) (settings : RagSettings) (query : Text)
    (limit : Option ℕ) (locale : Option Text) : SearchResult :=
  searchCollection store settings query plantCollectionName "plant knowledge".toList none limit
    locale

/-- What tells one FAQ from another. -/
def searchKey (chunk : SearchChunk) : Text :=
  if chunk.slug.isEmpty then chunk.content else chunk.slug

/-- Retrieve shop FAQ entries, each in one language. -/
def searchFaqKnowledge (store : VectorStore) (settings : RagSettings) (query : Text)
    (limit : Option ℕ) (locale : Option Text) : SearchResult :=
  let topK := limit.getD faqTopK
  let result := searchCollection store settings query collectionName "shop FAQ".toList (some .faq)
    (some (topK * 2)) locale
  let chunks := (Firsts.keepUnseen searchKey ∅ result.chunks).take topK
  { result with chunks := chunks, found := !chunks.isEmpty }

/-! ### An index with each FAQ once in each language -/

/-- An FAQ object, or part of one. -/
def isFaq (properties : Properties) : Bool :=
  properties.sourceType = some KnowledgeSourceType.faq.value

/-- A collection with at most one object for an FAQ in a language, each with a slug and with
content.  What else is in the collection does not matter. -/
structure FaqIndex where
  objects : List Properties
  locale : ∀ o ∈ objects.filter isFaq, ∃ locale : Locale, o.locale = some locale.value
  slug : ∀ o ∈ objects.filter isFaq, o.slug.getD [] ≠ []
  content : ∀ o ∈ objects.filter isFaq, strip (o.content.getD []) ≠ []
  one : ((objects.filter isFaq).map fun o => (o.slug.getD [], o.locale)).Nodup

/-- The answer to a search that finds this object. -/
def Properties.chunk (properties : Properties) : SearchChunk where
  title := properties.title.getD []
  slug := properties.slug.getD []
  locale := properties.locale.getD []
  sectionLabel := properties.sectionLabel.getD []
  content := strip (properties.content.getD [])

/-- The ranking that the store has for a query among the FAQ objects in a language. -/
structure Ranks (store : VectorStore) (settings : RagSettings) (index : FaqIndex) (query : Text)
    (locale : Option Text) (ranking : List Properties) : Prop where
  enabled : settings.weaviateEnabled = true
  connects : store.connects = true
  indexed : store.collection collectionName = some index.objects
  ranking : store.ranking settings (strip query)
    (index.objects.filter (passes (some .faq) locale)) = some ranking

/-! ### What is indexed is such an index -/

section Snapshot

variable {sourceType : KnowledgeSourceType} {slug : Text} {buildText buildTitle : Locale → Text}
variable {locale : Locale} {o : Properties}

theorem mem_knowledgeChunk {title content : Text}
    (h : knowledgeChunk sourceType slug locale title content = some o) :
    o.sourceType = some sourceType.value ∧ o.locale = some locale.value ∧ o.slug = some slug ∧
      strip (o.content.getD []) ≠ [] := by
  obtain ⟨cleaned, hclean, rfl⟩ := Option.map_eq_some_iff.mp h
  obtain ⟨hstrip, hne⟩ := cleanText_eq_some hclean
  refine ⟨rfl, rfl, rfl, ?_⟩
  show strip cleaned ≠ []
  rwa [hstrip]

theorem mem_bilingualChunks (h : o ∈ bilingualChunks sourceType slug buildText buildTitle) :
    o.sourceType = some sourceType.value ∧ (∃ locale : Locale, o.locale = some locale.value) ∧
      o.slug = some slug ∧ strip (o.content.getD []) ≠ [] := by
  obtain ⟨locale, -, hchunk⟩ := List.mem_filterMap.mp h
  obtain ⟨htype, hlocale, hslug, hcontent⟩ := mem_knowledgeChunk hchunk
  exact ⟨htype, ⟨locale, hlocale⟩, hslug, hcontent⟩

/-- A source has one object in a language. -/
theorem nodup_bilingualChunks :
    ((bilingualChunks sourceType slug buildText buildTitle).map Properties.locale).Nodup := by
  rw [bilingualChunks, List.filterMap_cons, List.filterMap_cons, List.filterMap_nil]
  rcases hen : knowledgeChunk sourceType slug .en (buildTitle .en) (buildText .en) with - | en <;>
    rcases hvi : knowledgeChunk sourceType slug .vi (buildTitle .vi) (buildText .vi) with - | vi
  · exact List.nodup_nil
  · exact List.nodup_singleton _
  · exact List.nodup_singleton _
  · have hlocale := (mem_knowledgeChunk hen).2.1
    have hlocale' := (mem_knowledgeChunk hvi).2.1
    show [en.locale, vi.locale].Nodup
    rw [hlocale, hlocale']
    decide

/-- What the FAQs of a snapshot are indexed as. -/
def FaqIndex.ofFaqs (faqs : List Faq) (hslug : (faqs.map Faq.slug).Nodup)
    (hfilled : ∀ faq ∈ faqs, faq.slug ≠ []) : FaqIndex where
  objects := faqs.flatMap faqChunks
  locale o ho := by
    obtain ⟨faq, -, ho⟩ := List.mem_flatMap.mp (List.mem_filter.mp ho).1
    exact (mem_bilingualChunks ho).2.1
  slug o ho := by
    obtain ⟨faq, hfaq, ho⟩ := List.mem_flatMap.mp (List.mem_filter.mp ho).1
    rw [(mem_bilingualChunks ho).2.2.1]
    exact hfilled faq hfaq
  content o ho := by
    obtain ⟨faq, -, ho⟩ := List.mem_flatMap.mp (List.mem_filter.mp ho).1
    exact (mem_bilingualChunks ho).2.2.2
  one := by
    refine List.Nodup.sublist (List.filter_sublist.map _) ?_
    rw [List.map_flatMap, List.nodup_flatMap]
    constructor
    · intro faq _
      apply List.Nodup.of_map Prod.snd
      rw [List.map_map]
      exact nodup_bilingualChunks
    · rw [List.Nodup, List.pairwise_map] at hslug
      refine hslug.imp fun {faq faq'} hne => ?_
      -- the slugs tell the objects of two FAQs apart
      rw [Function.onFun, List.disjoint_left]
      rintro _ h h'
      obtain ⟨o, ho, rfl⟩ := List.mem_map.mp h
      obtain ⟨o', ho', heq⟩ := List.mem_map.mp h'
      have hslugs := congrArg Prod.fst heq
      simp only [(mem_bilingualChunks ho).2.2.1, (mem_bilingualChunks ho').2.2.1,
        Option.getD_some] at hslugs
      exact hne hslugs.symm

end Snapshot

section Ranking

variable {store : VectorStore} {settings : RagSettings} {index : FaqIndex} {query : Text}
variable {locale : Option Text} {ranking : List Properties}

theorem VectorStore.ranking_subperm {objects : List Properties}
    (h : store.ranking settings query objects = some ranking) : ranking.Subperm objects := by
  rw [VectorStore.ranking] at h
  rcases Option.or_eq_some_iff.mp h with hnear | ⟨-, hbm25⟩
  · split at hnear
    · cases hnear
    · exact store.nearText_subperm hnear
  · exact store.bm25_subperm hbm25

theorem isFaq_of_passes {o : Properties} (h : passes (some .faq) locale o = true) :
    isFaq o = true :=
  (Bool.and_eq_true_iff.mp h).1

theorem Ranks.subperm_faqs (h : Ranks store settings index query locale ranking) :
    ranking.Subperm (index.objects.filter isFaq) := by
  apply (VectorStore.ranking_subperm h.ranking).trans
  apply List.Sublist.subperm
  exact List.monotone_filter_right _ fun o => isFaq_of_passes

/-- **Two languages**: an FAQ is ranked twice at most. -/
theorem FaqIndex.count_slug_le (hfaqs : ranking.Subperm (index.objects.filter isFaq))
    (slug : Text) : ranking.countP (fun o => o.slug.getD [] = slug) ≤ 2 := by
  have hpairs : (ranking.map fun o => (o.slug.getD [], o.locale)).Nodup := by
    obtain ⟨sorted, hperm, hsub⟩ := hfaqs
    exact (hperm.map _).nodup_iff.mp (index.one.sublist (hsub.map _))
  set same := ranking.filter fun o => o.slug.getD [] = slug with hsame
  have hlocales : (same.map Properties.locale).Nodup := by
    apply List.Nodup.of_map (fun locale => (slug, locale))
    have hmap : (same.map Properties.locale).map (fun locale => (slug, locale))
        = same.map fun o => (o.slug.getD [], o.locale) := by
      rw [List.map_map]
      refine List.map_congr_left fun o ho => ?_
      exact Prod.ext (of_decide_eq_true (List.mem_filter.mp ho).2).symm rfl
    rw [hmap]
    exact hpairs.sublist (List.filter_sublist.map _)
  have hknown : same.map Properties.locale ⊆ [some Locale.en.value, some Locale.vi.value] := by
    intro l hl
    obtain ⟨o, ho, rfl⟩ := List.mem_map.mp hl
    obtain ⟨locale, hlocale⟩ :=
      index.locale o (hfaqs.subset (List.mem_filter.mp ho).1)
    rw [hlocale]
    cases locale
    · exact List.mem_cons_self
    · exact List.mem_cons_of_mem _ List.mem_cons_self
  calc ranking.countP (fun o => o.slug.getD [] = slug)
      = same.length := List.countP_eq_length_filter
    _ = (same.map Properties.locale).length := (List.length_map _).symm
    _ ≤ 2 := (hlocales.subperm hknown).length_le

/-- Every object of an FAQ has something to answer with. -/
theorem FaqIndex.filterMap_searchChunk {found : List Properties}
    (hfaqs : ∀ o ∈ found, o ∈ index.objects.filter isFaq) :
    found.filterMap searchChunk = found.map Properties.chunk := by
  rw [← List.filterMap_eq_map]
  refine List.filterMap_congr fun o ho => ?_
  have hcontent : (strip (o.content.getD [])).isEmpty = false := by
    simpa using index.content o (hfaqs o ho)
  rw [searchChunk, hcontent]
  rfl

theorem FaqIndex.searchKey_chunk {o : Properties} (ho : o ∈ index.objects.filter isFaq) :
    searchKey o.chunk = o.slug.getD [] := by
  have hslug : (o.slug.getD []).isEmpty = false := by
    simpa using index.slug o ho
  rw [searchKey]
  show (if (o.slug.getD []).isEmpty then o.chunk.content else o.slug.getD []) = _
  rw [hslug]
  rfl

theorem searchCollection_eq (h : Ranks store settings index query locale ranking)
    (hquery : strip query ≠ []) (n : ℕ) (label : Text) :
    searchCollection store settings query collectionName label (some .faq) (some n) locale
      = ⟨!((ranking.take n).filterMap searchChunk).isEmpty,
          (ranking.take n).filterMap searchChunk, none, some (strip query)⟩ := by
  have hblank : (strip query).isEmpty = false := by simpa using hquery
  simp only [searchCollection, hblank, h.enabled, h.connects, h.indexed, h.ranking,
    Bool.not_true, Bool.false_eq_true, if_false, Option.getD_some]

/-- **Over-fetching is enough**: the search returns the best chunk of each of the first FAQs of
the whole ranking, as many as were asked for. -/
theorem searchFaqKnowledge_eq (h : Ranks store settings index query locale ranking)
    (hquery : strip query ≠ []) (limit : Option ℕ) :
    (searchFaqKnowledge store settings query limit locale).chunks
      = ((Firsts.firsts (fun o => o.slug.getD []) ranking).take
          (limit.getD faqTopK)).map Properties.chunk := by
  set topK := limit.getD faqTopK with htopK
  have hfaqs : ∀ o ∈ ranking.take (topK * 2), o ∈ index.objects.filter isFaq := fun o ho =>
    h.subperm_faqs.subset (List.mem_of_mem_take ho)
  have hkey : ∀ o ∈ ranking.take (topK * 2), searchKey o.chunk = o.slug.getD [] := fun o ho =>
    index.searchKey_chunk (hfaqs o ho)
  simp only [searchFaqKnowledge, ← htopK]
  rw [searchCollection_eq h hquery, index.filterMap_searchChunk hfaqs, Firsts.keepUnseen_empty,
    Firsts.firsts_map hkey, ← List.map_take, mul_comm,
    Firsts.take_firsts_take (FaqIndex.count_slug_le h.subperm_faqs)]

end Ranking

/-- A store that ranks objects in the order it has them. -/
def storeOf (index : FaqIndex) : VectorStore where
  connects := true
  collection name := if name = collectionName then some index.objects else none
  nearText _ _ := none
  bm25 _ objects := some objects
  nearText_subperm := nofun
  bm25_subperm h := Option.some.inj h ▸ List.Subperm.refl _

/-- Settings without a key, so that words are searched. -/
def keywordSettings : RagSettings := ⟨true, 3, none⟩

theorem storeOf_ranks (index : FaqIndex) (query : Text) (locale : Option Text) :
    Ranks (storeOf index) keywordSettings index query locale
      (index.objects.filter (passes (some .faq) locale)) :=
  ⟨rfl, rfl, rfl, rfl⟩

/-- An FAQ with a question in each language and nothing else. -/
def sampleFaq (slug question questionVi : String) : Faq where
  slug := slug.toList
  categoryLabel := none
  categoryLabelVi := none
  question := some question.toList
  questionVi := some questionVi.toList
  title := none
  titleVi := none
  answer := none
  answerVi := none

/-- Two FAQs, each in two languages. -/
def twoFaqs : FaqIndex :=
  .ofFaqs [sampleFaq "shipping" "Shipping?" "Giao hàng?", sampleFaq "returns" "Returns?" "Trả?"]
    (by decide) (by decide)

/-- One of the two FAQs is asked for. -/
theorem searchFaqKnowledge_first :
    (searchFaqKnowledge (storeOf twoFaqs) keywordSettings "ship".toList (some 1) none).chunks
      = ((Firsts.firsts (fun o => o.slug.getD [])
          (twoFaqs.objects.filter (passes (some .faq) none))).take 1).map Properties.chunk :=
  searchFaqKnowledge_eq (storeOf_ranks twoFaqs "ship".toList none) (by decide) (some 1)

/-- A blank query is turned down before the store is asked. -/
theorem blank_query_finds_nothing :
    Ranks (storeOf twoFaqs) keywordSettings twoFaqs " ".toList none
        (twoFaqs.objects.filter (passes (some .faq) none)) ∧
      (searchFaqKnowledge (storeOf twoFaqs) keywordSettings " ".toList (some 1) none).chunks
        ≠ ((Firsts.firsts (fun o => o.slug.getD [])
            (twoFaqs.objects.filter (passes (some .faq) none))).take 1).map Properties.chunk := by
  refine ⟨storeOf_ranks twoFaqs _ _, ?_⟩
  decide +kernel

end GreenGarden
