/-
GreenGarden/Lookup.lean

Looking up the plant a customer names in the chat (`chat/tools.py`:
`_find_active_plant`, `get_plant_price`, `check_stock`).  A query is tried as a
slug; failing that the first five active plants that contain it are read, in
the order of their names, and one whose name is the query is preferred to the
first.

The preference comes after the limit.  A plant that is named exactly is found
when it is among the first five however ties are ordered, and not otherwise
(`named_plant_found_iff`): five plants whose longer names sort before it hide
it, and so does a database that does not lower-case its name as Python folds
it.
-/
import GreenGarden.Knowledge
import GreenGarden.Paging
import GreenGarden.Postgres
import GreenGarden.System

namespace GreenGarden

/-! ### Text helpers -/

/-- `str.lower` and `str.casefold`, which folds each character by itself. -/
structure Casing where
  lower : Text → Text
  fold : Char → Text
  fold_ne_nil : ∀ c, fold c ≠ []

/-- Every character folded. -/
def Casing.casefold (casing : Casing) (s : Text) : Text := s.flatMap casing.fold

theorem Casing.casefold_eq_nil {casing : Casing} {s : Text} :
    casing.casefold s = [] ↔ s = [] := by
  rw [Casing.casefold, List.flatMap_eq_nil_iff]
  constructor
  · intro h
    rcases s with - | ⟨c, cs⟩
    · rfl
    · exact absurd (h c List.mem_cons_self) (casing.fold_ne_nil c)
  · rintro rfl c hc
    cases hc

/-- `re.sub("[…]+", "-", s)` for a class of characters; `inRun` is set inside a run. -/
def dashEach (isOne : Char → Bool) (inRun : Bool) : Text → Text
  | [] => []
  | c :: cs =>
      if isOne c then if inRun then dashEach isOne true cs else '-' :: dashEach isOne true cs
      else c :: dashEach isOne false cs

/-- Lowercase, trim and collapse a slug to `a-z0-9-` characters. -/
def normalizeSlug (casing : Casing) (slug : Text) : Text :=
  let value := dashEach (fun c => isSpace c || c = '_') false (casing.lower (strip slug))
  let value := value.filter fun c => isSlugChar c || c = '-'
  stripDashes (dashEach (· = '-') false value)

/-- Trim user search input. -/
def normalizeSearchQuery (query : Text) : Text := strip query

/-- Escape `\`, `%` and `_` so that a keyword is matched literally. -/
def escapeIlikePattern (value : Text) : Text :=
  value.flatMap fun c => if c = '\\' ∨ c = '%' ∨ c = '_' then ['\\', c] else [c]

/-! ### The lookup -/

/-- The pattern a query is looked for with. -/
def queryPattern (cleaned : Text) : Text := '%' :: escapeIlikePattern cleaned ++ ['%']

/-- The `WHERE` clause of the substring query. -/
def containsQuery (locale : DbLocale) (cleaned : Text) (row : UUID × Plant) : Bool :=
  row.2.isActive &&
  (locale.ilike row.2.name (queryPattern cleaned) ||
    locale.ilikeOrNull row.2.nameVi (queryPattern cleaned) ||
    locale.ilike row.2.slug (queryPattern cleaned))

/-- The name or the Vietnamese name is the query, ignoring case; NULL counts as empty. -/
def exactName (casing : Casing) (cleaned : Text) (row : UUID × Plant) : Bool :=
  casing.casefold row.2.name = casing.casefold cleaned ||
  casing.casefold (row.2.nameVi.getD []) = casing.casefold cleaned

/-- An exact name is preferred when several plants were found. -/
def preferExact (casing : Casing) (cleaned : Text) :
    List (UUID × Plant) → Option (UUID × Plant)
  | [] => none
  | [only] => some only
  | first :: rest => some (((first :: rest).find? (exactName casing cleaned)).getD first)

/-- The active plants with a slug. -/
def withSlug (db : Db) (slug : Text) : List (UUID × Plant) :=
  db.plants.entries.filter fun row => row.2.isActive && row.2.slug = slug

/-- The active plants that contain a query. -/
def candidates (locale : DbLocale) (db : Db) (cleaned : Text) : List (UUID × Plant) :=
  db.plants.entries.filter (containsQuery locale cleaned)

/-- `ORDER BY plants.name`. -/
def byName (locale : DbLocale) (a b : UUID × Plant) : Prop := locale.collate a.2.name b.2.name

/-- What `_find_active_plant` may return. -/
def FindActivePlant (locale : DbLocale) (casing : Casing) (db : Db) (plantQuery : Text)
    (answer : Option (UUID × Plant)) : Prop :=
  let cleaned := normalizeSearchQuery plantQuery
  let slug := normalizeSlug casing cleaned
  if cleaned = [] then answer = none
  else if slug ≠ [] ∧ withSlug db slug ≠ [] then
    ∃ row ∈ withSlug db slug, answer = some row
  else ∃ page, Paging.Returns (byName locale) (candidates locale db cleaned) 0 5 page ∧
    answer = preferExact casing cleaned page

/-! ### What the tools report -/

/-- `str` of an amount with two decimals. -/
def moneyText (amount : Money) : Text :=
  showInt (amount.units / 100) ++ '.' :: zeroPad 2 (amount.units % 100)

/-- The fields by which a tool names a plant. -/
structure PlantIdentity where
  plantId : Text
  name : Text
  nameVi : Option Text
  slug : Text
  deriving DecidableEq

/-- The identity of a row. -/
def plantIdentity (row : UUID × Plant) : PlantIdentity where
  plantId := uuidText row.1
  name := row.2.name
  nameVi := row.2.nameVi
  slug := row.2.slug

/-- What `get_plant_price` answers. -/
inductive PriceReport where
  | missing (plantQuery error : Text)
  | found (identity : PlantIdentity) (price : Text) (priceVi : Option Text) (currency : Text)
  deriving DecidableEq

/-- What `check_stock` answers. -/
inductive StockReport where
  | missing (plantQuery error : Text)
  | found (identity : PlantIdentity) (stock : ℤ) (inStock isActive : Bool)
  deriving DecidableEq

/-- The error where no plant is found. -/
def notInCatalogue : Text := "Plant not found in the catalogue".toList

/-- `get_plant_price`, after the lookup. -/
def ChatTools.getPlantPrice (plantQuery : Text) : Option (UUID × Plant) → PriceReport
  | none => .missing plantQuery notInCatalogue
  | some row =>
      .found (plantIdentity row) (moneyText row.2.price) (row.2.priceVi.map moneyText)
        "VND".toList

/-- `check_stock`, after the lookup. -/
def ChatTools.checkStock (plantQuery : Text) : Option (UUID × Plant) → StockReport
  | none => .missing plantQuery notInCatalogue
  | some row => .found (plantIdentity row) row.2.stock (0 < row.2.stock) row.2.isActive

/-! ### The preference -/

section Preference

variable {casing : Casing} {cleaned : Text} {row : UUID × Plant} {page : List (UUID × Plant)}

theorem preferExact_mem (h : preferExact casing cleaned page = some row) : row ∈ page := by
  rcases page with - | ⟨first, - | ⟨second, rest⟩⟩
  · cases h
  · obtain rfl := Option.some.inj h
    exact List.mem_singleton_self first
  · obtain rfl := Option.some.inj h
    rcases hfind : List.find? (exactName casing cleaned) (first :: second :: rest) with - | found
    · exact List.mem_cons_self
    · exact List.mem_of_find?_eq_some hfind

/-- The one row whose name is the query is preferred. -/
theorem preferExact_of_unique (hmem : row ∈ page) (hexact : exactName casing cleaned row = true)
    (hunique : ∀ other ∈ page, exactName casing cleaned other = true → other = row) :
    preferExact casing cleaned page = some row := by
  rcases page with - | ⟨first, - | ⟨second, rest⟩⟩
  · cases hmem
  · rw [preferExact, List.mem_singleton.mp hmem]
  · show some ((List.find? (exactName casing cleaned) (first :: second :: rest)).getD first) = _
    rcases hfind : List.find? (exactName casing cleaned) (first :: second :: rest) with - | found
    · exact absurd hexact (List.find?_eq_none.mp hfind row hmem)
    · rw [Option.getD_some,
        hunique found (List.mem_of_find?_eq_some hfind) (List.find?_some hfind)]

end Preference

/-! ### A plant that is named exactly -/

/-- The name or the Vietnamese name of a plant is the query, trimmed, ignoring case. -/
def NamedBy (casing : Casing) (plantQuery : Text) (plant : Plant) : Prop :=
  casing.casefold plant.name = casing.casefold (strip plantQuery) ∨
  ∃ nameVi ∈ plant.nameVi, casing.casefold nameVi = casing.casefold (strip plantQuery)

/-- The query names one active plant and no active plant has it as slug. -/
structure NamesOnly (casing : Casing) (db : Db) (plantQuery : Text) (row : UUID × Plant) :
    Prop where
  mem : row ∈ db.plants.entries
  active : row.2.isActive = true
  named : NamedBy casing plantQuery row.2
  unique : ∀ other ∈ db.plants.entries, other.2.isActive = true →
    NamedBy casing plantQuery other.2 → other = row
  noSlug : ∀ other ∈ db.plants.entries, other.2.isActive = true →
    other.2.slug ≠ normalizeSlug casing plantQuery

/-- The chat quotes the plant: its lookup finds it, and its tools report its price and stock. -/
structure Quoted (locale : DbLocale) (casing : Casing) (db : Db) (plantQuery : Text)
    (row : UUID × Plant) : Prop where
  found : ∀ answer, FindActivePlant locale casing db plantQuery answer → answer = some row
  price : ∀ answer, FindActivePlant locale casing db plantQuery answer →
    ChatTools.getPlantPrice plantQuery answer = ChatTools.getPlantPrice plantQuery (some row)
  stock : ∀ answer, FindActivePlant locale casing db plantQuery answer →
    ChatTools.checkStock plantQuery answer = ChatTools.checkStock plantQuery (some row)

/-- The database finds the query in the plant, and fewer than five other active plants that
contain the query have a name that sorts before its name or like it. -/
structure AmongFirstFive (locale : DbLocale) (db : Db) (plantQuery : Text)
    (row : UUID × Plant) : Prop where
  notBlank : strip plantQuery ≠ []
  contains : containsQuery locale (strip plantQuery) row = true
  few : (candidates locale db (strip plantQuery)).countP
    (fun other => locale.collate other.2.name row.2.name) ≤ 5

section Named

variable {locale : DbLocale} {casing : Casing} {db : Db} {plantQuery : Text} {row : UUID × Plant}

instance : Std.Total (byName locale) := ⟨fun a b => locale.collate_total a.2.name b.2.name⟩

instance : IsTrans (UUID × Plant) (byName locale) :=
  ⟨fun _ _ _ hab hbc => locale.collate_trans _ _ _ hab hbc⟩

/-- For a query that is not blank the name check of the code is the one meant. -/
theorem exactName_iff (hblank : strip plantQuery ≠ []) {other : UUID × Plant} :
    exactName casing (strip plantQuery) other = true ↔ NamedBy casing plantQuery other.2 := by
  rw [exactName, Bool.or_eq_true, decide_eq_true_eq, decide_eq_true_eq, NamedBy]
  apply or_congr_right
  rcases other.2.nameVi with - | nameVi
  · refine iff_of_false (fun h => hblank ?_) (by rintro ⟨_, hnone, -⟩; cases hnone)
    exact Casing.casefold_eq_nil.mp h.symm
  · refine ⟨fun h => ⟨nameVi, rfl, h⟩, ?_⟩
    rintro ⟨_, hname, h⟩
    obtain rfl := Option.mem_some_iff.mp hname
    exact h

theorem withSlug_eq_nil (h : NamesOnly casing db plantQuery row) :
    withSlug db (normalizeSlug casing (strip plantQuery)) = [] := by
  rw [withSlug, List.filter_eq_nil_iff]
  intro other hother
  rw [Bool.and_eq_true, decide_eq_true_eq, normalizeSlug, strip_strip]
  rintro ⟨hactive, hslug⟩
  exact h.noSlug other hother hactive hslug

theorem findActivePlant_iff (h : NamesOnly casing db plantQuery row)
    (hblank : strip plantQuery ≠ []) (answer : Option (UUID × Plant)) :
    FindActivePlant locale casing db plantQuery answer ↔
      ∃ page, Paging.Returns (byName locale) (candidates locale db (strip plantQuery)) 0 5 page ∧
        answer = preferExact casing (strip plantQuery) page := by
  simp only [FindActivePlant, normalizeSearchQuery, if_neg hblank, withSlug_eq_nil h, ne_eq,
    not_true, and_false, if_false]

/-- A plant that is named exactly is found when it is on the page. -/
theorem found_iff_mem (h : NamesOnly casing db plantQuery row) (hblank : strip plantQuery ≠ [])
    {page : List (UUID × Plant)}
    (hpage : Paging.Returns (byName locale) (candidates locale db (strip plantQuery)) 0 5 page) :
    preferExact casing (strip plantQuery) page = some row ↔ row ∈ page := by
  refine ⟨preferExact_mem, fun hmem => ?_⟩
  refine preferExact_of_unique hmem ((exactName_iff hblank).mpr h.named) ?_
  intro other hother hexact
  obtain ⟨sorted, hperm, -, rfl⟩ := hpage
  have hcandidate := hperm.subset (List.mem_of_mem_drop (List.mem_of_mem_take hother))
  rw [candidates, List.mem_filter, containsQuery, Bool.and_eq_true] at hcandidate
  exact h.unique other hcandidate.1 hcandidate.2.1 ((exactName_iff hblank).mp hexact)

theorem found_iff (h : NamesOnly casing db plantQuery row) :
    (∀ answer, FindActivePlant locale casing db plantQuery answer → answer = some row) ↔
      AmongFirstFive locale db plantQuery row := by
  by_cases hblank : strip plantQuery = []
  · have hnone : FindActivePlant locale casing db plantQuery none := by
      simp only [FindActivePlant, normalizeSearchQuery, if_pos hblank]
    exact iff_of_false (fun hfound => by cases hfound none hnone) fun hfive => hfive.notBlank hblank
  · have hnodup : (candidates locale db (strip plantQuery)).Nodup :=
      (List.Nodup.of_map _ db.plants.nodup).sublist List.filter_sublist
    have hfirst : (∀ answer, FindActivePlant locale casing db plantQuery answer →
        answer = some row) ↔ ∀ page,
        Paging.Returns (byName locale) (candidates locale db (strip plantQuery)) 0 5 page →
          row ∈ page := by
      simp only [findActivePlant_iff h hblank]
      constructor
      · intro hfound page hpage
        exact preferExact_mem (hfound _ ⟨page, hpage, rfl⟩)
      · rintro hmem answer ⟨page, hpage, rfl⟩
        exact (found_iff_mem h hblank hpage).mpr (hmem page hpage)
    have hcount : Paging.upTo (byName locale) (candidates locale db (strip plantQuery)) row =
        (candidates locale db (strip plantQuery)).countP
          fun other => locale.collate other.2.name row.2.name :=
      Paging.upTo_eq _ fun _ => Iff.rfl
    rw [hfirst, Paging.mem_first_iff hnodup, hcount, candidates, List.mem_filter]
    exact ⟨fun ⟨⟨_, hcontains⟩, hle⟩ => ⟨hblank, hcontains, hle⟩,
      fun ⟨_, hcontains, hle⟩ => ⟨⟨h.mem, hcontains⟩, hle⟩⟩

/-- The chat quotes the plant that was named exactly when the database finds the query in it and
it is among the first five by name. -/
theorem named_plant_quoted_iff (h : NamesOnly casing db plantQuery row) :
    Quoted locale casing db plantQuery row ↔ AmongFirstFive locale db plantQuery row := by
  rw [← found_iff h]
  constructor
  · exact Quoted.found
  · intro hfound
    exact ⟨hfound, fun answer hanswer => by rw [hfound answer hanswer],
      fun answer hanswer => by rw [hfound answer hanswer]⟩

end Named

/-- ASCII letters only. -/
def asciiCasing : Casing := ⟨List.map Char.toLower, fun c => [c.toLower], fun _ => nofun⟩

/-- An active plant with a name. -/
def namedPlant (name slug : String) : Plant :=
  { fern with name := name.toList, nameVi := none, slug := slug.toList }

/-- A fern among five plants that have "fern" in their names. -/
def sixNamedFerns : Db :=
  { Db.empty with
    plants := ⟨[(1, namedPlant "Asparagus fern" "asparagus"),
      (2, namedPlant "Boston fern" "boston"), (3, namedPlant "Button fern" "button"),
      (4, namedPlant "Crocodile fern" "crocodile"), (5, namedPlant "Delta fern" "delta"),
      (6, namedPlant "Fern" "wild")], by decide⟩ }

/-- "fern" names the last one only. -/
theorem ferns_namesOnly :
    NamesOnly asciiCasing sixNamedFerns "fern".toList (6, namedPlant "Fern" "wild") where
  mem := by decide
  active := rfl
  named := Or.inl (by decide)
  unique := by
    have hnone : ∀ other ∈ sixNamedFerns.plants.entries, other.2.nameVi = none := by decide
    have hname : ∀ other ∈ sixNamedFerns.plants.entries,
        asciiCasing.casefold other.2.name = asciiCasing.casefold (strip "fern".toList) →
        other = (6, namedPlant "Fern" "wild") := by decide
    rintro other hother - (h | ⟨_, hmem, -⟩)
    · exact hname other hother h
    · rw [hnone other hother] at hmem
      cases hmem
  noSlug := by decide

/-- A fern among two plants that have "fern" in their names. -/
def twoNamedFerns : Db :=
  { Db.empty with
    plants := ⟨[(1, namedPlant "Asparagus fern" "asparagus"), (6, namedPlant "Fern" "wild")],
      by decide⟩ }

/-- Of two plants with "fern" in their names the one named so is quoted. -/
theorem named_plant_quoted_two :
    Quoted cLocale asciiCasing twoNamedFerns " FERN ".toList (6, namedPlant "Fern" "wild") := by
  refine (named_plant_quoted_iff
    { mem := by decide
      active := rfl
      named := Or.inl (by decide)
      unique := ?_
      noSlug := by decide }).mpr
    { notBlank := by decide
      contains := by decide
      few := by decide }
  have hnone : ∀ other ∈ twoNamedFerns.plants.entries, other.2.nameVi = none := by decide
  have hname : ∀ other ∈ twoNamedFerns.plants.entries,
      asciiCasing.casefold other.2.name = asciiCasing.casefold (strip " FERN ".toList) →
      other = (6, namedPlant "Fern" "wild") := by decide
  rintro other hother - (h | ⟨_, hmem, -⟩)
  · exact hname other hother h
  · rw [hnone other hother] at hmem
    cases hmem

/-- The plant named "Fern" is not quoted: five others come first. -/
theorem fern_not_quoted :
    NamesOnly asciiCasing sixNamedFerns "fern".toList (6, namedPlant "Fern" "wild") ∧
      ¬ Quoted cLocale asciiCasing sixNamedFerns "fern".toList (6, namedPlant "Fern" "wild") := by
  refine ⟨ferns_namesOnly, fun hquoted => ?_⟩
  have hfew := ((found_iff ferns_namesOnly).mp hquoted.found).few
  exact absurd hfew (by decide)

end GreenGarden
