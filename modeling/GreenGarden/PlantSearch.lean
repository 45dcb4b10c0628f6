/-
GreenGarden/PlantSearch.lean

The search of the storefront (`plants/service.py`: `search_plants`).

A keyword is escaped and put between two `%`.  `ilike_queryPattern` says what
that finds: the values that contain the keyword as it is typed, but for the
case of letters, whatever backslashes, percent signs and underscores it holds.
`searchPlants_eq` puts it into the search, and `candidates_eq` into the lookup
of the chat, which asks a locale: where that folds letter by letter, both find
a keyword in the same texts.
-/
import GreenGarden.Listings
import GreenGarden.Lookup

namespace GreenGarden

/-! ### The search -/

/-- The columns that a language searches. -/
def searchColumns (locale : Locale) (plant : Plant) : List (Option Text) :=
  match locale with
  | .vi => [plant.nameVi, plant.descriptionVi]
  | .en => [some plant.name, plant.description]

/-- `column ILIKE pattern` in a `WHERE` clause, where NULL does not count as a match. -/
def ilikeColumn (fold : Char → Char) (pattern : Text) : Option Text → Option Bool
  | none => some false
  | some value => ilike fold value pattern

/-- `OR` of conditions, any of which may fail. -/
def anyColumn (fold : Char → Char) (pattern : Text) : List (Option Text) → Option Bool
  | [] => some false
  | column :: columns => do
      let here ← ilikeColumn fold pattern column
      let there ← anyColumn fold pattern columns
      return here || there

/-- The rows that a `WHERE` clause lets through; it fails when it fails on a row. -/
def whereRows {α : Type} (condition : α → Option Bool) : List α → Option (List α)
  | [] => some []
  | row :: rows => do
      let holds ← condition row
      let found ← whereRows condition rows
      return if holds then row :: found else found

/-- Newest first, then by id. -/
def newestFirst (stamps : Stamps) : UUID × Plant → UUID × Plant → Prop :=
  Paging.thenBy (fun a b => stamps.plant b.1 ≤ stamps.plant a.1) (fun a b => a.1 ≤ b.1)

/-- `search_plants`: the trimmed keyword, and the listing whose first rows and number of rows are
returned; without a result when the database turns the query down. -/
def searchPlants (fold : Char → Char) (stamps : Stamps) (db : Db) (query : Text)
    (locale : Locale) : Option (Text × Listing (UUID × Plant)) :=
  let normalized := normalizeSearchQuery query
  if normalized.isEmpty then some (normalized, ⟨[], newestFirst stamps⟩)
  else
    let pattern := queryPattern normalized
    let condition (row : UUID × Plant) : Option Bool :=
      (anyColumn fold pattern (searchColumns locale row.2)).map fun found =>
        row.2.isActive && found
    (whereRows condition db.plants.entries).map fun rows =>
      (normalized, ⟨rows, newestFirst stamps⟩)

/-! ### Escaped patterns -/

section Patterns

variable {fold : Char → Char} {pattern value : Text} {parts : List LikePart}

/-- Escaping gives each character of a keyword as a part. -/
theorem likeParts_escape (k pattern : Text) :
    likeParts (escapeIlikePattern k ++ pattern)
      = (likeParts pattern).map (k.map LikePart.exactly ++ ·) := by
  induction k with
  | nil => exact Option.map_id'.symm
  | cons c k ih =>
    have hcons : likeParts (escapeIlikePattern (c :: k) ++ pattern)
        = (likeParts (escapeIlikePattern k ++ pattern)).map (.exactly c :: ·) := by
      rw [escapeIlikePattern, List.flatMap_cons, List.append_assoc]
      split
      · rfl
      · rename_i hplain
        exact likeParts_cons hplain
    rw [hcons, ih, Option.map_map]
    rfl

theorem likeParts_queryPattern (k : Text) :
    likeParts (queryPattern k) = some (.anyText :: (k.map LikePart.exactly ++ [.anyText])) := by
  show (likeParts (escapeIlikePattern k ++ ['%'])).map (.anyText :: ·) = _
  rw [likeParts_escape]
  rfl

/-- A keyword and then any text. -/
theorem matchesParts_start {k value : Text} :
    matchesParts fold (k.map LikePart.exactly ++ [.anyText]) value = true ↔
      k.map fold <+: value.map fold := by
  induction k generalizing value with
  | nil =>
    refine iff_of_true (List.any_eq_true.mpr ⟨[], ?_, rfl⟩) (List.nil_prefix)
    exact (List.mem_tails _ _).mpr List.nil_suffix
  | cons c k ih =>
    rcases value with - | ⟨d, value⟩
    · exact iff_of_false Bool.false_ne_true fun h => List.cons_ne_nil _ _ (List.prefix_nil.mp h)
    · show (fold d = fold c && matchesParts fold (k.map LikePart.exactly ++ [.anyText]) value)
        = true ↔ _
      rw [Bool.and_eq_true, decide_eq_true_eq, ih, List.map_cons, List.map_cons,
        List.cons_prefix_cons, eq_comm]

/-- Any text, a keyword and any text: the values that contain the keyword. -/
theorem matchesParts_contains (k value : Text) :
    matchesParts fold (.anyText :: (k.map LikePart.exactly ++ [.anyText])) value
      = decide (k.map fold <:+: value.map fold) := by
  rw [Bool.eq_iff_iff, decide_eq_true_eq, List.infix_iff_prefix_suffix]
  show (value.tails.any fun rest =>
    matchesParts fold (k.map LikePart.exactly ++ [.anyText]) rest) = true ↔ _
  simp only [List.any_eq_true, List.mem_tails, matchesParts_start]
  constructor
  · rintro ⟨rest, hrest, hstart⟩
    exact ⟨rest.map fold, hstart, hrest.map fold⟩
  · rintro ⟨_, hstart, hrest⟩
    obtain ⟨rest, hsuffix, rfl⟩ := List.suffix_map_iff.mp hrest
    exact ⟨rest, hsuffix, hstart⟩

end Patterns

/-- **The keyword is looked for as it is typed**: the pattern is well formed, and a value is found
exactly when it contains the keyword, letters compared after folding. -/
theorem ilike_queryPattern (fold : Char → Char) (keyword value : Text) :
    ilike fold value (queryPattern keyword)
      = some (decide (keyword.map fold <:+: value.map fold)) := by
  rw [ilike, likeParts_queryPattern, Option.map_some, matchesParts_contains]

/-! ### What the search finds -/

/-- The keyword is in one of the columns, letters compared after folding. -/
def containsKeyword (fold : Char → Char) (keyword : Text) (columns : List (Option Text)) : Bool :=
  columns.any fun column => column.any fun value =>
    decide (keyword.map fold <:+: value.map fold)

theorem anyColumn_queryPattern (fold : Char → Char) (keyword : Text)
    (columns : List (Option Text)) :
    anyColumn fold (queryPattern keyword) columns
      = some (containsKeyword fold keyword columns) := by
  induction columns with
  | nil => rfl
  | cons column columns ih =>
    rw [anyColumn, ih]
    rcases column with - | value
    · rfl
    · rw [ilikeColumn, ilike, likeParts_queryPattern, Option.map_some, matchesParts_contains]
      rfl

theorem whereRows_eq {α : Type} {condition : α → Option Bool} {p : α → Bool}
    (h : ∀ row, condition row = some (p row)) (rows : List α) :
    whereRows condition rows = some (rows.filter p) := by
  induction rows with
  | nil => rfl
  | cons row rows ih =>
    rw [whereRows, h, ih, List.filter_cons]
    rfl

/-- **The search**: it never fails, and finds the active plants that contain the keyword. -/
theorem searchPlants_eq (fold : Char → Char) (stamps : Stamps) (db : Db) (query : Text)
    (locale : Locale) :
    searchPlants fold stamps db query locale = some (strip query,
      ⟨db.plants.entries.filter fun row => !(strip query).isEmpty && row.2.isActive &&
          containsKeyword fold (strip query) (searchColumns locale row.2),
        newestFirst stamps⟩) := by
  rw [searchPlants, normalizeSearchQuery]
  by_cases hblank : (strip query).isEmpty
  · simp only [hblank, if_true, Bool.not_true, Bool.false_and, List.filter_false]
  · rw [Bool.not_eq_true] at hblank
    simp only [hblank, Bool.false_eq_true, if_false, Bool.not_false, Bool.true_and,
      anyColumn_queryPattern, Option.map_some, whereRows_eq fun _ => rfl]

/-! ### What the chat's lookup finds -/

section Locales

variable {dbLocale : DbLocale} {fold : Char → Char}

/-- A locale that folds letter by letter reads a keyword as the search does. -/
theorem anyColumn_locale (hlower : ∀ s, dbLocale.lower s = s.map fold)
    (hmeta : ∀ c, ∀ m ∈ ['\\', '%', '_'], fold c = m ↔ c = m) (keyword : Text)
    (columns : List (Option Text)) :
    (columns.any fun column => dbLocale.ilikeOrNull column (queryPattern keyword))
      = containsKeyword fold keyword columns := by
  refine congrArg columns.any (funext fun column => ?_)
  rcases column with - | value
  · rfl
  · have hread := ilike_eq_some hlower hmeta (likeParts_queryPattern keyword) value
    rw [ilike, likeParts_queryPattern, Option.map_some, matchesParts_contains] at hread
    exact (Option.some.inj hread).symm

/-- The lookup of the chat finds the active plants that contain the query in a name or the slug. -/
theorem candidates_eq (hlower : ∀ s, dbLocale.lower s = s.map fold)
    (hmeta : ∀ c, ∀ m ∈ ['\\', '%', '_'], fold c = m ↔ c = m) (db : Db) (cleaned : Text) :
    candidates dbLocale db cleaned = db.plants.entries.filter fun row => row.2.isActive &&
      containsKeyword fold cleaned [some row.2.name, row.2.nameVi, some row.2.slug] := by
  refine List.filter_congr fun row _ => ?_
  rw [containsQuery, ← anyColumn_locale hlower hmeta cleaned]
  simp [DbLocale.ilikeOrNull, Bool.or_assoc]

end Locales

end GreenGarden
