/-
GreenGarden/Postgres.lean

What a query leaves to PostgreSQL: `LIKE` patterns, `ILIKE`, which lower-cases
both sides first, and the order in which a collation sorts text.  How letters
are lower-cased and which text comes first is a matter of the locale.

`ilike` reads a pattern part by part and compares letters after folding each by
itself; a pattern that ends in its escape character is malformed.  For a locale
that folds letter by letter it says the same as `DbLocale.ilike`
(`ilike_eq_some`).
-/
import GreenGarden.Text

namespace GreenGarden

/-- `value LIKE pattern`, with the backslash as escape character. -/
def like : (pattern value : Text) → Bool
  | [], value => value.isEmpty
  | '\\' :: c :: pattern, value =>
      match value with
      | [] => false
      | d :: value => d = c && like pattern value
  | '%' :: pattern, value => value.tails.any fun rest => like pattern rest
  | '_' :: pattern, value =>
      match value with
      | [] => false
      | _ :: value => like pattern value
  | c :: pattern, value =>
      match value with
      | [] => false
      | d :: value => d = c && like pattern value

/-- The locale of the database. -/
structure DbLocale where
  lower : Text → Text
  collate : Text → Text → Bool
  collate_total : ∀ a b, collate a b ∨ collate b a
  collate_trans : ∀ a b c, collate a b → collate b c → collate a c

/-- `value ILIKE pattern`. -/
def DbLocale.ilike (locale : DbLocale) (value pattern : Text) : Bool :=
  like (locale.lower pattern) (locale.lower value)

/-- `value ILIKE pattern` in a `WHERE` clause, where NULL does not count as a match. -/
def DbLocale.ilikeOrNull (locale : DbLocale) (value : Option Text) (pattern : Text) : Bool :=
  value.any fun value => locale.ilike value pattern

/-! ### Patterns part by part -/

/-- A part of a pattern. -/
inductive LikePart where
  | anyText
  | anyChar
  | exactly (c : Char)
  deriving DecidableEq

/-- The parts of a pattern with the backslash as escape character; none if the pattern ends in
it. -/
def likeParts : Text → Option (List LikePart)
  | [] => some []
  | '\\' :: [] => none
  | '\\' :: c :: pattern => (likeParts pattern).map (.exactly c :: ·)
  | '%' :: pattern => (likeParts pattern).map (.anyText :: ·)
  | '_' :: pattern => (likeParts pattern).map (.anyChar :: ·)
  | c :: pattern => (likeParts pattern).map (.exactly c :: ·)

/-- A value is made up of the parts, letters compared after folding. -/
def matchesParts (fold : Char → Char) : List LikePart → Text → Bool
  | [], value => value.isEmpty
  | .anyText :: parts, value => value.tails.any fun rest => matchesParts fold parts rest
  | .anyChar :: _, [] => false
  | .anyChar :: parts, _ :: value => matchesParts fold parts value
  | .exactly _ :: _, [] => false
  | .exactly c :: parts, d :: value => fold d = fold c && matchesParts fold parts value

/-- `value ILIKE pattern ESCAPE '\'`; an error if the pattern is malformed. -/
def ilike (fold : Char → Char) (value pattern : Text) : Option Bool :=
  (likeParts pattern).map fun parts => matchesParts fold parts value

/-- What folding letter by letter does to a part. -/
def LikePart.fold (fold : Char → Char) : LikePart → LikePart
  | .anyText => .anyText
  | .anyChar => .anyChar
  | .exactly c => .exactly (fold c)

section Parts

variable {fold : Char → Char} {parts : List LikePart} {pattern value : Text}

/-- A character without a meaning of its own stands for itself. -/
theorem likeParts_cons {c : Char} (h : ¬ (c = '\\' ∨ c = '%' ∨ c = '_')) :
    likeParts (c :: pattern) = (likeParts pattern).map (.exactly c :: ·) := by
  simp only [not_or] at h
  rw [likeParts]
  · exact fun hc _ => h.1 hc
  · exact fun _ _ hc _ => h.1 hc
  · exact h.2.1
  · exact h.2.2

/-- The remaining case of a pattern. -/
theorem plain_of_cases {c : Char} (h₁ : c = '\\' → pattern = [] → False)
    (h₂ : ∀ d rest, c = '\\' → pattern = d :: rest → False) (h₃ : c = '%' → False)
    (h₄ : c = '_' → False) : ¬ (c = '\\' ∨ c = '%' ∨ c = '_') := by
  rintro (hc | hc | hc)
  · rcases pattern with - | ⟨d, rest⟩
    · exact h₁ hc rfl
    · exact h₂ d rest hc rfl
  · exact h₃ hc
  · exact h₄ hc

theorem like_cons {c : Char} (h : ¬ (c = '\\' ∨ c = '%' ∨ c = '_')) (value : Text) :
    like (c :: pattern) value =
      match value with
      | [] => false
      | d :: value => d = c && like pattern value := by
  simp only [not_or] at h
  rcases value with - | ⟨d, value⟩ <;> rw [like]
  all_goals first | exact fun _ _ hc _ => h.1 hc | exact h.2.1 | exact h.2.2

theorem like_eq_matchesParts (h : likeParts pattern = some parts) (value : Text) :
    like pattern value = matchesParts id parts value := by
  fun_induction likeParts pattern generalizing parts value with
  | case1 =>
    obtain rfl := Option.some.inj h
    rfl
  | case2 => cases h
  | case3 c pattern ih =>
    obtain ⟨rest, hrest, rfl⟩ := Option.map_eq_some_iff.mp h
    rcases value with - | ⟨d, value⟩
    · rfl
    · rw [like, matchesParts, ih hrest]
      rfl
  | case4 pattern ih =>
    obtain ⟨rest, hrest, rfl⟩ := Option.map_eq_some_iff.mp h
    rw [like, matchesParts]
    exact congrArg _ (funext fun tail => ih hrest tail)
  | case5 pattern ih =>
    obtain ⟨rest, hrest, rfl⟩ := Option.map_eq_some_iff.mp h
    rcases value with - | ⟨d, value⟩
    · rfl
    · rw [like, matchesParts, ih hrest]
  | case6 c pattern h₁ h₂ h₃ h₄ ih =>
    obtain ⟨rest, hrest, rfl⟩ := Option.map_eq_some_iff.mp h
    rw [like_cons (plain_of_cases h₁ h₂ h₃ h₄)]
    rcases value with - | ⟨d, value⟩
    · rfl
    · rw [matchesParts, ← ih hrest]
      rfl

/-- Folding that leaves the characters with a meaning alone keeps the parts apart. -/
theorem likeParts_map (hmeta : ∀ c, ∀ m ∈ ['\\', '%', '_'], fold c = m ↔ c = m)
    (pattern : Text) :
    likeParts (pattern.map fold) = (likeParts pattern).map (List.map (LikePart.fold fold)) := by
  have hescape : fold '\\' = '\\' := (hmeta _ _ (by decide)).mpr rfl
  have hany : fold '%' = '%' := (hmeta _ _ (by decide)).mpr rfl
  have hone : fold '_' = '_' := (hmeta _ _ (by decide)).mpr rfl
  fun_induction likeParts pattern with
  | case1 => rfl
  | case2 =>
    rw [List.map_singleton, hescape]
    rfl
  | case3 c pattern ih =>
    rw [List.map_cons, List.map_cons, hescape, likeParts, ih, Option.map_map, Option.map_map]
    rfl
  | case4 pattern ih =>
    rw [List.map_cons, hany, likeParts, ih, Option.map_map, Option.map_map]
    rfl
  | case5 pattern ih =>
    rw [List.map_cons, hone, likeParts, ih, Option.map_map, Option.map_map]
    rfl
  | case6 c pattern h₁ h₂ h₃ h₄ ih =>
    have hplain := plain_of_cases h₁ h₂ h₃ h₄
    have hfold : ¬ (fold c = '\\' ∨ fold c = '%' ∨ fold c = '_') := by
      rwa [hmeta c _ (by decide), hmeta c _ (by decide), hmeta c _ (by decide)]
    rw [List.map_cons, likeParts_cons hfold, ih, Option.map_map, Option.map_map]
    rfl

theorem matchesParts_map (parts : List LikePart) (value : Text) :
    matchesParts id (parts.map (LikePart.fold fold)) (value.map fold)
      = matchesParts fold parts value := by
  induction parts generalizing value with
  | nil =>
    rw [List.map_nil, matchesParts, matchesParts, List.isEmpty_map]
  | cons part parts ih =>
    rcases part with - | - | c
    · rw [List.map_cons, LikePart.fold, matchesParts, matchesParts, List.map_tails, List.any_map]
      exact congrArg _ (funext ih)
    · rcases value with - | ⟨d, value⟩
      · rfl
      · exact ih value
    · rcases value with - | ⟨d, value⟩
      · rfl
      · rw [List.map_cons, LikePart.fold, List.map_cons, matchesParts, matchesParts, ih]
        rfl

/-- A locale that folds letter by letter, and no other character to one with a meaning, finds what
a well formed pattern says. -/
theorem ilike_eq_some {locale : DbLocale} (hlower : ∀ s, locale.lower s = s.map fold)
    (hmeta : ∀ c, ∀ m ∈ ['\\', '%', '_'], fold c = m ↔ c = m) {parts : List LikePart}
    (hparts : likeParts pattern = some parts) (value : Text) :
    ilike fold value pattern = some (locale.ilike value pattern) := by
  have hfolded : likeParts (pattern.map fold) = some (parts.map (LikePart.fold fold)) := by
    rw [likeParts_map hmeta, hparts, Option.map_some]
  rw [ilike, hparts, Option.map_some, DbLocale.ilike, hlower, hlower,
    like_eq_matchesParts hfolded, matchesParts_map]

end Parts

/-- The `C` locale: ASCII letters only, and text in the order of its code points. -/
def cLocale : DbLocale where
  lower text := text.map Char.toLower
  collate a b := a ≤ b
  collate_total a b := by simpa only [decide_eq_true_eq] using le_total a b
  collate_trans a b c := by simpa only [decide_eq_true_eq] using le_trans

end GreenGarden
