/-
GreenGarden/SlugForm.lean

The form of slugs (`core/text.py`: `normalize_slug`) and what it is for
(`plants/schemas.py`, `plants/dependencies.py`).

`IsSlug` is `[a-z0-9]+(-[a-z0-9]+)*`.  Normalising gives a text of that form or
nothing (`normalizeSlug_empty_or_isSlug`) and leaves such a text as it is
(`IsSlug.normalizeSlug_eq`).  The schemas store normalised slugs only, so after
any sequence of their requests every plant is found under its slug, normalised
once more on the way in (`slug_normal_form`).

Of `str.lower` no more is needed than that it lower-cases ASCII letters.
-/
import GreenGarden.Lookup
import GreenGarden.Slugs

namespace GreenGarden

open Transaction

/-- `str.lower` and `str.casefold`, the former known on ASCII text. -/
structure AsciiCasing extends Casing where
  lower_ascii : ∀ s, IsAscii s → lower s = s.map Char.toLower

/-- `[a-z0-9]+`. -/
def IsWord (w : Text) : Prop := w ≠ [] ∧ ∀ c ∈ w, isSlugChar c = true

/-- `[a-z0-9]+(-[a-z0-9]+)*`. -/
inductive IsSlug : Text → Prop
  | word {w : Text} (hw : IsWord w) : IsSlug w
  | dash {w s : Text} (hw : IsWord w) (hs : IsSlug s) : IsSlug (w ++ '-' :: s)

theorem not_isSlugChar_dash : ¬ isSlugChar '-' = true := by decide

/-! ### Texts of the form -/

section Form

variable {s : Text} {c : Char}

theorem IsSlug.cons (hc : isSlugChar c = true) (hs : IsSlug s) : IsSlug (c :: s) := by
  have hword : ∀ {w}, IsWord w → IsWord (c :: w) := fun hw =>
    ⟨List.cons_ne_nil _ _, List.forall_mem_cons.mpr ⟨hc, hw.2⟩⟩
  cases hs with
  | word hw => exact .word (hword hw)
  | dash hw hs => exact .dash (hword hw) hs

theorem IsSlug.mem (hs : IsSlug s) (hc : c ∈ s) : isSlugChar c = true ∨ c = '-' := by
  induction hs with
  | word hw => exact .inl (hw.2 c hc)
  | dash hw hs ih =>
    rcases List.mem_append.mp hc with hc | hc
    · exact .inl (hw.2 c hc)
    · rcases List.mem_cons.mp hc with rfl | hc
      · exact .inr rfl
      · exact ih hc

/-- No two dashes stand side by side. -/
def NoDashPair (s : Text) : Prop := s.IsChain fun a b => ¬ (a = '-' ∧ b = '-')

/-- A text of such characters without pairs of dashes, and with none at its end, is a slug unless
it is empty or starts with a dash. -/
theorem isSlug_or_dash (hmem : ∀ c ∈ s, isSlugChar c = true ∨ c = '-') (hpair : NoDashPair s)
    (hlast : s.getLast? ≠ some '-') : s = [] ∨ IsSlug s ∨ ∃ t, s = '-' :: t ∧ IsSlug t := by
  induction s with
  | nil => exact .inl rfl
  | cons c s ih =>
    obtain ⟨hhead, htail⟩ := List.isChain_cons.mp hpair
    have hlast' : s.getLast? ≠ some '-' := fun h => hlast (by rw [List.getLast?_cons, h]; rfl)
    have hrest := ih (fun d hd => hmem d (List.mem_cons_of_mem _ hd)) htail hlast'
    right
    rcases hmem c List.mem_cons_self with hc | rfl
    · have hword : IsWord [c] := ⟨List.cons_ne_nil _ _, List.forall_mem_singleton.mpr hc⟩
      left
      rcases hrest with rfl | hs | ⟨t, rfl, ht⟩
      · exact .word hword
      · exact hs.cons hc
      · exact .dash hword ht
    · right
      rcases hrest with rfl | hs | ⟨t, rfl, -⟩
      · exact absurd rfl hlast
      · exact ⟨s, rfl, hs⟩
      · exact absurd ⟨rfl, rfl⟩ (hhead '-' rfl)

/-! ### Each pass of the normalisation -/

theorem mem_dashEach {isOne : Char → Bool} {inRun : Bool} (h : c ∈ dashEach isOne inRun s) :
    c ∈ s ∨ c = '-' := by
  induction s generalizing inRun with
  | nil => exact absurd h List.not_mem_nil
  | cons d s ih =>
    rw [dashEach] at h
    split at h
    · split at h
      · exact (ih h).imp_left (List.mem_cons_of_mem _)
      · rcases List.mem_cons.mp h with rfl | h
        · exact .inr rfl
        · exact (ih h).imp_left (List.mem_cons_of_mem _)
    · rcases List.mem_cons.mp h with rfl | h
      · exact .inl List.mem_cons_self
      · exact (ih h).imp_left (List.mem_cons_of_mem _)

/-- Dashes in a row become one, or none behind a dash. -/
theorem noDashPair_dashEach (inRun : Bool) (s : Text) :
    NoDashPair (dashEach (· = '-') inRun s) ∧
      (inRun = true → (dashEach (· = '-') inRun s).head? ≠ some '-') := by
  induction s generalizing inRun with
  | nil => exact ⟨.nil, fun _ => nofun⟩
  | cons c s ih =>
    rw [dashEach]
    split
    · split
      · exact ih true |>.imp_right fun h _ => h rfl
      · rename_i hrun
        refine ⟨List.isChain_cons.mpr ⟨?_, (ih true).1⟩, fun h => absurd h hrun⟩
        rintro d hd ⟨-, rfl⟩
        exact (ih true).2 rfl hd
    · rename_i hc
      have hne : c ≠ '-' := by simpa using hc
      refine ⟨List.isChain_cons.mpr ⟨?_, (ih false).1⟩, fun _ h => hne (Option.some.inj h)⟩
      exact fun _ _ h => hne h.1

/-- Stripping leaves no dash at either end. -/
theorem head?_stripDashes (s : Text) : (stripDashes s).head? ≠ some '-' := by
  intro h
  obtain ⟨t, ht⟩ := List.head?_eq_some_iff.mp h
  obtain ⟨rest, hrest⟩ : stripDashes s <+: s.dropWhile (· = '-') := List.rdropWhile_prefix _ _
  have hnot := List.head?_dropWhile_not (· = '-') s
  rw [← hrest, ht] at hnot
  have hdash : decide ('-' = '-') = false := hnot
  exact absurd hdash (by decide)

theorem getLast?_stripDashes (s : Text) : (stripDashes s).getLast? ≠ some '-' := by
  intro h
  have hne : stripDashes s ≠ [] := by
    rintro hnil
    rw [hnil] at h
    cases h
  rw [List.getLast?_eq_some_getLast hne, Option.some.injEq] at h
  exact List.rdropWhile_last_not _ _ hne (decide_eq_true h)

/-- **The form**: a normalised slug is empty or of the form of slugs. -/
theorem normalizeSlug_empty_or_isSlug (casing : Casing) (s : Text) :
    normalizeSlug casing s = [] ∨ IsSlug (normalizeSlug casing s) := by
  set value := (dashEach (fun c => isSpace c || c = '_') false (casing.lower (strip s))).filter
    fun c => isSlugChar c || c = '-' with hvalue
  have hmem : ∀ c ∈ normalizeSlug casing s, isSlugChar c = true ∨ c = '-' := by
    intro c hc
    rcases mem_dashEach (mem_of_mem_stripDashes hc) with hc | rfl
    · simpa using (List.mem_filter.mp hc).2
    · exact .inr rfl
  have hpair : NoDashPair (normalizeSlug casing s) := by
    have hinfix : normalizeSlug casing s <:+: dashEach (· = '-') false value :=
      (List.rdropWhile_prefix _ _).isInfix.trans (List.dropWhile_suffix _).isInfix
    exact List.IsChain.infix (noDashPair_dashEach false value).1 hinfix
  rcases isSlug_or_dash hmem hpair (getLast?_stripDashes _) with hnil | hslug | ⟨t, ht, -⟩
  · exact .inl hnil
  · exact .inr hslug
  · exact absurd (congrArg List.head? ht) (head?_stripDashes _)

/-! ### A slug stays as it is -/

theorem dashEach_cons (hc : isSlugChar c = true) (inRun : Bool) :
    dashEach (· = '-') inRun (c :: s) = c :: dashEach (· = '-') false s := by
  have hne : ¬ decide (c = '-') = true := by
    rw [decide_eq_true_eq]
    rintro rfl
    exact not_isSlugChar_dash hc
  rw [dashEach, if_neg hne]

theorem dashEach_word {w : Text} (hw : IsWord w) (inRun : Bool) (rest : Text) :
    dashEach (· = '-') inRun (w ++ rest) = w ++ dashEach (· = '-') false rest := by
  have hinside : ∀ w' : Text, (∀ c ∈ w', isSlugChar c = true) →
      dashEach (· = '-') false (w' ++ rest) = w' ++ dashEach (· = '-') false rest := by
    intro w' hw'
    induction w' with
    | nil => rfl
    | cons c w' ih =>
      rw [List.cons_append, dashEach_cons (hw' c List.mem_cons_self),
        ih fun d hd => hw' d (List.mem_cons_of_mem _ hd), List.cons_append]
  rcases w with - | ⟨c, w⟩
  · exact absurd rfl hw.1
  · rw [List.cons_append, dashEach_cons (hw.2 c List.mem_cons_self),
      hinside w fun d hd => hw.2 d (List.mem_cons_of_mem _ hd), List.cons_append]

theorem IsSlug.dashEach_eq (hs : IsSlug s) (inRun : Bool) :
    dashEach (· = '-') inRun s = s := by
  induction hs generalizing inRun with
  | @word w hw =>
    have h := dashEach_word hw inRun []
    rw [List.append_nil] at h
    rw [h]
    exact List.append_nil w
  | @dash w t hw ht ih =>
    rw [dashEach_word hw]
    show w ++ '-' :: dashEach (· = '-') true t = _
    rw [ih]

theorem dashEach_of_none {isOne : Char → Bool} (h : ∀ c ∈ s, isOne c = false) (inRun : Bool) :
    dashEach isOne inRun s = s := by
  induction s generalizing inRun with
  | nil => rfl
  | cons c s ih =>
    rw [dashEach, h c List.mem_cons_self, if_neg Bool.false_ne_true,
      ih fun d hd => h d (List.mem_cons_of_mem _ hd)]

/-- A slug starts with a letter or a digit. -/
theorem IsSlug.exists_cons (hs : IsSlug s) : ∃ c t, s = c :: t ∧ isSlugChar c = true := by
  have hword : ∀ {w : Text} (t : Text), IsWord w → ∃ c t', w ++ t = c :: t' ∧
      isSlugChar c = true := by
    intro w t hw
    rcases w with - | ⟨c, w⟩
    · exact absurd rfl hw.1
    · exact ⟨c, w ++ t, rfl, hw.2 c List.mem_cons_self⟩
  cases hs with
  | @word w hw =>
    rw [← List.append_nil s]
    exact hword [] hw
  | dash hw hs => exact hword _ hw

/-- A slug ends with a letter or a digit. -/
theorem IsSlug.getLast?_ne (hs : IsSlug s) : s.getLast? ≠ some '-' := by
  induction hs with
  | word hw =>
    intro h
    exact not_isSlugChar_dash (hw.2 '-' (List.mem_of_getLast? h))
  | @dash w t hw ht ih =>
    obtain ⟨c, t', rfl, -⟩ := ht.exists_cons
    rw [List.getLast?_append, List.getLast?_cons_cons]
    rcases hlast : (c :: t').getLast? with - | d
    · exact absurd (List.getLast?_eq_none_iff.mp hlast) (List.cons_ne_nil _ _)
    · rw [hlast] at ih
      exact ih

theorem IsSlug.stripDashes_eq (hs : IsSlug s) : stripDashes s = s := by
  obtain ⟨c, t, rfl, hc⟩ := hs.exists_cons
  have hne : ¬ decide (c = '-') = true := by
    rw [decide_eq_true_eq]
    rintro rfl
    exact not_isSlugChar_dash hc
  have hdrop : (c :: t).dropWhile (· = '-') = c :: t := List.dropWhile_cons_of_neg hne
  rw [stripDashes, hdrop, List.rdropWhile_eq_self_iff]
  intro hl h
  apply hs.getLast?_ne
  rw [List.getLast?_eq_some_getLast hl, of_decide_eq_true h]

/-- Codes of the characters of slugs. -/
theorem IsSlug.toNat_range (hs : IsSlug s) (hc : c ∈ s) :
    c.toNat = 45 ∨ 48 ≤ c.toNat ∧ c.toNat ≤ 57 ∨ 97 ≤ c.toNat ∧ c.toNat ≤ 122 := by
  rcases hs.mem hc with hslug | rfl
  · right
    rcases Bool.or_eq_true_iff.mp hslug with hlower | hdigit
    · right
      simpa [Char.isLower, UInt32.le_iff_toNat_le] using hlower
    · left
      exact Char.isDigit_iff_toNat.mp hdigit
  · exact .inl rfl

/-- **The fixed points**: a text of the form is its own normal form. -/
theorem IsSlug.normalizeSlug_eq (casing : AsciiCasing) (hs : IsSlug s) :
    normalizeSlug casing.toCasing s = s := by
  have hspace : ∀ c ∈ s, isSpace c = false := by
    intro c hc
    have := hs.toNat_range hc
    simp [isSpace]
    omega
  have hone : ∀ c ∈ s, (isSpace c || c = '_') = false := by
    intro c hc
    rw [hspace c hc, Bool.false_or, decide_eq_false_iff_not]
    rintro rfl
    have := hs.toNat_range hc
    revert this
    decide
  have hlower : casing.lower s = s := by
    have hascii : IsAscii s := fun c hc => by
      have := hs.toNat_range hc
      omega
    rw [casing.lower_ascii s hascii]
    refine (List.map_congr_left fun c hc => ?_).trans (List.map_id s)
    apply Char.toLower_eq_of_not_isUpper
    intro hupper
    have hcode : 65 ≤ c.toNat ∧ c.toNat ≤ 90 := by
      simpa [Char.isUpper, UInt32.le_iff_toNat_le] using hupper
    have := hs.toNat_range hc
    omega
  have hkeep : s.filter (fun c => isSlugChar c || c = '-') = s :=
    List.filter_eq_self.mpr fun c hc => by simpa using hs.mem hc
  rw [normalizeSlug, strip_of_forall hspace, hlower, dashEach_of_none hone, hkeep,
    hs.dashEach_eq, hs.stripDashes_eq]

theorem normalizeSlug_nil (casing : AsciiCasing) : normalizeSlug casing.toCasing [] = [] := by
  have hlower : casing.lower (strip []) = [] := casing.lower_ascii [] nofun
  rw [normalizeSlug, hlower]
  rfl

end Form

/-- Lower-casing that only knows ASCII. -/
def AsciiCasing.ascii : AsciiCasing := ⟨asciiCasing, fun _ _ => rfl⟩

example : normalizeSlug asciiCasing " _Monstera --  Deliciosa!_ ".toList
    = "monstera-deliciosa".toList := by decide +kernel

/-! ### Slugs that come through the schemas -/

/-- The slug validator of the plant schemas. -/
def normalizePlantSlug (casing : Casing) (value : Text) : Except Text Text :=
  let normalized := normalizeSlug casing value
  if normalized.isEmpty then .error "Slug must contain letters or digits".toList
  else .ok normalized

/-- The slug that a request brings, if it brings one. -/
def PlantRequest.slug : PlantRequest → Option Text
  | .createPlant plant => some plant.slug
  | .updatePlant _ patch => patch.slug
  | .setPlantStatus _ _ => none

/-- The slug of the request is what a schema made of a typed one. -/
def PlantRequest.Validated (casing : Casing) (request : PlantRequest) : Prop :=
  ∀ slug ∈ request.slug, ∃ typed, normalizePlantSlug casing typed = .ok slug

/-- The lookup of the storefront routes. -/
def getActivePlantOr404 (casing : Casing) (slug : Text) : Session (UUID × Plant) :=
  getPlantBySlug (normalizeSlug casing slug) true

theorem isSlug_of_normalizePlantSlug {casing : Casing} {typed slug : Text}
    (h : normalizePlantSlug casing typed = .ok slug) : IsSlug slug := by
  simp only [normalizePlantSlug] at h
  split at h
  · cases h
  · rename_i hfilled
    obtain rfl := Except.ok.inj h
    rcases normalizeSlug_empty_or_isSlug casing typed with hnil | hslug
    · exact absurd (List.isEmpty_iff.mpr hnil) hfilled
    · exact hslug

/-- A plant saved with nobody in between has a slug that was held before, or the one it was saved
with. -/
theorem Saves.held {answers : Outside → Prop} {h : Set Key} {d d₀ d' : Db} {saved : SavedPlant}
    {plants : Table UUID Plant → Table UUID Plant}
    {slugs : Table UUID PlantSlugHistory → Table UUID PlantSlugHistory}
    (hs : Saves (Scope.quiet answers d₀) h d saved plants slugs)
    (hplants : d'.plants = plants d.plants) {slug : Text} {id : UUID} (hold : Holds d' slug id) :
    Holds d slug id ∨ saved.copy.slug = slug ∧
      ∀ loaded, saved.loaded = some loaded → ∃ id', Holds d loaded.slug id' := by
  obtain ⟨plant, hplant, rfl⟩ := hold
  rw [hplants] at hplant
  cases hs with
  | @created seen id' new hid hnew hseen hfree =>
    rw [Table.get_insert hnew] at hplant
    split at hplant
    · obtain rfl := Option.some.inj hplant
      refine .inr ⟨rfl, fun loaded hloaded => ?_⟩
      cases hloaded
    · exact .inl ⟨plant, hplant, rfl⟩
  | @edited seen id' loaded copy plants slugs hseen hget hrow hslug =>
    obtain ⟨rfl, rfl⟩ := Scope.quiet_sees hseen
    cases hrow with
    | unchanged hsame => exact .inl ⟨plant, hplant, rfl⟩
    | update hid hfree =>
      rw [Table.get_modify] at hplant
      split at hplant
      · rename_i heq
        rw [heq, hget, Option.map_some, Plant.update_loaded] at hplant
        obtain rfl := Option.some.inj hplant
        refine .inr ⟨rfl, ?_⟩
        rintro _ ⟨⟩
        exact ⟨id', loaded, hget, rfl⟩
      · exact .inl ⟨plant, hplant, rfl⟩

/-- **One request**: every slug held after it was held before it, or is the one it brings. -/
theorem runAlone_held {request : PlantRequest} {vs : ℕ → Outside} {d : Db} {slug : Text} {id : UUID}
    (hold : Holds (runAlone vs request.body d).2 slug id) :
    (∃ id', Holds d slug id') ∨ request.slug = some slug := by
  rcases runAlone_saved request vs d with hsame | ⟨saved, h, plants, slugs, hrun, hs, hwrote⟩
  · rw [hsame] at hold
    exact .inl ⟨id, hold⟩
  rw [hrun] at hold
  rcases hs.held rfl hold with hbefore | ⟨hcopy, hloaded⟩
  · exact .inl ⟨id, hbefore⟩
  cases request with
  | createPlant plant =>
    right
    rw [← hcopy, show saved.copy = plant from hwrote]
    rfl
  | updatePlant id' patch =>
    obtain ⟨loaded, hl, hedit⟩ := hwrote
    rw [hedit] at hcopy
    rcases hpatch : patch.slug with - | new
    · left
      have hsame : loaded.slug = slug := by
        rw [← hcopy, PlantPatch.apply, hpatch, Option.getD_none]
      exact hsame ▸ hloaded loaded hl
    · right
      rw [← hcopy, PlantPatch.apply, hpatch, Option.getD_some]
      exact hpatch
  | setPlantStatus id' isActive =>
    obtain ⟨loaded, hl, hedit⟩ := hwrote
    rw [hedit] at hcopy
    exact .inl (hcopy ▸ hloaded loaded hl)

/-- **Every run** of requests with validated slugs holds slugs of the form only. -/
theorem isSlug_of_held {casing : Casing} {shop : Db} {requests : ℕ → PlantRequest}
    {answers : ℕ → ℕ → Outside} (hvalid : ∀ i, (requests i).Validated casing) {n : ℕ} {slug : Text}
    {id : UUID} (hold : Holds (catalogueRun shop requests answers n) slug id) : IsSlug slug := by
  induction n generalizing id with
  | zero =>
    obtain ⟨plant, hplant, -⟩ := hold
    cases hplant
  | succ n ih =>
    rcases runAlone_held hold with ⟨id', hbefore⟩ | hbrought
    · exact ih hbefore
    · obtain ⟨typed, htyped⟩ := hvalid n slug hbrought
      exact isSlug_of_normalizePlantSlug htyped

/-- What normalising slugs is for. -/
structure SlugNormalForm (casing : AsciiCasing) : Prop where
  form : ∀ s, normalizeSlug casing.toCasing s = [] ∨ IsSlug (normalizeSlug casing.toCasing s)
  idempotent : ∀ s, normalizeSlug casing.toCasing (normalizeSlug casing.toCasing s)
    = normalizeSlug casing.toCasing s
  identity : ∀ s, IsSlug s → normalizeSlug casing.toCasing s = s
  found : ∀ shop requests answers, (∀ i, (requests i).Validated casing.toCasing) → ∀ n vs id plant,
    (catalogueRun shop requests answers n).plants.get id = some plant → plant.isActive = true →
    ∀ path, path = plant.slug ∨ normalizeSlug casing.toCasing path = plant.slug →
      (runAlone vs (getActivePlantOr404 casing.toCasing path)
        (catalogueRun shop requests answers n)).1 = .ok (id, plant)

theorem slug_normal_form (casing : AsciiCasing) : SlugNormalForm casing where
  form s := normalizeSlug_empty_or_isSlug casing.toCasing s
  idempotent s := by
    rcases normalizeSlug_empty_or_isSlug casing.toCasing s with hnil | hslug
    · rw [hnil, normalizeSlug_nil]
    · exact hslug.normalizeSlug_eq casing
  identity s hs := hs.normalizeSlug_eq casing
  found shop requests answers hvalid n vs id plant hplant hactive path hpath := by
    have hslug : IsSlug plant.slug := isSlug_of_held hvalid ⟨plant, hplant, rfl⟩
    have hnormal : normalizeSlug casing.toCasing path = plant.slug := by
      rcases hpath with rfl | h
      · exact hslug.normalizeSlug_eq casing
      · exact h
    rw [getActivePlantOr404, hnormal,
      getPlantBySlug_of_held (slugsKept_catalogueRun shop requests answers n).apart hplant, found,
      Plant.shown, hactive]
    rfl

end GreenGarden
