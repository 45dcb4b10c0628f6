/-
GreenGarden/Slugs.lean

Slugs and their history.

A slug is held by the plant that carries it now, or remembered for the plant
that gave it up.  `SlugStep` is everything one request can do to that: nothing,
a new plant taking a slug, or a plant exchanging one slug for another.  The
slug that is taken leaves the history in the same transaction and the one that
is given up enters it, so the two columns stay apart and distinct
(`SlugsApart`), and a remembered slug belongs to whoever held it last.

`slugs_follow_plants` puts this together over whole sequences of requests: the
lookup finds the plant that held a slug most recently.
-/
import GreenGarden.Guarantee

namespace GreenGarden

open Transaction

/-- The plant has this slug now. -/
def Holds (db : Db) (slug : Text) (id : UUID) : Prop :=
  ∃ plant, db.plants.get id = some plant ∧ plant.slug = slug

/-- Current slugs are distinct, historical slugs are distinct, and no slug is
both. -/
structure SlugsApart (db : Db) : Prop where
  current : ∀ {slug id id'}, Holds db slug id → Holds db slug id' → id = id'
  historical : ∀ {k k' r r'}, db.slugHistory.get k = some r → db.slugHistory.get k' = some r' →
    r.slug = r'.slug → k = k'
  apart : ∀ {slug id}, Holds db slug id → ∀ r ∈ db.slugHistory.rows, r.slug ≠ slug

/-! ### The history table -/

section History

variable {t : Table UUID PlantSlugHistory} {slug : Text} {r : PlantSlugHistory} {k : UUID}

theorem mem_released : r ∈ (released slug t).rows ↔ r ∈ t.rows ∧ r.slug ≠ slug := by
  simp only [released, Table.remove, Table.rows, List.mem_map, List.mem_filter, Prod.exists,
    Bool.not_eq_true', decide_eq_false_iff_not]
  constructor
  · rintro ⟨k, r', ⟨hmem, hne⟩, rfl⟩
    exact ⟨⟨k, r', hmem, rfl⟩, hne⟩
  · rintro ⟨⟨k, r', hmem, rfl⟩, hne⟩
    exact ⟨k, r', ⟨hmem, hne⟩, rfl⟩

theorem get_of_released (h : (released slug t).get k = some r) : t.get k = some r := by
  rw [Table.get_eq_some] at h ⊢
  exact (List.mem_filter.mp h).1

theorem mem_insert_rows {row : PlantSlugHistory} (hk : t.get k = none) :
    r ∈ (t.insert k row).rows ↔ r ∈ t.rows ∨ r = row := by
  rw [Table.rows_insert hk, List.mem_append, List.mem_singleton]

end History

/-! ### One request -/

/-- What a request does to the slugs. -/
inductive SlugStep (d d' : Db) : Prop
  | same (current : ∀ slug id, Holds d' slug id ↔ Holds d slug id)
      (history : d'.slugHistory = d.slugHistory)
  | created {id : UUID} {slug : Text} (free : ∀ id', ¬ Holds d slug id')
      (fresh : d.plants.get id = none)
      (current : ∀ slug' id', Holds d' slug' id' ↔ Holds d slug' id' ∨ slug' = slug ∧ id' = id)
      (history : d'.slugHistory = released slug d.slugHistory)
  | renamed {id rowId : UUID} {old new : Text} (changed : new ≠ old) (holder : Holds d old id)
      (free : ∀ id', ¬ Holds d new id')
      (current : ∀ slug id', Holds d' slug id' ↔
        id' ≠ id ∧ Holds d slug id' ∨ id' = id ∧ slug = new)
      (fresh : (released new d.slugHistory).get rowId = none)
      (unused : ∀ r ∈ (released new d.slugHistory).rows, r.slug ≠ old)
      (history : d'.slugHistory = (released new d.slugHistory).insert rowId ⟨id, old⟩)

theorem changed_loaded {α : Type} [DecidableEq α] (loaded edited : α) :
    changed loaded edited loaded = edited := by
  unfold changed
  split
  · rename_i h
    exact h.symm
  · rfl

/-- With nobody in between, the row becomes what was saved. -/
@[simp] theorem Plant.update_loaded (loaded edited : Plant) :
    Plant.update loaded edited loaded = edited := by
  simp only [Plant.update, changed_loaded]

/-- **The step lemma**: a plant saved with nobody in between. -/
theorem Saves.slugStep {answers : Outside → Prop} {h : Set Key} {d d₀ d' : Db}
    {saved : SavedPlant} {plants : Table UUID Plant → Table UUID Plant}
    {slugs : Table UUID PlantSlugHistory → Table UUID PlantSlugHistory}
    (hs : Saves (Scope.quiet answers d₀) h d saved plants slugs)
    (hplants : d'.plants = plants d.plants) (hslugs : d'.slugHistory = slugs d.slugHistory) :
    SlugStep d d' := by
  -- whatever was seen is the database as it is
  have now : ∀ {seen : Db}, (Scope.quiet answers d₀).Sees seen d → seen = d := fun hseen => by
    obtain ⟨rfl, rfl⟩ := Scope.quiet_sees hseen
    rfl
  cases hs with
  | @created seen id plant hid hnew hseen hfree =>
    obtain rfl := now hseen
    refine @SlugStep.created seen d' id plant.slug ?_ hnew (fun slug' id' => ?_) hslugs
    · rintro id' ⟨p, hp, hslug⟩
      exact hfree p (Table.mem_rows_of_get hp) hslug
    · simp only [Holds, hplants, Table.get_insert hnew]
      split
      · rename_i heq
        simp only [heq, hnew, Option.some.injEq, exists_eq_left', reduceCtorEq, false_and,
          exists_false, false_or, and_true]
        exact eq_comm
      · rename_i hne
        simp only [hne, and_false, or_false]
  | @edited seen id loaded copy plants slugs hseen hget hrow hslug =>
    obtain rfl := now hseen
    cases hrow with
    | unchanged hsame =>
      subst hsame
      cases hslug with
      | kept => exact .same (fun slug id => by rw [Holds, Holds, hplants]) hslugs
      | renamed hne => exact absurd rfl hne
    | update hid hfree =>
      have hget' : ∀ id', d'.plants.get id'
          = if id' = id then some copy else seen.plants.get id' := by
        intro id'
        rw [hplants, Table.get_modify]
        split
        · rename_i heq
          rw [heq, hget, Option.map_some, Plant.update_loaded]
        · rfl
      cases hslug with
      | kept hsame =>
        refine .same (fun slug id' => ?_) hslugs
        simp only [Holds, hget']
        split
        · rename_i heq
          simp only [heq, hget, Option.some.injEq, exists_eq_left', hsame]
        · rfl
      | @renamed seen₁ seen₂ rowId hne hseen₁ hseen₂ hnew hold =>
        obtain rfl := now hseen₁
        obtain rfl := now hseen₂
        obtain ⟨seen₃, hseen₃, hno⟩ := hfree hne
        obtain rfl := now hseen₃
        refine .renamed hne ⟨loaded, hget, rfl⟩ ?_ (fun slug id' => ?_) hnew hold hslugs
        · rintro id' ⟨p, hp, hslug⟩
          exact hno p (Table.mem_rows_of_get hp) hslug
        · simp only [Holds, hget']
          split
          · rename_i heq
            simp only [heq, Option.some.injEq, exists_eq_left', ne_eq, not_true, false_and,
              true_and, false_or]
            exact eq_comm
          · rename_i hne'
            simp only [hne', ne_eq, not_false_iff, true_and, false_and, or_false]

/-- A step keeps the slugs apart. -/
theorem SlugStep.apart {d d' : Db} (hs : SlugStep d d') (ha : SlugsApart d) : SlugsApart d' := by
  cases hs with
  | same current history =>
    refine ⟨fun h h' => ?_, fun hr hr' => ?_, fun h => ?_⟩
    · exact ha.current ((current _ _).mp h) ((current _ _).mp h')
    · rw [history] at hr hr'
      exact ha.historical hr hr'
    · rw [history]
      exact ha.apart ((current _ _).mp h)
  | @created id slug free fresh current history =>
    refine ⟨fun {s i i'} h h' => ?_, fun hr hr' => ?_, fun {s i} h r hr => ?_⟩
    · rcases (current _ _).mp h with h | ⟨rfl, rfl⟩ <;>
        rcases (current _ _).mp h' with h' | ⟨hs, rfl⟩
      · exact ha.current h h'
      · exact absurd (hs ▸ h) (free i)
      · exact absurd h' (free i')
      · rfl
    · rw [history] at hr hr'
      exact ha.historical (get_of_released hr) (get_of_released hr')
    · rw [history, mem_released] at hr
      rcases (current _ _).mp h with h | ⟨rfl, -⟩
      · exact ha.apart h r hr.1
      · exact hr.2
  | @renamed id rowId old new changed holder free current fresh unused history =>
    refine ⟨fun {s i i'} h h' => ?_, fun {k k' r r'} hr hr' heq => ?_, fun {s i} h r hr => ?_⟩
    · rcases (current _ _).mp h with ⟨-, h⟩ | ⟨rfl, rfl⟩ <;>
        rcases (current _ _).mp h' with ⟨-, h'⟩ | ⟨rfl, hs⟩
      · exact ha.current h h'
      · exact absurd (hs ▸ h) (free i)
      · exact absurd h' (free i')
      · rfl
    · rw [history, Table.get_insert fresh] at hr hr'
      split at hr <;> split at hr'
      · rename_i hk hk'
        exact hk.trans hk'.symm
      · obtain rfl := Option.some.inj hr
        exact absurd heq.symm (unused r' (Table.mem_rows_of_get hr'))
      · obtain rfl := Option.some.inj hr'
        exact absurd heq (unused r (Table.mem_rows_of_get hr))
      · exact ha.historical (get_of_released hr) (get_of_released hr') heq
    · rw [history, mem_insert_rows fresh, mem_released] at hr
      rcases (current _ _).mp h with ⟨hne, h⟩ | ⟨rfl, rfl⟩
      · rcases hr with ⟨hr, -⟩ | rfl
        · exact ha.apart h r hr
        · -- the renamed plant held the old slug, so nobody else does
          rintro rfl
          exact hne (ha.current h holder)
      · rcases hr with ⟨-, hr⟩ | rfl
        · exact hr
        · exact changed.symm

/-! ### The lookup -/

section Lookup

variable {db : Db} {slug : Text} {id : UUID} {plant : Plant} {vs : ℕ → Outside}

/-- What the two queries of the lookup come to. -/
theorem runAlone_getPlantBySlug (db : Db) (slug : Text) (activeOnly : Bool) (vs : ℕ → Outside) :
    (runAlone vs (getPlantBySlug slug activeOnly) db).1 =
      match db.plants.find? (fun p => p.slug = slug && p.shown activeOnly) with
      | some found => .ok found
      | none =>
          match (usedBefore db slug).find? fun e => e.2.shown activeOnly with
          | some found => .ok found
          | none => .error .plantNotFound := by
  have hrun : runAlone vs (getPlantBySlug slug activeOnly) db =
      alone vs (match db.plants.find? (fun p => p.slug = slug && p.shown activeOnly) with
        | some found => Tx.ret found
        | none => Tx.read fun d =>
            match (usedBefore d slug).find? fun e => e.2.shown activeOnly with
            | some found => Tx.ret found
            | none => Tx.fail .plantNotFound) 0 [] db := rfl
  rw [hrun]
  rcases db.plants.find? (fun p => p.slug = slug && p.shown activeOnly) with - | found
  · rw [alone, flush_nil]
    generalize (usedBefore db slug).find? (fun e => e.2.shown activeOnly) = second
    cases second <;> rfl
  · rfl

/-- A query that can only find one row. -/
theorem find?_unique {α : Type} {l : List α} {a : α} (p : α → Bool) (ha : a ∈ l)
    (hl : ∀ x ∈ l, x = a) : l.find? p = if p a then some a else none := by
  split
  · rename_i hp
    obtain ⟨x, hx⟩ := Option.isSome_iff_exists.mp (List.find?_isSome.mpr ⟨a, ha, hp⟩)
    rw [hx, hl x (List.mem_of_find?_eq_some hx)]
  · rename_i hp
    apply List.find?_eq_none.mpr
    intro x hx
    rw [hl x hx]
    exact hp

/-- The answer of a lookup that ends at one plant. -/
def found (id : UUID) (plant : Plant) (activeOnly : Bool) : Except Error (UUID × Plant) :=
  if plant.shown activeOnly then .ok (id, plant) else .error .plantNotFound

/-- A slug that no plant has is not found among the current ones. -/
theorem find?_of_not_held (hfree : ∀ id, ¬ Holds db slug id) (activeOnly : Bool) :
    db.plants.find? (fun p => p.slug = slug && p.shown activeOnly) = none := by
  rw [Table.find?_eq_none]
  intro p hp
  obtain ⟨k, hk⟩ := Table.mem_rows.mp hp
  have hne : p.slug ≠ slug := fun heq => hfree k ⟨p, hk, heq⟩
  simp [hne]

theorem mem_usedBefore {e : UUID × Plant} :
    e ∈ usedBefore db slug ↔ ∃ r ∈ db.slugHistory.rows, r.slug = slug ∧
      r.plantId = e.1 ∧ db.plants.get e.1 = some e.2 := by
  obtain ⟨id, plant⟩ := e
  simp only [usedBefore, List.mem_filterMap, List.mem_filter, decide_eq_true_eq,
    Option.map_eq_some_iff, Prod.mk.injEq]
  constructor
  · rintro ⟨r, ⟨hr, hslug⟩, p, hp, rfl, rfl⟩
    exact ⟨r, hr, hslug, rfl, hp⟩
  · rintro ⟨r, hr, hslug, rfl, hp⟩
    exact ⟨r, ⟨hr, hslug⟩, plant, hp, rfl, rfl⟩

/-- A current slug leads to its plant. -/
theorem getPlantBySlug_of_held (ha : SlugsApart db) (hget : db.plants.get id = some plant)
    (activeOnly : Bool) :
    (runAlone vs (getPlantBySlug plant.slug activeOnly) db).1 = found id plant activeOnly := by
  have hmem : (id, plant) ∈ db.plants.entries := Table.get_eq_some.mp hget
  -- no other row has the slug, so the filter on activity decides
  have honly : ∀ e ∈ db.plants.entries, e.2.slug = plant.slug → e = (id, plant) := by
    rintro ⟨id', p⟩ he hslug
    have hget' := Table.get_eq_some.mpr he
    obtain rfl := ha.current ⟨p, hget', hslug⟩ ⟨plant, hget, rfl⟩
    rw [hget] at hget'
    cases hget'
    rfl
  have hused : usedBefore db plant.slug = [] := by
    apply List.eq_nil_iff_forall_not_mem.mpr
    intro e he
    obtain ⟨r, hr, hslug, -⟩ := mem_usedBefore.mp he
    exact ha.apart ⟨plant, hget, rfl⟩ r hr hslug
  rw [runAlone_getPlantBySlug, hused, found]
  rcases hfind : db.plants.find? (fun p => p.slug = plant.slug && p.shown activeOnly) with - | e
  · have hnone := List.find?_eq_none.mp hfind (id, plant) hmem
    have hhidden : plant.shown activeOnly = false := by simpa using hnone
    simp [hhidden]
  · have he := List.find?_some hfind
    simp only [Bool.and_eq_true, decide_eq_true_eq] at he
    obtain rfl := honly e (List.mem_of_find?_eq_some hfind) he.1
    simp [he.2]

/-- A remembered slug leads to the plant that gave it up. -/
theorem getPlantBySlug_of_remembered (ha : SlugsApart db) {r : PlantSlugHistory}
    (hr : r ∈ db.slugHistory.rows) (hget : db.plants.get r.plantId = some plant)
    (activeOnly : Bool) :
    (runAlone vs (getPlantBySlug r.slug activeOnly) db).1 = found r.plantId plant activeOnly := by
  have hfree : ∀ id, ¬ Holds db r.slug id := fun id hid => ha.apart hid r hr rfl
  have honly : ∀ e ∈ usedBefore db r.slug, e = (r.plantId, plant) := by
    rintro ⟨id', p⟩ he
    obtain ⟨r', hr', hslug, hid, hp⟩ := mem_usedBefore.mp he
    obtain ⟨k, hk⟩ := Table.mem_rows.mp hr
    obtain ⟨k', hk'⟩ := Table.mem_rows.mp hr'
    obtain rfl := ha.historical hk' hk hslug
    rw [hk] at hk'
    cases hk'
    rw [← hid, hget] at hp
    cases hp
    exact Prod.ext hid.symm rfl
  have hmem : (r.plantId, plant) ∈ usedBefore db r.slug :=
    mem_usedBefore.mpr ⟨r, hr, rfl, rfl, hget⟩
  rw [runAlone_getPlantBySlug, find?_of_not_held hfree, find?_unique _ hmem honly, found]
  rcases plant.shown activeOnly <;> rfl

/-- A slug that is neither current nor remembered leads nowhere. -/
theorem getPlantBySlug_of_unknown (hfree : ∀ id, ¬ Holds db slug id)
    (hhistory : ∀ r ∈ db.slugHistory.rows, r.slug ≠ slug) (activeOnly : Bool) :
    (runAlone vs (getPlantBySlug slug activeOnly) db).1 = .error .plantNotFound := by
  have hused : usedBefore db slug = [] := by
    apply List.eq_nil_iff_forall_not_mem.mpr
    intro e he
    obtain ⟨r, hr, hslug, -⟩ := mem_usedBefore.mp he
    exact hhistory r hr hslug
  rw [runAlone_getPlantBySlug, find?_of_not_held hfree, hused]
  rfl

end Lookup

/-! ### Sequences of requests -/

/-- The catalogue after `n` requests, one after another, each with its own
outside values. -/
def catalogueRun (shop : Db) (requests : ℕ → PlantRequest) (answers : ℕ → ℕ → Outside) : ℕ → Db
  | 0 => { shop with plants := .empty, slugHistory := .empty }
  | n + 1 => (runAlone (answers n) (requests n).body (catalogueRun shop requests answers n)).2

/-- A request run alone leaves the database as it was, or saves a plant. -/
theorem runAlone_saved (request : PlantRequest) (vs : ℕ → Outside) (d : Db) :
    (runAlone vs request.body d).2 = d ∨ ∃ saved h plants slugs,
      (runAlone vs request.body d).2
        = { d with plants := plants d.plants, slugHistory := slugs d.slugHistory } ∧
      Saves (Scope.quiet (fun _ => True) d) h d saved plants slugs ∧ request.Wrote saved := by
  have hwp : wp (Scope.quiet (fun _ => True) d).rely EditFailure request.body
      (Stable (Scope.quiet (fun _ => True) d).rely fun _ h b d' =>
        ∃ saved, SavedPost (Scope.quiet (fun _ => True) d) saved h b d' ∧ request.Wrote saved)
      ∅ [] d := by
    rw [request.body_eq, map_eq_pure_bind]
    refine wp_bind (wp_mono (fun _ _ hf => hf) (fun saved h b d' hq => wp_pure ?_)
      (wp_wrote request rfl))
    exact fun d'' hd'' => ⟨saved, hq d'' hd''⟩
  rcases hrun : runAlone vs request.body d with ⟨e | id, d'⟩
  · obtain ⟨rfl, -⟩ := runAlone_error hwp (fun _ => trivial) hrun
    exact .inl rfl
  · obtain ⟨h, b, rfl, hpost⟩ := runAlone_ok hwp (fun _ => trivial) hrun
    obtain ⟨saved, ⟨plants, slugs, hb, hs⟩, hwrote⟩ := hpost d ⟨.refl d, rfl⟩
    exact .inr ⟨saved, h, plants, slugs, hb d, hs, hwrote⟩

/-- A request run alone is a step, also when it fails. -/
theorem runAlone_slugStep (request : PlantRequest) (vs : ℕ → Outside) (d : Db) :
    SlugStep d (runAlone vs request.body d).2 := by
  rcases runAlone_saved request vs d with hsame | ⟨saved, h, plants, slugs, hrun, hs, -⟩
  · rw [hsame]
    exact .same (fun _ _ => Iff.rfl) rfl
  · rw [hrun]
    exact hs.slugStep rfl rfl

/-- After `n` requests, `id` is the plant that held the slug last. -/
def LastHolder (run : ℕ → Db) (n : ℕ) (slug : Text) (id : UUID) : Prop :=
  ∃ m ≤ n, Holds (run m) slug id ∧
    ∀ k, m < k → k ≤ n → ∀ id', Holds (run k) slug id' → id' = id

/-- Nobody else takes the slug in the next step. -/
theorem LastHolder.succ {run : ℕ → Db} {n : ℕ} {slug : Text} {id : UUID}
    (h : LastHolder run n slug id) (hnext : ∀ id', Holds (run (n + 1)) slug id' → id' = id) :
    LastHolder run (n + 1) slug id := by
  obtain ⟨m, hm, hheld, hafter⟩ := h
  refine ⟨m, hm.trans (Nat.le_succ n), hheld, fun k hk hkn id' hid' => ?_⟩
  rcases Nat.le_succ_iff.mp hkn with hk' | rfl
  · exact hafter k hk hk' id' hid'
  · exact hnext id' hid'

theorem Holds.lastHolder {run : ℕ → Db} {n : ℕ} {slug : Text} {id : UUID}
    (h : Holds (run n) slug id) : LastHolder run n slug id :=
  ⟨n, le_rfl, h, fun _ hk hkn => absurd hkn (not_le.mpr hk)⟩

/-- What a run keeps: slugs apart, each remembered slug belongs to its last
holder, who is still there, and no slug that was ever held is forgotten. -/
structure SlugsKept (run : ℕ → Db) (n : ℕ) : Prop where
  apart : SlugsApart (run n)
  remembered : ∀ r ∈ (run n).slugHistory.rows, LastHolder run n r.slug r.plantId
  present : ∀ r ∈ (run n).slugHistory.rows, ∃ slug, Holds (run n) slug r.plantId
  covered : ∀ m ≤ n, ∀ slug id, Holds (run m) slug id → (∃ id', Holds (run n) slug id') ∨
    ∃ r ∈ (run n).slugHistory.rows, r.slug = slug

theorem Holds.slug_unique {d : Db} {slug slug' : Text} {id : UUID} (h : Holds d slug id)
    (h' : Holds d slug' id) : slug = slug' := by
  obtain ⟨p, hp, rfl⟩ := h
  obtain ⟨p', hp', rfl⟩ := h'
  rw [hp] at hp'
  cases hp'
  rfl

/-- A plant keeps having a slug. -/
theorem SlugStep.present {d d' : Db} (hs : SlugStep d d') {id : UUID}
    (h : ∃ slug, Holds d slug id) : ∃ slug, Holds d' slug id := by
  obtain ⟨slug, h⟩ := h
  cases hs with
  | same current => exact ⟨slug, (current _ _).mpr h⟩
  | created free fresh current => exact ⟨slug, (current _ _).mpr (.inl h)⟩
  | @renamed id' rowId old new changed holder free current =>
    by_cases heq : id = id'
    · exact ⟨new, (current _ _).mpr (.inr ⟨heq, rfl⟩)⟩
    · exact ⟨slug, (current _ _).mpr (.inl ⟨heq, h⟩)⟩

/-- No slug is forgotten if none that was just held or remembered is. -/
theorem SlugsKept.covered_succ {run : ℕ → Db} {n : ℕ} (hk : SlugsKept run n)
    (hcurrent : ∀ slug id, Holds (run n) slug id → (∃ id', Holds (run (n + 1)) slug id') ∨
      ∃ r ∈ (run (n + 1)).slugHistory.rows, r.slug = slug)
    (hhistory : ∀ r ∈ (run n).slugHistory.rows, (∃ id', Holds (run (n + 1)) r.slug id') ∨
      r ∈ (run (n + 1)).slugHistory.rows) :
    ∀ m ≤ n + 1, ∀ slug id, Holds (run m) slug id → (∃ id', Holds (run (n + 1)) slug id') ∨
      ∃ r ∈ (run (n + 1)).slugHistory.rows, r.slug = slug := by
  intro m hm slug id hid
  rcases Nat.le_succ_iff.mp hm with hm | rfl
  · rcases hk.covered m hm slug id hid with ⟨id', hid'⟩ | ⟨r, hr, rfl⟩
    · exact hcurrent slug id' hid'
    · exact (hhistory r hr).imp_right fun hr' => ⟨r, hr', rfl⟩
  · exact .inl ⟨id, hid⟩

/-- **One request keeps it.** -/
theorem SlugsKept.step {run : ℕ → Db} {n : ℕ} (hk : SlugsKept run n)
    (hs : SlugStep (run n) (run (n + 1))) : SlugsKept run (n + 1) := by
  have hapart := hs.apart hk.apart
  have hpresent := @SlugStep.present _ _ hs
  cases hs with
  | same current history =>
    refine ⟨hapart, fun r hr => ?_, fun r hr => ?_, hk.covered_succ ?_ ?_⟩
    · rw [history] at hr
      refine (hk.remembered r hr).succ fun id' hid' => ?_
      exact absurd rfl (hk.apart.apart ((current _ _).mp hid') r hr)
    · rw [history] at hr
      exact hpresent (hk.present r hr)
    · exact fun slug id hid => .inl ⟨id, (current _ _).mpr hid⟩
    · rw [history]
      exact fun r hr => .inr hr
  | @created id slug free fresh current history =>
    refine ⟨hapart, fun r hr => ?_, fun r hr => ?_, hk.covered_succ ?_ fun r hr => ?_⟩
    · rw [history, mem_released] at hr
      refine (hk.remembered r hr.1).succ fun id' hid' => ?_
      rcases (current _ _).mp hid' with hid' | ⟨heq, -⟩
      · exact absurd rfl (hk.apart.apart hid' r hr.1)
      · exact absurd heq hr.2
    · rw [history, mem_released] at hr
      exact hpresent (hk.present r hr.1)
    · exact fun slug' id' hid' => .inl ⟨id', (current _ _).mpr (.inl hid')⟩
    · by_cases heq : r.slug = slug
      · exact .inl ⟨id, (current _ _).mpr (.inr ⟨heq, rfl⟩)⟩
      · right
        rw [history, mem_released]
        exact ⟨hr, heq⟩
  | @renamed id rowId old new changed holder free current fresh unused history =>
    have hmem : ∀ r, r ∈ (run (n + 1)).slugHistory.rows ↔
        (r ∈ (run n).slugHistory.rows ∧ r.slug ≠ new) ∨ r = ⟨id, old⟩ := by
      intro r
      rw [history, mem_insert_rows fresh, mem_released]
    refine ⟨hapart, fun r hr => ?_, fun r hr => ?_,
      hk.covered_succ (fun slug id' hid' => ?_) fun r hr => ?_⟩
    · rcases (hmem r).mp hr with ⟨hr, hne⟩ | rfl
      · refine (hk.remembered r hr).succ fun id' hid' => ?_
        rcases (current _ _).mp hid' with ⟨-, hid'⟩ | ⟨-, heq⟩
        · exact absurd rfl (hk.apart.apart hid' r hr)
        · exact absurd heq hne
      · -- the old slug was held by this plant until just now
        refine holder.lastHolder.succ fun id' hid' => ?_
        rcases (current _ _).mp hid' with ⟨-, hid'⟩ | ⟨rfl, -⟩
        · exact hk.apart.current hid' holder
        · rfl
    · rcases (hmem r).mp hr with ⟨hr, -⟩ | rfl
      · exact hpresent (hk.present r hr)
      · exact hpresent ⟨old, holder⟩
    · by_cases heq : id' = id
      · subst heq
        obtain rfl := hid'.slug_unique holder
        exact .inr ⟨⟨id', slug⟩, (hmem _).mpr (.inr rfl), rfl⟩
      · exact .inl ⟨id', (current _ _).mpr (.inl ⟨heq, hid'⟩)⟩
    · by_cases heq : r.slug = new
      · exact .inl ⟨id, (current _ _).mpr (.inr ⟨rfl, heq⟩)⟩
      · exact .inr ((hmem r).mpr (.inl ⟨hr, heq⟩))

/-- **Every run keeps it.** -/
theorem slugsKept_catalogueRun (shop : Db) (requests : ℕ → PlantRequest)
    (answers : ℕ → ℕ → Outside) (n : ℕ) : SlugsKept (catalogueRun shop requests answers) n := by
  induction n with
  | zero =>
    have hnone : ∀ slug id, ¬ Holds (catalogueRun shop requests answers 0) slug id := by
      rintro slug id ⟨p, hp, -⟩
      cases hp
    refine ⟨⟨fun h => absurd h (hnone _ _), fun h => ?_, fun h => absurd h (hnone _ _)⟩,
      fun r hr => ?_, fun r hr => ?_, fun m hm slug id hid => ?_⟩
    · cases h
    · cases hr
    · cases hr
    · obtain rfl := Nat.le_zero.mp hm
      exact absurd hid (hnone _ _)
  | succ n ih => exact ih.step (runAlone_slugStep _ _ _)

/-- There is only one last holder. -/
theorem LastHolder.unique {run : ℕ → Db} (ha : ∀ m, SlugsApart (run m)) {n : ℕ} {slug : Text}
    {id id' : UUID} (h : LastHolder run n slug id) (h' : LastHolder run n slug id') : id = id' := by
  obtain ⟨m, hm, hheld, hafter⟩ := h
  obtain ⟨m', hm', hheld', hafter'⟩ := h'
  rcases lt_trichotomy m m' with hlt | rfl | hlt
  · exact (hafter m' hlt hm' id' hheld').symm
  · exact (ha m).current hheld hheld'
  · exact hafter' m hlt hm id hheld

section Found

variable {run : ℕ → Db} {n : ℕ} {slug : Text} {vs : ℕ → Outside}

/-- The lookup ends at the last holder. -/
theorem SlugsKept.getPlantBySlug (hk : ∀ m, SlugsKept run m) {id : UUID}
    (h : LastHolder run n slug id) :
    ∃ plant, (run n).plants.get id = some plant ∧ ∀ activeOnly,
      (runAlone vs (GreenGarden.getPlantBySlug slug activeOnly) (run n)).1
        = found id plant activeOnly := by
  have hunique : ∀ id', LastHolder run n slug id' → id = id' :=
    fun id' => h.unique fun m => (hk m).apart
  obtain ⟨m, hm, hheld, -⟩ := h
  rcases (hk n).covered m hm slug id hheld with ⟨id', hid'⟩ | ⟨r, hr, rfl⟩
  · obtain rfl := hunique id' hid'.lastHolder
    obtain ⟨plant, hplant, rfl⟩ := hid'
    exact ⟨plant, hplant, getPlantBySlug_of_held (hk n).apart hplant⟩
  · obtain rfl := hunique r.plantId ((hk n).remembered r hr)
    obtain ⟨slug, plant, hplant, -⟩ := (hk n).present r hr
    exact ⟨plant, hplant, getPlantBySlug_of_remembered (hk n).apart hr hplant⟩

/-- A slug that was ever held has a last holder. -/
theorem SlugsKept.exists_lastHolder (hk : SlugsKept run n)
    (h : ∃ m ≤ n, ∃ id, Holds (run m) slug id) : ∃ id, LastHolder run n slug id := by
  obtain ⟨m, hm, id, hid⟩ := h
  rcases hk.covered m hm slug id hid with ⟨id', hid'⟩ | ⟨r, hr, rfl⟩
  · exact ⟨id', hid'.lastHolder⟩
  · exact ⟨r.plantId, hk.remembered r hr⟩

/-- A slug that nobody ever held is not found. -/
theorem SlugsKept.getPlantBySlug_of_never (hk : SlugsKept run n)
    (h : ¬ ∃ m ≤ n, ∃ id, Holds (run m) slug id) (activeOnly : Bool) :
    (runAlone vs (GreenGarden.getPlantBySlug slug activeOnly) (run n)).1
      = .error .plantNotFound := by
  apply getPlantBySlug_of_unknown
  · exact fun id hid => h ⟨n, le_rfl, id, hid⟩
  · rintro r hr rfl
    obtain ⟨m, hm, hheld, -⟩ := hk.remembered r hr
    exact h ⟨m, hm, r.plantId, hheld⟩

end Found

/-- **Slugs and their history.**  After any sequence of requests, current and
historical slugs are distinct and apart, a lookup ends at the plant that held
the slug last, if it may be shown, and at nothing when no plant ever held it. -/
theorem slugs_follow_plants (shop : Db) (requests : ℕ → PlantRequest)
    (answers : ℕ → ℕ → Outside) (n : ℕ) (vs : ℕ → Outside) :
    SlugsApart (catalogueRun shop requests answers n) ∧
    ∀ slug,
      (∀ id, LastHolder (catalogueRun shop requests answers) n slug id →
        ∃ plant, (catalogueRun shop requests answers n).plants.get id = some plant ∧
          ∀ activeOnly, (runAlone vs (getPlantBySlug slug activeOnly)
            (catalogueRun shop requests answers n)).1
              = if activeOnly = false ∨ plant.isActive = true then .ok (id, plant)
                else .error .plantNotFound) ∧
      ((∃ m ≤ n, ∃ id, Holds (catalogueRun shop requests answers m) slug id) →
        ∃ id, LastHolder (catalogueRun shop requests answers) n slug id) ∧
      ((¬ ∃ m ≤ n, ∃ id, Holds (catalogueRun shop requests answers m) slug id) →
        ∀ activeOnly, (runAlone vs (getPlantBySlug slug activeOnly)
          (catalogueRun shop requests answers n)).1 = .error .plantNotFound) := by
  have hk := slugsKept_catalogueRun shop requests answers
  refine ⟨(hk n).apart, fun slug => ⟨fun id hid => ?_, (hk n).exists_lastHolder,
    (hk n).getPlantBySlug_of_never⟩⟩
  obtain ⟨plant, hplant, hfound⟩ := @SlugsKept.getPlantBySlug _ _ _ vs hk _ hid
  refine ⟨plant, hplant, fun activeOnly => ?_⟩
  rw [hfound activeOnly, found, Plant.shown]
  cases activeOnly <;> simp

end GreenGarden
