/-
GreenGarden/Table.lean

Keyed tables: the rows of a relation with a primary key, in the order in which
they were inserted.  Key uniqueness is part of the type, so a table with two
rows under one key cannot be built, and every lookup fact below is a statement
about membership (`get_eq_some`).

Rows are written through their key (`insert`, `modify`, `remove`), which is
what `INSERT`, `UPDATE ... WHERE id = ...` and `DELETE ... WHERE ...` do.
Aggregates over the rows are lists in insertion order; `sum_modify` and
`map_rows_modify` say what updating one row does to them.
-/
import Mathlib

/-- Rows of type `ρ` under distinct keys of type `κ`, oldest first. -/
structure Table (κ ρ : Type) where
  entries : List (κ × ρ)
  nodup : (entries.map Prod.fst).Nodup

namespace Table

variable {κ ρ α : Type} [DecidableEq κ]

/-- The table without rows. -/
def empty : Table κ ρ := ⟨[], List.nodup_nil⟩

/-- The row under `k`. -/
def get (t : Table κ ρ) (k : κ) : Option ρ :=
  (t.entries.find? fun e => e.1 = k).map Prod.snd

/-- All rows, oldest first. -/
def rows (t : Table κ ρ) : List ρ := t.entries.map Prod.snd

/-- All keys, oldest first. -/
def keys (t : Table κ ρ) : List κ := t.entries.map Prod.fst

/-- The oldest row that `p` selects, with its key. -/
def find? (t : Table κ ρ) (p : ρ → Bool) : Option (κ × ρ) := t.entries.find? fun e => p e.2

/-- Add a row at the end; a taken key leaves the table alone. -/
def insert (t : Table κ ρ) (k : κ) (r : ρ) : Table κ ρ :=
  if h : k ∈ t.keys then t
  else
    { entries := t.entries ++ [(k, r)]
      nodup := by
        rw [List.map_append, List.map_singleton]
        exact List.nodup_append_comm.mp (List.nodup_cons.mpr ⟨h, t.nodup⟩) }

/-- Update the row under `k`, if there is one. -/
def modify (t : Table κ ρ) (k : κ) (f : ρ → ρ) : Table κ ρ where
  entries := t.entries.map fun e => if e.1 = k then (e.1, f e.2) else e
  nodup := by
    have h : (t.entries.map fun e => if e.1 = k then (e.1, f e.2) else e).map Prod.fst
        = t.entries.map Prod.fst := by
      rw [List.map_map]
      refine List.map_congr_left fun e _ => ?_
      simp only [Function.comp_apply]
      split <;> rfl
    rw [h]
    exact t.nodup

/-- Delete every row that `p` selects. -/
def remove (t : Table κ ρ) (p : ρ → Bool) : Table κ ρ where
  entries := t.entries.filter fun e => !p e.2
  nodup := t.nodup.sublist (List.filter_sublist.map Prod.fst)

/-! ### Lookups are membership -/

theorem get_eq_some {t : Table κ ρ} {k : κ} {r : ρ} :
    t.get k = some r ↔ (k, r) ∈ t.entries := by
  obtain ⟨es, hnd⟩ := t
  simp only [get]
  induction es with
  | nil => simp
  | cons e es ih =>
    obtain ⟨k', r'⟩ := e
    simp only [List.map_cons, List.nodup_cons] at hnd
    rw [List.find?_cons]
    rcases eq_or_ne k' k with rfl | hk
    · have hnot : ∀ r, (k', r) ∉ es := fun r hr => hnd.1 (List.mem_map_of_mem hr)
      simp [hnot, eq_comm]
    · simp only [hk, decide_false, List.mem_cons, Prod.mk.injEq, hk.symm, false_and, false_or]
      exact ih hnd.2

theorem get_eq_none {t : Table κ ρ} {k : κ} : t.get k = none ↔ k ∉ t.keys := by
  rw [Option.eq_none_iff_forall_ne_some]
  simp only [ne_eq, get_eq_some, keys, List.mem_map, Prod.exists, exists_and_right,
    exists_eq_right, not_exists]

theorem mem_rows {t : Table κ ρ} {r : ρ} : r ∈ t.rows ↔ ∃ k, t.get k = some r := by
  simp only [rows, get_eq_some, List.mem_map, Prod.exists, exists_eq_right]

theorem mem_rows_of_get {t : Table κ ρ} {k : κ} {r : ρ} (h : t.get k = some r) : r ∈ t.rows :=
  mem_rows.mpr ⟨k, h⟩

theorem get_of_find? {t : Table κ ρ} {p : ρ → Bool} {k : κ} {r : ρ}
    (h : t.find? p = some (k, r)) : t.get k = some r ∧ p r = true := by
  refine ⟨get_eq_some.mpr (List.mem_of_find?_eq_some h), ?_⟩
  simpa using List.find?_some (p := fun e : κ × ρ => p e.2) h

omit [DecidableEq κ] in
theorem find?_eq_none {t : Table κ ρ} {p : ρ → Bool} :
    t.find? p = none ↔ ∀ r ∈ t.rows, p r = false := by
  simp only [find?, rows, List.find?_eq_none, List.mem_map, Bool.not_eq_true]
  constructor
  · rintro h r ⟨e, he, rfl⟩
    exact h e he
  · intro h e he
    exact h e.2 ⟨e, he, rfl⟩

/-! ### Insertion -/

theorem entries_insert {t : Table κ ρ} {k : κ} (hk : t.get k = none) (r : ρ) :
    (t.insert k r).entries = t.entries ++ [(k, r)] := by
  rw [insert, dif_neg (get_eq_none.mp hk)]

theorem rows_insert {t : Table κ ρ} {k : κ} (hk : t.get k = none) (r : ρ) :
    (t.insert k r).rows = t.rows ++ [r] := by
  simp [rows, entries_insert hk]

theorem get_insert {t : Table κ ρ} {k : κ} (hk : t.get k = none) (r : ρ) (k' : κ) :
    (t.insert k r).get k' = if k' = k then some r else t.get k' := by
  refine Option.ext fun r' => ?_
  rw [get_eq_some, entries_insert hk, List.mem_append, List.mem_singleton]
  split
  · rename_i h
    subst h
    have : ∀ r', (k', r') ∉ t.entries := fun r' hr' => by
      rw [← get_eq_some, hk] at hr'
      cases hr'
    simp [this, eq_comm]
  · rename_i h
    simp [get_eq_some, h]

theorem get_insert_self {t : Table κ ρ} {k : κ} (hk : t.get k = none) (r : ρ) :
    (t.insert k r).get k = some r := by
  rw [get_insert hk, if_pos rfl]

/-- A row that was there is still there after an insertion. -/
theorem get_insert_of_get {t : Table κ ρ} {k k' : κ} {r r' : ρ} (h : t.get k' = some r') :
    (t.insert k r).get k' = some r' := by
  rw [get_eq_some] at h ⊢
  rw [insert]
  split
  · exact h
  · exact List.mem_append_left _ h

/-! ### Updates -/

theorem get_modify (t : Table κ ρ) (k : κ) (f : ρ → ρ) (k' : κ) :
    (t.modify k f).get k' = if k' = k then (t.get k').map f else t.get k' := by
  refine Option.ext fun r => ?_
  rw [get_eq_some]
  simp only [modify, List.mem_map, Prod.exists]
  constructor
  · rintro ⟨k₁, r₁, hmem, heq⟩
    rw [← get_eq_some] at hmem
    split at heq <;> rename_i hk <;> obtain ⟨rfl, rfl⟩ := Prod.mk.inj heq
    · rw [if_pos hk, hmem, Option.map_some]
    · rw [if_neg hk, hmem]
  · intro h
    split at h
    · rename_i hk
      obtain ⟨r₁, hr₁, rfl⟩ := Option.map_eq_some_iff.mp h
      exact ⟨k', r₁, get_eq_some.mp hr₁, by rw [if_pos hk]⟩
    · rename_i hk
      exact ⟨k', r, get_eq_some.mp h, by rw [if_neg hk]⟩

theorem get_modify_self (t : Table κ ρ) (k : κ) (f : ρ → ρ) :
    (t.modify k f).get k = (t.get k).map f := by
  rw [get_modify, if_pos rfl]

theorem get_modify_of_ne (t : Table κ ρ) {k k' : κ} (h : k' ≠ k) (f : ρ → ρ) :
    (t.modify k f).get k' = t.get k' := by
  rw [get_modify, if_neg h]

/-- Rows stay when others are written. -/
theorem isSome_get_insert {t : Table κ ρ} {k' : κ} (h : (t.get k').isSome) (k : κ) (r : ρ) :
    ((t.insert k r).get k').isSome := by
  obtain ⟨r', hr'⟩ := Option.isSome_iff_exists.mp h
  rw [get_insert_of_get hr']
  rfl

theorem isSome_get_modify {t : Table κ ρ} {k' : κ} (h : (t.get k').isSome) (k : κ) (f : ρ → ρ) :
    ((t.modify k f).get k').isSome := by
  rw [get_modify]
  split
  · rwa [Option.isSome_map]
  · exact h

omit [DecidableEq κ] in
/-- A table is its list of rows. -/
theorem eq_of_entries {t t' : Table κ ρ} (h : t.entries = t'.entries) : t = t' := by
  obtain ⟨es, hnd⟩ := t
  obtain ⟨es', hnd'⟩ := t'
  cases h
  rfl

/-- Inserting a row and updating it is inserting the updated row. -/
theorem modify_insert_self {t : Table κ ρ} {k : κ} (hk : t.get k = none) (r : ρ) (f : ρ → ρ) :
    (t.insert k r).modify k f = t.insert k (f r) := by
  refine eq_of_entries ?_
  have hold : (t.entries.map fun e => if e.1 = k then (e.1, f e.2) else e) = t.entries := by
    refine (List.map_congr_left fun e he => ?_).trans (List.map_id _)
    have hne : e.1 ≠ k := fun h => get_eq_none.mp hk (List.mem_map.mpr ⟨e, he, h⟩)
    simp [hne]
  show (t.insert k r).entries.map (fun e => if e.1 = k then (e.1, f e.2) else e) = _
  rw [entries_insert hk, entries_insert hk, List.map_append, hold]
  simp

/-- A column the update does not touch reads the same in every row. -/
theorem map_rows_modify (t : Table κ ρ) (k : κ) (f : ρ → ρ) (g : ρ → α)
    (hg : ∀ r, t.get k = some r → g (f r) = g r) :
    (t.modify k f).rows.map g = t.rows.map g := by
  rw [rows, rows, modify, List.map_map, List.map_map, List.map_map]
  refine List.map_congr_left fun e he => ?_
  simp only [Function.comp_apply]
  split
  · rename_i hk
    subst hk
    exact hg _ (get_eq_some.mpr he)
  · rfl

/-- Updating one row moves a sum over all rows by the change in that row. -/
theorem sum_modify (t : Table κ ρ) {k : κ} {r : ρ} (hr : t.get k = some r) (f : ρ → ρ)
    (g : ρ → ℤ) :
    ((t.modify k f).rows.map g).sum = (t.rows.map g).sum - g r + g (f r) := by
  obtain ⟨es, hnd⟩ := t
  rw [get_eq_some] at hr
  simp only [rows, modify, List.map_map]
  induction es with
  | nil => cases hr
  | cons e es ih =>
    obtain ⟨k', r'⟩ := e
    obtain ⟨hnotin, hnodup⟩ := List.nodup_cons.mp hnd
    simp only [List.map_cons, List.sum_cons, Function.comp_apply]
    rcases List.mem_cons.mp hr with heq | hmem
    · obtain ⟨rfl, rfl⟩ := Prod.mk.inj heq
      -- the other rows have other keys
      have hrest : es.map (g ∘ Prod.snd ∘ fun e => if e.1 = k then (e.1, f e.2) else e)
          = es.map (g ∘ Prod.snd) := by
        refine List.map_congr_left fun e he => ?_
        have hne : e.1 ≠ k := fun h => hnotin (List.mem_map.mpr ⟨e, he, h⟩)
        simp [hne]
      simp only [if_true, hrest]
      ring
    · have hne : k' ≠ k := by
        rintro rfl
        exact hnotin (List.mem_map.mpr ⟨_, hmem, rfl⟩)
      have := ih hnodup hmem
      simp only [if_neg hne]
      rw [this]
      ring

end Table
