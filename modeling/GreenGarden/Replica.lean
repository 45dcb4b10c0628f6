/-
GreenGarden/Replica.lean

A keyed store that mirrors rows kept elsewhere, as a library over arbitrary
owners, rows, objects and keys.

Every row has an owner and is mirrored by a list of objects, each under a key
of its own; `Layout` says what such a scheme must meet for the store to be
maintained owner by owner: an object shows whom it belongs to, and keys never
coincide, within an owner or across owners.

The two operations are the ones a document store offers: delete what belongs
to an owner, insert or replace a list of objects.  `Mirrors` is their
specification, one lemma for the owner that is written and one for the others;
`get_replaceAll` says what a pass over many owners leaves behind.
-/
import Mathlib

namespace Replica

variable {ω ν κ ρ : Type} [DecidableEq κ]

/-- Objects under keys. -/
abbrev Store (κ ρ : Type) := κ → Option ρ

/-- Delete every object that `p` selects. -/
def deleteMany (p : ρ → Bool) (s : Store κ ρ) : Store κ ρ :=
  fun k => (s k).filter fun r => !p r

/-- Insert or replace objects, in the order of the list. -/
def insertMany (es : List (κ × ρ)) (s : Store κ ρ) : Store κ ρ :=
  es.foldl (fun s e => Function.update s e.1 (some e.2)) s

omit [DecidableEq κ] in
theorem get_deleteMany {p : ρ → Bool} {s : Store κ ρ} {k : κ} {r : ρ} :
    deleteMany p s k = some r ↔ s k = some r ∧ p r = false := by
  simp [deleteMany, Option.filter_eq_some_iff]

/-- A key that is not written keeps its object. -/
theorem insertMany_of_notMem {es : List (κ × ρ)} {k : κ} (hk : k ∉ es.map Prod.fst)
    (s : Store κ ρ) : insertMany es s k = s k := by
  induction es generalizing s with
  | nil => rfl
  | cons e es ih =>
    rw [List.map_cons, List.mem_cons, not_or] at hk
    show insertMany es (Function.update s e.1 (some e.2)) k = s k
    rw [ih hk.2, Function.update_of_ne hk.1]

theorem insertMany_of_mem {es : List (κ × ρ)} (hnd : (es.map Prod.fst).Nodup) {k : κ} {r : ρ}
    (hmem : (k, r) ∈ es) (s : Store κ ρ) : insertMany es s k = some r := by
  induction es generalizing s with
  | nil => exact absurd hmem List.not_mem_nil
  | cons e es ih =>
    rw [List.map_cons, List.nodup_cons] at hnd
    show insertMany es (Function.update s e.1 (some e.2)) k = some r
    rcases List.mem_cons.mp hmem with rfl | hmem
    · -- no later object has this key
      rw [insertMany_of_notMem hnd.1, Function.update_self]
    · exact ih hnd.2 hmem _

theorem get_insertMany {es : List (κ × ρ)} (hnd : (es.map Prod.fst).Nodup) {s : Store κ ρ}
    {k : κ} {r : ρ} : insertMany es s k = some r ↔
      (k, r) ∈ es ∨ s k = some r ∧ k ∉ es.map Prod.fst := by
  by_cases hk : k ∈ es.map Prod.fst
  · obtain ⟨⟨k', r'⟩, hmem, rfl⟩ := List.mem_map.mp hk
    rw [insertMany_of_mem hnd hmem]
    constructor
    · rintro ⟨⟩
      exact .inl hmem
    · rintro (h | ⟨-, h⟩)
      · rw [← insertMany_of_mem hnd hmem s, insertMany_of_mem hnd h]
      · exact absurd hk h
  · rw [insertMany_of_notMem hk]
    constructor
    · exact fun h => .inr ⟨h, hk⟩
    · rintro (h | ⟨h, -⟩)
      · exact absurd (List.mem_map_of_mem h) hk
      · exact h

/-- An empty store then holds as many objects as were inserted. -/
theorem ncard_insertMany {es : List (κ × ρ)} (hnd : (es.map Prod.fst).Nodup) :
    {k | (insertMany es (fun _ => none) k).isSome}.ncard = es.length := by
  have hkeys : {k | (insertMany es (fun _ => none) k).isSome}
      = ((es.map Prod.fst).toFinset : Set κ) := by
    ext k
    rw [Set.mem_ofPred_eq, Option.isSome_iff_exists, Finset.mem_coe, List.mem_toFinset]
    constructor
    · rintro ⟨r, hr⟩
      rcases (get_insertMany hnd).mp hr with hmem | ⟨hnone, -⟩
      · exact List.mem_map_of_mem hmem
      · cases hnone
    · intro hk
      obtain ⟨⟨k', r⟩, hmem, rfl⟩ := List.mem_map.mp hk
      exact ⟨r, insertMany_of_mem hnd hmem _⟩
  rw [hkeys, Set.ncard_coe_finset, List.toFinset_card_of_nodup hnd, List.length_map]

/-- The last object under a key stays. -/
theorem insertMany_eq (es : List (κ × ρ)) (s : Store κ ρ) (k : κ) :
    insertMany es s k = ((es.reverse.find? fun e => e.1 = k).map Prod.snd).or (s k) := by
  induction es generalizing s with
  | nil => rfl
  | cons e es ih =>
    show insertMany es (Function.update s e.1 (some e.2)) k = _
    rw [ih, List.reverse_cons, List.find?_append]
    cases hfind : List.find? (fun e => decide (e.1 = k)) es.reverse with
    | none =>
      rcases eq_or_ne e.1 k with rfl | hne
      · simp
      · simp [hne, Function.update_of_ne hne.symm]
    | some e' => rfl

theorem insertMany_append (es es' : List (κ × ρ)) (s : Store κ ρ) :
    insertMany (es ++ es') s = insertMany es' (insertMany es s) :=
  List.foldl_append

/-! ### One owner at a time -/

/-- How rows of type `ν` are mirrored. -/
structure Layout (ω ν κ ρ : Type) where
  belongs : ω → ρ → Bool
  objects : ω → ν → List (κ × ρ)
  own : ∀ {w w' : ω} {v : ν} {e : κ × ρ}, e ∈ objects w v → (belongs w' e.2 = true ↔ w' = w)
  nodup : ∀ (w : ω) (v : ν), ((objects w v).map Prod.fst).Nodup
  apart : ∀ {w w' : ω} {v v' : ν} {e e' : κ × ρ}, e ∈ objects w v → e' ∈ objects w' v' →
    e.1 = e'.1 → w = w'

namespace Layout

variable (L : Layout ω ν κ ρ)

/-- Delete the objects of an owner. -/
def clear (w : ω) (s : Store κ ρ) : Store κ ρ := deleteMany (L.belongs w) s

/-- Write the objects of a row. -/
def fill (w : ω) (v : ν) (s : Store κ ρ) : Store κ ρ := insertMany (L.objects w v) s

/-- The objects of the owner are exactly those of the row, or none. -/
def Mirrors (s : Store κ ρ) (w : ω) (row : Option ν) : Prop :=
  ∀ k r, s k = some r ∧ L.belongs w r = true ↔ ∃ v ∈ row, (k, r) ∈ L.objects w v

variable {L} {s : Store κ ρ} {w w' : ω} {v : ν} {row : Option ν}

omit [DecidableEq κ] in
theorem mirrors_clear : L.Mirrors (L.clear w s) w none := by
  intro k r
  simp only [clear, get_deleteMany, Option.mem_def, reduceCtorEq, false_and, exists_false,
    iff_false]
  rintro ⟨⟨-, hno⟩, hyes⟩
  rw [hno] at hyes
  cases hyes

omit [DecidableEq κ] in
theorem Mirrors.clear (h : L.Mirrors s w row) (hw : w' ≠ w) :
    L.Mirrors (L.clear w' s) w row := by
  intro k r
  rw [← h k r, Layout.clear, get_deleteMany]
  constructor
  · rintro ⟨⟨hs, -⟩, hb⟩
    exact ⟨hs, hb⟩
  · rintro ⟨hs, hb⟩
    refine ⟨⟨hs, ?_⟩, hb⟩
    -- what belongs to `w` is one of its objects, which belong to nobody else
    obtain ⟨v, -, hmem⟩ := (h k r).mp ⟨hs, hb⟩
    rw [Bool.eq_false_iff]
    exact fun hb' => hw ((L.own hmem).mp hb')

theorem Mirrors.fill_self (h : L.Mirrors s w none) : L.Mirrors (L.fill w v s) w (some v) := by
  intro k r
  simp only [fill, get_insertMany (L.nodup w v), Option.mem_def, Option.some.injEq,
    exists_eq_left']
  constructor
  · rintro ⟨hmem | ⟨hs, -⟩, hb⟩
    · exact hmem
    · obtain ⟨v', hv', -⟩ := (h k r).mp ⟨hs, hb⟩
      cases hv'
  · exact fun hmem => ⟨.inl hmem, (L.own hmem).mpr rfl⟩

theorem Mirrors.fill (h : L.Mirrors s w row) (hw : w' ≠ w) :
    L.Mirrors (L.fill w' v s) w row := by
  intro k r
  rw [← h k r, Layout.fill, get_insertMany (L.nodup w' v)]
  constructor
  · rintro ⟨hmem | ⟨hs, -⟩, hb⟩
    · exact absurd ((L.own hmem).mp hb) hw.symm
    · exact ⟨hs, hb⟩
  · rintro ⟨hs, hb⟩
    refine ⟨.inr ⟨hs, fun hk => ?_⟩, hb⟩
    obtain ⟨v', -, hmem⟩ := (h k r).mp ⟨hs, hb⟩
    obtain ⟨e, he, hek⟩ := List.mem_map.mp hk
    exact hw (L.apart he hmem hek)

/-! ### A pass over many owners -/

variable (L) in
/-- Replace the objects of one owner after the other. -/
def replaceAll (es : List (ω × ν)) (s : Store κ ρ) : Store κ ρ :=
  es.foldl (fun s e => L.fill e.1 e.2 (L.clear e.1 s)) s

variable (L) in
/-- The object lies under a key that one of the rows writes, or belongs to the
owner of one. -/
def Reached (es : List (ω × ν)) (k : κ) (r : ρ) : Prop :=
  ∃ e ∈ es, L.belongs e.1 r = true ∨ k ∈ (L.objects e.1 e.2).map Prod.fst

/-- A pass leaves the objects of the rows, and what it does not reach. -/
theorem get_replaceAll {es : List (ω × ν)} (hnd : (es.map Prod.fst).Nodup) {s : Store κ ρ}
    {k : κ} {r : ρ} : L.replaceAll es s k = some r ↔
      (∃ e ∈ es, (k, r) ∈ L.objects e.1 e.2) ∨ s k = some r ∧ ¬ L.Reached es k r := by
  induction es generalizing s with
  | nil => simp [replaceAll, Reached]
  | cons e es ih =>
    rw [List.map_cons, List.nodup_cons] at hnd
    show L.replaceAll es (L.fill e.1 e.2 (L.clear e.1 s)) k = some r ↔ _
    rw [ih hnd.2, fill, get_insertMany (L.nodup e.1 e.2), clear, get_deleteMany]
    -- what the first row writes is not reached by the others
    have unreached : (k, r) ∈ L.objects e.1 e.2 → ¬ L.Reached es k r := by
      rintro hmem ⟨e', he', hb | hk⟩
      · exact hnd.1 (List.mem_map.mpr ⟨e', he', (L.own hmem).mp hb⟩)
      · obtain ⟨x, hx, hxk⟩ := List.mem_map.mp hk
        exact hnd.1 (List.mem_map.mpr ⟨e', he', L.apart hx hmem hxk⟩)
    have hreached : L.Reached (e :: es) k r ↔
        (L.belongs e.1 r = true ∨ k ∈ (L.objects e.1 e.2).map Prod.fst) ∨ L.Reached es k r := by
      simp [Reached]
    rw [hreached]
    simp only [List.mem_cons, exists_eq_or_imp, not_or, Bool.not_eq_true]
    constructor
    · rintro (hmem | ⟨hmem | ⟨⟨hs, hb⟩, hk⟩, hno⟩)
      · exact .inl (.inr hmem)
      · exact .inl (.inl hmem)
      · exact .inr ⟨hs, ⟨hb, hk⟩, hno⟩
    · rintro ((hmem | hmem) | ⟨hs, ⟨hb, hk⟩, hno⟩)
      · exact .inr ⟨.inl hmem, unreached hmem⟩
      · exact .inl hmem
      · exact .inr ⟨.inr ⟨⟨hs, hb⟩, hk⟩, hno⟩

/-- **What a pass repairs**: it leaves exactly the objects of the rows if and
only if it reaches everything that was there. -/
theorem replaceAll_exact_iff {es : List (ω × ν)} (hnd : (es.map Prod.fst).Nodup)
    {s : Store κ ρ} :
    (∀ k r, L.replaceAll es s k = some r ↔ ∃ e ∈ es, (k, r) ∈ L.objects e.1 e.2) ↔
      ∀ k r, s k = some r → L.Reached es k r := by
  constructor
  · intro h k r hs
    by_contra hno
    obtain ⟨e, he, hmem⟩ := (h k r).mp ((get_replaceAll hnd).mpr (.inr ⟨hs, hno⟩))
    exact hno ⟨e, he, .inr (List.mem_map_of_mem hmem)⟩
  · intro h k r
    rw [get_replaceAll hnd]
    constructor
    · rintro (hmem | ⟨hs, hno⟩)
      · exact hmem
      · exact absurd (h k r hs) hno
    · exact .inl

end Layout

end Replica
