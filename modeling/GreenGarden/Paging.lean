/-
GreenGarden/Paging.lean

Reading the rows of a query page by page.  Each page is a query of its own, and
a query that sorts by some keys may return rows that agree on all of them in
any order, a different one each time.  `Returns` is what such a query may give,
`Exact` that the pages hold every row once whatever orders they were cut from.

That is so exactly when no page ends between two rows that tie
(`exact_iff_apart`): a row is then on the page that its place among the rows
ahead of it says.  Where the keys tell all rows apart it is always so.
-/
import Mathlib

namespace GreenGarden

namespace Paging

variable {α : Type}

/-- A page of the rows, cut from one of the orders that `before` allows. -/
def Returns (before : α → α → Prop) (rows : List α) (offset limit : ℕ) (page : List α) : Prop :=
  ∃ sorted : List α, sorted.Perm rows ∧ sorted.Pairwise before ∧
    page = (sorted.drop offset).take limit

/-- The number of pages. -/
def pageCount (total size : ℕ) : ℕ := total ⌈/⌉ size

/-- The pages hold every row once, in whatever orders the queries return their ties. -/
def Exact (before : α → α → Prop) (rows : List α) (size : ℕ) : Prop :=
  ∀ pages : ℕ → List α,
    (∀ k < pageCount rows.length size, Returns before rows (k * size) size (pages k)) →
    ((List.range (pageCount rows.length size)).flatMap pages).Perm rows

theorem lt_pageCount_iff {total size k : ℕ} (hsize : 0 < size) :
    k < pageCount total size ↔ k * size < total := by
  rw [pageCount, ← not_le, ceilDiv_le_iff_le_mul hsize, not_le, Nat.mul_comm]

/-- Sorted by one key, then by another. -/
def thenBy (first second : α → α → Prop) (a b : α) : Prop :=
  first a b ∧ (first b a → second a b)

instance {first second : α → α → Prop} [Std.Total first] [Std.Total second] :
    Std.Total (thenBy first second) where
  total a b := by
    by_cases hab : first a b
    · by_cases hba : first b a
      · exact (total_of second a b).imp (fun h => ⟨hab, fun _ => h⟩) (fun h => ⟨hba, fun _ => h⟩)
      · exact Or.inl ⟨hab, fun h => absurd h hba⟩
    · exact Or.inr ⟨(total_of first a b).resolve_left hab, fun h => absurd h hab⟩

instance {first second : α → α → Prop} [IsTrans α first] [IsTrans α second] :
    IsTrans α (thenBy first second) where
  trans a b c hab hbc := by
    refine ⟨trans_of first hab.1 hbc.1, fun hca => ?_⟩
    exact trans_of second (hab.2 (trans_of first hbc.1 hca)) (hbc.2 (trans_of first hca hab.1))

open Classical in
/-- The rows that come before a row whatever the order. -/
noncomputable def ahead (before : α → α → Prop) (rows : List α) (a : α) : ℕ :=
  rows.countP fun b => ¬ before a b

open Classical in
/-- The rows that may come before a row, the row itself among them. -/
noncomputable def upTo (before : α → α → Prop) (rows : List α) (a : α) : ℕ :=
  rows.countP fun b => before b a

theorem ahead_eq {before : α → α → Prop} {rows : List α} {a : α} (p : α → Bool)
    (hp : ∀ b, p b ↔ ¬ before a b) : ahead before rows a = rows.countP p := by
  classical
  rw [ahead]
  exact List.countP_congr fun b _ => by rw [hp, decide_eq_true_eq]

theorem upTo_eq {before : α → α → Prop} {rows : List α} {a : α} (p : α → Bool)
    (hp : ∀ b, p b ↔ before b a) : upTo before rows a = rows.countP p := by
  classical
  rw [upTo]
  exact List.countP_congr fun b _ => by rw [hp, decide_eq_true_eq]

/-- No page ends between two rows that tie. -/
def Apart (before : α → α → Prop) (rows : List α) (size : ℕ) : Prop :=
  ∀ a ∈ rows, ∀ k, ¬ (ahead before rows a < k * size ∧ k * size < upTo before rows a)

section Places

variable {before : α → α → Prop} {rows sorted : List α}

/-! ### Places in a sorted list -/

theorem before_getElem [Std.Total before] (hs : sorted.Pairwise before) {i j : ℕ}
    (hi : i < sorted.length) (hj : j < sorted.length) (hij : i ≤ j) :
    before sorted[i] sorted[j] := by
  rcases hij.eq_or_lt with rfl | hlt
  · exact (total_of before _ _).elim id id
  · exact List.pairwise_iff_getElem.mp hs i j hi hj hlt

theorem countP_split (l : List α) (i : ℕ) (p : α → Bool) :
    l.countP p = (l.take i).countP p + (l.drop i).countP p := by
  rw [← List.countP_append, List.take_append_drop]

theorem countP_take {p : α → Prop} [DecidablePred p] {l : List α} {n : ℕ} (hn : n ≤ l.length)
    (h : ∀ j, (hj : j < n) → p (l[j])) : (l.take n).countP (fun a => p a) = n := by
  have hall : (l.take n).countP (fun a => p a) = (l.take n).length := by
    rw [List.countP_eq_length]
    intro b hb
    obtain ⟨j, hj, rfl⟩ := List.mem_iff_getElem.mp hb
    rw [List.length_take] at hj
    rw [List.getElem_take, decide_eq_true_eq]
    exact h j (by omega)
  rw [hall, List.length_take, min_eq_left hn]

theorem countP_drop {p : α → Prop} [DecidablePred p] {l : List α} {n : ℕ}
    (h : ∀ j, (hj : j < l.length) → n ≤ j → ¬ p l[j]) : (l.drop n).countP (fun a => p a) = 0 := by
  rw [List.countP_eq_zero]
  intro b hb
  obtain ⟨j, hj, rfl⟩ := List.mem_iff_getElem.mp hb
  rw [List.length_drop] at hj
  rw [List.getElem_drop, decide_eq_true_eq]
  exact h (n + j) (by omega) (by omega)

/-- The rows ahead of a row come before its place. -/
theorem ahead_le [Std.Total before] (hs : sorted.Pairwise before) (hperm : sorted.Perm rows) {i : ℕ}
    (hi : i < sorted.length) : ahead before rows sorted[i] ≤ i := by
  classical
  have hlater : (sorted.drop i).countP (fun b => ¬ before sorted[i] b) = 0 :=
    countP_drop fun j hj hij hnot => hnot (before_getElem hs hi hj hij)
  rw [ahead, ← hperm.countP_eq, countP_split sorted i, hlater, add_zero]
  exact List.countP_le_length.trans (List.length_take_le i sorted)

/-- The place of a row is among the rows that may come before it. -/
theorem lt_upTo [Std.Total before] (hs : sorted.Pairwise before) (hperm : sorted.Perm rows) {i : ℕ}
    (hi : i < sorted.length) : i < upTo before rows sorted[i] := by
  classical
  have hearlier : (sorted.take (i + 1)).countP (fun b => before b sorted[i]) = i + 1 :=
    countP_take hi fun j hj => before_getElem hs (by omega) hi (by omega)
  rw [upTo, ← hperm.countP_eq, countP_split sorted (i + 1), hearlier]
  omega

theorem upTo_le_length (a : α) : upTo before rows a ≤ rows.length := by
  rw [upTo]
  exact List.countP_le_length

theorem ahead_lt_length [Std.Total before] {a : α} (ha : a ∈ rows) :
    ahead before rows a < rows.length := by
  classical
  rw [ahead, List.countP_eq_length_filter]
  apply List.length_filter_lt_length_iff_exists.mpr
  exact ⟨a, ha, by simp [total_of before a a |>.elim id id]⟩

/-! ### Pages that no tie crosses -/

/-- A row is on the page that the rows ahead of it say. -/
theorem mem_page_iff [Std.Total before] (hs : sorted.Pairwise before) (hperm : sorted.Perm rows)
    {size : ℕ} (hsize : 0 < size) (hapart : Apart before rows size) {k : ℕ} {a : α} :
    a ∈ (sorted.drop (k * size)).take size ↔ a ∈ rows ∧ ahead before rows a / size = k := by
  have hplace : ∀ i (hi : i < sorted.length),
      ahead before rows sorted[i] / size = i / size := by
    intro i hi
    have hahead := ahead_le hs hperm hi
    have hupTo := lt_upTo hs hperm hi
    have hmem : sorted[i] ∈ rows := hperm.subset (List.getElem_mem hi)
    have hpage : i / size * size ≤ ahead before rows sorted[i] := by
      by_contra hlt
      exact hapart _ hmem (i / size) ⟨not_le.mp hlt, (Nat.div_mul_le_self i size).trans_lt hupTo⟩
    exact le_antisymm (Nat.div_le_div_right hahead) ((Nat.le_div_iff_mul_le hsize).mpr hpage)
  constructor
  · intro ha
    obtain ⟨j, hj, rfl⟩ := List.mem_iff_getElem.mp ha
    rw [List.length_take, List.length_drop] at hj
    have hi : k * size + j < sorted.length := by omega
    rw [List.getElem_take, List.getElem_drop]
    refine ⟨hperm.subset (List.getElem_mem hi), ?_⟩
    rw [hplace _ hi, Nat.mul_comm, Nat.mul_add_div hsize, Nat.div_eq_of_lt (by omega), add_zero]
  · rintro ⟨ha, rfl⟩
    obtain ⟨i, hi, rfl⟩ := List.mem_iff_getElem.mp (hperm.mem_iff.mpr ha)
    rw [hplace i hi]
    have hmod := Nat.div_add_mod i size
    have hlt := Nat.mod_lt i hsize
    rw [Nat.mul_comm] at hmod
    refine List.mem_iff_getElem.mpr ⟨i % size, ?_, ?_⟩
    · rw [List.length_take, List.length_drop]
      omega
    · rw [List.getElem_take, List.getElem_drop]
      simp only [hmod]

theorem exact_of_apart [Std.Total before] (hrows : rows.Nodup) {size : ℕ} (hsize : 0 < size)
    (hapart : Apart before rows size) : Exact before rows size := by
  intro pages hpages
  have hmem : ∀ k < pageCount rows.length size, (pages k).Nodup ∧
      ∀ a, a ∈ pages k ↔ a ∈ rows ∧ ahead before rows a / size = k := by
    intro k hk
    obtain ⟨sorted, hperm, hs, hpage⟩ := hpages k hk
    rw [hpage]
    have hsub : ((sorted.drop (k * size)).take size).Sublist sorted :=
      (List.take_sublist _ _).trans (List.drop_sublist _ _)
    exact ⟨(hperm.nodup_iff.mpr hrows).sublist hsub,
      fun a => mem_page_iff hs hperm hsize hapart⟩
  refine (List.perm_ext_iff_of_nodup ?_ hrows).mpr fun a => ?_
  · rw [List.nodup_flatMap]
    refine ⟨fun k hk => (hmem k (List.mem_range.mp hk)).1, ?_⟩
    rw [List.pairwise_iff_getElem]
    intro i j hi hj hij a hai haj
    rw [List.length_range] at hi hj
    rw [List.getElem_range, (hmem _ hi).2] at hai
    rw [List.getElem_range, (hmem _ hj).2] at haj
    omega
  · rw [List.mem_flatMap]
    constructor
    · rintro ⟨k, hk, ha⟩
      exact ((hmem k (List.mem_range.mp hk)).2 a |>.mp ha).1
    · intro ha
      have hlt : ahead before rows a / size < pageCount rows.length size := by
        rw [lt_pageCount_iff hsize]
        exact (Nat.div_mul_le_self _ _).trans_lt (ahead_lt_length ha)
      exact ⟨_, List.mem_range.mpr hlt, ((hmem _ hlt).2 a).mpr ⟨ha, rfl⟩⟩

/-! ### A tie that a page end splits -/

/-- The rows ahead of a row fill the first places. -/
theorem before_of_ahead_le [Std.Total before] [IsTrans α before] (hs : sorted.Pairwise before)
    (hperm : sorted.Perm rows) {a : α} {i : ℕ} (hi : i < sorted.length)
    (hahead : ahead before rows a ≤ i) : before a sorted[i] := by
  classical
  by_contra hnot
  have hfirst : (sorted.take (i + 1)).countP (fun b => ¬ before a b) = i + 1 :=
    countP_take hi fun j hj hab =>
      hnot (trans_of before hab (before_getElem hs (by omega) hi (by omega)))
  rw [ahead, ← hperm.countP_eq, countP_split sorted (i + 1), hfirst] at hahead
  omega

/-- The rows that may come before a row fill the first places. -/
theorem before_of_lt_upTo [Std.Total before] [IsTrans α before] (hs : sorted.Pairwise before)
    (hperm : sorted.Perm rows) {a : α} {i : ℕ} (hi : i < sorted.length)
    (hupTo : i < upTo before rows a) : before sorted[i] a := by
  classical
  by_contra hnot
  have hrest : (sorted.drop i).countP (fun b => before b a) = 0 :=
    countP_drop fun j hj hij hba => hnot (trans_of before (before_getElem hs hi hj hij) hba)
  rw [upTo, ← hperm.countP_eq, countP_split sorted i, hrest, add_zero] at hupTo
  exact absurd (hupTo.trans_le List.countP_le_length)
    (not_lt.mpr (List.length_take_le i sorted))

/-- Neighbours that tie may change places. -/
theorem pairwise_swap [IsTrans α before] {u v : List α} {x y : α}
    (hs : (u ++ x :: y :: v).Pairwise before) (hyx : before y x) :
    (u ++ y :: x :: v).Pairwise before := by
  simp only [List.pairwise_append, List.pairwise_cons, List.mem_cons, forall_eq_or_imp] at hs ⊢
  obtain ⟨hu, ⟨⟨-, hxv⟩, hyv, hv⟩, hcross⟩ := hs
  refine ⟨hu, ⟨⟨hyx, hyv⟩, hxv, hv⟩, fun b hb => ?_⟩
  obtain ⟨hbx, hby, hbv⟩ := hcross b hb
  exact ⟨hby, hbx, hbv⟩

/-- Where a page ends between two rows that tie, a row can be on both pages. -/
theorem not_exact_of_tie [Std.Total before] [IsTrans α before] (hrows : rows.Nodup) {size : ℕ}
    (hsize : 0 < size) {u v : List α} {x y : α} (hs : (u ++ x :: y :: v).Pairwise before)
    (hperm : (u ++ x :: y :: v).Perm rows) (hyx : before y x) {k : ℕ}
    (hk : u.length + 1 = (k + 1) * size) : ¬ Exact before rows size := by
  intro hexact
  have hlength := hperm.length_eq
  rw [List.length_append, List.length_cons, List.length_cons] at hlength
  have hswap : (u ++ y :: x :: v).Perm rows :=
    (List.Perm.append_left u (List.Perm.swap x y v)).trans hperm
  have hfirst : k < pageCount rows.length size := by
    rw [lt_pageCount_iff hsize]
    rw [Nat.add_mul, one_mul] at hk
    omega
  have hsecond : k + 1 < pageCount rows.length size := by
    rw [lt_pageCount_iff hsize, ← hk]
    omega
  -- the pages up to `k` are cut from the one order, the later ones from the other
  have hpages := hexact
    (fun j => if j ≤ k then ((u ++ x :: y :: v).drop (j * size)).take size
      else ((u ++ y :: x :: v).drop (j * size)).take size) (by
        intro j _
        by_cases hj : j ≤ k
        · exact ⟨_, hperm, hs, if_pos hj⟩
        · exact ⟨_, hswap, pairwise_swap hs hyx, if_neg hj⟩)
  have hnodup := hpages.nodup_iff.mpr hrows
  rw [List.nodup_flatMap] at hnodup
  have hdisjoint := List.pairwise_iff_getElem.mp hnodup.2 k (k + 1)
    (by rw [List.length_range]; exact hfirst) (by rw [List.length_range]; exact hsecond)
    (Nat.lt_succ_self k)
  simp only [Function.onFun, List.getElem_range, le_refl, if_true,
    if_neg (Nat.not_succ_le_self k)] at hdisjoint
  have hmul : (k + 1) * size = k * size + size := by rw [Nat.add_mul, one_mul]
  have hlast : x ∈ ((u ++ x :: y :: v).drop (k * size)).take size := by
    refine List.mem_iff_getElem.mpr ⟨size - 1, ?_, ?_⟩
    · simp only [List.length_take, List.length_drop, List.length_append, List.length_cons]
      omega
    · rw [List.getElem_take, List.getElem_drop, List.getElem_append_right (by omega)]
      simp only [show k * size + (size - 1) - u.length = 0 by omega, List.getElem_cons_zero]
  have hnext : x ∈ ((u ++ y :: x :: v).drop ((k + 1) * size)).take size := by
    refine List.mem_iff_getElem.mpr ⟨0, ?_, ?_⟩
    · simp only [List.length_take, List.length_drop, List.length_append, List.length_cons]
      omega
    · rw [List.getElem_take, List.getElem_drop, List.getElem_append_right (by omega)]
      simp only [show (k + 1) * size + 0 - u.length = 1 by omega, List.getElem_cons_succ,
        List.getElem_cons_zero]
  exact hdisjoint hlast hnext

theorem apart_of_exact [Std.Total before] [IsTrans α before] (hrows : rows.Nodup) {size : ℕ}
    (hsize : 0 < size) (hexact : Exact before rows size) : Apart before rows size := by
  classical
  rintro a - k ⟨hahead, hupTo⟩
  obtain _ | k := k
  · rw [zero_mul] at hahead
    exact Nat.not_lt_zero _ hahead
  have hperm := List.perm_insertionSort before rows
  have hs := List.pairwise_insertionSort before rows
  set sorted := rows.insertionSort before
  have hlength := hperm.length_eq
  have hle : upTo before rows a ≤ rows.length := upTo_le_length a
  have hpos : 0 < (k + 1) * size := Nat.mul_pos (Nat.succ_pos k) hsize
  have hp : (k + 1) * size - 1 < sorted.length := by omega
  have hq : (k + 1) * size < sorted.length := by omega
  -- both rows beside the page end tie with `a`
  have hyx : before sorted[(k + 1) * size] sorted[(k + 1) * size - 1] :=
    trans_of before (before_of_lt_upTo hs hperm hq hupTo)
      (before_of_ahead_le hs hperm hp (by omega))
  have hsplit : sorted = sorted.take ((k + 1) * size - 1) ++ sorted[(k + 1) * size - 1] ::
      sorted[(k + 1) * size] :: sorted.drop ((k + 1) * size + 1) := by
    rw [← List.drop_eq_getElem_cons hq]
    have hstep : sorted.drop ((k + 1) * size) = sorted.drop ((k + 1) * size - 1 + 1) := by
      congr 1
      omega
    rw [hstep, ← List.drop_eq_getElem_cons hp, List.take_append_drop]
  refine not_exact_of_tie hrows hsize (hsplit ▸ hs) (hsplit ▸ hperm) hyx (k := k) ?_ hexact
  rw [List.length_take]
  omega

/-- The pages hold every row once exactly when no page ends between two rows that tie. -/
theorem exact_iff_apart [Std.Total before] [IsTrans α before] (hrows : rows.Nodup) {size : ℕ}
    (hsize : 0 < size) : Exact before rows size ↔ Apart before rows size :=
  ⟨apart_of_exact hrows hsize, exact_of_apart hrows hsize⟩

/-! ### Keys that tell all rows apart -/

theorem countP_or_le (l : List α) (p q : α → Bool) :
    l.countP (fun b => p b || q b) ≤ l.countP p + l.countP q := by
  induction l with
  | nil => simp
  | cons b l ih =>
    simp only [List.countP_cons]
    cases hp : p b <;> cases hq : q b <;> simp <;> omega

/-- Where no two rows tie, the rows that may come before a row are those ahead of it and itself. -/
theorem upTo_le_of_antisymm (hrows : rows.Nodup)
    (hanti : ∀ a ∈ rows, ∀ b ∈ rows, before a b → before b a → a = b) {a : α} (ha : a ∈ rows) :
    upTo before rows a ≤ ahead before rows a + 1 := by
  classical
  have hone : rows.countP (fun b => b = a) ≤ 1 := by
    have hcount := List.nodup_iff_count_le_one.mp hrows a
    simpa [List.count, beq_eq_decide] using hcount
  have hle : rows.countP (fun b => before b a) ≤
      rows.countP (fun b => decide (b = a) || decide (¬ before a b)) := by
    apply List.countP_mono_left
    intro b hb hba
    rw [decide_eq_true_eq] at hba
    rw [Bool.or_eq_true, decide_eq_true_eq, decide_eq_true_eq]
    by_cases hab : before a b
    · exact Or.inl (hanti b hb a ha hba hab)
    · exact Or.inr hab
  have hor := countP_or_le rows (fun b => b = a) (fun b => ¬ before a b)
  rw [upTo, ahead]
  omega

theorem exact_of_antisymm [Std.Total before] (hrows : rows.Nodup) {size : ℕ} (hsize : 0 < size)
    (hanti : ∀ a ∈ rows, ∀ b ∈ rows, before a b → before b a → a = b) :
    Exact before rows size := by
  apply exact_of_apart hrows hsize
  intro a ha k
  have hle := upTo_le_of_antisymm hrows hanti ha
  omega

/-! ### The first page alone -/

/-- Some order puts a row behind all that tie with it. -/
theorem exists_last_of_ties [Std.Total before] [IsTrans α before] (hrows : rows.Nodup) {a : α}
    (ha : a ∈ rows) : ∃ sorted : List α, sorted.Perm rows ∧ sorted.Pairwise before ∧
      ∃ i, ∃ hi : i < sorted.length, sorted[i] = a ∧ upTo before rows a ≤ i + 1 := by
  classical
  let last : α → α → Prop := fun x y => x = a → y = a
  have htotal : Std.Total last := ⟨fun x y => by by_cases h : y = a <;> simp [last, h]⟩
  have htrans : IsTrans α last := ⟨fun x y z hxy hyz hx => hyz (hxy hx)⟩
  have hperm := List.perm_insertionSort (thenBy before last) rows
  have hs := List.pairwise_insertionSort (thenBy before last) rows
  set sorted := rows.insertionSort (thenBy before last)
  have hs' : sorted.Pairwise before := hs.imp fun h => h.1
  obtain ⟨i, hi, hai⟩ := List.mem_iff_getElem.mp (hperm.mem_iff.mpr ha)
  refine ⟨sorted, hperm, hs', i, hi, hai, ?_⟩
  -- what comes after `a` is neither `a` nor ties with it
  have hlater : (sorted.drop (i + 1)).countP (fun b => before b a) = 0 := by
    refine countP_drop fun j hj hij hba => ?_
    have hafter := List.pairwise_iff_getElem.mp hs i j hi hj hij
    rw [hai] at hafter
    have hsame := (hperm.nodup_iff.mpr hrows).getElem_inj_iff.mp
      ((hafter.2 hba rfl).trans hai.symm)
    omega
  rw [upTo, ← hperm.countP_eq, countP_split sorted (i + 1), hlater, add_zero]
  exact List.countP_le_length.trans (List.length_take_le _ _)

/-- A row is always on the first page when no more rows than fit may come before it or tie. -/
theorem mem_first_iff [Std.Total before] [IsTrans α before] (hrows : rows.Nodup) {limit : ℕ}
    {a : α} : (∀ page, Returns before rows 0 limit page → a ∈ page) ↔
      a ∈ rows ∧ upTo before rows a ≤ limit := by
  classical
  constructor
  · intro hfirst
    have ha : a ∈ rows := by
      have hperm := List.perm_insertionSort before rows
      have hmem := hfirst _ ⟨_, hperm, List.pairwise_insertionSort before rows, rfl⟩
      exact hperm.subset (List.mem_of_mem_drop (List.mem_of_mem_take hmem))
    obtain ⟨sorted, hperm, hs, i, hi, hai, hle⟩ :=
      (exists_last_of_ties hrows ha : ∃ sorted : List α, _ ∧ sorted.Pairwise before ∧ _)
    have hmem := hfirst _ ⟨sorted, hperm, hs, rfl⟩
    rw [List.drop_zero] at hmem
    obtain ⟨j, hj, hja⟩ := List.mem_iff_getElem.mp hmem
    rw [List.length_take] at hj
    rw [List.getElem_take] at hja
    have hij := (hperm.nodup_iff.mpr hrows).getElem_inj_iff.mp (hai.trans hja.symm)
    exact ⟨ha, by omega⟩
  · rintro ⟨ha, hle⟩ page ⟨sorted, hperm, hs, rfl⟩
    obtain ⟨i, hi, rfl⟩ := List.mem_iff_getElem.mp (hperm.mem_iff.mpr ha)
    have hlt := lt_upTo hs hperm hi
    rw [List.drop_zero]
    exact List.mem_iff_getElem.mpr
      ⟨i, by rw [List.length_take]; omega, by rw [List.getElem_take]⟩

end Places

end Paging

end GreenGarden
