/-
GreenGarden/Firsts.lean

The first entry of each key in a list, in the order of the list (`firsts`), and
the loop that finds it by the keys it has seen (`keepUnseen`).

`take_firsts_take` is about cutting the list off early: where no key occurs more
than `m` times, the first `m * n` entries already hold the first `n` keys.
-/
import Mathlib

namespace GreenGarden.Firsts

variable {α κ : Type*} [DecidableEq κ]

/-- The first entry of each key. -/
def firsts (key : α → κ) : List α → List α
  | [] => []
  | x :: xs => x :: (firsts key xs).filter fun y => key y ≠ key x

/-- One pass over the list, with the keys seen so far. -/
def keepUnseen (key : α → κ) (seen : Finset κ) : List α → List α
  | [] => []
  | x :: xs =>
      if key x ∈ seen then keepUnseen key seen xs
      else x :: keepUnseen key (insert (key x) seen) xs

variable {key : α → κ}

theorem keepUnseen_eq (seen : Finset κ) (l : List α) :
    keepUnseen key seen l = (firsts key l).filter fun x => key x ∉ seen := by
  induction l generalizing seen with
  | nil => rfl
  | cons x l ih =>
    rw [keepUnseen, firsts, ih, ih, List.filter_cons]
    by_cases hx : key x ∈ seen
    · rw [if_pos hx, if_neg (by simpa using hx), List.filter_filter]
      refine List.filter_congr fun y _ => ?_
      -- what has not been seen has not the key of `x`
      rw [← Bool.decide_and, decide_eq_decide]
      exact ⟨fun hy => ⟨hy, fun heq => hy (heq ▸ hx)⟩, And.left⟩
    · rw [if_neg hx, if_pos (by simpa using hx), List.filter_filter]
      refine congrArg (x :: ·) (List.filter_congr fun y _ => ?_)
      rw [← Bool.decide_and, decide_eq_decide, Finset.mem_insert, not_or, and_comm]

theorem keepUnseen_empty (l : List α) : keepUnseen key ∅ l = firsts key l := by
  rw [keepUnseen_eq, List.filter_eq_self]
  intro x _
  exact decide_eq_true (Finset.notMem_empty _)

theorem firsts_sublist (l : List α) : (firsts key l).Sublist l := by
  induction l with
  | nil => exact List.Sublist.slnil
  | cons x l ih => exact (List.filter_sublist.trans ih).cons_cons x

/-- Keys may be read off what the entries are turned into. -/
theorem firsts_map {β : Type*} {f : α → β} {key' : β → κ} {l : List α}
    (h : ∀ x ∈ l, key' (f x) = key x) : firsts key' (l.map f) = (firsts key l).map f := by
  induction l with
  | nil => rfl
  | cons x l ih =>
    rw [List.map_cons, firsts, ih fun y hy => h y (List.mem_cons_of_mem _ hy), List.filter_map,
      firsts, List.map_cons]
    refine congrArg (f x :: List.map f ·) (List.filter_congr fun y hy => ?_)
    rw [Function.comp_apply, h x List.mem_cons_self,
      h y (List.mem_cons_of_mem _ ((firsts_sublist l).subset hy))]

/-- Each key is kept once. -/
theorem nodup_firsts (l : List α) : ((firsts key l).map key).Nodup := by
  induction l with
  | nil => exact List.nodup_nil
  | cons x l ih =>
    rw [firsts, List.map_cons, List.nodup_cons]
    constructor
    · intro h
      obtain ⟨y, hy, heq⟩ := List.mem_map.mp h
      exact of_decide_eq_true (List.mem_filter.mp hy).2 heq
    · exact ih.sublist (List.filter_sublist.map key)

/-- What is kept of a key is what a search for the key finds first. -/
theorem mem_firsts_iff {l : List α} {x : α} :
    x ∈ firsts key l ↔ l.find? (fun y => key y = key x) = some x := by
  induction l with
  | nil => simp [firsts]
  | cons y l ih =>
    rw [firsts, List.mem_cons, List.find?_cons, List.mem_filter, ih]
    by_cases hxy : key y = key x
    · simp only [hxy, decide_true, Option.some.injEq, ne_eq, not_true, decide_false,
        Bool.false_eq_true, and_false, or_false]
      exact eq_comm
    · have hne : x ≠ y := fun h => hxy (congrArg key h.symm)
      simp only [hxy, decide_false, ne_eq, hne, false_or, decide_eq_true_eq,
        Ne.symm hxy, not_false_eq_true, and_true]

/-- No key is lost. -/
theorem mem_keys_firsts {l : List α} {k : κ} : k ∈ (firsts key l).map key ↔ k ∈ l.map key := by
  constructor
  · exact fun h => ((firsts_sublist l).map key).subset h
  · intro h
    obtain ⟨y, hy, rfl⟩ := List.mem_map.mp h
    obtain ⟨x, hx⟩ : ∃ x, l.find? (fun z => key z = key y) = some x :=
      Option.isSome_iff_exists.mp (List.find?_isSome.mpr ⟨y, hy, decide_eq_true rfl⟩)
    have hkey : key x = key y := by simpa using List.find?_some hx
    rw [← hkey] at hx ⊢
    exact List.mem_map_of_mem (mem_firsts_iff.mpr hx)

theorem firsts_append (l r : List α) :
    firsts key (l ++ r) = firsts key l ++ (firsts key r).filter fun y => key y ∉ l.map key := by
  induction l with
  | nil => simp [firsts]
  | cons x l ih =>
    rw [List.cons_append, firsts, ih, firsts, List.cons_append, List.filter_append,
      List.filter_filter]
    refine congrArg (fun t => x :: (_ ++ t)) (List.filter_congr fun y _ => ?_)
    rw [← Bool.decide_and, decide_eq_decide, List.map_cons, List.mem_cons, not_or]

/-! ### Cutting off early -/

/-- Where no key occurs more than `m` times there are enough keys. -/
theorem length_le_mul_firsts {l : List α} {m : ℕ}
    (h : ∀ k, l.countP (fun x => key x = k) ≤ m) : l.length ≤ m * (firsts key l).length := by
  have hperm : ((firsts key l).map key).Perm (l.map key).dedup :=
    (List.perm_ext_iff_of_nodup (nodup_firsts l) (List.nodup_dedup _)).mpr fun k => by
      rw [mem_keys_firsts, List.mem_dedup]
  have hsum := List.sum_map_count_dedup_eq_length (l.map key)
  have hbound : ((l.map key).dedup.map fun k => (l.map key).count k).sum
      ≤ (l.map key).dedup.length * m := by
    refine (List.sum_le_card_nsmul _ m ?_).trans_eq ?_
    · intro n hn
      obtain ⟨k, -, rfl⟩ := List.mem_map.mp hn
      rw [List.count, List.countP_map]
      refine le_of_eq_of_le (List.countP_congr fun x _ => ?_) (h k)
      rw [Function.comp_apply, beq_iff_eq, decide_eq_true_eq]
    · rw [List.length_map, smul_eq_mul]
  rw [hsum, List.length_map, ← hperm.length_eq, List.length_map] at hbound
  rwa [mul_comm]

/-- **Cutting off early**: where no key occurs more than `m` times, the first `m * n` entries
already hold the first `n` keys. -/
theorem take_firsts_take {l : List α} {m : ℕ} (h : ∀ k, l.countP (fun x => key x = k) ≤ m)
    (n : ℕ) : (firsts key (l.take (m * n))).take n = (firsts key l).take n := by
  rcases le_or_gt l.length (m * n) with hall | hmore
  · rw [List.take_of_length_le hall]
  · have hcount : ∀ k, (l.take (m * n)).countP (fun x => key x = k) ≤ m := fun k =>
      (List.take_sublist _ _).countP_le.trans (h k)
    have hlength := length_le_mul_firsts hcount
    rw [List.length_take, min_eq_left hmore.le] at hlength
    have hm : 0 < m := by
      obtain ⟨x, hx⟩ := List.exists_mem_of_length_pos (Nat.zero_lt_of_lt hmore)
      exact (List.countP_pos_iff.mpr ⟨x, hx, decide_eq_true rfl⟩).trans_le (h (key x))
    have hn : n ≤ (firsts key (l.take (m * n))).length := Nat.le_of_mul_le_mul_left hlength hm
    conv_rhs =>
      rw [← List.take_append_drop (m * n) l, firsts_append, List.take_append_of_le_length hn]

end GreenGarden.Firsts
