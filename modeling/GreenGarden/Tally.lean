/-
GreenGarden/Tally.lean

Summing amounts per key, the way a `defaultdict(int)` loop does: go through the
pairs, add each amount to its key's entry, and create the entry the first time
the key is seen.  The result lists every key once, in order of first
appearance, with the sum of its amounts (`mem_tally`).
-/
import Mathlib

namespace Tally

variable {κ : Type} [DecidableEq κ]

/-- Add `n` to the entry of `k`. -/
def bump (k : κ) (n : ℤ) : List (κ × ℤ) → List (κ × ℤ)
  | [] => [(k, n)]
  | e :: es => if e.1 = k then (e.1, e.2 + n) :: es else e :: bump k n es

/-- Sum the amounts per key. -/
def tally (xs : List (κ × ℤ)) : List (κ × ℤ) := xs.foldl (fun acc x => bump x.1 x.2 acc) []

/-- The sum of the amounts under `k`. -/
def total (k : κ) (xs : List (κ × ℤ)) : ℤ := (xs.map fun x => if x.1 = k then x.2 else 0).sum

@[simp] theorem total_nil (k : κ) : total k [] = 0 := rfl

@[simp] theorem total_cons (k : κ) (x : κ × ℤ) (xs : List (κ × ℤ)) :
    total k (x :: xs) = (if x.1 = k then x.2 else 0) + total k xs := rfl

theorem total_eq_zero {k : κ} {xs : List (κ × ℤ)} (h : k ∉ xs.map Prod.fst) :
    total k xs = 0 := by
  induction xs with
  | nil => rfl
  | cons x xs ih =>
    simp only [List.map_cons, List.mem_cons, not_or] at h
    rw [total_cons, if_neg (Ne.symm h.1), ih h.2, add_zero]

theorem total_nonneg {k : κ} {xs : List (κ × ℤ)} (h : ∀ x ∈ xs, 0 ≤ x.2) : 0 ≤ total k xs := by
  refine List.sum_nonneg fun n hn => ?_
  obtain ⟨x, hx, rfl⟩ := List.mem_map.mp hn
  split
  · exact h x hx
  · exact le_rfl

/-- One amount is part of its key's sum. -/
theorem le_total {x : κ × ℤ} {xs : List (κ × ℤ)} (h : ∀ y ∈ xs, 0 ≤ y.2) (hx : x ∈ xs) :
    x.2 ≤ total x.1 xs := by
  induction xs with
  | nil => cases hx
  | cons y ys ih =>
    have hys : ∀ y ∈ ys, 0 ≤ y.2 := fun y hy => h y (List.mem_cons_of_mem _ hy)
    have hy := h y List.mem_cons_self
    rw [total_cons]
    rcases List.mem_cons.mp hx with rfl | hmem
    · have := total_nonneg (k := x.1) hys
      rw [if_pos rfl]
      omega
    · have := ih hys hmem
      split <;> omega

theorem keys_bump (k : κ) (n : ℤ) (es : List (κ × ℤ)) :
    (bump k n es).map Prod.fst
      = if k ∈ es.map Prod.fst then es.map Prod.fst else es.map Prod.fst ++ [k] := by
  induction es with
  | nil => simp [bump]
  | cons e es ih =>
    rcases eq_or_ne e.1 k with hk | hk
    · simp [bump, hk]
    · have hk' : k ≠ e.1 := hk.symm
      simp only [bump, if_neg hk, List.map_cons, List.mem_cons, hk', false_or, ih]
      split <;> simp

theorem total_bump (k k' : κ) (n : ℤ) (es : List (κ × ℤ)) :
    total k' (bump k n es) = total k' es + if k = k' then n else 0 := by
  induction es with
  | nil => simp [bump]
  | cons e es ih =>
    rcases eq_or_ne e.1 k with hk | hk
    · subst hk
      simp only [bump, if_true, total_cons]
      split <;> ring
    · simp only [bump, if_neg hk, total_cons, ih]
      ring

/-- What the loop has built after some pairs: their keys once, their sums. -/
theorem tally_loop (xs acc : List (κ × ℤ)) (hacc : (acc.map Prod.fst).Nodup) :
    ((xs.foldl (fun acc x => bump x.1 x.2 acc) acc).map Prod.fst).Nodup ∧
    (∀ k, k ∈ (xs.foldl (fun acc x => bump x.1 x.2 acc) acc).map Prod.fst ↔
      k ∈ acc.map Prod.fst ∨ k ∈ xs.map Prod.fst) ∧
    ∀ k, total k (xs.foldl (fun acc x => bump x.1 x.2 acc) acc) = total k acc + total k xs := by
  induction xs generalizing acc with
  | nil => simp [hacc]
  | cons x xs ih =>
    -- the keys stay distinct: a new one is added only if it is not there
    have hnd : ((bump x.1 x.2 acc).map Prod.fst).Nodup := by
      rw [keys_bump]
      split
      · exact hacc
      · rename_i hk
        exact List.nodup_append_comm.mp (List.nodup_cons.mpr ⟨hk, hacc⟩)
    obtain ⟨h₁, h₂, h₃⟩ := ih (bump x.1 x.2 acc) hnd
    refine ⟨h₁, fun k => ?_, fun k => ?_⟩
    · rw [List.foldl_cons, h₂, keys_bump]
      split
      · rename_i hk
        simp only [List.map_cons, List.mem_cons]
        refine ⟨fun h => h.imp_right .inr, ?_⟩
        rintro (h | rfl | h)
        · exact .inl h
        · exact .inl hk
        · exact .inr h
      · simp [or_assoc]
    · rw [List.foldl_cons, h₃, total_bump, total_cons]
      ring

theorem nodup_keys_tally (xs : List (κ × ℤ)) : ((tally xs).map Prod.fst).Nodup :=
  (tally_loop xs [] (by simp)).1

theorem mem_keys_tally {xs : List (κ × ℤ)} {k : κ} :
    k ∈ (tally xs).map Prod.fst ↔ k ∈ xs.map Prod.fst := by
  have := (tally_loop xs [] (by simp)).2.1 k
  simpa [tally] using this

theorem total_tally (xs : List (κ × ℤ)) (k : κ) : total k (tally xs) = total k xs := by
  have := (tally_loop xs [] (by simp)).2.2 k
  simpa [tally] using this

/-- With every key listed once, an entry is its key's sum. -/
theorem total_of_mem {es : List (κ × ℤ)} (hnd : (es.map Prod.fst).Nodup) {k : κ} {n : ℤ}
    (h : (k, n) ∈ es) : total k es = n := by
  induction es with
  | nil => cases h
  | cons e es ih =>
    obtain ⟨hnot, hnd'⟩ := List.nodup_cons.mp hnd
    rcases List.mem_cons.mp h with rfl | hmem
    · rw [total_cons, if_pos rfl, total_eq_zero hnot, add_zero]
    · have hne : e.1 ≠ k := fun he => hnot (List.mem_map.mpr ⟨_, hmem, he.symm⟩)
      rw [total_cons, if_neg hne, ih hnd' hmem, zero_add]

/-- **The tally is the per-key sum**, each key listed once. -/
theorem mem_tally {xs : List (κ × ℤ)} {k : κ} {n : ℤ} :
    (k, n) ∈ tally xs ↔ k ∈ xs.map Prod.fst ∧ n = total k xs := by
  constructor
  · intro h
    refine ⟨mem_keys_tally.mp (List.mem_map.mpr ⟨_, h, rfl⟩), ?_⟩
    rw [← total_tally, total_of_mem (nodup_keys_tally xs) h]
  · rintro ⟨hk, rfl⟩
    obtain ⟨⟨k', n⟩, hmem, rfl⟩ := List.mem_map.mp (mem_keys_tally.mpr hk)
    have hn : total k' xs = n := by rw [← total_tally, total_of_mem (nodup_keys_tally xs) hmem]
    show (k', total k' xs) ∈ tally xs
    rwa [hn]

end Tally
