/-
GreenGarden/Scan.lean

Fixed-width patterns and the leftmost non-overlapping scan, over any alphabet.

A pattern is a list of tests, one for each position.  `findall` goes through a
text from the left; at a match it emits the matched piece and continues behind
it, otherwise it moves on by one.  This is what `re.findall` computes for a
pattern without repetition operators.

`findall_append` is the rule for text in front of a match: as long as no match
begins inside it, it contributes nothing.
-/
import Mathlib

namespace Scan

variable {α : Type}

/-- The text begins with a match of the pattern. -/
def matchesAt : List (α → Bool) → List α → Bool
  | [], _ => true
  | _ :: _, [] => false
  | p :: ps, c :: cs => p c && matchesAt ps cs

/-- The matches in the text behind its first `skip` letters. -/
def findallFrom (ps : List (α → Bool)) : ℕ → List α → List (List α)
  | _, [] => []
  | skip + 1, _ :: cs => findallFrom ps skip cs
  | 0, c :: cs =>
      if matchesAt ps (c :: cs) then
        (c :: cs).take ps.length :: findallFrom ps (ps.length - 1) cs
      else findallFrom ps 0 cs

/-- All leftmost non-overlapping matches. -/
def findall (ps : List (α → Bool)) (s : List α) : List (List α) := findallFrom ps 0 s

/-- No match begins anywhere in the text. -/
def NoMatch (ps : List (α → Bool)) (s : List α) : Prop :=
  ∀ t, t <:+ s → matchesAt ps t = false

variable {ps : List (α → Bool)}

theorem length_le_of_matchesAt {s : List α} (h : matchesAt ps s = true) :
    ps.length ≤ s.length := by
  induction ps generalizing s with
  | nil => simp
  | cons p ps ih =>
    cases s with
    | nil => simp [matchesAt] at h
    | cons c cs =>
      simp only [matchesAt, Bool.and_eq_true] at h
      simpa using ih h.2

/-- A match is decided by as many letters as the pattern is wide. -/
theorem matchesAt_append {s t : List α} (h : ps.length ≤ s.length) :
    matchesAt ps (s ++ t) = matchesAt ps s := by
  induction ps generalizing s with
  | nil => rfl
  | cons p ps ih =>
    cases s with
    | nil => simp at h
    | cons c cs =>
      simp only [List.cons_append, matchesAt]
      rw [ih (by simpa using h)]

/-- A match tests the letter at each position. -/
theorem matchesAt_getElem {s : List α} (h : matchesAt ps s = true) {i : ℕ}
    (hp : i < ps.length) (hs : i < s.length) : ps[i] s[i] = true := by
  induction ps generalizing s i with
  | nil => simp at hp
  | cons p ps ih =>
    cases s with
    | nil => simp at hs
    | cons c cs =>
      simp only [matchesAt, Bool.and_eq_true] at h
      cases i with
      | zero => exact h.1
      | succ i => exact ih h.2 (by simpa using hp) (by simpa using hs)

theorem findallFrom_drop (n : ℕ) (s : List α) :
    findallFrom ps n s = findall ps (s.drop n) := by
  induction n generalizing s with
  | zero => rfl
  | succ n ih =>
    cases s with
    | nil => rfl
    | cons c cs => exact ih cs

/-- At a match the scan emits it and goes on behind it. -/
theorem findall_match (hne : ps ≠ []) {s : List α} (h : matchesAt ps s = true) :
    findall ps s = s.take ps.length :: findall ps (s.drop ps.length) := by
  have hlen := length_le_of_matchesAt h
  obtain ⟨p, ps, rfl⟩ := List.exists_cons_of_ne_nil hne
  cases s with
  | nil => simp at hlen
  | cons c cs =>
    -- skipping the rest of the match is dropping it
    rw [findall, findallFrom, if_pos h, findallFrom_drop]
    rfl

theorem findall_nil : findall ps ([] : List α) = [] := rfl

theorem findall_cons_of_not {c : α} {cs : List α} (h : matchesAt ps (c :: cs) = false) :
    findall ps (c :: cs) = findall ps cs := by
  rw [findall, findallFrom, if_neg (by simp [h])]
  rfl

/-- Text in which no match begins is passed over. -/
theorem findall_append {s t : List α}
    (h : ∀ u, u ≠ [] → u <:+ s → matchesAt ps (u ++ t) = false) :
    findall ps (s ++ t) = findall ps t := by
  induction s with
  | nil => rfl
  | cons c cs ih =>
    have hc : matchesAt ps (c :: (cs ++ t)) = false := h (c :: cs) (by simp) (List.suffix_refl _)
    rw [List.cons_append, findall_cons_of_not hc]
    exact ih fun u hu hsuf => h u hu (hsuf.trans (List.suffix_cons c cs))

theorem findall_of_noMatch {s : List α} (h : NoMatch ps s) : findall ps s = [] := by
  have hall : findall ps (s ++ []) = findall ps [] := findall_append fun u _ hu => by
    rw [List.append_nil]; exact h u hu
  rwa [List.append_nil, findall_nil] at hall

end Scan
