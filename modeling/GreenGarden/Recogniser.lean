/-
GreenGarden/Recogniser.lean

Marks in a text that arrives in pieces.  A `Recogniser` reads a mark symbol by
symbol: every mark begins with one opening symbol, which occurs nowhere else in
it, and nothing may follow the last symbol of a mark.  From that alone: the
first mark of a text is settled once it has been read to its end (`find_append`),
and a concatenation of texts has a mark exactly when one of them has or one
straddles two of them (`hasMark_flatten_iff`).

A filter that lets a text through up to its first mark has to hold back an end
that may still grow into one.  The one treated here (`feed`) recognises the
beginning of a mark only as far as it sees: symbols it does not know end its
attention although the mark goes on.  `Tracks` says where such a filter stands
after every list of pieces; a mark gets past it exactly when a piece ends
inside the first mark behind a symbol the filter does not know (`Cut`).
-/
import Mathlib

namespace GreenGarden

/-- An automaton for marks, started after the opening symbol. -/
structure Recogniser (α σ : Type) where
  opens : α
  start : σ
  step : σ → α → Option σ
  final : σ → Bool
  step_opens : ∀ s, step s opens = none
  step_final : ∀ s a, final s = true → step s a = none

namespace Recogniser

variable {α σ : Type} (R : Recogniser α σ)

/-! ### Reading -/

/-- Read as far as the automaton goes: the state reached and what is left. -/
def scan : σ → List α → σ × List α
  | s, [] => (s, [])
  | s, a :: l =>
    match R.step s a with
    | some s' => scan s' l
    | none => (s, a :: l)

@[simp] theorem scan_nil (s : σ) : R.scan s [] = (s, []) := rfl

theorem scan_cons_some {s s' : σ} {a : α} (h : R.step s a = some s') (l : List α) :
    R.scan s (a :: l) = R.scan s' l := by
  simp [scan, h]

theorem scan_cons_none {s : σ} {a : α} (h : R.step s a = none) (l : List α) :
    R.scan s (a :: l) = (s, a :: l) := by
  simp [scan, h]

variable {R}

theorem scan_dropWhile {s : σ} {p : α → Bool} (h : ∀ a, p a = true → R.step s a = some s)
    (l : List α) : R.scan s (l.dropWhile p) = R.scan s l := by
  induction l with
  | nil => rfl
  | cons a l ih =>
    cases ha : p a with
    | false => rw [List.dropWhile_cons_of_neg (by simp [ha])]
    | true => rw [List.dropWhile_cons_of_pos ha, R.scan_cons_some (h a ha), ih]

theorem scan_append {s s' : σ} {x : List α} (h : R.scan s x = (s', [])) (y : List α) :
    R.scan s (x ++ y) = R.scan s' y := by
  induction x generalizing s with
  | nil =>
    cases h
    rfl
  | cons a x ih =>
    cases hstep : R.step s a with
    | none => simp [R.scan_cons_none hstep] at h
    | some t =>
      rw [R.scan_cons_some hstep] at h
      rw [List.cons_append, R.scan_cons_some hstep]
      exact ih h

theorem scan_append_of_left {s : σ} {x : List α} (h : (R.scan s x).2 ≠ []) (y : List α) :
    R.scan s (x ++ y) = ((R.scan s x).1, (R.scan s x).2 ++ y) := by
  induction x generalizing s with
  | nil => exact absurd rfl h
  | cons a x ih =>
    cases hstep : R.step s a with
    | none => simp [R.scan_cons_none hstep]
    | some t =>
      rw [R.scan_cons_some hstep] at h
      rw [List.cons_append, R.scan_cons_some hstep, R.scan_cons_some hstep]
      exact ih h

/-- What was read is a beginning of the text that is read to its end. -/
theorem scan_split (s : σ) (l : List α) :
    ∃ x, l = x ++ (R.scan s l).2 ∧ R.scan s x = ((R.scan s l).1, []) := by
  induction l generalizing s with
  | nil => exact ⟨[], rfl, rfl⟩
  | cons a l ih =>
    cases hstep : R.step s a with
    | none => exact ⟨[], by simp [R.scan_cons_none hstep], by simp [R.scan_cons_none hstep]⟩
    | some t =>
      obtain ⟨x, hl, hx⟩ := ih t
      rw [R.scan_cons_some hstep]
      exact ⟨a :: x, by simpa using hl, by rw [R.scan_cons_some hstep, hx]⟩

theorem scan_final {s : σ} (h : R.final s = true) (l : List α) : R.scan s l = (s, l) := by
  cases l with
  | nil => rfl
  | cons a l => exact R.scan_cons_none (R.step_final s a h) l

/-- A symbol that leads on from no state there can be ends every reading. -/
theorem not_mem_of_step {I : σ → Prop} {a : α} (hI : ∀ s b s', I s → R.step s b = some s' → I s')
    (ha : ∀ s, I s → R.step s a = none) {s s' : σ} {x : List α} (hs : I s)
    (h : R.scan s x = (s', [])) : a ∉ x := by
  induction x generalizing s with
  | nil => simp
  | cons b x ih =>
    cases hstep : R.step s b with
    | none => simp [R.scan_cons_none hstep] at h
    | some t =>
      rw [R.scan_cons_some hstep] at h
      rw [List.mem_cons, not_or]
      refine ⟨?_, ih (hI s b t hs hstep) h⟩
      rintro rfl
      rw [ha s hs] at hstep
      cases hstep

/-- The opening symbol ends every reading. -/
theorem opens_not_mem {s s' : σ} {x : List α} (h : R.scan s x = (s', [])) : R.opens ∉ x :=
  not_mem_of_step (I := fun _ => True) (fun _ _ _ _ _ => trivial) (fun s _ => R.step_opens s)
    trivial h

theorem scan_left_of_mem {s : σ} {l : List α} (h : R.opens ∈ l) : (R.scan s l).2 ≠ [] := by
  intro hnil
  have hread : R.scan s l = ((R.scan s l).1, []) := by rw [← hnil]
  exact opens_not_mem hread h

/-! ### Marks -/

variable (R)

/-- A mark: the opening symbol and a complete reading. -/
def IsMark (m : List α) : Prop :=
  ∃ t s, m = R.opens :: t ∧ R.scan R.start t = (s, []) ∧ R.final s = true

/-- Somewhere in the text there is a mark. -/
def HasMark (l : List α) : Prop := ∃ u m v, R.IsMark m ∧ l = u ++ m ++ v

/-- A mark begins the text. -/
def begins [DecidableEq α] : List α → Bool
  | [] => false
  | a :: l => a == R.opens && R.final (R.scan R.start l).1

/-- The text before its first mark, and the rest. -/
def find [DecidableEq α] : List α → Option (List α × List α)
  | [] => none
  | a :: l =>
    if R.begins (a :: l) then some ([], a :: l)
    else (find l).map fun found => (a :: found.1, found.2)

/-- The text before its first mark. -/
def before [DecidableEq α] (l : List α) : List α :=
  match R.find l with
  | some found => found.1
  | none => l

variable {R}

theorem HasMark.append_left {l : List α} (h : R.HasMark l) (k : List α) : R.HasMark (k ++ l) := by
  obtain ⟨u, m, v, hm, rfl⟩ := h
  exact ⟨k ++ u, m, v, hm, by simp⟩

theorem HasMark.append_right {l : List α} (h : R.HasMark l) (k : List α) :
    R.HasMark (l ++ k) := by
  obtain ⟨u, m, v, hm, rfl⟩ := h
  exact ⟨u, m, v ++ k, hm, by simp⟩

theorem not_hasMark_of_opens {l : List α} (h : R.opens ∉ l) : ¬ R.HasMark l := by
  rintro ⟨u, m, v, ⟨t, s, rfl, -, -⟩, rfl⟩
  simp at h

/-- Past its opening symbol a mark has no other: a text that goes on with one ended it. -/
theorem prefix_of_opens {y w e b : List α} (hy : R.opens ∉ y) (hb : b = [] ∨ b.head? = some R.opens)
    (h : y ++ w = e ++ b) : y <+: e := by
  rcases List.append_eq_append_iff.mp h with ⟨k, rfl, -⟩ | ⟨k, rfl, rfl⟩
  · exact List.prefix_append y k
  · cases k with
    | nil => simp
    | cons a k =>
      have ha : a = R.opens := by simpa using hb
      exact absurd (by simp [ha]) hy

variable [DecidableEq α]

@[simp] theorem begins_nil : R.begins [] = false := rfl

theorem begins_cons (a : α) (l : List α) :
    R.begins (a :: l) = (a == R.opens && R.final (R.scan R.start l).1) := rfl

theorem begins_of_ne {a : α} (h : a ≠ R.opens) (l : List α) : R.begins (a :: l) = false := by
  simp [begins_cons, h]

theorem head_of_begins {l : List α} (h : R.begins l = true) : l.head? = some R.opens := by
  cases l with
  | nil => cases h
  | cons a l =>
    rw [begins_cons, Bool.and_eq_true] at h
    simpa using h.1

theorem begins_iff {l : List α} : R.begins l = true ↔ ∃ m v, R.IsMark m ∧ l = m ++ v := by
  constructor
  · intro h
    cases l with
    | nil => cases h
    | cons a l =>
      rw [begins_cons, Bool.and_eq_true, beq_iff_eq] at h
      obtain ⟨x, hl, hx⟩ := R.scan_split R.start l
      exact ⟨R.opens :: x, (R.scan R.start l).2, ⟨x, _, rfl, hx, h.2⟩, by rw [h.1, List.cons_append,
        ← hl]⟩
  · rintro ⟨m, v, ⟨t, s, rfl, ht, hs⟩, rfl⟩
    rw [List.cons_append, begins_cons, scan_append ht, scan_final hs]
    simpa using hs

theorem begins_append {l : List α} (h : R.begins l = true) (k : List α) :
    R.begins (l ++ k) = true := by
  obtain ⟨m, v, hm, rfl⟩ := begins_iff.mp h
  exact begins_iff.mpr ⟨m, v ++ k, hm, by simp⟩

/-- Where the reading has stopped, more text changes nothing. -/
theorem begins_append_of_left {l : List α} (h : (R.scan R.start l).2 ≠ []) (a : α) (k : List α) :
    R.begins (a :: l ++ k) = R.begins (a :: l) := by
  rw [List.cons_append, begins_cons, begins_cons, scan_append_of_left h]

/-! ### The first mark -/

theorem find_of_begins {l : List α} (h : R.begins l = true) : R.find l = some ([], l) := by
  cases l with
  | nil => cases h
  | cons a l => simp [find, h]

theorem find_cons_of_not {a : α} {l : List α} (h : R.begins (a :: l) = false) :
    R.find (a :: l) = (R.find l).map fun found => (a :: found.1, found.2) := by
  simp [find, h]

/-- The first mark begins here or later. -/
theorem find_cons_cases {a : α} {l u r : List α} (h : R.find (a :: l) = some (u, r)) :
    (R.begins (a :: l) = true ∧ u = [] ∧ r = a :: l) ∨
    (R.begins (a :: l) = false ∧ ∃ u', R.find l = some (u', r) ∧ u = a :: u') := by
  cases hb : R.begins (a :: l) with
  | true =>
    rw [find_of_begins hb] at h
    cases h
    exact .inl ⟨rfl, rfl, rfl⟩
  | false =>
    rw [find_cons_of_not hb, Option.map_eq_some_iff] at h
    obtain ⟨⟨u', r'⟩, hfind, heq⟩ := h
    cases heq
    exact .inr ⟨rfl, u', hfind, rfl⟩

theorem find_some {l u r : List α} (h : R.find l = some (u, r)) :
    l = u ++ r ∧ R.begins r = true := by
  induction l generalizing u with
  | nil => cases h
  | cons a l ih =>
    rcases find_cons_cases h with ⟨hb, rfl, rfl⟩ | ⟨-, u', hfind, rfl⟩
    · exact ⟨rfl, hb⟩
    · obtain ⟨hl, hr⟩ := ih hfind
      exact ⟨by rw [hl, List.cons_append], hr⟩

theorem find_none_iff {l : List α} : R.find l = none ↔ ¬ R.HasMark l := by
  constructor
  · intro h
    induction l with
    | nil => exact not_hasMark_of_opens (by simp)
    | cons a l ih =>
      cases hb : R.begins (a :: l) with
      | true =>
        rw [find_of_begins hb] at h
        cases h
      | false =>
        rw [find_cons_of_not hb, Option.map_eq_none_iff] at h
        rintro ⟨u, m, v, hm, hl⟩
        cases u with
        | nil =>
          have hbegins : R.begins (a :: l) = true := begins_iff.mpr ⟨m, v, hm, by simpa using hl⟩
          rw [hb] at hbegins
          cases hbegins
        | cons b u =>
          simp only [List.cons_append, List.cons.injEq] at hl
          exact ih h ⟨u, m, v, hm, by simpa using hl.2⟩
  · intro h
    cases hfind : R.find l with
    | none => rfl
    | some found =>
      obtain ⟨hl, hr⟩ := find_some (u := found.1) (r := found.2) hfind
      obtain ⟨m, v, hm, hr⟩ := begins_iff.mp hr
      exact absurd ⟨found.1, m, v, hm, by rw [hl, hr, List.append_assoc]⟩ h

/-- The first mark is final: more text does not bring up an earlier one. -/
theorem find_append {l u r : List α} (h : R.find l = some (u, r)) (k : List α) :
    R.find (l ++ k) = some (u, r ++ k) := by
  induction l generalizing u with
  | nil => cases h
  | cons a l ih =>
    rcases find_cons_cases h with ⟨hb, rfl, rfl⟩ | ⟨hb, u', hfind, rfl⟩
    · exact find_of_begins (begins_append hb k)
    · obtain ⟨hl, hr⟩ := find_some hfind
      -- the mark found later stops a reading that began here
      have hmem : R.opens ∈ l := by
        rw [hl, List.mem_append]
        exact Or.inr (List.mem_of_mem_head? (head_of_begins hr))
      have hb' : R.begins (a :: (l ++ k)) = false := by
        rw [← List.cons_append, begins_append_of_left (scan_left_of_mem hmem), hb]
      rw [List.cons_append, find_cons_of_not hb', ih hfind]
      rfl

/-- Text in which no mark begins is passed over. -/
theorem find_append_left {u r : List α}
    (h : ∀ p q, u = p ++ q → q ≠ [] → R.begins (q ++ r) = false) :
    R.find (u ++ r) = (R.find r).map fun found => (u ++ found.1, found.2) := by
  induction u with
  | nil => simp
  | cons a u ih =>
    have hb : R.begins (a :: (u ++ r)) = false := h [] (a :: u) rfl (by simp)
    rw [List.cons_append, find_cons_of_not hb,
      ih fun p q hu hq => h (a :: p) q (by rw [hu, List.cons_append]) hq, Option.map_map]
    rfl

/-- Only text before the first mark is let through, and it has none. -/
theorem not_hasMark_before (l : List α) : ¬ R.HasMark (R.before l) := by
  unfold before
  cases hfind : R.find l with
  | none => exact find_none_iff.mp hfind
  | some found =>
    intro hmark
    show False
    cases hfound : R.find found.1 with
    | none => exact find_none_iff.mp hfound hmark
    | some first =>
      obtain ⟨hl, -⟩ := find_some (u := found.1) (r := found.2) hfind
      have hfirst := find_append (u := first.1) (r := first.2) hfound found.2
      rw [← hl, hfind, Option.some.injEq] at hfirst
      obtain ⟨hu, hr⟩ := find_some (u := first.1) (r := first.2) hfound
      have hsame : found.1 = first.1 := by rw [hfirst]
      rw [← hsame, List.self_eq_append_right] at hu
      rw [hu] at hr
      cases hr

theorem before_of_not_hasMark {l : List α} (h : ¬ R.HasMark l) : R.before l = l := by
  rw [before, find_none_iff.mpr h]

theorem before_of_find {l u r : List α} (h : R.find l = some (u, r)) : R.before l = u := by
  rw [before, h]

/-! ### Marks of a concatenation -/

variable (R) in
/-- A mark that begins in an earlier text and ends in a later one. -/
def Straddles (texts : List (List α)) : Prop :=
  ∃ pre post u x y v, texts = pre ++ post ∧ pre.flatten = u ++ x ∧ post.flatten = y ++ v ∧
    x ≠ [] ∧ y ≠ [] ∧ R.IsMark (x ++ y)

omit [DecidableEq α] in
theorem hasMark_append {l k : List α} (h : R.HasMark (l ++ k)) :
    R.HasMark l ∨ R.HasMark k ∨
      ∃ u x y v, l = u ++ x ∧ k = y ++ v ∧ x ≠ [] ∧ y ≠ [] ∧ R.IsMark (x ++ y) := by
  obtain ⟨u, m, v, hm, h⟩ := h
  rw [List.append_assoc] at h
  rcases List.append_eq_append_iff.mp h with ⟨w, rfl, rfl⟩ | ⟨x, rfl, hx⟩
  · exact Or.inr (Or.inl ⟨w, m, v, hm, by simp⟩)
  · rcases List.append_eq_append_iff.mp hx with ⟨w, rfl, rfl⟩ | ⟨y, rfl, rfl⟩
    · exact Or.inl ⟨u, m, w, hm, by simp⟩
    · by_cases hx : x = []
      · subst hx
        exact Or.inr (Or.inl ⟨[], y, v, hm, by simp⟩)
      by_cases hy : y = []
      · subst hy
        exact Or.inl ⟨u, x, [], by simpa using hm, by simp⟩
      exact Or.inr (Or.inr ⟨u, x, y, v, rfl, rfl, hx, hy, hm⟩)

omit [DecidableEq α] in
theorem hasMark_flatten_iff {texts : List (List α)} :
    R.HasMark texts.flatten ↔ (∃ text ∈ texts, R.HasMark text) ∨ R.Straddles texts := by
  constructor
  · intro h
    induction texts with
    | nil => exact absurd h (not_hasMark_of_opens (by simp))
    | cons text texts ih =>
      rw [List.flatten_cons] at h
      rcases hasMark_append h with hhead | htail | ⟨u, x, y, v, hl, hk, hx, hy, hm⟩
      · exact Or.inl ⟨text, by simp, hhead⟩
      · rcases ih htail with ⟨other, hmem, hother⟩ | ⟨pre, post, u, x, y, v, rfl, hpre, hrest⟩
        · exact Or.inl ⟨other, by simp [hmem], hother⟩
        · exact Or.inr ⟨text :: pre, post, text ++ u, x, y, v, by simp, by simp [hpre], hrest⟩
      · exact Or.inr ⟨[text], texts, u, x, y, v, by simp, by simpa using hl, hk, hx, hy, hm⟩
  · rintro (⟨text, hmem, u, m, v, hm, rfl⟩ | ⟨pre, post, u, x, y, v, rfl, hpre, hpost, -, -, hm⟩)
    · obtain ⟨pre, post, rfl⟩ := List.append_of_mem hmem
      exact ⟨pre.flatten ++ u, m, v ++ post.flatten, hm, by simp⟩
    · exact ⟨u, x ++ y, v, hm, by simp [hpre, hpost]⟩

/-! ### Holding back -/

variable (R) in
/-- Split at the last opening symbol. -/
def splitLast : List α → Option (List α × List α)
  | [] => none
  | a :: l =>
    match splitLast l with
    | some found => some (a :: found.1, found.2)
    | none => if a = R.opens then some ([], l) else none

theorem splitLast_none {l : List α} (h : R.splitLast l = none) : R.opens ∉ l := by
  induction l with
  | nil => simp
  | cons a l ih =>
    cases hs : R.splitLast l with
    | some found => simp [splitLast, hs] at h
    | none =>
      have ha : a ≠ R.opens := by simpa [splitLast, hs] using h
      simp [ih hs, ha.symm]

theorem splitLast_some {l u t : List α} (h : R.splitLast l = some (u, t)) :
    l = u ++ R.opens :: t ∧ R.opens ∉ t := by
  induction l generalizing u with
  | nil => cases h
  | cons a l ih =>
    cases hs : R.splitLast l with
    | some found =>
      rw [splitLast, hs, Option.some.injEq] at h
      cases h
      obtain ⟨hl, ht⟩ := ih hs
      exact ⟨by rw [List.cons_append, ← hl], ht⟩
    | none =>
      rw [splitLast, hs] at h
      by_cases ha : a = R.opens
      · rw [if_pos ha] at h
        cases h
        exact ⟨by rw [ha, List.nil_append], splitLast_none hs⟩
      · rw [if_neg ha] at h
        cases h

theorem splitLast_of_opens {t : List α} (h : R.opens ∉ t) : R.splitLast t = none := by
  cases hs : R.splitLast t with
  | none => rfl
  | some found =>
    have ht := (splitLast_some (u := found.1) (t := found.2) hs).1
    exact absurd (by simp [ht]) h

theorem splitLast_append {u t : List α} (h : R.opens ∉ t) :
    R.splitLast (u ++ R.opens :: t) = some (u, t) := by
  induction u with
  | nil => simp [splitLast, splitLast_of_opens h]
  | cons a u ih => rw [List.cons_append, splitLast, ih]

variable (R) in
/-- The text that can be let through, and the end that may grow into a mark: what follows the
last opening symbol, as far as the filter sees that it is the beginning of a mark. -/
def hold (sees : α → Bool) (l : List α) : List α × List α :=
  match R.splitLast l with
  | some (u, t) =>
    if (R.scan R.start t).2 = [] ∧ (R.opens :: t).all sees then (u, R.opens :: t) else (l, [])
  | none => (l, [])

theorem hold_of_opens {sees : α → Bool} {l : List α} (h : R.opens ∉ l) :
    R.hold sees l = (l, []) := by
  rw [hold, splitLast_of_opens h]

theorem hold_split (sees : α → Bool) {u t : List α} (h : R.opens ∉ t) :
    R.hold sees (u ++ R.opens :: t) =
      if (R.scan R.start t).2 = [] ∧ (R.opens :: t).all sees then (u, R.opens :: t)
      else (u ++ R.opens :: t, []) := by
  rw [hold, splitLast_append h]

/-- Either nothing is held back, or an end that reads as the beginning of a mark. -/
theorem hold_cases (sees : α → Bool) (l : List α) :
    R.hold sees l = (l, []) ∨
      ∃ u t, l = u ++ R.opens :: t ∧ R.opens ∉ t ∧ (R.scan R.start t).2 = [] ∧
        (R.opens :: t).all sees = true ∧ R.hold sees l = (u, R.opens :: t) := by
  cases hs : R.splitLast l with
  | none => exact Or.inl (hold_of_opens (splitLast_none hs))
  | some found =>
    obtain ⟨u, t⟩ := found
    obtain ⟨rfl, ht⟩ := splitLast_some hs
    rw [hold_split sees ht]
    by_cases hheld : (R.scan R.start t).2 = [] ∧ (R.opens :: t).all sees
    · rw [if_pos hheld]
      exact Or.inr ⟨u, t, rfl, ht, hheld.1, hheld.2, rfl⟩
    · rw [if_neg hheld]
      exact Or.inl rfl

theorem hold_concat (sees : α → Bool) (l : List α) :
    (R.hold sees l).1 ++ (R.hold sees l).2 = l := by
  rcases hold_cases (R := R) sees l with h | ⟨u, t, hl, -, -, -, h⟩
  · simp [h]
  · rw [h, hl]

theorem head_of_hold (sees : α → Bool) (l : List α) :
    (R.hold sees l).2 = [] ∨ (R.hold sees l).2.head? = some R.opens := by
  rcases hold_cases (R := R) sees l with h | ⟨u, t, -, -, -, -, h⟩
  · exact Or.inl (by rw [h])
  · exact Or.inr (by rw [h]; rfl)

/-- What is held back depends only on what was held back before. -/
theorem hold_append (sees : α → Bool) (l c : List α) :
    R.hold sees (l ++ c) =
      ((R.hold sees l).1 ++ (R.hold sees ((R.hold sees l).2 ++ c)).1,
        (R.hold sees ((R.hold sees l).2 ++ c)).2) := by
  have hl := hold_concat (R := R) sees l
  cases hc : R.splitLast c with
  | some found =>
    obtain ⟨u, t⟩ := found
    obtain ⟨rfl, ht⟩ := splitLast_some hc
    rw [← List.append_assoc, ← List.append_assoc, hold_split sees ht, hold_split sees ht]
    by_cases hheld : (R.scan R.start t).2 = [] ∧ (R.opens :: t).all sees
    · rw [if_pos hheld, if_pos hheld, ← List.append_assoc, hl]
    · rw [if_neg hheld, if_neg hheld, ← List.append_assoc, ← List.append_assoc, hl]
  | none =>
    have hc := splitLast_none hc
    cases hs : R.splitLast l with
    | none =>
      have hnone := splitLast_none hs
      rw [hold_of_opens (l := l) hnone, List.nil_append, hold_of_opens hc,
        hold_of_opens (by simp [hnone, hc])]
    | some found =>
      obtain ⟨u, t⟩ := found
      obtain ⟨rfl, ht⟩ := splitLast_some hs
      have htc : R.opens ∉ t ++ c := by simp [ht, hc]
      rw [hold_split sees ht, List.append_assoc, List.cons_append, hold_split sees htc]
      by_cases hheld : (R.scan R.start t).2 = [] ∧ (R.opens :: t).all sees
      · rw [if_pos hheld]
        have hpend := hold_split (R := R) (u := []) sees htc
        rw [List.nil_append] at hpend
        show _ = (u ++ (R.hold sees (R.opens :: (t ++ c))).1, (R.hold sees (R.opens :: (t ++ c))).2)
        rw [hpend]
        split <;> simp
      · rw [if_neg hheld]
        -- a beginning that was given up stays given up
        have hgiven :
            ¬ ((R.scan R.start (t ++ c)).2 = [] ∧ (R.opens :: (t ++ c)).all sees) := by
          rintro ⟨hread, hall⟩
          apply hheld
          constructor
          · by_contra hleft
            rw [scan_append_of_left hleft] at hread
            simp at hread
            exact hleft hread.1
          · rw [← List.cons_append, List.all_append, Bool.and_eq_true] at hall
            exact hall.1
        rw [if_neg hgiven]
        simp [hold_of_opens hc]

theorem begins_of_find_none {l : List α} (h : R.find l = none) (p q : List α) (hl : l = p ++ q) :
    R.begins q = false := by
  by_contra hq
  rw [Bool.not_eq_false] at hq
  obtain ⟨m, v, hm, rfl⟩ := begins_iff.mp hq
  exact find_none_iff.mp h ⟨p, m, v, hm, by rw [hl, List.append_assoc]⟩

/-- More text completes no mark that begins before the last opening symbol. -/
theorem begins_before_last {u t : List α} (h : R.find (u ++ R.opens :: t) = none) (c : List α)
    (p q : List α) (hu : u = p ++ q) (hq : q ≠ []) :
    R.begins (q ++ (R.opens :: t ++ c)) = false := by
  subst hu
  cases q with
  | nil => exact absurd rfl hq
  | cons a q =>
    have hleft : (R.scan R.start (q ++ R.opens :: t)).2 ≠ [] := scan_left_of_mem (by simp)
    have hbegins := begins_append_of_left hleft a c
    rw [List.cons_append, List.append_assoc] at hbegins
    rw [List.cons_append, hbegins]
    exact begins_of_find_none h p _ (by simp)

/-- The first mark of a longer text is the first mark of what was held back with the new piece,
unless the new piece completes a mark whose beginning was let through unseen. -/
theorem find_hold (sees : α → Bool) {l : List α} (h : R.find l = none) (c : List α) :
    R.find (l ++ c) = (R.find ((R.hold sees l).2 ++ c)).map
        (fun found => ((R.hold sees l).1 ++ found.1, found.2)) ∨
      R.hold sees l = (l, []) ∧ ∃ u x, l = u ++ x ∧ R.find (l ++ c) = some (u, x ++ c) ∧
        R.begins x = false ∧ ∃ a ∈ x, sees a = false := by
  cases hs : R.splitLast l with
  | none =>
    have hopens := splitLast_none hs
    left
    rw [hold_of_opens hopens]
    apply find_append_left
    rintro p q rfl hq
    cases q with
    | nil => exact absurd rfl hq
    | cons a q => exact begins_of_ne (fun ha => hopens (by simp [ha])) _
  | some found =>
    obtain ⟨u, t⟩ := found
    obtain ⟨rfl, ht⟩ := splitLast_some hs
    have hu := begins_before_last h c
    rw [hold_split sees ht, List.append_assoc]
    by_cases hheld : (R.scan R.start t).2 = [] ∧ (R.opens :: t).all sees
    · rw [if_pos hheld]
      exact Or.inl (find_append_left hu)
    rw [if_neg hheld]
    have hlast := begins_of_find_none h u (R.opens :: t) rfl
    cases hb : R.begins (R.opens :: t ++ c) with
    | false =>
      left
      rw [List.nil_append, ← List.append_assoc]
      apply find_append_left
      intro p q hpq hq
      rcases List.append_eq_append_iff.mp hpq with ⟨w, rfl, hw⟩ | ⟨w, rfl, rfl⟩
      · cases w with
        | nil =>
          rw [List.nil_append] at hw
          rw [← hw, hb]
        | cons a w =>
          rw [List.cons_append, List.cons.injEq] at hw
          obtain ⟨-, rfl⟩ := hw
          cases q with
          | nil => exact absurd rfl hq
          | cons b q => exact begins_of_ne (fun hb' => ht (by simp [hb'])) _
      · by_cases hw : w = []
        · rw [hw, List.nil_append, hb]
        · rw [List.append_assoc]
          exact hu p w rfl hw
    | true =>
      right
      refine ⟨rfl, u, R.opens :: t, rfl, ?_, hlast, ?_⟩
      · rw [find_append_left hu, find_of_begins hb]
        simp
      · have hread : (R.scan R.start t).2 = [] := by
          by_contra hleft
          rw [begins_append_of_left hleft, hlast] at hb
          cases hb
        have hunseen : ¬ (R.opens :: t).all sees = true := fun hall => hheld ⟨hread, hall⟩
        simpa only [List.all_eq_true, not_forall, Bool.not_eq_true, exists_prop] using hunseen

/-! ### The filter -/

/-- Where a filter stands: letting text through with an end held back, or keeping everything
from the first mark it saw. -/
inductive Passage (α : Type) where
  | letting (pending : List α)
  | keeping (kept : List α)

/-- What is still let through when no more text comes. -/
def Passage.rest : Passage α → List α
  | .letting pending => pending
  | .keeping _ => []

/-- What is kept for good. -/
def Passage.kept : Passage α → List α
  | .letting _ => []
  | .keeping kept => kept

variable (R) in
/-- A piece of text arrives: what is let through, and where the filter stands then. -/
def feed (sees : α → Bool) : Passage α → List α → List α × Passage α
  | .letting pending, piece =>
    match R.find (pending ++ piece) with
    | some found => (found.1, .keeping found.2)
    | none => ((R.hold sees (pending ++ piece)).1, .letting (R.hold sees (pending ++ piece)).2)
  | .keeping kept, piece => ([], .keeping (kept ++ piece))

variable (R) in
/-- A piece ends inside the first mark, behind a symbol that the filter does not know. -/
def Cut (sees : α → Bool) (pieces : List (List α)) : Prop :=
  ∃ done u x r, done <+: pieces ∧ done.flatten = u ++ x ∧
    R.find pieces.flatten = some (u, x ++ r) ∧ R.begins x = false ∧ ∃ a ∈ x, sees a = false

variable (R) in
/-- What a filter has let through of the pieces so far, and where it stands. -/
inductive Tracks (sees : α → Bool) (pieces : List (List α)) : List α → Passage α → Prop where
  | clear : R.find pieces.flatten = none →
      Tracks sees pieces (R.hold sees pieces.flatten).1 (.letting (R.hold sees pieces.flatten).2)
  | caught {u r : List α} : ¬ R.Cut sees pieces → R.find pieces.flatten = some (u, r) →
      Tracks sees pieces u (.keeping r)
  | missed {shown : List α} {p : Passage α} : R.Cut sees pieces → R.HasMark shown →
      Tracks sees pieces shown p

omit [DecidableEq α] in
theorem flatten_concat (pieces : List (List α)) (piece : List α) :
    (pieces ++ [piece]).flatten = pieces.flatten ++ piece := by
  simp

theorem Cut.append {sees : α → Bool} {pieces : List (List α)} (h : R.Cut sees pieces)
    (piece : List α) : R.Cut sees (pieces ++ [piece]) := by
  obtain ⟨done, u, x, r, hdone, hflat, hfind, hrest⟩ := h
  refine ⟨done, u, x, r ++ piece, hdone.trans (List.prefix_append _ _), hflat, ?_, hrest⟩
  rw [flatten_concat, find_append hfind, List.append_assoc]

/-- Once the first mark has been read to its end, no later piece cuts it. -/
theorem cut_of_append {sees : α → Bool} {pieces : List (List α)} {piece u r : List α}
    (hfind : R.find pieces.flatten = some (u, r)) (h : R.Cut sees (pieces ++ [piece])) :
    R.Cut sees pieces := by
  obtain ⟨done, u', x, r', hdone, hflat, hfind', hx, hunseen⟩ := h
  rw [flatten_concat, find_append hfind, Option.some.injEq, Prod.mk.injEq] at hfind'
  obtain ⟨rfl, hr⟩ := hfind'
  obtain ⟨hl, hbegins⟩ := find_some hfind
  rcases List.prefix_concat_iff.mp hdone with rfl | hdone
  · rw [flatten_concat, hl, List.append_assoc, List.append_cancel_left_eq] at hflat
    rw [← hflat, begins_append hbegins] at hx
    cases hx
  · obtain ⟨later, rfl⟩ := hdone
    rw [List.flatten_append, hflat, List.append_assoc, List.append_cancel_left_eq] at hl
    exact ⟨done, u, x, later.flatten, List.prefix_append _ _, hflat, by rw [hfind, ← hl], hx,
      hunseen⟩

/-- What is let through of a piece ends where an opening symbol begins. -/
theorem feed_letting (sees : α → Bool) (pending piece : List α) :
    ∃ b, pending ++ piece = (R.feed sees (.letting pending) piece).1 ++ b ∧
      (b = [] ∨ b.head? = some R.opens) := by
  rw [feed]
  cases hfind : R.find (pending ++ piece) with
  | none => exact ⟨_, (hold_concat sees _).symm, head_of_hold sees _⟩
  | some found =>
    obtain ⟨hl, hr⟩ := find_some (u := found.1) (r := found.2) hfind
    exact ⟨found.2, hl, Or.inr (head_of_begins hr)⟩

/-- A piece that completes a mark the filter has lost sight of goes through with it. -/
theorem missed_feed {sees : α → Bool} {pieces : List (List α)} {piece u x : List α}
    (hl : pieces.flatten = u ++ x) (hfind : R.find (pieces.flatten ++ piece) = some (u, x ++ piece))
    (hx : R.begins x = false) (hunseen : ∃ a ∈ x, sees a = false) :
    R.Cut sees (pieces ++ [piece]) ∧
      R.HasMark (pieces.flatten ++ (R.feed sees (.letting []) piece).1) := by
  constructor
  · exact ⟨pieces, u, x, piece, List.prefix_append _ _, hl, by rw [flatten_concat, hfind], hx,
      hunseen⟩
  · obtain ⟨m, v, hm, hmark⟩ := begins_iff.mp (find_some hfind).2
    obtain ⟨b, hpiece, hb⟩ := feed_letting (R := R) sees [] piece
    rw [List.nil_append] at hpiece
    rcases List.append_eq_append_iff.mp hmark with ⟨y, rfl, hy⟩ | ⟨w, rfl, -⟩
    · -- the mark goes on in the piece, where it has no opening symbol
      have hopens : R.opens ∉ y := by
        obtain ⟨t, s, ht, hread, -⟩ := hm
        cases x with
        | nil => simp at hunseen
        | cons a x =>
          rw [List.cons_append, List.cons.injEq] at ht
          obtain ⟨-, rfl⟩ := ht
          exact fun hmem => opens_not_mem hread (by simp [hmem])
      obtain ⟨w, hw⟩ := prefix_of_opens hopens hb (hy.symm.trans hpiece)
      exact ⟨u, x ++ y, w, hm, by rw [hl, ← hw]; simp⟩
    · rw [begins_append (begins_iff.mpr ⟨m, [], hm, by simp⟩)] at hx
      cases hx

/-- All that is held back is known to the filter: a mark found behind it is not cut. -/
theorem not_cut_of_held {sees : α → Bool} {pieces : List (List α)} {piece : List α}
    {found : List α × List α}
    (hfound : R.find ((R.hold sees pieces.flatten).2 ++ piece) = some found)
    (hfind : R.find (pieces ++ [piece]).flatten =
      some ((R.hold sees pieces.flatten).1 ++ found.1, found.2)) :
    ¬ R.Cut sees (pieces ++ [piece]) := by
  rintro ⟨done, u, x, r, hdone, hflat, hfind', hx, a, ha, hsees⟩
  rw [hfind, Option.some.injEq, Prod.mk.injEq] at hfind'
  obtain ⟨rfl, -⟩ := hfind'
  rcases List.prefix_concat_iff.mp hdone with rfl | ⟨later, rfl⟩
  · obtain ⟨hl, hbegins⟩ := find_some hfind
    rw [hflat, List.append_cancel_left_eq] at hl
    rw [hl, hbegins] at hx
    cases hx
  · -- what the earlier pieces have of the mark is among what is held back
    have hpend : (R.hold sees (done ++ later).flatten).1 ++
        (R.hold sees (done ++ later).flatten).2 =
        (R.hold sees (done ++ later).flatten).1 ++ (found.1 ++ (x ++ later.flatten)) := by
      calc _ = (done ++ later).flatten := hold_concat sees _
        _ = done.flatten ++ later.flatten := List.flatten_append
        _ = _ := by rw [hflat]; simp only [List.append_assoc]
    have hmem : a ∈ (R.hold sees (done ++ later).flatten).2 := by
      rw [List.append_cancel_left hpend]
      simp [ha]
    rcases hold_cases (R := R) sees (done ++ later).flatten with
      hhold | ⟨_, t, -, -, -, hall, hhold⟩
    · rw [hhold] at hmem
      cases hmem
    · rw [hhold] at hmem
      rw [List.all_eq_true.mp hall a hmem] at hsees
      cases hsees

/-- One piece more. -/
theorem Tracks.feed {sees : α → Bool} {pieces : List (List α)} {shown : List α} {p : Passage α}
    (h : R.Tracks sees pieces shown p) (piece : List α) :
    R.Tracks sees (pieces ++ [piece]) (shown ++ (R.feed sees p piece).1)
      (R.feed sees p piece).2 := by
  cases h with
  | missed hcut hmark => exact .missed (hcut.append piece) (hmark.append_right _)
  | caught hcut hfind =>
    rw [Recogniser.feed, List.append_nil]
    apply Tracks.caught
    · exact fun h => hcut (cut_of_append hfind h)
    · rw [flatten_concat, find_append hfind]
  | clear hnone =>
    rcases find_hold sees hnone piece with hfind | ⟨hhold, u, x, hl, hfind, hx, hunseen⟩
    · cases hfound : R.find ((R.hold sees pieces.flatten).2 ++ piece) with
      | none =>
        rw [hfound, Option.map_none, ← flatten_concat] at hfind
        have hheld := hold_append (R := R) sees pieces.flatten piece
        rw [← flatten_concat] at hheld
        have hclear : R.Tracks sees _ _ _ := Tracks.clear hfind
        rw [hheld] at hclear
        simpa only [Recogniser.feed, hfound] using hclear
      | some found =>
        rw [hfound, Option.map_some, ← flatten_concat] at hfind
        simp only [Recogniser.feed, hfound]
        apply Tracks.caught _ hfind
        exact not_cut_of_held hfound hfind
    · rw [hhold]
      obtain ⟨hcut, hmark⟩ := missed_feed hl hfind hx hunseen
      exact .missed hcut hmark

theorem tracks_nil (sees : α → Bool) : R.Tracks sees [] [] (.letting []) :=
  .clear rfl

theorem not_cut_of_find_none {sees : α → Bool} {pieces : List (List α)}
    (h : R.find pieces.flatten = none) : ¬ R.Cut sees pieces := by
  rintro ⟨done, u, x, r, -, -, hfind, -⟩
  rw [h] at hfind
  cases hfind

/-- No mark is cut where the symbols the filter does not know are in none. -/
theorem not_cut_of_step {sees : α → Bool} {I : σ → Prop} (hstart : I R.start)
    (hI : ∀ s b s', I s → R.step s b = some s' → I s')
    (h : ∀ a, sees a = false → a ≠ R.opens ∧ ∀ s, I s → R.step s a = none)
    (pieces : List (List α)) : ¬ R.Cut sees pieces := by
  rintro ⟨done, u, x, r, -, -, hfind, hx, a, ha, hsees⟩
  obtain ⟨hopens, hstep⟩ := h a hsees
  obtain ⟨m, v, ⟨t, s, rfl, hread, hfinal⟩, hmark⟩ := begins_iff.mp (find_some hfind).2
  rcases List.append_eq_append_iff.mp hmark with ⟨y, hm, -⟩ | ⟨w, rfl, -⟩
  · have hmem : a ∈ R.opens :: t := by
      rw [hm]
      exact List.mem_append_left y ha
    rcases List.mem_cons.mp hmem with heq | hmem
    · exact hopens heq
    · exact not_mem_of_step hI hstep hstart hread hmem
  · rw [begins_append (begins_iff.mpr ⟨_, [], ⟨t, s, rfl, hread, hfinal⟩, by simp⟩)] at hx
    cases hx

/-- Where nothing is cut, what the filter keeps is the text from the first mark on. -/
theorem Tracks.kept {sees : α → Bool} {pieces : List (List α)} {shown : List α} {p : Passage α}
    (h : R.Tracks sees pieces shown p) (hcut : ¬ R.Cut sees pieces) :
    shown ++ p.rest ++ p.kept = pieces.flatten := by
  cases h with
  | clear _ => exact (List.append_nil _).trans (hold_concat sees _)
  | caught _ hfind =>
    show shown ++ [] ++ _ = _
    rw [List.append_nil]
    exact (find_some hfind).1.symm
  | missed hmiss _ => exact absurd hmiss hcut

/-- A mark shows exactly where a piece cuts it. -/
theorem Tracks.hasMark_iff {sees : α → Bool} {pieces : List (List α)} {shown : List α}
    {p : Passage α} (h : R.Tracks sees pieces shown p) :
    R.HasMark shown ↔ R.Cut sees pieces := by
  cases h with
  | clear hnone =>
    refine iff_of_false ?_ (not_cut_of_find_none hnone)
    intro hmark
    have hall := hmark.append_right (R.hold sees pieces.flatten).2
    rw [hold_concat] at hall
    exact find_none_iff.mp hnone hall
  | caught hcut hfind =>
    refine iff_of_false ?_ hcut
    rw [← before_of_find hfind]
    exact not_hasMark_before _
  | missed hcut hmark => exact iff_of_true hmark hcut

/-- Where no piece cuts the first mark, the text before it is let through, but for an end that is
still held back. -/
theorem Tracks.shown {sees : α → Bool} {pieces : List (List α)} {shown : List α}
    {p : Passage α} (h : R.Tracks sees pieces shown p) (hcut : ¬ R.Cut sees pieces) :
    shown ++ p.rest = R.before pieces.flatten ∧
      (p.rest = [] ∨ p.rest.head? = some R.opens) := by
  cases h with
  | clear hnone =>
    rw [before_of_not_hasMark (find_none_iff.mp hnone)]
    exact ⟨hold_concat sees _, head_of_hold sees _⟩
  | caught _ hfind =>
    rw [before_of_find hfind]
    exact ⟨List.append_nil _, Or.inl rfl⟩
  | missed hmiss _ => exact absurd hmiss hcut

omit [DecidableEq α] in
/-- An end that begins with the opening symbol completes no mark. -/
theorem hasMark_append_opens {l k : List α} (hk : k = [] ∨ k.head? = some R.opens)
    (hmark : ¬ R.HasMark k) : R.HasMark (l ++ k) ↔ R.HasMark l := by
  constructor
  · intro h
    rcases hasMark_append h with hl | hk' | ⟨u, x, y, v, -, rfl, hx, hy, t, s, ht, hread, -⟩
    · exact hl
    · exact absurd hk' hmark
    · cases x with
      | nil => exact absurd rfl hx
      | cons a x =>
        rw [List.cons_append, List.cons.injEq] at ht
        obtain ⟨-, rfl⟩ := ht
        cases y with
        | nil => exact absurd rfl hy
        | cons b y =>
          have hb : b = R.opens := by simpa using hk
          exact absurd (by simp [hb]) (opens_not_mem hread)
  · exact fun h => h.append_right k

end Recogniser

end GreenGarden
