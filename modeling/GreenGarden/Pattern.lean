/-
GreenGarden/Pattern.lean

Regular expressions as a backtracking matcher reads them.  The repeated pieces
are single classes of symbols, which is all the patterns of this development
need; a group is given the text its piece has matched.

`run` tries what a pattern can match in the order of the engine (`many` takes
as much as it can, `few` as little) and hands what is left to a continuation,
going on to the next choice where that fails.  `Matches` is the language of a
pattern, blind to the order: whatever `run` finds is in it (`exists_of_run`), and
where it has something that no continuation refuses `run` finds something
(`run_ne_none`).  A pattern that `Fails` at a text matches no beginning of it,
and then no beginning of a shorter one either (`Fails.of_prefix`).

Where a class and what follows it exclude each other there is nothing to try:
`many` takes its whole stretch (`cat_many`).  `finditer` goes from match to
match and passes over a stretch where nothing matches (`finditer_append`).
-/
import Mathlib

namespace GreenGarden

/-- Patterns over any alphabet; `many` repeats greedily and `few` lazily. -/
inductive Pattern (α : Type) where
  | empty
  | one (p : α → Bool)
  | many (p : α → Bool)
  | few (p : α → Bool)
  | seq (a b : Pattern α)
  | alt (a b : Pattern α)
  | group (n : ℕ) (a : Pattern α)
  | stop

namespace Pattern

variable {α : Type}

/-- The groups matched so far, the latest first. -/
abbrev Groups (α : Type) := List (ℕ × List α)

section Run

variable {β : Type}

/-- Greedy repetition: longer first. -/
def runMany (p : α → Bool) (k : List α → Option β) : List α → Option β
  | [] => k []
  | a :: l => if p a then (runMany p k l).or (k (a :: l)) else k (a :: l)

/-- Lazy repetition: shorter first. -/
def runFew (p : α → Bool) (k : List α → Option β) : List α → Option β
  | [] => k []
  | a :: l => (k (a :: l)).or (if p a then runFew p k l else none)

/-- One letter. -/
def runOne (p : α → Bool) (k : List α → Option β) : List α → Option β
  | [] => none
  | a :: l => if p a then k l else none

/-- Match a beginning of the text, and hand the groups and the rest on. -/
def run : Pattern α → Groups α → List α → (Groups α → List α → Option β) → Option β
  | empty, g, l, k => k g l
  | one p, g, l, k => runOne p (k g) l
  | many p, g, l, k => runMany p (k g) l
  | few p, g, l, k => runFew p (k g) l
  | seq a b, g, l, k => a.run g l fun g rest => b.run g rest k
  | alt a b, g, l, k => (a.run g l k).or (b.run g l k)
  | group n a, g, l, k =>
    a.run g l fun g rest => k ((n, l.take (l.length - rest.length)) :: g) rest
  | stop, g, l, k => if l.isEmpty then k g l else none

end Run

/-- The first match at the beginning of the text. -/
def matchAt (a : Pattern α) (l : List α) : Option (Groups α × List α) :=
  a.run [] l fun g rest => some (g, rest)

/-- `finditer`, `n` symbols of the last match being still to come. -/
def finditerFrom (a : Pattern α) : ℕ → List α → List (Groups α)
  | _, [] => []
  | n + 1, _ :: l => finditerFrom a n l
  | 0, c :: l =>
    match a.matchAt (c :: l) with
    | none => finditerFrom a 0 l
    | some (g, rest) => g :: finditerFrom a (l.length - rest.length) l

/-- `finditer`, for a pattern that matches no empty text. -/
def finditer (a : Pattern α) (l : List α) : List (Groups α) := finditerFrom a 0 l

/-! ### Pieces -/

/-- One piece after the other. -/
def cat : List (Pattern α) → Pattern α
  | [] => empty
  | a :: pieces => seq a (cat pieces)

/-- `p+`. -/
def oneOrMore (p : α → Bool) : List (Pattern α) := [one p, many p]

/-- The symbols of a word, one by one. -/
def word [BEq α] (w : List α) : List (Pattern α) := w.map fun c => one (· == c)

/-- `(?:...)?`. -/
def opt (a : Pattern α) : Pattern α := alt a empty

/-! ### The language -/

/-- The pattern can match `x` where `rest` follows. -/
def Matches : Pattern α → List α → List α → Prop
  | empty, x, _ => x = []
  | one p, x, _ => ∃ c, p c = true ∧ x = [c]
  | many p, x, _ => ∀ c ∈ x, p c = true
  | few p, x, _ => ∀ c ∈ x, p c = true
  | seq a b, x, rest => ∃ y z, x = y ++ z ∧ a.Matches y (z ++ rest) ∧ b.Matches z rest
  | alt a b, x, rest => a.Matches x rest ∨ b.Matches x rest
  | group _ a, x, rest => a.Matches x rest
  | stop, x, rest => x = [] ∧ rest = []

section Language

variable {β : Type}

theorem exists_of_runMany {p : α → Bool} {k : List α → Option β} {l : List α} {b : β}
    (h : runMany p k l = some b) :
    ∃ x rest, l = x ++ rest ∧ (∀ c ∈ x, p c = true) ∧ k rest = some b := by
  induction l with
  | nil => exact ⟨[], [], rfl, by simp, h⟩
  | cons c l ih =>
    rw [runMany] at h
    split at h
    · rename_i hc
      rcases Option.or_eq_some_iff.mp h with h | ⟨-, h⟩
      · obtain ⟨x, rest, rfl, hx, hk⟩ := ih h
        exact ⟨c :: x, rest, rfl, by simpa [hc] using hx, hk⟩
      · exact ⟨[], c :: l, rfl, by simp, h⟩
    · exact ⟨[], c :: l, rfl, by simp, h⟩

theorem exists_of_runFew {p : α → Bool} {k : List α → Option β} {l : List α} {b : β}
    (h : runFew p k l = some b) :
    ∃ x rest, l = x ++ rest ∧ (∀ c ∈ x, p c = true) ∧ k rest = some b := by
  induction l with
  | nil => exact ⟨[], [], rfl, by simp, h⟩
  | cons c l ih =>
    rw [runFew] at h
    rcases Option.or_eq_some_iff.mp h with h | ⟨-, h⟩
    · exact ⟨[], c :: l, rfl, by simp, h⟩
    · split at h
      · rename_i hc
        obtain ⟨x, rest, rfl, hx, hk⟩ := ih h
        exact ⟨c :: x, rest, rfl, by simpa [hc] using hx, hk⟩
      · cases h

/-- Whatever is found is a match, with something the continuation accepts behind it. -/
theorem exists_of_run {a : Pattern α} {g : Groups α} {l : List α}
    {k : Groups α → List α → Option β} {b : β} (h : a.run g l k = some b) :
    ∃ x rest g', l = x ++ rest ∧ a.Matches x rest ∧ k g' rest = some b := by
  induction a generalizing g l k with
  | empty => exact ⟨[], l, g, rfl, rfl, h⟩
  | one p =>
    cases l with
    | nil => cases h
    | cons c l =>
      rw [run, runOne] at h
      split at h
      · rename_i hc
        exact ⟨[c], l, g, rfl, ⟨c, hc, rfl⟩, h⟩
      · cases h
  | many p =>
    obtain ⟨x, rest, hl, hx, hk⟩ := exists_of_runMany h
    exact ⟨x, rest, g, hl, hx, hk⟩
  | few p =>
    obtain ⟨x, rest, hl, hx, hk⟩ := exists_of_runFew h
    exact ⟨x, rest, g, hl, hx, hk⟩
  | seq a b iha ihb =>
    obtain ⟨y, rest, g', rfl, hy, hb⟩ := iha h
    obtain ⟨z, rest, g', rfl, hz, hk⟩ := ihb hb
    exact ⟨y ++ z, rest, g', by rw [List.append_assoc], ⟨y, z, rfl, hy, hz⟩, hk⟩
  | alt a b iha ihb =>
    rcases Option.or_eq_some_iff.mp h with h | ⟨-, h⟩
    · obtain ⟨x, rest, g', hl, hx, hk⟩ := iha h
      exact ⟨x, rest, g', hl, Or.inl hx, hk⟩
    · obtain ⟨x, rest, g', hl, hx, hk⟩ := ihb h
      exact ⟨x, rest, g', hl, Or.inr hx, hk⟩
  | group n a ih =>
    obtain ⟨x, rest, g', hl, hx, hk⟩ := ih h
    exact ⟨x, rest, _, hl, hx, hk⟩
  | stop =>
    cases l with
    | nil => exact ⟨[], [], g, rfl, ⟨rfl, rfl⟩, h⟩
    | cons c l => cases h

theorem runMany_ne_none {p : α → Bool} {k : List α → Option β} {x rest : List α}
    (hx : ∀ c ∈ x, p c = true) (hk : k rest ≠ none) : runMany p k (x ++ rest) ≠ none := by
  induction x with
  | nil =>
    cases rest with
    | nil => exact hk
    | cons c rest =>
      rw [List.nil_append, runMany]
      split
      · exact fun h => hk (Option.or_eq_none_iff.mp h).2
      · exact hk
  | cons c x ih =>
    rw [List.cons_append, runMany, if_pos (hx c List.mem_cons_self)]
    exact fun h => ih (fun d hd => hx d (List.mem_cons_of_mem c hd)) (Option.or_eq_none_iff.mp h).1

theorem runFew_ne_none {p : α → Bool} {k : List α → Option β} {x rest : List α}
    (hx : ∀ c ∈ x, p c = true) (hk : k rest ≠ none) : runFew p k (x ++ rest) ≠ none := by
  induction x with
  | nil =>
    cases rest with
    | nil => exact hk
    | cons c rest =>
      rw [List.nil_append, runFew]
      exact fun h => hk (Option.or_eq_none_iff.mp h).1
  | cons c x ih =>
    rw [List.cons_append, runFew, if_pos (hx c List.mem_cons_self)]
    exact fun h => ih (fun d hd => hx d (List.mem_cons_of_mem c hd)) (Option.or_eq_none_iff.mp h).2

/-- Where there is a match that no continuation refuses, something is found. -/
theorem run_ne_none {a : Pattern α} {g : Groups α} {x rest : List α}
    {k : Groups α → List α → Option β} (h : a.Matches x rest) (hk : ∀ g, k g rest ≠ none) :
    a.run g (x ++ rest) k ≠ none := by
  induction a generalizing g x rest k with
  | empty =>
    rw [show x = [] from h]
    exact hk g
  | one p =>
    obtain ⟨c, hc, rfl⟩ := h
    rw [List.singleton_append, run, runOne, if_pos hc]
    exact hk g
  | many p => exact runMany_ne_none h (hk g)
  | few p => exact runFew_ne_none h (hk g)
  | seq a b iha ihb =>
    obtain ⟨y, z, rfl, hy, hz⟩ := h
    rw [List.append_assoc]
    exact iha hy fun g' => ihb hz hk
  | alt a b iha ihb =>
    intro hnone
    obtain ⟨hleft, hright⟩ := Option.or_eq_none_iff.mp hnone
    rcases h with h | h
    · exact iha h hk hleft
    · exact ihb h hk hright
  | group n a ih => exact ih h fun g' => hk _
  | stop =>
    obtain ⟨rfl, rfl⟩ := h
    exact hk g

end Language

/-! ### Failing -/

/-- The pattern matches no beginning of the text. -/
def Fails (a : Pattern α) (l : List α) : Prop := ∀ x rest, l = x ++ rest → ¬ a.Matches x rest

theorem Fails.run {β : Type} {a : Pattern α} {l : List α} (h : a.Fails l) (g : Groups α)
    (k : Groups α → List α → Option β) : a.run g l k = none := by
  by_contra hsome
  obtain ⟨b, hb⟩ := Option.ne_none_iff_exists'.mp hsome
  obtain ⟨x, rest, g', hl, hx, -⟩ := exists_of_run hb
  exact h x rest hl hx

theorem fails_of_run {a : Pattern α} {l : List α} (h : a.matchAt l = none) : a.Fails l := by
  rintro x rest rfl hx
  exact run_ne_none hx (fun g => by simp) h

/-- No end of the text is asked for. -/
def Open : Pattern α → Prop
  | seq a b => a.Open ∧ b.Open
  | alt a b => a.Open ∧ b.Open
  | group _ a => a.Open
  | stop => False
  | _ => True

theorem Matches.append {a : Pattern α} (ha : a.Open) {x rest : List α} (h : a.Matches x rest)
    (more : List α) : a.Matches x (rest ++ more) := by
  induction a generalizing x rest with
  | empty => exact h
  | one p => exact h
  | many p => exact h
  | few p => exact h
  | seq a b iha ihb =>
    obtain ⟨y, z, rfl, hy, hz⟩ := h
    refine ⟨y, z, rfl, ?_, ihb ha.2 hz⟩
    rw [← List.append_assoc]
    exact iha ha.1 hy
  | alt a b iha ihb =>
    rcases h with h | h
    · exact Or.inl (iha ha.1 h)
    · exact Or.inr (ihb ha.2 h)
  | group n a ih => exact ih ha h
  | stop => exact absurd ha id

/-- Where a pattern fails it fails on every shorter text. -/
theorem Fails.of_prefix {a : Pattern α} (ha : a.Open) {l more : List α} (h : a.Fails (l ++ more)) :
    a.Fails l := by
  rintro x rest rfl hx
  exact h x (rest ++ more) (List.append_assoc _ _ _) (hx.append ha more)

theorem fails_nil (p : α → Bool) (pieces : List (Pattern α)) :
    (cat (one p :: pieces)).Fails [] := by
  rintro x rest hl ⟨y, z, rfl, ⟨c, -, rfl⟩, -⟩
  cases hl

theorem fails_cons {p : α → Bool} {c : α} (hc : p c = false) (pieces : List (Pattern α))
    (l : List α) : (cat (one p :: pieces)).Fails (c :: l) := by
  rintro x rest hl ⟨y, z, rfl, ⟨d, hd, rfl⟩, -⟩
  rw [(List.cons.inj hl).1, hd] at hc
  cases hc

theorem fails_word [BEq α] [LawfulBEq α] {w l : List α} (h : ¬ w <+: l)
    (pieces : List (Pattern α)) : (cat (word w ++ pieces)).Fails l := by
  induction w generalizing l with
  | nil => exact absurd List.nil_prefix h
  | cons c w ih =>
    rintro x rest rfl ⟨y, z, rfl, ⟨d, hd, rfl⟩, hz⟩
    rw [beq_iff_eq] at hd
    subst hd
    have hnot : ¬ w <+: z ++ rest := by
      intro hbegins
      apply h
      rw [List.append_assoc, List.singleton_append, List.cons_prefix_cons]
      exact ⟨rfl, hbegins⟩
    exact ih hnot z rest rfl hz

theorem exists_of_matches_append {pieces more : List (Pattern α)} {x rest : List α}
    (h : (cat (pieces ++ more)).Matches x rest) :
    ∃ y z, x = y ++ z ∧ (cat pieces).Matches y (z ++ rest) ∧ (cat more).Matches z rest := by
  induction pieces generalizing x with
  | nil => exact ⟨[], x, rfl, rfl, h⟩
  | cons a pieces ih =>
    obtain ⟨y, z, rfl, hy, hz⟩ := h
    obtain ⟨y', z', rfl, hy', hz'⟩ := ih hz
    refine ⟨y ++ y', z', by rw [List.append_assoc], ⟨y, y', rfl, ?_, hy'⟩, hz'⟩
    rwa [← List.append_assoc]

theorem exists_of_matches_oneOrMore {p : α → Bool} {x rest : List α}
    (h : (cat (oneOrMore p)).Matches x rest) : x ≠ [] ∧ ∀ c ∈ x, p c = true := by
  obtain ⟨y, z, rfl, ⟨c, hc, rfl⟩, y', z', rfl, hy', hz'⟩ := h
  rw [show z' = [] from hz', List.append_nil]
  exact ⟨by simp, fun d hd => (List.mem_cons.mp hd).elim (fun heq => heq ▸ hc) (hy' d)⟩

theorem exists_of_matches_many {p : α → Bool} {x rest : List α}
    (h : (cat [many p]).Matches x rest) : ∀ c ∈ x, p c = true := by
  obtain ⟨y, z, rfl, hy, hz⟩ := h
  rwa [show z = [] from hz, List.append_nil]

theorem eq_of_matches_word [BEq α] [LawfulBEq α] {w x rest : List α}
    (h : (cat (word w)).Matches x rest) : x = w := by
  induction w generalizing x with
  | nil => exact h
  | cons c w ih =>
    obtain ⟨y, z, rfl, ⟨d, hd, rfl⟩, hz⟩ := h
    rw [ih hz, beq_iff_eq.mp hd]
    rfl

/-- A pattern that no symbol of a class begins. -/
def Refuses (a : Pattern α) (p : α → Bool) : Prop := ∀ c l, p c = true → a.Fails (c :: l)

theorem refuses_one {p q : α → Bool} (h : ∀ c, p c = true → q c = false)
    (pieces : List (Pattern α)) : (cat (one q :: pieces)).Refuses p :=
  fun c l hc => fails_cons (h c hc) pieces l

theorem refuses_many {p q : α → Bool} (h : ∀ c, p c = true → q c = false)
    {pieces : List (Pattern α)} (hpieces : (cat pieces).Refuses p) :
    (cat (many q :: pieces)).Refuses p := by
  rintro c l hc x rest hl ⟨y, z, rfl, hy, hz⟩
  cases y with
  | nil => exact hpieces c l hc z rest hl hz
  | cons d y =>
    have hd := hy d List.mem_cons_self
    rw [← (List.cons.inj hl).1, h c hc] at hd
    cases hd

/-! ### Nothing to try -/

section Straight

variable {β : Type} {g : Groups α} {k : Groups α → List α → Option β}
variable {pieces : List (Pattern α)}

theorem cat_one {p : α → Bool} {c : α} (hc : p c = true) (l : List α) :
    (cat (one p :: pieces)).run g (c :: l) k = (cat pieces).run g l k :=
  if_pos hc

theorem cat_word [BEq α] [LawfulBEq α] (w l : List α) :
    (cat (word w ++ pieces)).run g (w ++ l) k = (cat pieces).run g l k := by
  induction w with
  | nil => rfl
  | cons c w ih => exact (cat_one (beq_self_eq_true c) _).trans ih

theorem run_word [BEq α] [LawfulBEq α] (w l : List α) :
    (cat (word w)).run g (w ++ l) k = k g l := by
  have hword : (cat (word w ++ [])).run g (w ++ l) k = k g l := cat_word w l
  rwa [List.append_nil] at hword

theorem runMany_append {p : α → Bool} {k : List α → Option β} {x rest : List α}
    (hk : ∀ c l, p c = true → k (c :: l) = none) (hx : ∀ c ∈ x, p c = true)
    (hrest : ∀ c ∈ rest.head?, p c = false) : runMany p k (x ++ rest) = k rest := by
  induction x with
  | nil =>
    cases rest with
    | nil => rfl
    | cons c rest =>
      rw [List.nil_append, runMany, hrest c rfl]
      rfl
  | cons c x ih =>
    rw [List.cons_append, runMany, if_pos (hx c List.mem_cons_self),
      ih fun d hd => hx d (List.mem_cons_of_mem c hd), hk c _ (hx c List.mem_cons_self),
      Option.or_none]

/-- A class takes its whole stretch where what follows cannot begin inside it. -/
theorem cat_many {p : α → Bool} (hpieces : (cat pieces).Refuses p) {x rest : List α}
    (hx : ∀ c ∈ x, p c = true) (hrest : ∀ c ∈ rest.head?, p c = false) :
    (cat (many p :: pieces)).run g (x ++ rest) k = (cat pieces).run g rest k :=
  runMany_append (fun c l hc => (hpieces c l hc).run g k) hx hrest

theorem cat_oneOrMore {p : α → Bool} (hpieces : (cat pieces).Refuses p) {x rest : List α}
    (hne : x ≠ []) (hx : ∀ c ∈ x, p c = true) (hrest : ∀ c ∈ rest.head?, p c = false) :
    (cat (oneOrMore p ++ pieces)).run g (x ++ rest) k = (cat pieces).run g rest k := by
  cases x with
  | nil => exact absurd rfl hne
  | cons c x =>
    rw [oneOrMore, List.cons_append, List.cons_append, List.cons_append,
      cat_one (hx c List.mem_cons_self)]
    exact cat_many hpieces (fun d hd => hx d (List.mem_cons_of_mem c hd)) hrest

theorem fails_oneOrMore {p : α → Bool} (hpieces : (cat pieces).Refuses p) {x rest : List α}
    (hx : ∀ c ∈ x, p c = true) (hrest : ∀ c ∈ rest.head?, p c = false)
    (hfails : (cat pieces).Fails rest) : (cat (oneOrMore p ++ pieces)).Fails (x ++ rest) := by
  by_cases hne : x = []
  · subst hne
    cases rest with
    | nil => exact fails_nil p _
    | cons c rest => exact fails_cons (hrest c rfl) _ _
  · apply fails_of_run
    rw [matchAt, cat_oneOrMore hpieces hne hx hrest]
    exact hfails.run [] _

theorem take_group (x rest : List α) : (x ++ rest).take ((x ++ rest).length - rest.length) = x := by
  rw [List.length_append, Nat.add_sub_cancel, List.take_left']
  rfl

theorem cat_group_oneOrMore {p : α → Bool} (hpieces : (cat pieces).Refuses p) {n : ℕ}
    {x rest : List α} (hne : x ≠ []) (hx : ∀ c ∈ x, p c = true)
    (hrest : ∀ c ∈ rest.head?, p c = false) :
    (cat (group n (cat (oneOrMore p)) :: pieces)).run g (x ++ rest) k =
      (cat pieces).run ((n, x) :: g) rest k := by
  cases x with
  | nil => exact absurd rfl hne
  | cons c x =>
    have hgroup := take_group (c :: x) rest
    show (cat [one p, many p]).run g (c :: x ++ rest) (fun g' l =>
      (cat pieces).run ((n, (c :: x ++ rest).take ((c :: x ++ rest).length - l.length)) :: g') l k)
        = _
    rw [List.cons_append, cat_one (hx c List.mem_cons_self)]
    show runMany p _ (x ++ rest) = _
    rw [runMany_append _ (fun d hd => hx d (List.mem_cons_of_mem c hd)) hrest]
    · show (cat pieces).run ((n, _) :: g) rest k = _
      rw [← List.cons_append, hgroup]
    · exact fun d l hd => (hpieces d l hd).run _ k

theorem cat_group_word [BEq α] [LawfulBEq α] (n : ℕ) (w rest : List α) :
    (cat (group n (cat (word w)) :: pieces)).run g (w ++ rest) k =
      (cat pieces).run ((n, w) :: g) rest k := by
  show (cat (word w)).run g (w ++ rest) (fun g' l => (cat pieces).run
    ((n, (w ++ rest).take ((w ++ rest).length - l.length)) :: g') l k) = _
  rw [run_word, take_group]

theorem fails_group {n : ℕ} {a : Pattern α} {l : List α} (h : a.Fails l) :
    (cat (group n a :: pieces)).Fails l := by
  rintro x rest rfl ⟨y, z, rfl, hy, -⟩
  exact h y (z ++ rest) (List.append_assoc _ _ _) hy

theorem fails_alt_stop {a : Pattern α} {l : List α} (h : a.Fails l) (hne : l ≠ []) :
    (cat [alt a stop]).Fails l := by
  rintro x rest rfl ⟨y, z, rfl, hy, hz⟩
  rcases hy with hy | ⟨rfl, hrest⟩
  · exact h y (z ++ rest) (List.append_assoc _ _ _) hy
  · exact hne hrest

theorem run_alt_stop {a : Pattern α} (h : a.Fails []) :
    (cat [alt a stop]).run g [] k = k g [] := by
  show Option.or (a.run g [] fun g rest => (cat []).run g rest k) (k g []) = _
  rw [h.run, Option.none_or]

theorem cat_group_alt (n : ℕ) (a b : Pattern α) (l : List α) :
    (cat (group n (alt a b) :: pieces)).run g l k =
      ((cat (group n a :: pieces)).run g l k).or ((cat (group n b :: pieces)).run g l k) := rfl

/-- A pattern matches nowhere in `u`, with `rest` behind it. -/
def Quiet (a : Pattern α) (u rest : List α) : Prop :=
  ∀ x y, u = x ++ y → y ≠ [] → a.Fails (y ++ rest)

theorem runFew_append {p : α → Bool} {k : List α → Option β} {x rest : List α} {b : β}
    (hk : ∀ u v, x = u ++ v → v ≠ [] → k (v ++ rest) = none) (hx : ∀ c ∈ x, p c = true)
    (hrest : k rest = some b) : runFew p k (x ++ rest) = some b := by
  induction x with
  | nil =>
    cases rest with
    | nil => exact hrest
    | cons c rest =>
      rw [List.nil_append, runFew, hrest]
      rfl
  | cons c x ih =>
    have hfirst := hk [] (c :: x) rfl (List.cons_ne_nil c x)
    rw [List.cons_append] at hfirst
    rw [List.cons_append, runFew, hfirst, Option.none_or, if_pos (hx c List.mem_cons_self)]
    apply ih
    · rintro u v rfl hv
      exact hk (c :: u) v rfl hv
    · exact fun d hd => hx d (List.mem_cons_of_mem c hd)

/-- A lazy group goes on to where what follows matches first. -/
theorem cat_group_few {p : α → Bool} {n : ℕ} {x rest : List α} {b : β}
    (hquiet : (cat pieces).Quiet x rest) (hx : ∀ c ∈ x, p c = true)
    (hrest : (cat pieces).run ((n, x) :: g) rest k = some b) :
    (cat (group n (few p) :: pieces)).run g (x ++ rest) k = some b := by
  apply runFew_append _ hx
  · show (cat pieces).run ((n, (x ++ rest).take ((x ++ rest).length - rest.length)) :: g) rest k =
      some b
    rw [take_group]
    exact hrest
  · exact fun u v hu hv => (hquiet u v hu hv).run _ k

end Straight

/-! ### Quiet stretches -/

section Quiet

variable {a : Pattern α} {u v rest : List α}

theorem quiet_nil (a : Pattern α) (rest : List α) : a.Quiet [] rest := by
  intro x y hxy hy
  exact absurd (List.append_eq_nil_iff.mp hxy.symm).2 hy

theorem Quiet.append (hu : a.Quiet u (v ++ rest)) (hv : a.Quiet v rest) :
    a.Quiet (u ++ v) rest := by
  intro x y hxy hy
  rcases List.append_eq_append_iff.mp hxy with ⟨w, rfl, rfl⟩ | ⟨w, rfl, rfl⟩
  · exact hv w y rfl hy
  · by_cases hw : w = []
    · rw [hw, List.nil_append]
      exact hv [] v rfl (by simpa [hw] using hy)
    · rw [List.append_assoc]
      exact hu x w rfl hw

theorem Quiet.cons {c : α} (hc : a.Fails (c :: (u ++ rest))) (hu : a.Quiet u rest) :
    a.Quiet (c :: u) rest := by
  intro x y hxy hy
  cases x with
  | nil =>
    rw [List.nil_append] at hxy
    rw [← hxy]
    exact hc
  | cons d x => exact hu x y (List.cons.inj hxy).2 hy

/-- A stretch without a symbol that the pattern can begin with. -/
theorem quiet_of_first {p : α → Bool} (pieces : List (Pattern α)) (h : ∀ c ∈ u, p c = false) :
    (cat (one p :: pieces)).Quiet u rest := by
  rintro x y rfl hy
  cases y with
  | nil => exact absurd rfl hy
  | cons c y => exact fails_cons (h c (by simp)) pieces _

/-- Every beginning of a quiet stretch is quiet on its own. -/
theorem Quiet.of_append (ha : a.Open) (h : a.Quiet (u ++ v) rest) : a.Quiet u [] := by
  rintro x y rfl hy
  rw [List.append_nil]
  have hmore := h x (y ++ v) (List.append_assoc _ _ _) (by simp [hy])
  rw [List.append_assoc] at hmore
  exact hmore.of_prefix ha

theorem finditerFrom_skip (a : Pattern α) (x rest : List α) :
    finditerFrom a x.length (x ++ rest) = finditer a rest := by
  induction x with
  | nil => rfl
  | cons c x ih => exact ih

theorem finditer_append (h : a.Quiet u rest) : finditer a (u ++ rest) = finditer a rest := by
  induction u with
  | nil => rfl
  | cons c u ih =>
    have hfirst := (h [] (c :: u) rfl (List.cons_ne_nil c u)).run [] fun g rest => some (g, rest)
    have hnone : a.matchAt (c :: (u ++ rest)) = none := hfirst
    rw [List.cons_append, finditer, finditerFrom, hnone]
    exact ih fun x y hxy hy => h (c :: x) y (congrArg (List.cons c) hxy) hy

theorem finditer_match {x : List α} {g : Groups α} (hne : x ≠ [])
    (h : a.matchAt (x ++ rest) = some (g, rest)) :
    finditer a (x ++ rest) = g :: finditer a rest := by
  cases x with
  | nil => exact absurd rfl hne
  | cons c x =>
    rw [List.cons_append] at h
    rw [List.cons_append, finditer, finditerFrom, h]
    show g :: finditerFrom a ((x ++ rest).length - rest.length) (x ++ rest) = _
    rw [List.length_append, Nat.add_sub_cancel, finditerFrom_skip]

theorem finditer_of_quiet (h : a.Quiet u []) : finditer a u = [] := by
  have hall := finditer_append h
  rwa [List.append_nil] at hall

end Quiet

end Pattern

end GreenGarden
