/-
GreenGarden/Numbering.lean

Order numbers: the probing loop, and what a list of numbers allocated one
after another looks like.

`Numbered` is the state the allocation keeps: for each date the numbers with
its prefix are those of the sequence 1, 2, 3, ... in the order of the list.
`Numbered.append` is the step (the next number continues the run of its date
and leaves the others alone), and `Numbered.nodup` the consequence that no two
numbers are equal.  A payment reference determines its number
(`reference_injective`).
-/
import GreenGarden.Orders

namespace GreenGarden

/-! ### The shape of a number -/

theorem length_compact (date : UtcDate) : date.compact.length = 8 := by
  have hy := length_zeroPad_of_lt (w := 4) (n := date.year) (by decide) (by
    have := date.year_range.2; omega)
  have hm := length_zeroPad_of_lt (w := 2) (n := date.month) (by decide) (by
    have := date.month_range.2; omega)
  have hd := length_zeroPad_of_lt (w := 2) (n := date.day) (by decide) (by
    have hday := date.day_range.2
    have : daysInMonth date.year date.month ≤ 31 := by
      unfold daysInMonth
      split_ifs <;> omega
    omega)
  rw [UtcDate.compact, List.length_append, List.length_append, hy, hm, hd]

theorem isDigit_of_mem_compact {date : UtcDate} {c : Char} (h : c ∈ date.compact) :
    c.isDigit = true := by
  rcases List.mem_append.mp h with h | h
  · rcases List.mem_append.mp h with h | h <;> exact isDigit_of_mem_zeroPad h
  · exact isDigit_of_mem_zeroPad h

theorem length_numberPrefix (date : UtcDate) : (numberPrefix date).length = 12 := by
  simp [numberPrefix, length_compact]

theorem formatNumber_injective (pre : Text) : Function.Injective (formatNumber pre) :=
  fun _ _ h => zeroPad_injective 4 (List.append_cancel_left h)

/-- A number begins with the prefix of a date only if it was formatted for it. -/
theorem isPrefixOf_formatNumber {date date' : UtcDate} {n : ℕ} :
    (numberPrefix date).isPrefixOf (formatNumber (numberPrefix date') n) = true ↔
      numberPrefix date = numberPrefix date' := by
  rw [List.isPrefixOf_iff_prefix, formatNumber]
  constructor
  · intro h
    have hlen := (length_numberPrefix date).trans (length_numberPrefix date').symm
    rw [List.prefix_iff_eq_take, hlen, List.take_left'] at h
    · exact h
    · rfl
  · rintro h
    rw [h]
    exact List.prefix_append _ _

/-- A formatted number without its dashes. -/
theorem paymentReferenceFor_formatNumber (date : UtcDate) (n : ℕ) :
    paymentReferenceFor (formatNumber (numberPrefix date) n)
      = 'G' :: 'G' :: (date.compact ++ zeroPad 4 n) := by
  -- digits are not dashes, so the filter only meets the two of the prefix
  have digits : ∀ s : Text, (∀ c ∈ s, c.isDigit = true) → s.filter (fun c => c ≠ '-') = s := by
    intro s hs
    rw [List.filter_eq_self]
    intro c hc
    have hne : c ≠ '-' := by
      rintro rfl
      exact absurd (hs _ hc) (by decide)
    simpa using hne
  have hcompact := digits date.compact fun c => isDigit_of_mem_compact
  have hseq := digits (zeroPad 4 n) fun c => isDigit_of_mem_zeroPad
  have hgg : (['G', 'G', '-'] : Text).filter (fun c => c ≠ '-') = ['G', 'G'] := by decide
  have hdash : (['-'] : Text).filter (fun c => c ≠ '-') = [] := by decide
  have hsplit : formatNumber (numberPrefix date) n
      = ['G', 'G', '-'] ++ date.compact ++ ['-'] ++ zeroPad 4 n := by
    simp [formatNumber, numberPrefix]
  rw [paymentReferenceFor, hsplit, List.filter_append, List.filter_append, List.filter_append,
    hcompact, hseq, hgg, hdash]
  simp

/-- A string that the allocation can produce. -/
def IsNumber (t : Text) : Prop := ∃ date sequence, t = formatNumber (numberPrefix date) sequence

/-- The reference determines the number. -/
theorem reference_injective {s t : Text} (hs : IsNumber s) (ht : IsNumber t)
    (h : paymentReferenceFor s = paymentReferenceFor t) : s = t := by
  obtain ⟨date, m, rfl⟩ := hs
  obtain ⟨date', n, rfl⟩ := ht
  rw [paymentReferenceFor_formatNumber, paymentReferenceFor_formatNumber] at h
  have happ : date.compact ++ zeroPad 4 m = date'.compact ++ zeroPad 4 n := by
    simpa using h
  obtain ⟨hc, hz⟩ := List.append_inj happ ((length_compact date).trans (length_compact date').symm)
  rw [formatNumber, formatNumber, numberPrefix, numberPrefix, hc, hz]

/-! ### The probing loop -/

/-- What the loop returns is free, and everything before it is taken. -/
theorem probe_eq_some {pre : Text} {taken : List Text} {fuel start n : ℕ}
    (h : probe pre taken fuel start = some n) : start ≤ n ∧ formatNumber pre n ∉ taken := by
  induction fuel generalizing start with
  | zero => cases h
  | succ fuel ih =>
    rw [probe] at h
    split at h
    · obtain ⟨hle, hfree⟩ := ih h
      exact ⟨by omega, hfree⟩
    · rename_i hfree
      cases h
      exact ⟨le_rfl, hfree⟩

/-- The loop runs out of fuel only if it has seen that many taken numbers. -/
theorem taken_of_probe_eq_none {pre : Text} {taken : List Text} {fuel start : ℕ}
    (h : probe pre taken fuel start = none) :
    ∀ k < fuel, formatNumber pre (start + k) ∈ taken := by
  induction fuel generalizing start with
  | zero => intro k hk; omega
  | succ fuel ih =>
    rw [probe] at h
    split at h
    · rename_i hmem
      intro k hk
      cases k with
      | zero => simpa using hmem
      | succ k =>
        have := ih h k (by omega)
        rwa [Nat.add_right_comm, Nat.add_assoc] at this
    · cases h

/-- **The probing loop terminates**, whatever numbers are taken. -/
theorem nextSequence_isSome (pre : Text) (taken : List Text) :
    ∃ n, nextSequence pre taken = some n := by
  rcases h : nextSequence pre taken with - | n
  · -- otherwise one more number is taken than there are
    have hall := taken_of_probe_eq_none h
    have hsub : (Finset.range (taken.dedup.length + 1)).image
        (fun k => formatNumber pre (taken.dedup.length + 1 + k)) ⊆ taken.toFinset := by
      intro t ht
      obtain ⟨k, hk, rfl⟩ := Finset.mem_image.mp ht
      exact List.mem_toFinset.mpr (hall k (Finset.mem_range.mp hk))
    have hcard := Finset.card_le_card hsub
    rw [Finset.card_image_of_injective _ fun i j hij => by
        have := formatNumber_injective pre hij
        omega, Finset.card_range, List.card_toFinset] at hcard
    omega
  · exact ⟨n, rfl⟩

theorem nextSequence_free {pre : Text} {taken : List Text} {n : ℕ}
    (h : nextSequence pre taken = some n) : formatNumber pre n ∉ taken :=
  (probe_eq_some h).2

/-! ### Runs of numbers -/

/-- The numbers with the prefix of a date. -/
def numbersOf (date : UtcDate) (numbers : List Text) : List Text :=
  numbers.filter (numberPrefix date).isPrefixOf

/-- The first `n` numbers of a date. -/
def numberRun (date : UtcDate) (n : ℕ) : List Text :=
  (List.range n).map fun k => formatNumber (numberPrefix date) (k + 1)

theorem nodup_numberRun (date : UtcDate) (n : ℕ) : (numberRun date n).Nodup :=
  List.nodup_range.map fun i j h => by
    have := formatNumber_injective _ h
    omega

/-- After the first `n` numbers comes number `n + 1`. -/
theorem nextSequence_numberRun (date : UtcDate) (n : ℕ) :
    nextSequence (numberPrefix date) (numberRun date n) = some (n + 1) := by
  have hlen : (numberRun date n).dedup.length = n := by
    rw [(nodup_numberRun date n).dedup, numberRun, List.length_map, List.length_range]
  have hfree : formatNumber (numberPrefix date) (n + 1) ∉ numberRun date n := by
    intro hmem
    obtain ⟨k, hk, heq⟩ := List.mem_map.mp hmem
    have := formatNumber_injective _ heq
    have := List.mem_range.mp hk
    omega
  rw [nextSequence, hlen, probe, if_neg hfree]

/-- The numbers of every date are 1, 2, 3, ..., in the order of the list. -/
structure Numbered (numbers : List Text) : Prop where
  formatted : ∀ t ∈ numbers, IsNumber t
  runs : ∀ date, ∃ n, numbersOf date numbers = numberRun date n

namespace Numbered

variable {numbers : List Text}

theorem nil : Numbered [] := ⟨by simp, fun _ => ⟨0, rfl⟩⟩

/-- The next number of a date continues its run and no other. -/
theorem append (h : Numbered numbers) {date : UtcDate} {n : ℕ}
    (hn : nextSequence (numberPrefix date) (numbersOf date numbers) = some n) :
    Numbered (numbers ++ [formatNumber (numberPrefix date) n]) where
  formatted t ht := by
    rcases List.mem_append.mp ht with ht | ht
    · exact h.formatted t ht
    · exact ⟨date, n, List.mem_singleton.mp ht⟩
  runs date' := by
    obtain ⟨m, hm⟩ := h.runs date'
    by_cases hp : numberPrefix date' = numberPrefix date
    · refine ⟨m + 1, ?_⟩
      have hsame : numbersOf date numbers = numberRun date m := by
        rw [numbersOf, ← hp, ← numbersOf, hm, numberRun, numberRun, hp]
      rw [hsame, nextSequence_numberRun] at hn
      cases hn
      rw [numbersOf, List.filter_append, ← numbersOf, hm,
        List.filter_cons_of_pos (isPrefixOf_formatNumber.mpr hp), List.filter_nil, numberRun,
        numberRun,
        List.range_succ, List.map_append, hp]
      rfl
    · refine ⟨m, ?_⟩
      rw [numbersOf, List.filter_append, ← numbersOf, hm,
        List.filter_cons_of_neg (fun hpre => hp (isPrefixOf_formatNumber.mp hpre)),
        List.filter_nil, List.append_nil]

/-- No two numbers are equal. -/
theorem nodup (h : Numbered numbers) : numbers.Nodup := by
  rw [List.nodup_iff_count_le_one]
  intro t
  by_cases ht : t ∈ numbers
  · obtain ⟨date, n, rfl⟩ := h.formatted t ht
    obtain ⟨m, hm⟩ := h.runs date
    have hpre : (numberPrefix date).isPrefixOf (formatNumber (numberPrefix date) n) = true :=
      isPrefixOf_formatNumber.mpr rfl
    rw [← List.count_filter hpre, ← numbersOf, hm]
    exact List.nodup_iff_count_le_one.mp (nodup_numberRun date m) _
  · rw [List.count_eq_zero_of_not_mem ht]
    exact Nat.zero_le 1

end Numbered

end GreenGarden
