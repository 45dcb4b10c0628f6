/-
GreenGarden/Calendar.lean

Dates of the proleptic Gregorian calendar, from year 1 to year 9999, as
Python's `datetime.date` has them: the ordinal counts days from 1 January of
year 1, the day after a date is found by carrying, and neither the day after
the last date nor the month after its month exists.

A date is a day of UTC: `midnight` is where it starts, and the day of an
instant is found by dividing (`utcDay`).
-/
import GreenGarden.Schema

namespace GreenGarden

/-- A Python `date`. -/
@[ext] structure Date where
  year : ℕ
  month : ℕ
  day : ℕ
  year_range : 1 ≤ year ∧ year ≤ 9999
  month_range : 1 ≤ month ∧ month ≤ 12
  day_range : 1 ≤ day ∧ day ≤ daysInMonth year month

instance : DecidableEq Date := fun _ _ => decidable_of_iff _ Date.ext_iff.symm

/-- Microseconds in a day. -/
def dayMicros : ℤ := 86400000000

/-- The day of UTC that an instant falls on, counted from the epoch. -/
def utcDay (t : Instant) : ℤ := (t : ℤ) / dayMicros

namespace Date

/-- Days before a year. -/
def daysBeforeYear (year : ℕ) : ℕ :=
  (year - 1) * 365 + (year - 1) / 4 - (year - 1) / 100 + (year - 1) / 400

/-- Days before a month of its year. -/
def daysBeforeMonth (year month : ℕ) : ℕ :=
  ((List.range' 1 (month - 1)).map (daysInMonth year)).sum

/-- `toordinal`. -/
def ordinal (d : Date) : ℕ := daysBeforeYear d.year + daysBeforeMonth d.year d.month + d.day

/-- The day counted from the epoch, which is day 719163. -/
def dayNumber (d : Date) : ℤ := (d.ordinal : ℤ) - 719163

/-- `datetime.combine(date, time.min, tzinfo=UTC)`. -/
def midnight (d : Date) : Instant := d.dayNumber * dayMicros

/-- The last date, 9999-12-31. -/
def max : Date := ⟨9999, 12, 31, by decide, by decide, by decide⟩

theorem daysInMonth_pos (year month : ℕ) : 1 ≤ daysInMonth year month := by
  unfold daysInMonth
  split_ifs <;> omega

theorem daysInMonth_december (year : ℕ) : daysInMonth year 12 = 31 := by
  simp [daysInMonth]

/-- `date.replace(day=1)`. -/
def firstOfMonth (d : Date) : Date :=
  ⟨d.year, d.month, 1, d.year_range, d.month_range, le_rfl, daysInMonth_pos d.year d.month⟩

/-- The first day of the month after; none after the last month. -/
def nextMonth (d : Date) : Option Date :=
  if h : d.month < 12 then
    some ⟨d.year, d.month + 1, 1, d.year_range, ⟨Nat.le_add_left 1 d.month, h⟩, le_rfl,
      daysInMonth_pos d.year (d.month + 1)⟩
  else if h : d.year < 9999 then
    some ⟨d.year + 1, 1, 1, ⟨Nat.le_add_left 1 d.year, h⟩, by decide, le_rfl,
      daysInMonth_pos (d.year + 1) 1⟩
  else none

/-- `date + timedelta(days=1)`; none after the last date. -/
def next (d : Date) : Option Date :=
  if h : d.day < daysInMonth d.year d.month then
    some ⟨d.year, d.month, d.day + 1, d.year_range, d.month_range, Nat.le_add_left 1 d.day, h⟩
  else d.nextMonth

/-! ### Ordinals -/

theorem daysBeforeMonth_succ (year : ℕ) {month : ℕ} (h : 1 ≤ month) :
    daysBeforeMonth year (month + 1) = daysBeforeMonth year month + daysInMonth year month := by
  obtain ⟨m, rfl⟩ := Nat.exists_eq_add_of_le h
  rw [daysBeforeMonth, daysBeforeMonth, show 1 + m + 1 - 1 = m + 1 by omega,
    show 1 + m - 1 = m by omega, List.range'_concat, List.map_append, List.sum_append,
    List.map_singleton, List.sum_singleton, one_mul]

theorem daysBeforeMonth_december (year : ℕ) :
    daysBeforeMonth year 12 = 306 + daysInMonth year 2 := by
  have hdays : ∀ month ∈ [1, 3, 4, 5, 6, 7, 8, 9, 10, 11],
      daysInMonth year month = if month ∈ [4, 6, 9, 11] then 30 else 31 := by
    intro month hmonth
    have hne : month ≠ 2 := by rintro rfl; revert hmonth; decide
    rw [daysInMonth, if_neg hne]
  have hmonths : daysBeforeMonth year 12 =
      daysInMonth year 2 + ([1, 3, 4, 5, 6, 7, 8, 9, 10, 11].map (daysInMonth year)).sum := by
    simp only [daysBeforeMonth, List.range'_succ, List.map_cons, List.sum_cons, List.range'_zero,
      List.map_nil, List.sum_nil, Nat.reduceAdd, Nat.reduceSub]
    omega
  rw [hmonths, List.map_congr_left hdays, Nat.add_comm]
  rfl

/-- The months of a year have 365 days, or 366 in a leap year. -/
theorem daysBeforeYear_succ {year : ℕ} (h : 1 ≤ year) :
    daysBeforeYear (year + 1) = daysBeforeYear year + daysBeforeMonth year 12 + 31 := by
  obtain ⟨n, rfl⟩ := Nat.exists_eq_add_of_le' h
  have hle : n / 100 ≤ n / 4 := Nat.div_le_div_left (by decide) (by decide)
  simp only [daysBeforeYear, daysBeforeMonth_december, daysInMonth, if_true, Nat.add_sub_cancel,
    Nat.succ_div, Nat.dvd_iff_mod_eq_zero]
  generalize n / 4 = a at hle ⊢
  generalize n / 100 = b at hle ⊢
  by_cases h₄ : (n + 1) % 4 = 0 <;> by_cases h₁₀₀ : (n + 1) % 100 = 0 <;>
    by_cases h₄₀₀ : (n + 1) % 400 = 0 <;> simp [h₄, h₁₀₀, h₄₀₀] <;> omega

theorem ordinal_firstOfMonth (d : Date) : d.firstOfMonth.ordinal + d.day = d.ordinal + 1 := by
  simp only [ordinal, firstOfMonth]
  omega

/-- A month ends where the next one starts. -/
theorem ordinal_nextMonth {d e : Date} (h : d.nextMonth = some e) :
    e.ordinal = d.firstOfMonth.ordinal + daysInMonth d.year d.month := by
  unfold nextMonth at h
  split_ifs at h with hmonth hyear
  · obtain rfl := Option.some.inj h
    simp only [ordinal, firstOfMonth, daysBeforeMonth_succ d.year d.month_range.1]
    omega
  · obtain rfl := Option.some.inj h
    have hlast : d.month = 12 := le_antisymm d.month_range.2 (not_lt.mp hmonth)
    simp only [ordinal, firstOfMonth, daysBeforeYear_succ d.year_range.1, hlast,
      daysInMonth_december]
    rw [show daysBeforeMonth (d.year + 1) 1 = 0 from rfl]

theorem ordinal_next {d e : Date} (h : d.next = some e) : e.ordinal = d.ordinal + 1 := by
  unfold next at h
  split_ifs at h with hday
  · obtain rfl := Option.some.inj h
    simp only [ordinal]
    omega
  · have hfirst := d.ordinal_firstOfMonth
    have hlast : d.day = daysInMonth d.year d.month := le_antisymm d.day_range.2 (not_lt.mp hday)
    rw [ordinal_nextMonth h, ← hlast]
    omega

theorem nextMonth_eq_none {d : Date} : d.nextMonth = none ↔ d.year = 9999 ∧ d.month = 12 := by
  have hyear := d.year_range
  have hmonth := d.month_range
  unfold nextMonth
  split_ifs with h₁ h₂
  · simp only [false_iff]
    omega
  · simp only [false_iff]
    omega
  · simp only [true_iff]
    omega

theorem next_eq_none {d : Date} : d.next = none ↔ d = max := by
  unfold next
  split_ifs with h
  · refine iff_of_false nofun ?_
    rintro rfl
    exact absurd h (by decide)
  · rw [nextMonth_eq_none]
    have hday := d.day_range
    obtain ⟨year, month, day, _, _, _⟩ := d
    constructor
    · rintro ⟨rfl, rfl⟩
      have hlast : day = 31 := by
        rw [daysInMonth_december] at h hday
        simp only at h hday
        omega
      subst hlast
      rfl
    · rintro ⟨⟩
      exact ⟨rfl, rfl⟩

theorem midnight_next {d e : Date} (h : d.next = some e) : e.midnight = d.midnight + dayMicros := by
  simp only [midnight, dayNumber, ordinal_next h, Nat.cast_add, Nat.cast_one]
  ring

/-- An instant is on a date from its midnight on, for a day. -/
theorem utcDay_eq_iff {d : Date} {t : Instant} :
    utcDay t = d.dayNumber ↔ d.midnight ≤ t ∧ t < d.midnight + dayMicros := by
  rw [utcDay, Int.ediv_eq_iff_of_pos (show (0 : ℤ) < dayMicros by decide), midnight]

end Date

end GreenGarden
