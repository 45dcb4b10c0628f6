/-
GreenGarden/OrderDates.lean

The date filter of the order list (`orders/service.py`: `_apply_filters`).

`date_from` and `date_to` are days of UTC, both included, and the filter
compares instants with the midnights where they start and end.
`matches_eq` says that this is a comparison of days, and `dayNumber_le_iff`
that days are compared as dates.  The day after `date_to` is needed for it, so
the last date that there is cannot be asked for (`order_dates_iff`).
-/
import GreenGarden.Listings

namespace GreenGarden

/-! ### Dates in the order of the calendar -/

namespace Date

/-- No later in the calendar. -/
def OnOrBefore (d e : Date) : Prop :=
  d.year < e.year ∨ d.year = e.year ∧ (d.month < e.month ∨ d.month = e.month ∧ d.day ≤ e.day)

theorem daysBeforeYear_mono {y z : ℕ} (hy : 1 ≤ y) (h : y ≤ z) :
    daysBeforeYear y ≤ daysBeforeYear z := by
  induction z, h using Nat.le_induction with
  | base => exact le_rfl
  | succ z hz ih =>
    rw [daysBeforeYear_succ (hy.trans hz), add_assoc]
    exact ih.trans (Nat.le_add_right _ _)

theorem daysBeforeMonth_mono (year : ℕ) {m n : ℕ} (hm : 1 ≤ m) (h : m ≤ n) :
    daysBeforeMonth year m ≤ daysBeforeMonth year n := by
  induction n, h using Nat.le_induction with
  | base => exact le_rfl
  | succ n hn ih =>
    rw [daysBeforeMonth_succ year (hm.trans hn)]
    exact ih.trans (Nat.le_add_right _ _)

/-- A date comes before the dates of later months. -/
theorem ordinal_lt_of_month_lt {d e : Date} (hyear : d.year = e.year) (hmonth : d.month < e.month) :
    d.ordinal < e.ordinal := by
  have hmonths := daysBeforeMonth_mono e.year (Nat.le_add_left 1 d.month) hmonth
  rw [daysBeforeMonth_succ e.year d.month_range.1] at hmonths
  have hday := d.day_range.2
  have hday' := e.day_range.1
  rw [ordinal, ordinal, hyear]
  rw [hyear] at hday
  omega

/-- A date comes before the dates of later years. -/
theorem ordinal_lt_of_year_lt {d e : Date} (hyear : d.year < e.year) : d.ordinal < e.ordinal := by
  have hyears := daysBeforeYear_mono (Nat.le_add_left 1 d.year) hyear
  rw [daysBeforeYear_succ d.year_range.1] at hyears
  have hday := d.day_range.2
  have hday' := e.day_range.1
  have hmonth : daysBeforeMonth d.year d.month + d.day ≤ daysBeforeMonth d.year 12 + 31 := by
    rcases d.month_range.2.lt_or_eq with hlt | heq
    · have hmonths := daysBeforeMonth_mono d.year (Nat.le_add_left 1 d.month) hlt
      rw [daysBeforeMonth_succ d.year d.month_range.1] at hmonths
      omega
    · rw [heq, daysInMonth_december] at hday
      rw [heq]
      omega
  rw [ordinal, ordinal]
  omega

theorem ordinal_le_iff {d e : Date} : d.ordinal ≤ e.ordinal ↔ d.OnOrBefore e := by
  rw [OnOrBefore]
  rcases lt_trichotomy d.year e.year with hlt | hyear | hgt
  · exact iff_of_true (ordinal_lt_of_year_lt hlt).le (.inl hlt)
  · rcases lt_trichotomy d.month e.month with hlt | hmonth | hgt
    · exact iff_of_true (ordinal_lt_of_month_lt hyear hlt).le (.inr ⟨hyear, .inl hlt⟩)
    · rw [ordinal, ordinal, hyear, hmonth]
      omega
    · refine iff_of_false (ordinal_lt_of_month_lt hyear.symm hgt).not_ge ?_
      omega
  · refine iff_of_false (ordinal_lt_of_year_lt hgt).not_ge ?_
    omega

theorem dayNumber_le_iff {d e : Date} : d.dayNumber ≤ e.dayNumber ↔ d.OnOrBefore e := by
  rw [← ordinal_le_iff, dayNumber, dayNumber]
  omega

/-! ### Instants and days -/

theorem midnight_le_iff {d : Date} {t : Instant} : d.midnight ≤ t ↔ d.dayNumber ≤ utcDay t :=
  (Int.le_ediv_iff_mul_le (show (0 : ℤ) < dayMicros by decide)).symm

theorem lt_midnight_iff {d : Date} {t : Instant} :
    t < d.midnight + dayMicros ↔ utcDay t ≤ d.dayNumber := by
  have hnext : d.midnight + dayMicros = (d.dayNumber + 1) * dayMicros := by
    rw [midnight, add_mul, one_mul]
  rw [hnext, ← Int.lt_add_one_iff]
  exact (Int.ediv_lt_iff_lt_mul (show (0 : ℤ) < dayMicros by decide)).symm

end Date

/-! ### The filter -/

/-- The day of UTC that the order was created on is one of the days asked for. -/
def createdBetween (dateFrom dateTo : Option Date) (row : UUID × Order) : Bool :=
  dateFrom.all (fun day => day.dayNumber ≤ utcDay row.2.createdAt) &&
  dateTo.all fun day => utcDay row.2.createdAt ≤ day.dayNumber

/-- **Days, not instants**: the filters ask for the days between the two dates, next to what else
they ask for. -/
theorem OrderFilters.matches_eq (locale : DbLocale) (db : Db) (filters : OrderFilters)
    (row : UUID × Order) :
    filters.matches locale db row =
      ({ filters with dateFrom := none, dateTo := none }.matches locale db row &&
        createdBetween filters.dateFrom filters.dateTo row) := by
  simp only [OrderFilters.matches, OrderFilters.apply, createdBetween, Date.midnight_le_iff,
    Date.lt_midnight_iff, Option.all_none, Bool.and_true, Bool.and_assoc]

/-- Between two days is between two dates of the calendar. -/
theorem createdBetween_iff {dateFrom dateTo : Option Date} {row : UUID × Order} {date : Date}
    (hdate : utcDay row.2.createdAt = date.dayNumber) :
    createdBetween dateFrom dateTo row = true ↔
      (∀ day ∈ dateFrom, day.OnOrBefore date) ∧ ∀ day ∈ dateTo, date.OnOrBefore day := by
  rw [createdBetween, hdate, Bool.and_eq_true, Option.all_eq_true, Option.all_eq_true]
  simp only [decide_eq_true_eq, Date.dayNumber_le_iff]
  rfl

/-- The filter by dates alone is exact, but for the last date there is: it lets through the orders
of the dates from the one to the other. -/
theorem order_dates_iff (locale : DbLocale) (db : Db) (dateFrom dateTo : Option Date)
    {pageSize : ℕ} (hsize : 0 < pageSize) :
    ((∃ listing, listOrders locale db ⟨none, none, none, dateFrom, dateTo⟩ = some listing ∧
      listing.Gives pageSize (db.orders.entries.filter (createdBetween dateFrom dateTo))) ↔
    dateTo ≠ some Date.max) ∧
    ∀ (row : UUID × Order) (date : Date), utcDay row.2.createdAt = date.dayNumber →
      (createdBetween dateFrom dateTo row = true ↔
        (∀ day ∈ dateFrom, day.OnOrBefore date) ∧ ∀ day ∈ dateTo, date.OnOrBefore day) := by
  refine ⟨?_, fun _ _ => createdBetween_iff⟩
  rw [← listOrders_gives_iff locale db ⟨none, none, none, dateFrom, dateTo⟩ hsize]
  have hmatches : OrderFilters.matches locale db ⟨none, none, none, dateFrom, dateTo⟩
      = createdBetween dateFrom dateTo := by
    funext row
    rw [OrderFilters.matches_eq]
    rfl
  rw [hmatches]

/-- The second of September 2025. -/
def nationalDay : Date := ⟨2025, 9, 2, by decide, by decide, by decide⟩

/-- Orders in the last instant before the day, in its first and its last, and in the first after. -/
def aroundNationalDay : Db :=
  { Db.ferns with
    orders := (((Table.empty
      |>.insert 1 { fernOrder with createdAt := nationalDay.midnight - 1 })
      |>.insert 2 { fernOrder with createdAt := nationalDay.midnight })
      |>.insert 3 { fernOrder with createdAt := nationalDay.midnight + dayMicros - 1 })
      |>.insert 4 { fernOrder with createdAt := nationalDay.midnight + dayMicros } }

/-- The orders of one day, a page each: the second and the third. -/
theorem order_dates_one_day :
    (∃ listing, listOrders cLocale aroundNationalDay
        ⟨none, none, none, some nationalDay, some nationalDay⟩ = some listing ∧
      listing.Gives 1 (aroundNationalDay.orders.entries.filter
        (createdBetween (some nationalDay) (some nationalDay)))) ∧
    (aroundNationalDay.orders.entries.filter
      (createdBetween (some nationalDay) (some nationalDay))).map Prod.fst = [2, 3] :=
  ⟨(order_dates_iff cLocale aroundNationalDay (some nationalDay) (some nationalDay)
    Nat.one_pos).1.mpr (by decide), by decide +kernel⟩

/-- Orders up to the last date cannot be listed. -/
theorem last_date_fails :
    ¬ ∃ listing, listOrders cLocale Db.empty ⟨none, none, none, none, some Date.max⟩
      = some listing ∧
      listing.Gives 1 (Db.empty.orders.entries.filter (createdBetween none (some Date.max))) := by
  rintro ⟨listing, hlisting, -⟩
  cases hlisting

end GreenGarden
