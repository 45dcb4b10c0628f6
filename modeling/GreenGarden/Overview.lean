/-
GreenGarden/Overview.lean

The figures of the admin dashboard that count orders and money
(`overview/service.py`).  Five queries cut time in three ways: windows from
one midnight to another, days of UTC, and a loop over the dates of the month so
far.  They cut it alike, so the figures agree (`figures_agree`).

The month after the current one is always looked up, and December 9999 has
none: in that month there is no dashboard.
-/
import GreenGarden.Calendar
import GreenGarden.Paging
import GreenGarden.System

namespace GreenGarden

/-- How much there is of everything. -/
structure SummaryStats where
  totalPlants : ℕ
  activePlants : ℕ
  totalCategories : ℕ
  activeCategories : ℕ
  totalCustomers : ℕ
  activeCustomers : ℕ
  totalOrders : ℕ
  pendingOrders : ℕ
  totalRevenue : Decimal
  deriving DecidableEq

/-- Orders of a period, and what the completed ones brought in. -/
structure PeriodStats where
  orders : ℕ
  revenue : Decimal
  deriving DecidableEq

/-- The sales of the day and of the month. -/
structure SalesStats where
  today : PeriodStats
  thisMonth : PeriodStats
  deriving DecidableEq

/-- What one day brought in. -/
structure DayStats where
  date : Date
  orders : ℕ
  revenue : Decimal
  deriving DecidableEq

/-- The figures of the overview. -/
structure OverviewStats where
  summary : SummaryStats
  sales : SalesStats
  ordersByStatus : OrderStatus → ℕ
  revenueByDay : List DayStats

/-- `_money`; `none` is `decimal.InvalidOperation`. -/
def overviewMoney (value : Decimal) : Option Decimal := value.quantize (-2)

/-- Hundredths of the totals of some orders. -/
def amountUnits (orders : List Order) : ℕ := (orders.map fun o => o.totalAmount.units).sum

/-- `COALESCE(SUM(total_amount), 0)`. -/
def sumAmounts (orders : List Order) : Decimal :=
  if orders = [] then .ofInt 0 else .cents (amountUnits orders)

/-- `status == COMPLETED`. -/
def isCompleted (o : Order) : Bool := o.status = .completed

/-- `_load_summary`. -/
def loadSummary (db : Db) : Option SummaryStats := do
  let totalRevenue ← overviewMoney (sumAmounts (db.orders.rows.filter isCompleted))
  return {
    totalPlants := db.plants.rows.length
    activePlants := db.plants.rows.countP Plant.isActive
    totalCategories := db.categories.rows.length
    activeCategories := db.categories.rows.countP Category.isActive
    totalCustomers := db.customers.rows.length
    activeCustomers := db.customers.rows.countP Customer.isActive
    totalOrders := db.orders.rows.length
    pendingOrders := db.orders.rows.countP fun o => o.status = .pending
    totalRevenue := totalRevenue }

/-- `created_at >= start AND created_at < end`. -/
def createdIn (start stop : Instant) (o : Order) : Bool := start ≤ o.createdAt && o.createdAt < stop

/-- `_load_sales`. -/
def loadSales (db : Db) (dayStart dayEnd monthStart monthEnd : Instant) : Option SalesStats := do
  let month := db.orders.rows.filter (createdIn monthStart monthEnd)
  let today := createdIn dayStart dayEnd
  let todayRevenue ← overviewMoney (sumAmounts (month.filter fun o => isCompleted o && today o))
  let monthRevenue ← overviewMoney (sumAmounts (month.filter isCompleted))
  return ⟨⟨month.countP today, todayRevenue⟩, ⟨month.length, monthRevenue⟩⟩

/-- `SELECT key, count(*) GROUP BY key`. -/
def countBy {κ : Type} [DecidableEq κ] (key : Order → κ) (orders : List Order) : List (κ × ℕ) :=
  (orders.map key).dedup.map fun k => (k, orders.countP fun o => key o = k)

/-- `_load_orders_by_status`: zero for every status, then what the query counted. -/
def loadOrdersByStatus (db : Db) : OrderStatus → ℕ :=
  (countBy Order.status db.orders.rows).foldl
    (fun counts row => Function.update counts row.1 row.2) (fun _ => 0)

/-- `by_day`: the days of UTC that orders were created on, with their number and revenue. -/
def byDay (orders : List Order) : Option (List (ℤ × ℕ × Decimal)) :=
  (orders.map fun o => utcDay o.createdAt).dedup.mapM fun day => do
    let ofDay := orders.filter fun o => utcDay o.createdAt = day
    let revenue ← overviewMoney (sumAmounts (ofDay.filter isCompleted))
    return (day, ofDay.length, revenue)

/-- The loop that fills the quiet days in; `none` is `OverflowError`. -/
def daySeries (days : List (ℤ × ℕ × Decimal)) (today current : Date) : Option (List DayStats) :=
  if current.ordinal ≤ today.ordinal then
    match _h : current.next with
    | none => none
    | some tomorrow =>
        let figures := (days.lookup current.dayNumber).getD (0, .cents 0)
        (daySeries days today tomorrow).map (⟨current, figures.1, figures.2⟩ :: ·)
  else some []
termination_by today.ordinal + 1 - current.ordinal
decreasing_by
  rw [Date.ordinal_next _h]
  omega

/-- `_load_revenue_by_day`. -/
def loadRevenueByDay (db : Db) (monthStart dayEnd : Instant) (firstDay today : Date) :
    Option (List DayStats) := do
  let days ← byDay (db.orders.rows.filter (createdIn monthStart dayEnd))
  daySeries days today firstDay

/-- `build_overview` on a date, but for the lists of plants and orders; `none` where it raises. -/
def buildOverview (today : Date) (db : Db) : Option OverviewStats := do
  let firstDay := today.firstOfMonth
  let tomorrow ← today.next
  let nextMonth ← today.nextMonth
  let summary ← loadSummary db
  let sales ← loadSales db today.midnight tomorrow.midnight firstDay.midnight nextMonth.midnight
  let revenueByDay ← loadRevenueByDay db firstDay.midnight tomorrow.midnight firstDay today
  return ⟨summary, sales, loadOrdersByStatus db, revenueByDay⟩

/-- How often a plant was sold, and for how much. -/
structure TopPlantStats where
  plantId : UUID
  plantName : Text
  quantitySold : ℤ
  revenue : Decimal

/-- The items of completed orders, each with its order. -/
def soldItems (db : Db) : List (Order × OrderItem) :=
  (db.orders.rows.filter isCompleted).flatMap fun o => o.items.map (o, ·)

/-- The sales of one plant. -/
def salesOf (db : Db) (plantId : UUID) : List (Order × OrderItem) :=
  (soldItems db).filter fun sale => sale.2.plantId = plantId

/-- Pieces sold. -/
def quantitySold (sales : List (Order × OrderItem)) : ℤ :=
  (sales.map fun sale => sale.2.quantity).sum

/-- Hundredths that sales brought in. -/
def salesUnits (sales : List (Order × OrderItem)) : ℤ :=
  (sales.map fun sale => sale.2.quantity * (sale.2.unitPrice.units : ℤ)).sum

/-- `ORDER BY quantity_sold DESC, revenue DESC`. -/
def soldMore (db : Db) : UUID → UUID → Prop :=
  Paging.thenBy (fun a b => quantitySold (salesOf db b) ≤ quantitySold (salesOf db a))
    (fun a b => salesUnits (salesOf db b) ≤ salesUnits (salesOf db a))

/-- The figures of a plant, under the name of its most recent sale. -/
structure IsTopPlant (db : Db) (id : UUID) (stats : TopPlantStats) : Prop where
  plantId : stats.plantId = id
  plantName : ∃ sale ∈ salesOf db id, stats.plantName = sale.2.plantName ∧
    ∀ other ∈ salesOf db id, other.1.createdAt ≤ sale.1.createdAt
  quantity : stats.quantitySold = quantitySold (salesOf db id)
  revenue : overviewMoney (.cents (salesUnits (salesOf db id))) = some stats.revenue

/-- What `_load_top_plants` may return. -/
def LoadTopPlants (db : Db) (answer : List TopPlantStats) : Prop :=
  ∃ page, Paging.Returns (soldMore db) ((soldItems db).map fun sale => sale.2.plantId).dedup 0 5
    page ∧ List.Forall₂ (IsTopPlant db) page answer

/-! ### Money -/

/-- Hundredths of the completed orders among some. -/
def revenueUnits (orders : List Order) : ℕ := amountUnits (orders.filter isCompleted)

/-- An amount that fits the context is shown as it is. -/
theorem overviewMoney_sumAmounts {orders : List Order}
    (h : amountUnits orders < 10 ^ Decimal.prec) :
    overviewMoney (sumAmounts orders) = some (.cents (amountUnits orders)) := by
  rw [overviewMoney, sumAmounts]
  split
  · rename_i hnil
    rw [hnil]
    decide
  · exact Decimal.quantize_cents (by rwa [Int.natAbs_natCast])

theorem amountUnits_le_of_sublist {l r : List Order} (h : l.Sublist r) :
    amountUnits l ≤ amountUnits r :=
  (h.map _).sum_le_sum fun _ _ => Nat.zero_le _

/-- A table that PostgreSQL can hold does not add up to 28 digits. -/
theorem amountUnits_lt {orders : List Order} (h : orders.length < 2 ^ 48) :
    amountUnits orders < 10 ^ Decimal.prec := by
  have hrow : ∀ n ∈ orders.map fun o => o.totalAmount.units, n ≤ 10 ^ 12 := by
    intro n hn
    obtain ⟨o, -, rfl⟩ := List.mem_map.mp hn
    exact o.totalAmount.lt.le
  have hsum := List.sum_le_card_nsmul _ _ hrow
  rw [List.length_map, smul_eq_mul] at hsum
  calc amountUnits orders ≤ orders.length * 10 ^ 12 := hsum
    _ ≤ 2 ^ 48 * 10 ^ 12 := Nat.mul_le_mul_right _ h.le
    _ < 10 ^ Decimal.prec := by decide

/-! ### Rows by day -/

/-- What orders weigh, day by day, adds up when no day is left out. -/
theorem sum_by_day (weight : Order → ℕ) (first : ℤ) (n : ℕ) (orders : List Order)
    (hdays : ∀ o ∈ orders, first ≤ utcDay o.createdAt ∧ utcDay o.createdAt < first + n) :
    ((List.range n).map fun i : ℕ =>
      ((orders.filter fun o => utcDay o.createdAt = first + i).map weight).sum).sum =
    (orders.map weight).sum := by
  induction orders with
  | nil => simp
  | cons o orders ih =>
    obtain ⟨hlo, hhi⟩ := hdays o List.mem_cons_self
    have hrest := ih fun o' ho' => hdays o' (List.mem_cons_of_mem o ho')
    obtain ⟨d, hd⟩ := Int.eq_ofNat_of_zero_le (sub_nonneg.mpr hlo)
    -- the order counts on its own day and on no other
    have hone : ∀ i : ℕ, (((o :: orders).filter fun o => utcDay o.createdAt = first + i).map
        weight).sum = (if i = d then weight o else 0) +
          ((orders.filter fun o => utcDay o.createdAt = first + i).map weight).sum := by
      intro i
      by_cases hi : i = d
      · have hday : utcDay o.createdAt = first + i := by omega
        simp only [List.filter_cons, hday, decide_true, if_true, if_pos hi, List.map_cons,
          List.sum_cons]
      · have hday : ¬ utcDay o.createdAt = first + i := by omega
        simp only [List.filter_cons, hday, decide_false, Bool.false_eq_true, if_false, if_neg hi,
          zero_add]
    have hown : ((List.range n).map fun i => if i = d then weight o else 0).sum = weight o :=
      (Finset.sum_ite_eq' (Finset.range n) d fun _ => weight o).trans
        (if_pos (Finset.mem_range.mpr (by omega)))
    simp only [hone, List.sum_map_add, hown, hrest, List.map_cons, List.sum_cons]

theorem length_by_day (first : ℤ) (n : ℕ) (orders : List Order)
    (hdays : ∀ o ∈ orders, first ≤ utcDay o.createdAt ∧ utcDay o.createdAt < first + n) :
    ((List.range n).map fun i : ℕ =>
      (orders.filter fun o => utcDay o.createdAt = first + i).length).sum = orders.length := by
  have hsum := sum_by_day (fun _ => 1) first n orders hdays
  simpa only [List.map_const', List.sum_replicate, smul_eq_mul, mul_one] using hsum

/-! ### What the queries return -/

theorem lookup_map_self {β : Type} (g : ℤ → β) (keys : List ℤ) (key : ℤ) :
    (keys.map fun k => (k, g k)).lookup key = if key ∈ keys then some (g key) else none := by
  induction keys with
  | nil => rfl
  | cons k keys ih =>
    rw [List.map_cons, List.lookup_cons, ih]
    by_cases hk : key = k
    · simp [hk]
    · simp [hk, beq_eq_false_iff_ne.mpr hk]

/-- The orders of a day. -/
def ofDay (orders : List Order) (day : ℤ) : List Order :=
  orders.filter fun o => utcDay o.createdAt = day

theorem byDay_eq {orders : List Order} (h : amountUnits orders < 10 ^ Decimal.prec) :
    byDay orders = some ((orders.map fun o => utcDay o.createdAt).dedup.map fun day =>
      (day, (ofDay orders day).length, .cents (revenueUnits (ofDay orders day)))) := by
  show List.mapM _ _ = pure (List.map _ _)
  rw [← List.mapM_pure]
  refine congrArg (List.mapM · _) ?_
  funext day
  have hfits : amountUnits ((ofDay orders day).filter isCompleted) < 10 ^ Decimal.prec :=
    (amountUnits_le_of_sublist (List.filter_sublist.trans List.filter_sublist)).trans_lt h
  have hmoney := overviewMoney_sumAmounts hfits
  rw [ofDay] at hmoney
  simp only [hmoney]
  rfl

/-- A day is shown with the orders created on it, a quiet day with zeros. -/
theorem figures_of_day (orders : List Order) (day : ℤ) :
    (((orders.map fun o => utcDay o.createdAt).dedup.map fun day =>
      (day, (ofDay orders day).length, Decimal.cents (revenueUnits (ofDay orders day)))).lookup
        day).getD (0, .cents 0) =
    ((ofDay orders day).length, .cents (revenueUnits (ofDay orders day))) := by
  rw [lookup_map_self fun day =>
    ((ofDay orders day).length, Decimal.cents (revenueUnits (ofDay orders day)))]
  split
  · rfl
  · rename_i hday
    have hnone : ofDay orders day = [] := by
      rw [ofDay, List.filter_eq_nil_iff]
      intro o ho hkey
      refine hday (List.mem_dedup.mpr (List.mem_map.mpr ⟨o, ho, ?_⟩))
      exact of_decide_eq_true hkey
    rw [hnone]
    rfl

/-- The rest of the month so far, seen from its first date: the next date, or the end. -/
theorem next_of_before {today current : Date} (hyear : current.year = today.year)
    (hmonth : current.month = today.month) (hday : current.day < today.day) :
    ∃ e, current.next = some e ∧ e.year = today.year ∧ e.month = today.month ∧
      e.day = current.day + 1 := by
  have hlt : current.day < daysInMonth current.year current.month := by
    rw [hyear, hmonth]
    exact hday.trans_le today.day_range.2
  exact ⟨⟨current.year, current.month, current.day + 1, current.year_range, current.month_range,
    Nat.le_add_left 1 current.day, hlt⟩, dif_pos hlt, hyear, hmonth, rfl⟩

theorem daySeries_end (days : List (ℤ × ℕ × Decimal)) {today tomorrow : Date}
    (htomorrow : today.next = some tomorrow) : daySeries days today tomorrow = some [] := by
  rw [daySeries, if_neg]
  rw [Date.ordinal_next htomorrow]
  omega

theorem daySeries_cons (days : List (ℤ × ℕ × Decimal)) {today current next : Date}
    {rest : List DayStats} (hle : current.ordinal ≤ today.ordinal)
    (hnext : current.next = some next) (hrest : daySeries days today next = some rest) :
    daySeries days today current = some
      (⟨current, ((days.lookup current.dayNumber).getD (0, .cents 0)).1,
        ((days.lookup current.dayNumber).getD (0, .cents 0)).2⟩ :: rest) := by
  rw [daySeries, if_pos hle]
  split
  · rename_i hnone
    rw [hnext] at hnone
    cases hnone
  · rename_i next' hsome
    obtain rfl := Option.some.inj (hnext.symm.trans hsome)
    rw [hrest]
    rfl

/-- What the loop shows from a date of the month on. -/
structure IsSeries (days : List (ℤ × ℕ × Decimal)) (today current : Date) (n : ℕ)
    (series : List DayStats) : Prop where
  dates : series.map (fun s => (s.date.year, s.date.month, s.date.day)) =
    (List.range' current.day n).map fun day => (today.year, today.month, day)
  dayNumbers : series.map (fun s => s.date.dayNumber) =
    (List.range n).map fun i : ℕ => current.dayNumber + i
  figures : ∀ s ∈ series,
    (s.orders, s.revenue) = (days.lookup s.date.dayNumber).getD (0, .cents 0)
  last : series.getLast?.map DayStats.date = some today

/-- The loop shows the dates left of the month so far, each with its figures. -/
theorem daySeries_eq (days : List (ℤ × ℕ × Decimal)) {today tomorrow : Date}
    (htomorrow : today.next = some tomorrow) (n : ℕ) :
    ∀ current : Date, current.year = today.year → current.month = today.month →
      current.day + n = today.day →
    ∃ series, daySeries days today current = some series ∧
      IsSeries days today current (n + 1) series := by
  induction n with
  | zero =>
    intro current hyear hmonth hday
    obtain rfl : current = today := Date.ext hyear hmonth hday
    refine ⟨_, daySeries_cons days le_rfl htomorrow (daySeries_end days htomorrow), ?_⟩
    exact
      { dates := rfl
        dayNumbers := by simp
        figures := by
          intro s hs
          rw [List.mem_singleton.mp hs]
        last := rfl }
  | succ n ih =>
    intro current hyear hmonth hday
    obtain ⟨e, hnext, heyear, hemonth, heday⟩ := next_of_before hyear hmonth (by omega)
    obtain ⟨rest, hrest, hseries⟩ := ih e heyear hemonth (by omega)
    have hle : current.ordinal ≤ today.ordinal := by
      simp only [Date.ordinal, hyear, hmonth]
      omega
    have hnumber : e.dayNumber = current.dayNumber + 1 := by
      simp only [Date.dayNumber, Date.ordinal_next hnext, Nat.cast_add, Nat.cast_one]
      ring
    refine ⟨_, daySeries_cons days hle hnext hrest, ?_⟩
    exact
      { dates := by
          rw [List.map_cons, hseries.dates, heday, List.range'_succ (n := n + 1), List.map_cons,
            hyear, hmonth]
        dayNumbers := by
          rw [List.map_cons, hseries.dayNumbers, hnumber, List.range_succ_eq_map (n := n + 1),
            List.map_cons, List.map_map]
          simp only [Nat.cast_zero, add_zero, List.cons.injEq, true_and]
          refine List.map_congr_left fun i _ => ?_
          simp only [Function.comp_apply, Nat.cast_succ]
          ring
        figures := by
          intro s hs
          rcases List.mem_cons.mp hs with rfl | hs
          · rfl
          · exact hseries.figures s hs
        last := by
          rcases rest with - | ⟨s, rest⟩
          · cases hseries.last
          · rw [List.getLast?_cons_cons]
            exact hseries.last }

/-! ### The status counts -/

/-- Every status. -/
def OrderStatus.all : List OrderStatus :=
  [.pending, .confirmed, .processing, .shipping, .completed, .cancelled]

/-- Filling in the rows of a query leaves the value of a key that it has one row for. -/
theorem foldl_update_eq (rows : List (OrderStatus × ℕ)) (counts : OrderStatus → ℕ)
    (g : OrderStatus → ℕ) (hrows : ∀ row ∈ rows, row.2 = g row.1) (status : OrderStatus) :
    rows.foldl (fun counts row => Function.update counts row.1 row.2) counts status =
      if status ∈ rows.map Prod.fst then g status else counts status := by
  induction rows generalizing counts with
  | nil => rfl
  | cons row rows ih =>
    rw [List.foldl_cons, ih _ fun r hr => hrows r (List.mem_cons_of_mem row hr)]
    simp only [List.map_cons, List.mem_cons]
    by_cases hlater : status ∈ rows.map Prod.fst
    · rw [if_pos hlater, if_pos (Or.inr hlater)]
    · rw [if_neg hlater]
      by_cases hthis : status = row.1
      · rw [if_pos (Or.inl hthis), hthis, Function.update_self, hrows row List.mem_cons_self]
      · rw [if_neg (by simp [hthis, hlater]), Function.update_of_ne hthis]

theorem loadOrdersByStatus_eq (db : Db) (status : OrderStatus) :
    loadOrdersByStatus db status = db.orders.rows.countP fun o => o.status = status := by
  rw [loadOrdersByStatus, foldl_update_eq _ _
    (fun status => db.orders.rows.countP fun o => o.status = status)]
  · split
    · rfl
    · rename_i hnone
      symm
      rw [List.countP_eq_zero]
      intro o ho hstatus
      refine hnone (List.mem_map.mpr ⟨(status, _), List.mem_map.mpr ⟨status, ?_, rfl⟩, rfl⟩)
      exact List.mem_dedup.mpr (List.mem_map.mpr ⟨o, ho, of_decide_eq_true hstatus⟩)
  · intro row hrow
    obtain ⟨k, -, rfl⟩ := List.mem_map.mp hrow
    rfl

theorem sum_statuses (orders : List Order) :
    (OrderStatus.all.map fun status => orders.countP fun o => o.status = status).sum =
      orders.length := by
  induction orders with
  | nil => rfl
  | cons o orders ih =>
    simp only [List.countP_cons, List.sum_map_add, ih, List.length_cons, Nat.add_right_inj]
    cases o.status <;> decide

/-! ### The figures agree -/

/-- No order is created after a date. -/
def NoneAfter (today : Date) (db : Db) : Prop :=
  ∀ o ∈ db.orders.rows, o.createdAt < today.midnight + dayMicros

/-- The figures of the dashboard agree with one another and with the orders. -/
structure FiguresAgree (today : Date) (db : Db) (overview : OverviewStats) : Prop where
  dates : overview.revenueByDay.map (fun s => (s.date.year, s.date.month, s.date.day)) =
    (List.range' 1 today.day).map fun day => (today.year, today.month, day)
  monthOrders : (overview.revenueByDay.map DayStats.orders).sum = overview.sales.thisMonth.orders
  monthRevenue : (overview.revenueByDay.map fun s => s.revenue.toRat).sum =
    overview.sales.thisMonth.revenue.toRat
  lastIsToday : overview.revenueByDay.getLast? =
    some ⟨today, overview.sales.today.orders, overview.sales.today.revenue⟩
  statuses : (OrderStatus.all.map overview.ordersByStatus).sum = overview.summary.totalOrders
  pending : overview.ordersByStatus .pending = overview.summary.pendingOrders
  atLeastMonth : overview.sales.thisMonth.revenue.toRat ≤ overview.summary.totalRevenue.toRat
  completedTotal : overview.summary.totalRevenue = .cents (revenueUnits db.orders.rows)
  completedMonth : overview.sales.thisMonth.revenue = .cents (revenueUnits
    (db.orders.rows.filter fun o => today.firstOfMonth.midnight ≤ o.createdAt))
  completedDays : ∀ s ∈ overview.revenueByDay,
    s.revenue = .cents (revenueUnits (ofDay db.orders.rows s.date.dayNumber))
  completedTop : ∀ answer, LoadTopPlants db answer → ∀ stats ∈ answer,
    stats.revenue = .cents (salesUnits (salesOf db stats.plantId))

section Agree

variable {today tomorrow nextMonth : Date} {db : Db}

/-- The orders of the month so far. -/
def monthOrders (today : Date) (db : Db) : List Order :=
  db.orders.rows.filter fun o => today.firstOfMonth.midnight ≤ o.createdAt

theorem day_arith {first day t : ℤ} (hlo : first * dayMicros ≤ t)
    (hhi : t < day * dayMicros + dayMicros) :
    first ≤ t / dayMicros ∧ t / dayMicros < day + 1 := by
  have hpos : (0 : ℤ) < dayMicros := by decide
  refine ⟨(Int.le_ediv_iff_mul_le hpos).mpr hlo, (Int.ediv_lt_iff_lt_mul hpos).mpr ?_⟩
  rwa [add_mul, one_mul]

theorem dayNumber_first (today : Date) :
    today.dayNumber + 1 = today.firstOfMonth.dayNumber + today.day := by
  have hfirst := today.ordinal_firstOfMonth
  simp only [Date.dayNumber]
  omega

/-- The month ends no sooner than today. -/
theorem tomorrow_le_nextMonth (hnext : today.nextMonth = some nextMonth) :
    today.midnight + dayMicros ≤ nextMonth.midnight := by
  have hfirst := today.ordinal_firstOfMonth
  have hday := today.day_range.2
  have hordinal := Date.ordinal_nextMonth hnext
  have hnumber : today.dayNumber + 1 ≤ nextMonth.dayNumber := by
    simp only [Date.dayNumber]
    omega
  calc today.midnight + dayMicros = (today.dayNumber + 1) * dayMicros := by
        rw [Date.midnight, add_mul, one_mul]
    _ ≤ nextMonth.midnight := mul_le_mul_of_nonneg_right hnumber (by decide)

/-- Where nothing is later than today, every window from the first of the month that ends after
today holds the orders of the month so far. -/
theorem filter_createdIn (hpast : NoneAfter today db) {stop : Instant}
    (hstop : today.midnight + dayMicros ≤ stop) :
    db.orders.rows.filter (createdIn today.firstOfMonth.midnight stop) = monthOrders today db := by
  refine List.filter_congr fun o ho => ?_
  rw [createdIn, decide_eq_true (lt_of_lt_of_le (hpast o ho) hstop), Bool.and_true]

theorem createdIn_today (htomorrow : today.next = some tomorrow) (o : Order) :
    createdIn today.midnight tomorrow.midnight o =
      decide (utcDay o.createdAt = today.dayNumber) := by
  rw [createdIn, Date.midnight_next htomorrow, Bool.eq_iff_iff, Bool.and_eq_true, decide_eq_true_eq,
    decide_eq_true_eq, decide_eq_true_eq, Date.utcDay_eq_iff]

/-- The orders of the month so far are of its days up to today. -/
theorem monthOrders_days (hpast : NoneAfter today db) : ∀ o ∈ monthOrders today db,
    today.firstOfMonth.dayNumber ≤ utcDay o.createdAt ∧
      utcDay o.createdAt < today.firstOfMonth.dayNumber + today.day := by
  intro o ho
  obtain ⟨hmem, hlo⟩ := List.mem_filter.mp ho
  rw [← dayNumber_first]
  exact day_arith (of_decide_eq_true hlo) (hpast o hmem)

/-- From the first of the month on a day has the same orders in the month as in the table. -/
theorem ofDay_monthOrders {day : ℤ} (hday : today.firstOfMonth.dayNumber ≤ day) :
    ofDay (monthOrders today db) day = ofDay db.orders.rows day := by
  rw [ofDay, monthOrders, List.filter_filter, ofDay]
  refine List.filter_congr fun o _ => ?_
  rw [Bool.and_eq_left_iff_imp, decide_eq_true_eq, decide_eq_true_eq]
  rintro rfl
  exact (mul_le_mul_of_nonneg_right hday (by decide)).trans
    (Int.ediv_mul_le (o.createdAt : ℤ) (by decide))

/-- The summary by exact arithmetic. -/
def exactSummary (db : Db) : SummaryStats where
  totalPlants := db.plants.rows.length
  activePlants := db.plants.rows.countP Plant.isActive
  totalCategories := db.categories.rows.length
  activeCategories := db.categories.rows.countP Category.isActive
  totalCustomers := db.customers.rows.length
  activeCustomers := db.customers.rows.countP Customer.isActive
  totalOrders := db.orders.rows.length
  pendingOrders := db.orders.rows.countP fun o => o.status = .pending
  totalRevenue := .cents (revenueUnits db.orders.rows)

/-- Number and revenue of some orders by exact arithmetic. -/
def exactPeriod (orders : List Order) : PeriodStats := ⟨orders.length, .cents (revenueUnits orders)⟩

/-- The days that some orders were created on, by exact arithmetic. -/
def exactDays (orders : List Order) : List (ℤ × ℕ × Decimal) :=
  (orders.map fun o => utcDay o.createdAt).dedup.map fun day =>
    (day, (ofDay orders day).length, .cents (revenueUnits (ofDay orders day)))

theorem money_of_sublist (hrows : db.orders.rows.length < 2 ^ 48) {orders : List Order}
    (hsub : orders.Sublist db.orders.rows) :
    overviewMoney (sumAmounts (orders.filter isCompleted)) = some (.cents (revenueUnits orders)) :=
  overviewMoney_sumAmounts
    ((amountUnits_le_of_sublist (List.filter_sublist.trans hsub)).trans_lt (amountUnits_lt hrows))

theorem loadSummary_eq (hrows : db.orders.rows.length < 2 ^ 48) :
    loadSummary db = some (exactSummary db) := by
  rw [loadSummary, money_of_sublist hrows (List.Sublist.refl _)]
  rfl

theorem loadSales_eq (hrows : db.orders.rows.length < 2 ^ 48) (hpast : NoneAfter today db)
    (htomorrow : today.next = some tomorrow) (hnext : today.nextMonth = some nextMonth) :
    loadSales db today.midnight tomorrow.midnight today.firstOfMonth.midnight nextMonth.midnight =
      some ⟨exactPeriod (ofDay (monthOrders today db) today.dayNumber),
        exactPeriod (monthOrders today db)⟩ := by
  have hmonth : (monthOrders today db).Sublist db.orders.rows := List.filter_sublist
  have htoday : (ofDay (monthOrders today db) today.dayNumber).Sublist db.orders.rows :=
    List.filter_sublist.trans hmonth
  have hfilter : ((monthOrders today db).filter fun o =>
      isCompleted o && createdIn today.midnight tomorrow.midnight o) =
      (ofDay (monthOrders today db) today.dayNumber).filter isCompleted := by
    simp only [ofDay, List.filter_filter, createdIn_today htomorrow]
  have hcount : (monthOrders today db).countP (createdIn today.midnight tomorrow.midnight) =
      (ofDay (monthOrders today db) today.dayNumber).length := by
    rw [ofDay, List.countP_eq_length_filter]
    exact congrArg List.length (List.filter_congr fun o _ => createdIn_today htomorrow o)
  rw [loadSales, filter_createdIn hpast (tomorrow_le_nextMonth hnext), hfilter, hcount,
    money_of_sublist hrows htoday, money_of_sublist hrows hmonth]
  rfl

theorem loadRevenueByDay_eq (hrows : db.orders.rows.length < 2 ^ 48) (hpast : NoneAfter today db)
    (htomorrow : today.next = some tomorrow) : ∃ series,
    loadRevenueByDay db today.firstOfMonth.midnight tomorrow.midnight today.firstOfMonth today =
      some series ∧
    IsSeries (exactDays (monthOrders today db)) today today.firstOfMonth today.day series := by
  have hmonth : (monthOrders today db).Sublist db.orders.rows := List.filter_sublist
  obtain ⟨n, hn⟩ : ∃ n, today.day = n + 1 := Nat.exists_eq_add_of_le' today.day_range.1
  obtain ⟨series, hseries, his⟩ := daySeries_eq (exactDays (monthOrders today db)) htomorrow n
    today.firstOfMonth rfl rfl (by rw [hn, Nat.add_comm]; rfl)
  refine ⟨series, ?_, by rw [hn]; exact his⟩
  rw [loadRevenueByDay, filter_createdIn hpast (Date.midnight_next htomorrow).ge,
    byDay_eq ((amountUnits_le_of_sublist hmonth).trans_lt (amountUnits_lt hrows))]
  exact hseries

/-- What `build_overview` returns. -/
theorem buildOverview_eq (hrows : db.orders.rows.length < 2 ^ 48) (hpast : NoneAfter today db)
    (hmonth : ¬ (today.year = 9999 ∧ today.month = 12)) : ∃ series,
    buildOverview today db = some ⟨exactSummary db,
      ⟨exactPeriod (ofDay (monthOrders today db) today.dayNumber),
        exactPeriod (monthOrders today db)⟩, loadOrdersByStatus db, series⟩ ∧
    IsSeries (exactDays (monthOrders today db)) today today.firstOfMonth today.day series := by
  obtain ⟨nextMonth, hnext⟩ := Option.ne_none_iff_exists'.mp (mt Date.nextMonth_eq_none.mp hmonth)
  have hlast : today.next ≠ none := by
    intro hnone
    obtain rfl := Date.next_eq_none.mp hnone
    exact hmonth ⟨rfl, rfl⟩
  obtain ⟨tomorrow, htomorrow⟩ := Option.ne_none_iff_exists'.mp hlast
  obtain ⟨series, hseries, his⟩ := loadRevenueByDay_eq hrows hpast htomorrow
  refine ⟨series, ?_, his⟩
  rw [buildOverview, htomorrow, hnext, loadSummary_eq hrows]
  simp only [Option.bind_eq_bind, Option.bind_some]
  rw [loadSales_eq hrows hpast htomorrow hnext, hseries]
  rfl

/-- What an entry of the series shows. -/
theorem IsSeries.entry {orders : List Order} {current : Date} {n : ℕ} {series : List DayStats}
    (h : IsSeries (exactDays orders) today current n series) {s : DayStats} (hs : s ∈ series) :
    s.orders = (ofDay orders s.date.dayNumber).length ∧
      s.revenue = .cents (revenueUnits (ofDay orders s.date.dayNumber)) := by
  have hfigures := (h.figures s hs).trans (figures_of_day orders s.date.dayNumber)
  exact ⟨congrArg Prod.fst hfigures, congrArg Prod.snd hfigures⟩

theorem IsSeries.sum {orders : List Order} {n : ℕ} {series : List DayStats} {current : Date}
    (h : IsSeries (exactDays orders) today current n series) (figure : DayStats → ℕ)
    (weight : List Order → ℕ)
    (hfigure : ∀ s ∈ series, figure s = weight (ofDay orders s.date.dayNumber)) :
    (series.map figure).sum =
      ((List.range n).map fun i : ℕ => weight (ofDay orders (current.dayNumber + i))).sum := by
  have hmap : series.map figure =
      (series.map fun s => s.date.dayNumber).map fun day => weight (ofDay orders day) := by
    rw [List.map_map]
    exact List.map_congr_left hfigure
  rw [hmap, h.dayNumbers, List.map_map]
  rfl

theorem toRat_sum (units : List ℕ) :
    (units.map fun n : ℕ => (Decimal.cents n).toRat).sum = (Decimal.cents units.sum).toRat := by
  induction units with
  | nil => simp [Decimal.toRat, Decimal.cents]
  | cons n units ih =>
    rw [List.map_cons, List.sum_cons, ih, List.sum_cons]
    simp only [Decimal.toRat, Decimal.cents, Nat.cast_add, Int.cast_add]
    ring

theorem toRat_le {m n : ℕ} (h : m ≤ n) : (Decimal.cents m).toRat ≤ (Decimal.cents n).toRat := by
  have hpow : (0 : ℚ) ≤ 10 ^ (-2 : ℤ) := by positivity
  have hcast : ((m : ℤ) : ℚ) ≤ ((n : ℤ) : ℚ) := by exact_mod_cast h
  exact mul_le_mul_of_nonneg_right hcast hpow

/-- The revenue of a top seller is not rounded. -/
theorem topPlants_exact {answer : List TopPlantStats} (h : LoadTopPlants db answer)
    {stats : TopPlantStats} (hs : stats ∈ answer) :
    stats.revenue = .cents (salesUnits (salesOf db stats.plantId)) := by
  obtain ⟨page, -, hpage⟩ := h
  obtain ⟨i, hi, rfl⟩ := List.mem_iff_getElem.mp hs
  have htop := List.Forall₂.get hpage (by rw [hpage.length_eq]; exact hi) hi
  have hrevenue := htop.revenue
  rw [← htop.plantId, overviewMoney, Decimal.quantize] at hrevenue
  split at hrevenue
  · have hexact := (Option.some.inj hrevenue).symm
    rw [Decimal.cents, Decimal.rescale_self] at hexact
    exact hexact
  · cases hrevenue

/-- **The figures of the dashboard agree**, on every date but those of December 9999. -/
theorem figures_agree (hrows : db.orders.rows.length < 2 ^ 48) (hpast : NoneAfter today db)
    (hmonth : ¬ (today.year = 9999 ∧ today.month = 12)) :
    ∃ overview, buildOverview today db = some overview ∧ FiguresAgree today db overview := by
  obtain ⟨series, hoverview, his⟩ := buildOverview_eq hrows hpast hmonth
  refine ⟨_, hoverview, ?_⟩
  have hentry : ∀ s ∈ series, s.orders = (ofDay (monthOrders today db) s.date.dayNumber).length ∧
      s.revenue = .cents (revenueUnits (ofDay (monthOrders today db) s.date.dayNumber)) :=
    fun s hs => his.entry hs
  have hdays := monthOrders_days hpast
  exact
    { dates := his.dates
      monthOrders := by
        rw [his.sum DayStats.orders List.length fun s hs => (hentry s hs).1]
        exact length_by_day _ _ _ hdays
      monthRevenue := by
        have hrevenue : series.map (fun s => s.revenue.toRat) =
            (series.map fun s => revenueUnits (ofDay (monthOrders today db)
              s.date.dayNumber)).map fun n : ℕ => (Decimal.cents n).toRat := by
          rw [List.map_map]
          exact List.map_congr_left fun s hs => by rw [(hentry s hs).2]; rfl
        have hsum := his.sum
          (fun s => revenueUnits (ofDay (monthOrders today db) s.date.dayNumber))
          revenueUnits fun _ _ => rfl
        have hmonthDays := sum_by_day (fun o => o.totalAmount.units)
          today.firstOfMonth.dayNumber today.day ((monthOrders today db).filter isCompleted)
          fun o ho => hdays o (List.mem_of_mem_filter ho)
        have hswap : ∀ day, revenueUnits (ofDay (monthOrders today db) day) =
            ((((monthOrders today db).filter isCompleted).filter fun o =>
              utcDay o.createdAt = day).map fun o => o.totalAmount.units).sum := by
          intro day
          rw [revenueUnits, amountUnits, ofDay, List.filter_comm]
        simp only [hswap] at hsum
        rw [hrevenue, toRat_sum]
        simp only [hswap, hsum, hmonthDays]
        rfl
      lastIsToday := by
        obtain ⟨s, hlast, hdate⟩ := Option.map_eq_some_iff.mp his.last
        obtain ⟨horders, hrevenue⟩ := hentry s (List.mem_of_getLast? hlast)
        obtain ⟨date, orders, revenue⟩ := s
        simp only at hdate horders hrevenue
        subst hdate
        rw [hlast, horders, hrevenue]
        rfl
      statuses := by
        rw [show loadOrdersByStatus db = _ from funext (loadOrdersByStatus_eq db)]
        exact sum_statuses db.orders.rows
      pending := loadOrdersByStatus_eq db .pending
      atLeastMonth := toRat_le
        (amountUnits_le_of_sublist (List.filter_sublist.filter isCompleted))
      completedTotal := rfl
      completedMonth := rfl
      completedDays := by
        intro s hs
        have hfirst : today.firstOfMonth.dayNumber ≤ s.date.dayNumber := by
          have hmem := List.mem_map_of_mem (f := fun s : DayStats => s.date.dayNumber) hs
          rw [his.dayNumbers] at hmem
          obtain ⟨i, -, hi⟩ := List.mem_map.mp hmem
          rw [← hi]
          exact le_add_of_nonneg_right (Int.natCast_nonneg i)
        rw [(hentry s hs).2, ofDay_monthOrders hfirst]
      completedTop := fun _ hanswer _ hs => topPlants_exact hanswer hs }

end Agree

/-- The last day of 2024. -/
def newYearsEve : Date :=
  { Date.max with year := 2024, year_range := by decide, day_range := by decide }

/-- An order of 200000.50 that was completed. -/
def completedAt (createdAt : Instant) : Order :=
  { fernOrder with status := .completed, createdAt := createdAt }

/-- Orders on both sides of the midnights that the month and its last day start at. -/
def yearEndOrders : Db :=
  { Db.ferns with
    orders := (((((Table.empty
      |>.insert 1 (completedAt (newYearsEve.firstOfMonth.midnight - 1)))
      |>.insert 2 (completedAt newYearsEve.firstOfMonth.midnight))
      |>.insert 3 (completedAt (newYearsEve.midnight - 1)))
      |>.insert 4 (completedAt newYearsEve.midnight))
      |>.insert 5 { fernOrder with createdAt := newYearsEve.midnight })
      |>.insert 6 (completedAt (newYearsEve.midnight + dayMicros - 1)) }

/-- The dashboard of New Year's Eve: five of the six orders are of the month, three of them of the
day, one of which brought nothing in. -/
theorem figures_agree_year_end :
    ∃ overview, buildOverview newYearsEve yearEndOrders = some overview ∧
      FiguresAgree newYearsEve yearEndOrders overview ∧
      overview.sales = ⟨⟨3, .cents 40000100⟩, ⟨5, .cents 80000200⟩⟩ ∧
      overview.summary.totalRevenue = .cents 100000250 := by
  have hrows : yearEndOrders.orders.rows.length < 2 ^ 48 := by decide +kernel
  have hpast : NoneAfter newYearsEve yearEndOrders := by
    unfold NoneAfter
    decide +kernel
  have hmonth : ¬ (newYearsEve.year = 9999 ∧ newYearsEve.month = 12) := by decide
  obtain ⟨overview, hoverview, hagree⟩ := figures_agree hrows hpast hmonth
  have htoday : exactPeriod (ofDay (monthOrders newYearsEve yearEndOrders) newYearsEve.dayNumber) =
      ⟨3, .cents 40000100⟩ := by decide +kernel
  have hthisMonth : exactPeriod (monthOrders newYearsEve yearEndOrders) =
      ⟨5, .cents 80000200⟩ := by decide +kernel
  have htotal : (exactSummary yearEndOrders).totalRevenue = .cents 100000250 := by decide +kernel
  obtain ⟨series, heq, -⟩ := buildOverview_eq hrows hpast hmonth
  obtain rfl := Option.some.inj (hoverview.symm.trans heq)
  rw [htoday, hthisMonth] at hoverview hagree
  exact ⟨_, hoverview, hagree, rfl, htotal⟩

/-- In December 9999 there is no dashboard, not even of an empty shop. -/
theorem no_overview_in_last_month :
    NoneAfter ⟨9999, 12, 1, by decide, by decide, by decide⟩ Db.empty ∧
      ¬ ∃ overview, buildOverview ⟨9999, 12, 1, by decide, by decide, by decide⟩ Db.empty =
          some overview ∧
        FiguresAgree ⟨9999, 12, 1, by decide, by decide, by decide⟩ Db.empty overview := by
  refine ⟨nofun, ?_⟩
  rintro ⟨overview, hoverview, -⟩
  have hnone : buildOverview ⟨9999, 12, 1, by decide, by decide, by decide⟩ Db.empty = none := rfl
  rw [hnone] at hoverview
  cases hoverview

end GreenGarden
