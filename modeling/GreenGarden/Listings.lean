/-
GreenGarden/Listings.lean

The paged listings of the admin panel (`orders/service.py`, `plants/service.py`,
`customers/service.py`, `admins/service.py`).  A listing counts the rows its
filters let through and reads one page of them, sorted by its keys.

Orders, plants and customers are sorted by their id last, so that no two rows
tie and the pages hold every row once.  Admins are sorted by `created_at`
alone: a page that ends between two admins created at the same moment may show
one of them twice and leave another out.
-/
import GreenGarden.Admins
import GreenGarden.Calendar
import GreenGarden.Paging
import GreenGarden.Postgres
import GreenGarden.System

namespace GreenGarden

/-! ### Listings -/

/-- One page of a listing and the number of all its rows. -/
structure Page (α : Type) where
  items : List α
  total : ℕ

/-- The rows that the filters let through, and the order of the sort keys. -/
structure Listing (α : Type) where
  rows : List α
  before : α → α → Prop

namespace Listing

variable {α : Type}

/-- What a page of a listing may be answered with. -/
def Answers (l : Listing α) (page pageSize : ℕ) (answer : Page α) : Prop :=
  answer.total = l.rows.length ∧
    Paging.Returns l.before l.rows ((page - 1) * pageSize) pageSize answer.items

/-- Pages 1 to `ceil(total / pageSize)`, one after the other. -/
def concat (answers : ℕ → Page α) (pageSize : ℕ) : List α :=
  (List.range (Paging.pageCount (answers 1).total pageSize)).flatMap fun k =>
    (answers (k + 1)).items

/-- However the pages are answered, they give `rows` once each, and `total` is their number. -/
def Gives (l : Listing α) (pageSize : ℕ) (rows : List α) : Prop :=
  ∀ answers : ℕ → Page α, (∀ page, 1 ≤ page → l.Answers page pageSize (answers page)) →
    (concat answers pageSize).Perm rows ∧ ∀ page, 1 ≤ page → (answers page).total = rows.length

theorem exists_returns (l : Listing α) [Std.Total l.before] [IsTrans α l.before]
    (offset limit : ℕ) : ∃ page, Paging.Returns l.before l.rows offset limit page := by
  classical
  exact ⟨_, l.rows.insertionSort l.before, List.perm_insertionSort l.before l.rows,
    List.pairwise_insertionSort l.before l.rows, rfl⟩

/-- A listing gives its rows when its pages hold every row once. -/
theorem gives_iff (l : Listing α) [Std.Total l.before] [IsTrans α l.before] (pageSize : ℕ) :
    l.Gives pageSize l.rows ↔ Paging.Exact l.before l.rows pageSize := by
  constructor
  · intro hgives pages hpages
    have hpage : ∀ k, ∃ page, Paging.Returns l.before l.rows (k * pageSize) pageSize page ∧
        (k < Paging.pageCount l.rows.length pageSize → page = pages k) := by
      intro k
      by_cases hk : k < Paging.pageCount l.rows.length pageSize
      · exact ⟨pages k, hpages k hk, fun _ => rfl⟩
      · obtain ⟨page, hreturns⟩ := l.exists_returns (k * pageSize) pageSize
        exact ⟨page, hreturns, fun h => absurd h hk⟩
    choose page hreturns hsame using hpage
    have hperm := (hgives (fun k => ⟨page (k - 1), l.rows.length⟩)
      fun k _ => ⟨rfl, hreturns (k - 1)⟩).1
    simp only [concat, Nat.add_sub_cancel] at hperm
    have hpages' : (List.range (Paging.pageCount l.rows.length pageSize)).flatMap page =
        (List.range (Paging.pageCount l.rows.length pageSize)).flatMap pages := by
      simp only [List.flatMap]
      congr 1
      exact List.map_congr_left fun k hk => hsame k (List.mem_range.mp hk)
    rw [← hpages']
    exact hperm
  · intro hexact answers hanswers
    refine ⟨?_, fun page hpage => (hanswers page hpage).1⟩
    rw [concat, (hanswers 1 le_rfl).1]
    apply hexact
    intro k _
    have hreturns := (hanswers (k + 1) (Nat.succ_le_succ (Nat.zero_le k))).2
    rw [Nat.add_sub_cancel] at hreturns
    exact hreturns

end Listing

/-! ### Orders -/

/-- The filters of `list_orders`. -/
structure OrderFilters where
  search : Option Text
  status : Option OrderStatus
  customerId : Option UUID
  dateFrom : Option Date
  dateTo : Option Date

/-- The pattern a listing searches for. -/
def searchPattern (search : Text) : Text := '%' :: strip search ++ ['%']

/-- `_apply_filters` of orders, `dateEnd` being the day after `date_to`. -/
def OrderFilters.apply (locale : DbLocale) (db : Db) (filters : OrderFilters)
    (dateEnd : Option Date) (row : UUID × Order) : Bool :=
  (match filters.search with
    | none => true
    | some [] => true
    | some search =>
        (db.customers.get row.2.customerId).any fun customer =>
          locale.ilike row.2.orderNumber (searchPattern search) ||
          locale.ilike customer.phone (searchPattern search) ||
          locale.ilike customer.name (searchPattern search)) &&
  filters.status.all (row.2.status = ·) &&
  filters.customerId.all (row.2.customerId = ·) &&
  filters.dateFrom.all (fun day => day.midnight ≤ row.2.createdAt) &&
  dateEnd.all fun day => row.2.createdAt < day.midnight

/-- The day after `date_to`, if there is a `date_to`. -/
def OrderFilters.dateEnd (filters : OrderFilters) : Option (Option Date) :=
  match filters.dateTo with
  | none => some none
  | some day => day.next.map some

/-- The orders that the filters ask for, `date_to` included. -/
def OrderFilters.matches (locale : DbLocale) (db : Db) (filters : OrderFilters)
    (row : UUID × Order) : Bool :=
  filters.apply locale db none row &&
  filters.dateTo.all fun day => row.2.createdAt < day.midnight + dayMicros

/-- `list_orders`: newest first, then by id; without a result when the day after `date_to`
overflows. -/
def listOrders (locale : DbLocale) (db : Db) (filters : OrderFilters) :
    Option (Listing (UUID × Order)) :=
  filters.dateEnd.map fun dateEnd =>
    { rows := db.orders.entries.filter (filters.apply locale db dateEnd)
      before := Paging.thenBy (fun a b => b.2.createdAt ≤ a.2.createdAt) (fun a b => a.1 ≤ b.1) }

/-! ### Plants, customers and admins -/

/-- The `created_at` columns of the other tables. -/
structure Stamps where
  plant : UUID → Instant
  customer : UUID → Instant
  admin : UUID → Instant

/-- What plants can be sorted by. -/
inductive SortField where
  | createdAt | name | price | stock
  deriving DecidableEq

/-- The direction of a sort. -/
inductive SortOrder where
  | asc | desc
  deriving DecidableEq

/-- The filters of `list_plants`. -/
structure PlantFilters where
  search : Option Text
  categoryId : Option UUID
  isActive : Option Bool
  isFeatured : Option Bool
  minPrice : Option Decimal
  maxPrice : Option Decimal

/-- `_apply_filters` of plants. -/
def PlantFilters.apply (locale : DbLocale) (filters : PlantFilters) (row : UUID × Plant) : Bool :=
  (match filters.search with
    | none => true
    | some [] => true
    | some search =>
        locale.ilike row.2.name (searchPattern search) ||
        locale.ilike row.2.sku (searchPattern search)) &&
  filters.categoryId.all (row.2.categoryId = ·) &&
  filters.isActive.all (row.2.isActive = ·) &&
  filters.isFeatured.all (row.2.isFeatured = ·) &&
  filters.minPrice.all (fun price => price.le row.2.price.toDecimal) &&
  filters.maxPrice.all fun price => row.2.price.toDecimal.le price

/-- `_SORT_COLUMNS`, ascending. -/
def SortField.column (locale : DbLocale) (stamps : Stamps) (a b : UUID × Plant) : SortField → Prop
  | .createdAt => stamps.plant a.1 ≤ stamps.plant b.1
  | .name => locale.collate a.2.name b.2.name
  | .price => a.2.price.units ≤ b.2.price.units
  | .stock => a.2.stock ≤ b.2.stock

/-- The chosen column in the chosen direction. -/
def plantOrdering (locale : DbLocale) (stamps : Stamps) (sort : SortField) (order : SortOrder)
    (a b : UUID × Plant) : Prop :=
  match order with
  | .asc => sort.column locale stamps a b
  | .desc => sort.column locale stamps b a

/-- `list_plants`. -/
def listPlants (locale : DbLocale) (stamps : Stamps) (db : Db) (filters : PlantFilters)
    (sort : SortField) (order : SortOrder) : Listing (UUID × Plant) where
  rows := db.plants.entries.filter (filters.apply locale)
  before := Paging.thenBy (plantOrdering locale stamps sort order) (fun a b => a.1 ≤ b.1)

/-- The filters of `list_customers`. -/
structure CustomerFilters where
  search : Option Text
  isActive : Option Bool

/-- `_apply_filters` of customers. -/
def CustomerFilters.apply (locale : DbLocale) (filters : CustomerFilters) (row : UUID × Customer) :
    Bool :=
  (match filters.search with
    | none => true
    | some [] => true
    | some search =>
        locale.ilike row.2.phone (searchPattern search) ||
        locale.ilike row.2.name (searchPattern search) ||
        locale.ilikeOrNull row.2.email (searchPattern search)) &&
  filters.isActive.all (row.2.isActive = ·)

/-- `list_customers`: newest first, then by id. -/
def listCustomers (locale : DbLocale) (stamps : Stamps) (db : Db) (filters : CustomerFilters) :
    Listing (UUID × Customer) where
  rows := db.customers.entries.filter (filters.apply locale)
  before := Paging.thenBy (fun a b => stamps.customer b.1 ≤ stamps.customer a.1)
    (fun a b => a.1 ≤ b.1)

/-- `list_admins`: newest first. -/
def listAdmins (stamps : Stamps) (db : AdminDb) : Listing (UUID × Admin) where
  rows := db.admins.entries
  before a b := stamps.admin b.1 ≤ stamps.admin a.1

/-! ### Sort keys -/

instance (key : UUID → Instant) {ρ : Type} :
    Std.Total fun a b : UUID × ρ => key b.1 ≤ key a.1 :=
  ⟨fun a b => le_total (key b.1) (key a.1)⟩

instance (key : UUID → Instant) {ρ : Type} :
    IsTrans (UUID × ρ) fun a b => key b.1 ≤ key a.1 :=
  ⟨fun _ _ _ hab hbc => hbc.trans hab⟩

instance : Std.Total fun a b : UUID × Order => b.2.createdAt ≤ a.2.createdAt :=
  ⟨fun a b => le_total b.2.createdAt a.2.createdAt⟩

instance : IsTrans (UUID × Order) fun a b => b.2.createdAt ≤ a.2.createdAt :=
  ⟨fun _ _ _ hab hbc => hbc.trans hab⟩

instance {ρ : Type} : Std.Total fun a b : UUID × ρ => a.1 ≤ b.1 :=
  ⟨fun a b => le_total a.1 b.1⟩

instance {ρ : Type} : IsTrans (UUID × ρ) fun a b => a.1 ≤ b.1 :=
  ⟨fun _ _ _ hab hbc => hab.trans hbc⟩

theorem SortField.column_total (locale : DbLocale) (stamps : Stamps) (sort : SortField)
    (a b : UUID × Plant) : sort.column locale stamps a b ∨ sort.column locale stamps b a := by
  cases sort with
  | createdAt => exact le_total (stamps.plant a.1) (stamps.plant b.1)
  | name => exact locale.collate_total a.2.name b.2.name
  | price => exact le_total a.2.price.units b.2.price.units
  | stock => exact le_total a.2.stock b.2.stock

theorem SortField.column_trans (locale : DbLocale) (stamps : Stamps) (sort : SortField)
    {a b c : UUID × Plant} (hab : sort.column locale stamps a b)
    (hbc : sort.column locale stamps b c) : sort.column locale stamps a c := by
  cases sort with
  | createdAt => exact le_trans hab hbc
  | name => exact locale.collate_trans _ _ _ hab hbc
  | price => exact le_trans (α := ℕ) hab hbc
  | stock => exact le_trans (α := ℤ) hab hbc

instance (locale : DbLocale) (stamps : Stamps) (sort : SortField) (order : SortOrder) :
    Std.Total (plantOrdering locale stamps sort order) where
  total a b := by
    cases order with
    | asc => exact sort.column_total locale stamps a b
    | desc => exact sort.column_total locale stamps b a

instance (locale : DbLocale) (stamps : Stamps) (sort : SortField) (order : SortOrder) :
    IsTrans (UUID × Plant) (plantOrdering locale stamps sort order) where
  trans a b c hab hbc := by
    cases order with
    | asc => exact sort.column_trans locale stamps hab hbc
    | desc => exact sort.column_trans locale stamps hbc hab

/-- Rows sorted by their id last are paged exactly. -/
theorem gives_of_thenBy_id {ρ : Type} (t : Table UUID ρ) (p : UUID × ρ → Bool)
    (first : UUID × ρ → UUID × ρ → Prop) [Std.Total first] [IsTrans _ first] {pageSize : ℕ}
    (hsize : 0 < pageSize) :
    (Listing.mk (t.entries.filter p)
      (Paging.thenBy first fun a b => a.1 ≤ b.1)).Gives pageSize (t.entries.filter p) := by
  have hnodup : t.entries.Nodup := List.Nodup.of_map _ t.nodup
  refine (Listing.gives_iff _ pageSize).mpr ?_
  refine Paging.exact_of_antisymm (hnodup.sublist List.filter_sublist) hsize ?_
  intro a ha b hb hab hba
  have hid : a.1 = b.1 := le_antisymm (hab.2 hba.1) (hba.2 hab.1)
  exact List.inj_on_of_nodup_map t.nodup (List.mem_of_mem_filter ha) (List.mem_of_mem_filter hb) hid

/-! ### The listings -/

/-- The orders of a listing, where there is one, are those that the filters ask for. -/
theorem OrderFilters.apply_eq_matches (locale : DbLocale) (db : Db) (filters : OrderFilters)
    {dateEnd : Option Date} (hend : filters.dateEnd = some dateEnd) (row : UUID × Order) :
    filters.apply locale db dateEnd row = filters.matches locale db row := by
  have hnext : dateEnd.all (fun day => decide (row.2.createdAt < day.midnight)) =
      filters.dateTo.all fun day => decide (row.2.createdAt < day.midnight + dayMicros) := by
    rw [OrderFilters.dateEnd] at hend
    cases hto : filters.dateTo with
    | none =>
      rw [hto] at hend
      obtain rfl := Option.some.inj hend
      rfl
    | some day =>
      rw [hto] at hend
      obtain ⟨day', hday, rfl⟩ := Option.map_eq_some_iff.mp hend
      simp only [Option.all_some, Date.midnight_next hday]
  rw [OrderFilters.matches, OrderFilters.apply, OrderFilters.apply, hnext, Option.all_none,
    Bool.and_true]

theorem listOrders_gives_iff (locale : DbLocale) (db : Db) (filters : OrderFilters)
    {pageSize : ℕ} (hsize : 0 < pageSize) :
    (∃ listing, listOrders locale db filters = some listing ∧
      listing.Gives pageSize (db.orders.entries.filter (filters.matches locale db))) ↔
    filters.dateTo ≠ some Date.max := by
  rcases hend : filters.dateEnd with - | dateEnd
  · have hmax : filters.dateTo = some Date.max := by
      rw [OrderFilters.dateEnd] at hend
      cases hto : filters.dateTo with
      | none =>
        rw [hto] at hend
        cases hend
      | some day =>
        rw [hto] at hend
        rw [Date.next_eq_none.mp (Option.map_eq_none_iff.mp hend)]
    simp only [listOrders, hend, hmax, Option.map_none, reduceCtorEq, false_and, exists_false,
      ne_eq, not_true]
  · have hnot : filters.dateTo ≠ some Date.max := by
      intro hmax
      rw [OrderFilters.dateEnd, hmax] at hend
      cases hend
    refine iff_of_true ⟨_, by rw [listOrders, hend, Option.map_some], ?_⟩ hnot
    have hrows : filters.apply locale db dateEnd = filters.matches locale db :=
      funext (filters.apply_eq_matches locale db hend)
    rw [hrows]
    exact gives_of_thenBy_id db.orders _ _ hsize

theorem listPlants_gives (locale : DbLocale) (stamps : Stamps) (db : Db) (filters : PlantFilters)
    (sort : SortField) (order : SortOrder) {pageSize : ℕ} (hsize : 0 < pageSize) :
    (listPlants locale stamps db filters sort order).Gives pageSize
      (db.plants.entries.filter (filters.apply locale)) :=
  gives_of_thenBy_id db.plants _ _ hsize

theorem listCustomers_gives (locale : DbLocale) (stamps : Stamps) (db : Db)
    (filters : CustomerFilters) {pageSize : ℕ} (hsize : 0 < pageSize) :
    (listCustomers locale stamps db filters).Gives pageSize
      (db.customers.entries.filter (filters.apply locale)) :=
  gives_of_thenBy_id db.customers _ _ hsize

/-- No page ends between two admins created at the same moment: as many admins as fill some
pages are never more than were created after an admin and fewer than were not created before. -/
def NoTieSplit (stamps : Stamps) (db : AdminDb) (pageSize : ℕ) : Prop :=
  ∀ admin ∈ db.admins.keys, ∀ pages : ℕ,
    ¬ (db.admins.keys.countP (fun id => stamps.admin admin < stamps.admin id) < pages * pageSize ∧
      pages * pageSize < db.admins.keys.countP fun id => stamps.admin admin ≤ stamps.admin id)

theorem listAdmins_gives_iff (stamps : Stamps) (db : AdminDb) {pageSize : ℕ}
    (hsize : 0 < pageSize) :
    (listAdmins stamps db).Gives pageSize db.admins.entries ↔ NoTieSplit stamps db pageSize := by
  have hnodup : (listAdmins stamps db).rows.Nodup := List.Nodup.of_map _ db.admins.nodup
  have htotal : Std.Total (listAdmins stamps db).before :=
    ⟨fun a b => le_total (stamps.admin b.1) (stamps.admin a.1)⟩
  have htrans : IsTrans _ (listAdmins stamps db).before :=
    ⟨fun _ _ _ hab hbc => hbc.trans hab⟩
  have hahead : ∀ a, Paging.ahead (listAdmins stamps db).before db.admins.entries a =
      db.admins.keys.countP fun id => stamps.admin a.1 < stamps.admin id := by
    intro a
    rw [Table.keys, List.countP_map]
    exact Paging.ahead_eq _ fun b => by
      rw [Function.comp_apply, decide_eq_true_eq, ← not_le]
      rfl
  have hupTo : ∀ a, Paging.upTo (listAdmins stamps db).before db.admins.entries a =
      db.admins.keys.countP fun id => stamps.admin a.1 ≤ stamps.admin id := by
    intro a
    rw [Table.keys, List.countP_map]
    exact Paging.upTo_eq _ fun b => by
      rw [Function.comp_apply, decide_eq_true_eq]
      rfl
  rw [show db.admins.entries = (listAdmins stamps db).rows from rfl, Listing.gives_iff,
    Paging.exact_iff_apart hnodup hsize]
  constructor
  · intro hapart admin hadmin pages
    obtain ⟨entry, hentry, rfl⟩ := List.mem_map.mp hadmin
    rw [← hahead, ← hupTo]
    exact hapart entry hentry pages
  · intro hapart entry hentry pages
    rw [show (listAdmins stamps db).rows = db.admins.entries from rfl, hahead, hupTo]
    exact hapart entry.1 (List.mem_map_of_mem hentry) pages

/-- Paging loses and repeats nothing: every listing gives the rows that its filters ask for. -/
structure PagingExact (locale : DbLocale) (stamps : Stamps) (db : Db) (adminDb : AdminDb)
    (orderFilters : OrderFilters) (plantFilters : PlantFilters) (sort : SortField)
    (order : SortOrder) (customerFilters : CustomerFilters) (pageSize : ℕ) : Prop where
  orders : ∃ listing, listOrders locale db orderFilters = some listing ∧
    listing.Gives pageSize (db.orders.entries.filter (orderFilters.matches locale db))
  plants : (listPlants locale stamps db plantFilters sort order).Gives pageSize
    (db.plants.entries.filter (plantFilters.apply locale))
  customers : (listCustomers locale stamps db customerFilters).Gives pageSize
    (db.customers.entries.filter (customerFilters.apply locale))
  admins : (listAdmins stamps adminDb).Gives pageSize adminDb.admins.entries

/-- Paging is exact but for a listing of orders up to the last date there is, and for pages of
admins that end between two created at the same moment. -/
theorem paging_exact_iff (locale : DbLocale) (stamps : Stamps) (db : Db) (adminDb : AdminDb)
    (orderFilters : OrderFilters) (plantFilters : PlantFilters) (sort : SortField)
    (order : SortOrder) (customerFilters : CustomerFilters) {pageSize : ℕ} (hsize : 0 < pageSize) :
    PagingExact locale stamps db adminDb orderFilters plantFilters sort order customerFilters
      pageSize ↔
    orderFilters.dateTo ≠ some Date.max ∧ NoTieSplit stamps adminDb pageSize := by
  constructor
  · rintro ⟨horders, -, -, hadmins⟩
    exact ⟨(listOrders_gives_iff locale db orderFilters hsize).mp horders,
      (listAdmins_gives_iff stamps adminDb hsize).mp hadmins⟩
  · rintro ⟨hdate, hties⟩
    exact
      { orders := (listOrders_gives_iff locale db orderFilters hsize).mpr hdate
        plants := listPlants_gives locale stamps db plantFilters sort order hsize
        customers := listCustomers_gives locale stamps db customerFilters hsize
        admins := (listAdmins_gives_iff stamps adminDb hsize).mpr hties }

/-- Two admins created at the same moment. -/
def adminsOfOneMoment : AdminDb where
  admins := ⟨[(1, ⟨"An".toList, "an@shop.vn".toList, [], true⟩),
    (2, ⟨"Binh".toList, "binh@shop.vn".toList, [], true⟩)], by decide⟩

/-- And a third, created before them. -/
def adminsOfTwoMoments : AdminDb where
  admins := adminsOfOneMoment.admins.insert 3 ⟨"Chi".toList, "chi@shop.vn".toList, [], true⟩

/-- Three orders and three plants of one moment, and three customers. -/
def tiedShop : Db :=
  { Db.ferns with
    plants := ((Table.empty.insert 7 fern).insert 8 fern).insert 9 fern
    customers := ((Table.empty
      |>.insert 3 ⟨"0901234567".toList, "An".toList, none, true⟩)
      |>.insert 4 ⟨"0901234568".toList, "Binh".toList, none, false⟩)
      |>.insert 5 ⟨"0901234569".toList, "Chi".toList, none, true⟩
    orders := ((Table.empty.insert 5 fernOrder).insert 6 fernOrder).insert 7 fernOrder }

/-- Pages of two rows, of three that tie; the admins tie where no page ends. -/
theorem paging_exact_ties :
    PagingExact cLocale ⟨fun _ => 0, fun _ => 0, fun id => if id = 3 then 0 else 1⟩ tiedShop
      adminsOfTwoMoments ⟨none, some .pending, none, none, none⟩
      ⟨none, none, none, none, none, none⟩ .price .desc ⟨none, none⟩ 2 := by
  refine (paging_exact_iff _ _ _ _ _ _ _ _ _ Nat.two_pos).mpr ⟨nofun, ?_⟩
  intro admin hadmin pages
  have hkeys : adminsOfTwoMoments.admins.keys = [1, 2, 3] := by decide +kernel
  rw [hkeys] at hadmin ⊢
  fin_cases hadmin <;> simp <;> omega

/-- Of two admins created at the same moment, on a page each, one may be shown twice. -/
theorem admin_shown_twice :
    ¬ PagingExact cLocale ⟨fun _ => 0, fun _ => 0, fun _ => 0⟩ Db.empty adminsOfOneMoment
      ⟨none, none, none, none, none⟩ ⟨none, none, none, none, none, none⟩ .createdAt .desc
      ⟨none, none⟩ 1 := by
  intro hexact
  have hties := (listAdmins_gives_iff _ _ Nat.one_pos).mp hexact.admins
  exact hties 1 (by decide) 1 (by decide)

end GreenGarden
