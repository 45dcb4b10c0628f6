/-
GreenGarden/Cart.lean

What the checks of `createOrder` decide, as plain facts about a cart and the
plants it was priced against.

Nothing here runs: a cart whose checks pass has every line sellable and enough
stock for every plant, its order row carries the exact amounts
(`orderRow_ok`), and a check that fails names its cause.
-/
import GreenGarden.Orders

namespace GreenGarden

/-- What the request schemas require of the quantities. -/
def PositiveItems (items : List OrderItemInput) : Prop := ∀ item ∈ items, 0 < item.quantity

theorem PositiveItems.nonneg {items : List OrderItemInput} (h : PositiveItems items) :
    ∀ item ∈ items, 0 ≤ item.quantity := fun item hi => (h item hi).le

/-- The quantity of one plant summed over the lines. -/
def totalOf (items : List OrderItemInput) (id : UUID) : ℤ := Tally.total id (itemAmounts items)

theorem mem_plantIds {items : List OrderItemInput} {id : UUID} :
    id ∈ plantIds items ↔ ∃ item ∈ items, item.plantId = id := by
  simp [plantIds]

theorem keys_itemAmounts (items : List OrderItemInput) :
    (itemAmounts items).map Prod.fst = items.map OrderItemInput.plantId := by
  simp [itemAmounts, Function.comp_def]

theorem nodup_keys_requestedOf (items : List OrderItemInput) :
    ((requestedOf items).map Prod.fst).Nodup := Tally.nodup_keys_tally _

theorem mem_keys_requestedOf {items : List OrderItemInput} {id : UUID} :
    id ∈ (requestedOf items).map Prod.fst ↔ id ∈ plantIds items := by
  rw [requestedOf, Tally.mem_keys_tally, keys_itemAmounts, List.mem_map, mem_plantIds]

theorem mem_requestedOf {items : List OrderItemInput} {id : UUID} {n : ℤ} :
    (id, n) ∈ requestedOf items ↔ id ∈ plantIds items ∧ n = totalOf items id := by
  rw [requestedOf, Tally.mem_tally, keys_itemAmounts, List.mem_map, mem_plantIds, totalOf]

theorem total_requestedOf (items : List OrderItemInput) (id : UUID) :
    Tally.total id (requestedOf items) = totalOf items id := Tally.total_tally _ _

/-! ### The checks -/

/-- Why a stock check fails. -/
def StockFailure (plants : UUID → Option Plant) (amounts : List (UUID × ℤ)) : Error → Prop
  | .plantNotFound => ∃ id n, (id, n) ∈ amounts ∧ plants id = none
  | .plantUnavailable name => ∃ id n plant, (id, n) ∈ amounts ∧ plants id = some plant ∧
      plant.name = name ∧ plant.isActive = false
  | .insufficientStock name requested available => ∃ id plant, (id, requested) ∈ amounts ∧
      plants id = some plant ∧ plant.name = name ∧ plant.stock = available ∧
      available < requested
  | _ => False

/-- The stock check passes exactly when every plant is there, active and has
enough; otherwise it names a plant for which it does not. -/
theorem checkStock_cases (plants : UUID → Option Plant) (amounts : List (UUID × ℤ)) :
    (checkStock plants amounts = .ok () ∧ ∀ id n, (id, n) ∈ amounts →
      ∃ plant, plants id = some plant ∧ plant.isActive = true ∧ n ≤ plant.stock) ∨
    ∃ e, checkStock plants amounts = .error e ∧ StockFailure plants amounts e := by
  induction amounts with
  | nil => exact .inl ⟨rfl, by simp⟩
  | cons amount amounts ih =>
    obtain ⟨id, n⟩ := amount
    have hhead : (id, n) ∈ (id, n) :: amounts := List.mem_cons_self
    rcases hp : plants id with - | plant
    · exact .inr ⟨.plantNotFound, by rw [checkStock, hp], id, n, hhead, hp⟩
    rcases ha : plant.isActive
    · exact .inr ⟨.plantUnavailable plant.name, by simp [checkStock, hp, ha],
        id, n, plant, hhead, hp, rfl, ha⟩
    by_cases hs : plant.stock < n
    · exact .inr ⟨.insufficientStock plant.name n plant.stock, by simp [checkStock, hp, ha, hs],
        id, plant, hhead, hp, rfl, rfl, hs⟩
    have hstep : checkStock plants ((id, n) :: amounts) = checkStock plants amounts := by
      simp [checkStock, hp, ha, hs]
    rw [hstep]
    rcases ih with ⟨hok, hall⟩ | ⟨e, herr, hcause⟩
    · refine .inl ⟨hok, fun id' n' hmem => ?_⟩
      rcases List.mem_cons.mp hmem with heq | hmem
      · obtain ⟨rfl, rfl⟩ := Prod.mk.inj heq
        exact ⟨plant, hp, ha, not_lt.mp hs⟩
      · exact hall id' n' hmem
    · refine .inr ⟨e, herr, ?_⟩
      cases e with
      | plantNotFound =>
        obtain ⟨id', n', hmem, h⟩ := hcause
        exact ⟨id', n', List.mem_cons_of_mem _ hmem, h⟩
      | plantUnavailable name =>
        obtain ⟨id', n', q, hmem, h⟩ := hcause
        exact ⟨id', n', q, List.mem_cons_of_mem _ hmem, h⟩
      | insufficientStock name requested available =>
        obtain ⟨id', q, hmem, h⟩ := hcause
        exact ⟨id', q, List.mem_cons_of_mem _ hmem, h⟩
      | _ => exact hcause

/-- Whatever the quantities are, the lines report the cart's own errors. -/
theorem priceLine_ok {plants : UUID → Option Plant} {item : OrderItemInput} {line : PricedLine}
    (h : priceLine plants item = .ok line) :
    line.item = item ∧ line.error = lineError plants item := by
  rcases hp : plants item.plantId with - | plant
  · simp only [priceLine, hp] at h
    cases h
    simp [lineError, hp]
  rcases ha : plant.isActive
  · simp only [priceLine, hp, ha, if_true] at h
    cases h
    simp [lineError, hp, ha]
  rcases hv : plant.priceVi with - | price
  · simp only [priceLine, hp, ha, unitPrice, hv, Bool.true_eq_false, if_false] at h
    cases h
    simp [lineError, hp, hv]
  · simp only [priceLine, hp, ha, unitPrice, hv, quantize_money, Bool.true_eq_false,
      if_false] at h
    split at h
    · cases h
    · cases h
      simp [lineError, hp, ha, hv]

theorem priceLines_ok {plants : UUID → Option Plant} {items : List OrderItemInput}
    {subtotal total : Decimal} {lines : List PricedLine}
    (h : priceLines plants items subtotal = .ok (lines, total)) :
    lines.map PricedLine.item = items ∧
    lines.map PricedLine.error = items.map (lineError plants) := by
  induction items generalizing subtotal lines total with
  | nil => cases h; simp
  | cons item items ih =>
    simp only [priceLines] at h
    rcases hline : priceLine plants item with e | line
    · rw [hline] at h; cases h
    rw [hline] at h
    simp only at h
    split at h
    · cases h
    · rename_i lines' total' hrest
      cases h
      obtain ⟨hi, he⟩ := ih hrest
      obtain ⟨hi', he'⟩ := priceLine_ok hline
      simp [hi, he, hi', he']

theorem priceOrder_ok {plants : UUID → Option Plant} {items : List OrderItemInput}
    {priced : OrderPrice} (h : priceOrder items plants = .ok priced) :
    priced.lines.map PricedLine.item = items ∧
    priced.lines.map PricedLine.error = items.map (lineError plants) := by
  unfold priceOrder at h
  split at h
  · cases h
  · rename_i lines subtotal hlines
    split at h
    · cases h
    · cases h
      exact priceLines_ok hlines

/-- The line check passes exactly when every line can be sold. -/
theorem checkLines_cases {plants : UUID → Option Plant} {items : List OrderItemInput}
    {priced : OrderPrice} (h : priceOrder items plants = .ok priced) :
    (checkLines priced.lines = .ok () ∧ ∀ item ∈ items, lineError plants item = none) ∨
    ∃ e, checkLines priced.lines = .error e ∧ ∃ item ∈ items, lineError plants item = some e := by
  have herr := (priceOrder_ok h).2
  unfold checkLines
  rcases hf : priced.lines.findSome? PricedLine.error with - | e
  · refine .inl ⟨rfl, fun item hi => ?_⟩
    have hmem : lineError plants item ∈ priced.lines.map PricedLine.error := by
      rw [herr]; exact List.mem_map_of_mem hi
    obtain ⟨line, hl, he⟩ := List.mem_map.mp hmem
    rw [← he]
    exact List.findSome?_eq_none_iff.mp hf line hl
  · obtain ⟨line, hl, he⟩ := List.exists_of_findSome?_eq_some hf
    refine .inr ⟨e, rfl, ?_⟩
    have hmem : PricedLine.error line ∈ items.map (lineError plants) := by
      rw [← herr]; exact List.mem_map_of_mem hl
    obtain ⟨item, hi, hie⟩ := List.mem_map.mp hmem
    exact ⟨item, hi, hie.trans he⟩

/-- Two catalogues that agree on the plants of a cart price it the same. -/
theorem lineError_congr {plants plants' : UUID → Option Plant} {item : OrderItemInput}
    (h : plants item.plantId = plants' item.plantId) :
    lineError plants item = lineError plants' item := by
  rw [lineError, lineError, h]

theorem exactLine_congr {plants plants' : UUID → Option Plant} {item : OrderItemInput}
    (h : plants item.plantId = plants' item.plantId) :
    exactLine plants item = exactLine plants' item := by
  simp only [exactLine, sellablePrice, lineUnits, lineError, h]

theorem exactPrice_congr {plants plants' : UUID → Option Plant} {items : List OrderItemInput}
    (h : ∀ item ∈ items, plants item.plantId = plants' item.plantId) :
    exactPrice items plants = exactPrice items plants' := by
  have hlines : items.map (exactLine plants) = items.map (exactLine plants') :=
    List.map_congr_left fun item hi => exactLine_congr (h item hi)
  have hsum : subtotalUnits plants items = subtotalUnits plants' items := by
    rw [subtotalUnits, subtotalUnits]
    refine congrArg List.sum (List.map_congr_left fun item hi => ?_)
    simp only [lineUnits, sellablePrice, h item hi]
  have hany : (items.any fun item => (lineError plants item).isNone)
      = items.any fun item => (lineError plants' item).isNone := by
    rw [Bool.eq_iff_iff, List.any_eq_true, List.any_eq_true]
    exact exists_congr fun item => and_congr_right fun hi => by rw [lineError_congr (h item hi)]
  simp only [exactPrice, cartShipping, hlines, hsum, hany]

/-! ### The order row -/

theorem storeMoney_toDecimal (price : Money) : storeMoney price.toDecimal = .ok price := by
  rw [storeMoney, Numeric.toDecimal, Numeric.store_cents price.lt]

theorem storeMoney_cents {c : ℤ} {n : Money} (h : storeMoney (.cents c) = .ok n) :
    (n.units : ℤ) = c := by
  unfold storeMoney at h
  split at h
  · rename_i m hm
    cases h
    exact Numeric.store_eq_some_cents hm
  · cases h

/-- The item row a sellable line becomes. -/
def soldItem (plants : UUID → Option Plant) (item : OrderItemInput) : OrderItem where
  plantId := item.plantId
  plantName := ((plants item.plantId).map snapshotName).getD []
  quantity := item.quantity
  unitPrice := (sellablePrice plants item.plantId).getD ⟨0, by decide⟩

theorem orderItem_exactLine (plants : UUID → Option Plant) {item : OrderItemInput}
    (h : 0 < item.quantity) :
    orderItem plants (exactLine plants item) = .ok (soldItem plants item) := by
  have hprice : storeMoney (exactLine plants item).unitPrice
      = .ok ((sellablePrice plants item.plantId).getD ⟨0, by decide⟩) := by
    rcases hs : sellablePrice plants item.plantId with - | price
    · simp only [exactLine, hs, zeroAmount]
      exact storeMoney_toDecimal ⟨0, by decide⟩
    · simp only [exactLine, hs]
      exact storeMoney_toDecimal price
  rw [orderItem, hprice]
  simp only [exactLine_item]
  show (if item.quantity ≤ 0 then _ else _) = _
  rw [if_neg (not_le.mpr h)]
  rfl

theorem mapM_orderItem (plants : UUID → Option Plant) {items : List OrderItemInput}
    (h : PositiveItems items) :
    (items.map (exactLine plants)).mapM (orderItem plants)
      = .ok (items.map (soldItem plants)) := by
  induction items with
  | nil => rfl
  | cons item items ih =>
    have hrest : PositiveItems items := fun i hi => h i (List.mem_cons_of_mem _ hi)
    rw [List.map_cons, List.mapM_cons, orderItem_exactLine plants (h item List.mem_cons_self),
      ih hrest]
    rfl

/-- A line with a quantity that is not positive keeps the row from being built. -/
theorem positive_of_mapM_orderItem {plants : UUID → Option Plant} {lines : List PricedLine}
    {rows : List OrderItem} (h : lines.mapM (orderItem plants) = .ok rows) :
    PositiveItems (lines.map PricedLine.item) := by
  induction lines generalizing rows with
  | nil => intro item hi; cases hi
  | cons line lines ih =>
    rw [List.mapM_cons] at h
    rcases hone : orderItem plants line with e | row
    · rw [hone] at h; cases h
    rcases hrest : lines.mapM (orderItem plants) with e | rows'
    · rw [hone, hrest] at h; cases h
    have hq : 0 < line.item.quantity := by
      unfold orderItem at hone
      rcases hs : storeMoney line.unitPrice with e | price
      · rw [hs] at hone; cases hone
      rw [hs] at hone
      by_contra hle
      rw [show (Except.ok price >>= _ : Except Error OrderItem) = _ from rfl] at hone
      simp only [if_pos (not_lt.mp hle)] at hone
      cases hone
    intro item hi
    rcases List.mem_cons.mp hi with rfl | hi
    · exact hq
    · exact ih hrest item hi

/-- An order as it was when it was placed: status and payment put back. -/
def Order.placed (order : Order) : Order :=
  { order with status := .pending, paymentStatus := .pending, paidAt := none }

/-- The payment reference an order gets. -/
def referenceFor (method : PaymentMethod) (orderNumber : Text) : Option Text :=
  match method with
  | .bankTransfer => some (paymentReferenceFor orderNumber)
  | .cod => none

/-- The order row of a draft priced against `plants`. -/
structure IsRow (now : Instant) (draft : OrderDraft) (customer : UUID) (number : Text)
    (plants : UUID → Option Plant) (order : Order) : Prop where
  customerId : order.customerId = customer
  orderNumber : order.orderNumber = number
  fresh : order.placed = order
  currency : order.currency = orderCurrency
  shippingAddress : order.shippingAddress = draft.shippingAddress
  note : order.note = draft.note
  paymentMethod : order.paymentMethod = draft.paymentMethod
  paymentReference : order.paymentReference = referenceFor draft.paymentMethod number
  createdAt : order.createdAt = now
  items : order.items = draft.items.map (soldItem plants)
  subtotal : (order.subtotalAmount.units : ℤ) = subtotalUnits plants draft.items
  shipping : (order.shippingFee.units : ℤ) = cartShipping plants draft.items
  total : order.totalAmount.units = order.subtotalAmount.units + order.shippingFee.units

/-- The only reference a row can carry is the one of its number. -/
theorem IsRow.reference {now : Instant} {draft : OrderDraft} {customer : UUID} {number : Text}
    {plants : UUID → Option Plant} {order : Order}
    (hrow : IsRow now draft customer number plants order) {r : Text}
    (hr : order.paymentReference = some r) : r = paymentReferenceFor order.orderNumber := by
  rw [hrow.paymentReference] at hr
  rw [hrow.orderNumber]
  rcases hm : draft.paymentMethod with - | -
  · rw [hm] at hr
    cases hr
  · rw [hm] at hr
    cases hr
    rfl

/-- Hundredths the customer is charged. -/
def totalUnits (plants : UUID → Option Plant) (items : List OrderItemInput) : ℤ :=
  subtotalUnits plants items + cartShipping plants items

/-- The largest total an order may have, in hundredths. -/
def maxTotalUnits : ℤ := 999999999999

section Row

variable {now : Instant} {draft : OrderDraft} {customerId : UUID} {orderNumber : Text}
variable {plants : UUID → Option Plant} {priced : OrderPrice}

theorem priceOrder_exact (hpos : PositiveItems draft.items)
    (hp : priceOrder draft.items plants = .ok priced) :
    priced = exactPrice draft.items plants := by
  rw [priceOrder_eq plants hpos.nonneg] at hp
  split at hp
  · exact (Except.ok.inj hp).symm
  · cases hp

/-- A row that was built is the exact row of the draft. -/
theorem orderRow_ok {order : Order} (hp : priceOrder draft.items plants = .ok priced)
    (h : orderRow now draft customerId orderNumber priced plants = .ok order) :
    PositiveItems draft.items ∧ IsRow now draft customerId orderNumber plants order := by
  unfold orderRow at h
  rcases hs : storeMoney priced.subtotal with e | subtotal
  · rw [hs] at h; cases h
  rcases hf : storeMoney priced.shippingFee with e | shipping
  · rw [hs, hf] at h; cases h
  rcases ht : storeMoney priced.total with e | total
  · rw [hs, hf, ht] at h; cases h
  rcases hi : priced.lines.mapM (orderItem plants) with e | items
  · rw [hs, hf, ht, hi] at h
    simp only [bind, Except.bind] at h
    split at h <;> cases h
  rw [hs, hf, ht, hi] at h
  simp only [bind, Except.bind] at h
  split at h
  · cases h
  · rename_i hsum
    cases h
    have hpos : PositiveItems draft.items := by
      rw [← (priceOrder_ok hp).1]
      exact positive_of_mapM_orderItem hi
    rw [priceOrder_exact hpos hp] at hs hf ht hi
    have hitems : items = draft.items.map (soldItem plants) :=
      Except.ok.inj (hi.symm.trans (mapM_orderItem plants hpos))
    refine ⟨hpos, ?_⟩
    constructor
    case items => exact hitems
    case subtotal => exact storeMoney_cents hs
    case shipping => exact storeMoney_cents hf
    case total => exact not_not.mp hsum
    case currency => rw [priceOrder_exact hpos hp]; rfl
    case paymentReference => rfl
    all_goals rfl

/-- With positive quantities and a total in range the row can be built. -/
theorem orderRow_isOk (hpos : PositiveItems draft.items)
    (hp : priceOrder draft.items plants = .ok priced)
    (hmax : totalUnits plants draft.items ≤ maxTotalUnits) :
    ∃ order, orderRow now draft customerId orderNumber priced plants = .ok order := by
  have store : ∀ c : ℤ, 0 ≤ c → c ≤ maxTotalUnits →
      ∃ n : Money, storeMoney (.cents c) = .ok n ∧ (n.units : ℤ) = c := by
    intro c hc hle
    obtain ⟨n, rfl⟩ := Int.eq_ofNat_of_zero_le hc
    have hlt : n < 10 ^ 12 := by
      have : (n : ℤ) < 10 ^ 12 := lt_of_le_of_lt hle (by decide)
      exact_mod_cast this
    exact ⟨⟨n, hlt⟩, by rw [storeMoney, Numeric.store_cents hlt], rfl⟩
  have hsub : 0 ≤ subtotalUnits plants draft.items := subtotalUnits_nonneg hpos.nonneg
  have hship := cartShipping_nonneg plants draft.items
  have hsum : totalUnits plants draft.items
      = subtotalUnits plants draft.items + cartShipping plants draft.items := rfl
  obtain ⟨subtotal, hs, hsu⟩ := store _ hsub (by omega)
  obtain ⟨shipping, hf, hfu⟩ := store _ hship (by omega)
  obtain ⟨total, ht, htu⟩ := store _ (by omega) hmax
  have hadd : ¬ total.units ≠ subtotal.units + shipping.units := by omega
  rw [totalUnits] at ht
  rw [priceOrder_exact hpos hp]
  simp only [orderRow, exactPrice, hs, hf, ht, mapM_orderItem plants hpos, bind, Except.bind,
    if_neg hadd]
  exact ⟨_, rfl⟩

theorem storeMoney_error {amount : Decimal} {e : Error} (h : storeMoney amount = .error e) :
    e = .numericOverflow := by
  unfold storeMoney at h
  split at h <;> cases h
  rfl

theorem orderItem_error {line : PricedLine} {e : Error} (h : orderItem plants line = .error e) :
    e = .numericOverflow ∨ e = .integrity .orderItemsQuantityPositive := by
  unfold orderItem at h
  rcases hs : storeMoney line.unitPrice with e' | price
  · rw [hs] at h
    cases h
    exact .inl (storeMoney_error hs)
  · rw [hs] at h
    simp only [bind, Except.bind] at h
    split at h <;> cases h
    exact .inr rfl

theorem mapM_orderItem_error {lines : List PricedLine} {e : Error}
    (h : lines.mapM (orderItem plants) = .error e) :
    e = .numericOverflow ∨ e = .integrity .orderItemsQuantityPositive := by
  induction lines with
  | nil => cases h
  | cons line lines ih =>
    rw [List.mapM_cons] at h
    rcases h₁ : orderItem plants line with e' | row
    · rw [h₁] at h
      cases h
      exact orderItem_error h₁
    rcases h₂ : lines.mapM (orderItem plants) with e' | rows
    · rw [h₁, h₂] at h
      cases h
      exact ih h₂
    · rw [h₁, h₂] at h
      cases h

/-- The ways in which building the row can fail. -/
theorem orderRow_error {e : Error}
    (h : orderRow now draft customerId orderNumber priced plants = .error e) :
    e = .numericOverflow ∨ e = .integrity .ordersTotalIsSubtotalPlusShipping ∨
      e = .integrity .orderItemsQuantityPositive := by
  unfold orderRow at h
  rcases hs : storeMoney priced.subtotal with e' | subtotal
  · rw [hs] at h
    cases h
    exact .inl (storeMoney_error hs)
  rcases hf : storeMoney priced.shippingFee with e' | shipping
  · rw [hs, hf] at h
    cases h
    exact .inl (storeMoney_error hf)
  rcases ht : storeMoney priced.total with e' | total
  · rw [hs, hf, ht] at h
    cases h
    exact .inl (storeMoney_error ht)
  rw [hs, hf, ht] at h
  simp only [bind, Except.bind] at h
  split at h
  · cases h
    exact .inr (.inl rfl)
  · rcases hi : priced.lines.mapM (orderItem plants) with e' | items
    · rw [hi] at h
      cases h
      rcases mapM_orderItem_error hi with rfl | rfl
      · exact .inl rfl
      · exact .inr (.inr rfl)
    · rw [hi] at h
      cases h

end Row

end GreenGarden
