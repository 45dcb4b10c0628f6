/-
GreenGarden/Quote.lean

The cart quote and the checkout agree.

`quoteOrder` reads the plants once, without locks; `createOrder` locks them,
checks stock first and prices second, and can be refused at a dozen places.
Run alone on one database they come to the same: `quote_agrees_with_checkout`
says that the checkout succeeds exactly when the quote shows every line as
available, the stock suffices and the total is in range, and that it then
charges what the quote said.

Both directions come from the triple of an order in a scope in which nobody
else does anything (`quietScope`): success is read off the commit (`Placed`),
and a failure would have to be one of `OrderFailure`, each of which denies
something the quote showed.
-/
import GreenGarden.Allocation

namespace GreenGarden

open Transaction

/-! ### What the quote says about the checkout -/

/-- Everything in the cart can be sold, as the quote and the stock have it. -/
structure Sellable (items : List OrderItemInput) (quote : OrderPrice) (d : Db) : Prop where
  available : ∀ line ∈ quote.lines, line.available = true
  stock : ∀ pid ∈ plantIds items, ∀ plant, d.plants.get pid = some plant →
    totalOf items pid ≤ plant.stock
  affordable : quote.total.le maxTotalAmount

/-- The database went from `d` to `d'` by an order at the prices of the quote. -/
structure SoldAsQuoted (items : List OrderItemInput) (quote : OrderPrice) (id : UUID)
    (order : Order) (d d' : Db) : Prop where
  fresh : d.orders.get id = none
  orders : d'.orders = d.orders.insert id order
  subtotal : order.subtotalAmount.toDecimal = quote.subtotal
  shippingFee : order.shippingFee.toDecimal = quote.shippingFee
  total : order.totalAmount.toDecimal = quote.total
  unitPrices : order.items.map (fun item => item.unitPrice.toDecimal)
    = quote.lines.map PricedLine.unitPrice
  plants : ∀ pid, d'.plants.get pid = (d.plants.get pid).map fun plant =>
    { plant with stock := plant.stock - totalOf items pid }
  categories : d'.categories = d.categories
  slugHistory : d'.slugHistory = d.slugHistory

/-! ### The quote -/

/-- A cart the schemas admit prices to fewer than 28 digits. -/
theorem subtotalUnits_lt (plants : UUID → Option Plant) {items : List OrderItemInput}
    (hlength : items.length ≤ 50) (hquantity : ∀ item ∈ items, item.quantity ≤ 999)
    (hpos : PositiveItems items) : subtotalUnits plants items < 10 ^ Decimal.prec := by
  have hline : ∀ n ∈ items.map (lineUnits plants), n ≤ 10 ^ 12 * 999 := by
    intro n hn
    obtain ⟨item, hi, rfl⟩ := List.mem_map.mp hn
    have hq := hquantity item hi
    have hq₀ := hpos item hi
    unfold lineUnits
    rcases sellablePrice plants item.plantId with - | price
    · exact show (0 : ℤ) ≤ 10 ^ 12 * 999 by decide
    · have hp : (price.units : ℤ) ≤ 10 ^ 12 := by exact_mod_cast price.lt.le
      exact mul_le_mul hp hq hq₀.le (by decide)
  have hsum := List.sum_le_card_nsmul _ _ hline
  rw [List.length_map, nsmul_eq_mul] at hsum
  have hcount : (items.length : ℤ) * (10 ^ 12 * 999) ≤ 50 * (10 ^ 12 * 999) := by
    have : (items.length : ℤ) ≤ 50 := by exact_mod_cast hlength
    omega
  have hprec : (50 : ℤ) * (10 ^ 12 * 999) < 10 ^ Decimal.prec := by decide
  exact (hsum.trans hcount).trans_lt hprec

/-- The quote is the exact price of the cart, and changes nothing. -/
theorem runAlone_quoteOrder (vs : ℕ → Outside) {items : List OrderItemInput} {d : Db}
    (hlength : items.length ≤ 50) (hquantity : ∀ item ∈ items, item.quantity ≤ 999)
    (hpos : PositiveItems items) :
    runAlone vs (quoteOrder items) d = (.ok (exactPrice items d.plants.get), d) := by
  set loaded : UUID → Option Plant :=
    fun id => if id ∈ plantIds items then d.plants.get id else none with hloaded
  have hagree : ∀ item ∈ items, loaded item.plantId = d.plants.get item.plantId :=
    fun item hi => if_pos (mem_plantIds.mpr ⟨item, hi, rfl⟩)
  have hrun : runAlone vs (quoteOrder items) d
      = alone vs (Tx.ofExcept (priceOrder items loaded)) 0 [] d := rfl
  rw [hrun, priceOrder_eq loaded hpos.nonneg,
    if_pos (subtotalUnits_lt loaded hlength hquantity hpos), exactPrice_congr hagree]
  rfl

/-! ### The checkout -/

/-- Generated identifiers are new. -/
def NewIds (d : Db) (v : Outside) : Prop :=
  d.customers.get v.uuid = none ∧ d.orders.get v.uuid = none ∧ d.notifications.get v.uuid = none

/-- The checkout is alone, and generated identifiers are new. -/
def quietScope (d : Db) : Scope := Scope.quiet (NewIds d) d

section Checkout

variable {draft : OrderDraft} {d d' : Db} {vs : ℕ → Outside}

theorem wp_createOrder :
    wp (quietScope d).rely (OrderFailure (quietScope d) draft) (createOrder draft)
      (fun id h b d' => ∃ now, ∃ order, Placed (quietScope d) now draft id order h d' (flush b d'))
      ∅ [] d := by
  rw [createOrder]
  refine wp_outside fun v _ => wp_mono (fun _ _ hf => hf) (fun id h b d' hq => ?_)
    (wp_createOrderAt (S := quietScope d) rfl)
  exact ⟨v.now, (hq d' ((quietScope d).rely.refl h d')).1⟩

theorem exactLine_available {items : List OrderItemInput} :
    (∀ line ∈ (exactPrice items d.plants.get).lines, line.available = true) ↔
      ∀ item ∈ items, lineError d.plants.get item = none := by
  simp only [exactPrice, List.forall_mem_map, PricedLine.available, exactLine_error,
    Option.isNone_iff_eq_none]

theorem exactPrice_affordable {items : List OrderItemInput} :
    (exactPrice items d.plants.get).total.le maxTotalAmount ↔
      totalUnits d.plants.get items ≤ maxTotalUnits :=
  Decimal.le_cents _ _

/-- A commit sells the cart as it was quoted. -/
theorem Placed.soldAsQuoted {now : Instant} {id : UUID} {order : Order} {h : Set Key}
    (hp : Placed (quietScope d) now draft id order h d d') :
    SoldAsQuoted draft.items (exactPrice draft.items d.plants.get) id order d d' where
  fresh := hp.fresh
  orders := hp.orders
  subtotal := congrArg Decimal.cents hp.row.subtotal
  shippingFee := congrArg Decimal.cents hp.row.shipping
  total := by
    have htotal : (order.totalAmount.units : ℤ)
        = subtotalUnits d.plants.get draft.items + cartShipping d.plants.get draft.items := by
      rw [hp.row.total, Nat.cast_add, hp.row.subtotal, hp.row.shipping]
    exact congrArg Decimal.cents htotal
  unitPrices := by
    rw [hp.row.items, exactPrice, List.map_map, List.map_map]
    refine List.map_congr_left fun item hi => ?_
    obtain ⟨price, hprice⟩ := lineError_eq_none.mp (hp.sellable item hi)
    simp [soldItem, exactLine, hprice]
  plants pid := by
    rw [hp.plants]
    refine congrArg (fun f => Option.map f _) (funext fun p => ?_)
    rw [Plant.addStock, sub_eq_add_neg]
  categories := hp.categories
  slugHistory := hp.slugHistory

theorem Placed.sellable_quote {now : Instant} {id : UUID} {order : Order} {h : Set Key}
    (hp : Placed (quietScope d) now draft id order h d d') :
    Sellable draft.items (exactPrice draft.items d.plants.get) d where
  available := exactLine_available.mpr hp.sellable
  stock pid hpid plant hplant := by
    obtain ⟨plant', hplant', -, hle⟩ := hp.stock pid hpid
    rw [hplant] at hplant'
    cases hplant'
    exact hle
  affordable := exactPrice_affordable.mpr hp.affordable

/-- Nothing is left that a checkout of a sellable cart could fail with. -/
theorem not_orderFailure (hbook : OrderBook d) (hpos : PositiveItems draft.items)
    (hcustomer : ∀ c ∈ d.customers.rows, c.phone = draft.phone → c.isActive = true)
    (hsell : Sellable draft.items (exactPrice draft.items d.plants.get) d) {e : Error} :
    ¬ OrderFailure (quietScope d) draft e d := by
  have hlines := exactLine_available.mp hsell.available
  have htotal := exactPrice_affordable.mp hsell.affordable
  intro hf
  unfold OrderFailure at hf
  split at hf
  · -- the customer is inactive
    obtain ⟨-, c, hc, hphone, hinactive⟩ := hf
    rw [hcustomer c hc hphone] at hinactive
    cases hinactive
  · -- a plant is not there
    obtain ⟨seen, hseen, item, hi, hnone⟩ := hf
    rw [(Scope.quiet_sees hseen).1] at hnone
    have hline := hlines item hi
    rw [lineError, hnone] at hline
    cases hline
  · -- a line is not available
    obtain ⟨item, hi, herr⟩ := hf
    rw [hlines item hi] at herr
    cases herr
  · -- there is too little stock
    obtain ⟨pid, hpid, plant, hplant, -, rfl, rfl, hlt⟩ := hf
    exact absurd (hsell.stock pid hpid plant hplant) (not_le.mpr hlt)
  -- pricing ran out of digits, or the total is too large
  · exact absurd (hf hpos) (not_lt.mpr htotal)
  · exact absurd (hf hpos) (not_lt.mpr htotal)
  · exact hf hpos
  · exact hf hpos
  · exact hf hpos
  · -- a generated identifier is taken
    obtain ⟨v, ⟨hc, ho, hn⟩, htaken⟩ := hf
    rw [hc, ho, hn] at htaken
    rcases htaken with h | h | h <;> cases h
  · -- the phone was free and is taken
    obtain ⟨seen, hseen, hfree, htaken⟩ := hf
    rw [(Scope.quiet_sees hseen).1, htaken] at hfree
    cases hfree
  · -- the reference of a free number is taken
    obtain ⟨-, number, hnumber, hfree, htaken⟩ := hf
    exact hfree (hbook.mem_of_referenceTaken hnumber htaken)
  · exact hf

end Checkout

/-- **The quote and the checkout agree.**  On any database and any cart that
the schemas admit, for a phone that is new or belongs to an active customer:
the cart is quoted; the order succeeds, run alone, if and only if the quote
and the stock allow it; it then charges what was quoted and takes the
quantities from stock; and when it fails everything is as before. -/
theorem quote_agrees_with_checkout (draft : OrderDraft) (d : Db) (vs : ℕ → Outside)
    (hlength : draft.items.length ≤ 50)
    (hquantity : ∀ item ∈ draft.items, 1 ≤ item.quantity ∧ item.quantity ≤ 999)
    (hcustomer : ∀ c ∈ d.customers.rows, c.phone = draft.phone → c.isActive = true)
    (hbook : OrderBook d)
    (hids : ∀ n, NewIds d (vs n)) :
    ∃ quote, runAlone vs (quoteOrder draft.items) d = (.ok quote, d) ∧
      ((∃ id d', runAlone vs (createOrder draft) d = (.ok id, d')) ↔
        Sellable draft.items quote d) ∧
      (∀ id d', runAlone vs (createOrder draft) d = (.ok id, d') →
        ∃ order, SoldAsQuoted draft.items quote id order d d') ∧
      ∀ e d', runAlone vs (createOrder draft) d = (.error e, d') → d' = d := by
  have hpos : PositiveItems draft.items := fun item hi => (hquantity item hi).1
  refine ⟨exactPrice draft.items d.plants.get,
    runAlone_quoteOrder vs hlength (fun item hi => (hquantity item hi).2) hpos,
    ⟨?_, fun hsell => ?_⟩, fun id d' hrun => ?_, fun e d' hrun => ?_⟩
  -- what a success checked is what the quote shows
  · rintro ⟨id, d', hrun⟩
    obtain ⟨h, b, -, now, order, hplaced⟩ := runAlone_ok wp_createOrder hids hrun
    exact hplaced.sellable_quote
  -- no way of failing is left
  · rcases hrun : runAlone vs (createOrder draft) d with ⟨e | id, d'⟩
    · obtain ⟨-, hf⟩ := runAlone_error wp_createOrder hids hrun
      exact absurd hf (not_orderFailure hbook hpos hcustomer hsell)
    · exact ⟨id, d', rfl⟩
  · obtain ⟨h, b, rfl, now, order, hplaced⟩ := runAlone_ok wp_createOrder hids hrun
    exact ⟨order, hplaced.soldAsQuoted⟩
  · exact (runAlone_error wp_createOrder hids hrun).1

/-- One fern from a shop that has three. -/
theorem quote_agrees_with_checkout_fern :
    ∃ quote, runAlone atNoon (quoteOrder oneFern.items) Db.ferns = (.ok quote, Db.ferns) ∧
      ((∃ id d', runAlone atNoon (createOrder oneFern) Db.ferns = (.ok id, d')) ↔
        Sellable oneFern.items quote Db.ferns) := by
  obtain ⟨quote, hquote, hiff, -⟩ := quote_agrees_with_checkout oneFern Db.ferns atNoon (by decide)
    (by decide) (fun c hc => by cases hc) ⟨Numbered.nil, by nofun⟩ fun _ => ⟨rfl, rfl, rfl⟩
  exact ⟨quote, hquote, hiff⟩

end GreenGarden
