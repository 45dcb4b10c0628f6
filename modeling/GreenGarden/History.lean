/-
GreenGarden/History.lean

Orders stay historically correct.

An order's money is computed from catalogue rows that others may change, and
its items are written apart from its totals.  Since the rows are locked from
the pricing to the commit, the item snapshots and the totals come from the
same prices (`IsRow.wellFormed`); and since no request writes any column of an
order but its status and payment, what was true when it was placed stays true.
-/
import GreenGarden.Allocation

namespace GreenGarden

open Transaction

/-- What the columns of an order have to do with each other. -/
structure Order.WellFormed (order : Order) : Prop where
  items : order.items ≠ []
  positive : ∀ item ∈ order.items, 0 < item.quantity
  subtotal : (order.subtotalAmount.units : ℤ)
    = (order.items.map fun item => item.quantity * (item.unitPrice.units : ℤ)).sum
  shippingFee : order.shippingFee.toDecimal = shippingFeeFor order.subtotalAmount.toDecimal
  total : order.totalAmount.units = order.subtotalAmount.units + order.shippingFee.units
  bounded : order.totalAmount.toDecimal.le maxTotalAmount
  reference : order.paymentReference = referenceFor order.paymentMethod order.orderNumber

theorem Order.wellFormed_placed (order : Order) : order.WellFormed ↔ order.placed.WellFormed := by
  constructor
  · rintro ⟨h₁, h₂, h₃, h₄, h₅, h₆, h₇⟩
    exact ⟨h₁, h₂, h₃, h₄, h₅, h₆, h₇⟩
  · rintro ⟨h₁, h₂, h₃, h₄, h₅, h₆, h₇⟩
    exact ⟨h₁, h₂, h₃, h₄, h₅, h₆, h₇⟩

/-- The lines of a sellable cart add up to the items they become. -/
theorem subtotalUnits_eq_sum {plants : UUID → Option Plant} {items : List OrderItemInput}
    (h : ∀ item ∈ items, lineError plants item = none) :
    subtotalUnits plants items
      = ((items.map (soldItem plants)).map
          fun item => item.quantity * (item.unitPrice.units : ℤ)).sum := by
  rw [subtotalUnits, List.map_map]
  refine congrArg List.sum (List.map_congr_left fun item hi => ?_)
  obtain ⟨price, hprice⟩ := lineError_eq_none.mp (h item hi)
  simp [lineUnits, soldItem, hprice, mul_comm]

/-- A sellable cart with a line in it pays shipping by its subtotal. -/
theorem cartShipping_of_sellable {plants : UUID → Option Plant} {items : List OrderItemInput}
    (hne : items ≠ []) (h : ∀ item ∈ items, lineError plants item = none) :
    cartShipping plants items = shippingUnits (subtotalUnits plants items) := by
  obtain ⟨item, hi⟩ := List.exists_mem_of_ne_nil _ hne
  rw [cartShipping, if_pos]
  exact List.any_eq_true.mpr ⟨item, hi, by rw [h item hi]; rfl⟩

/-- Money columns never hold more than the largest total. -/
theorem Numeric.le_maxTotalAmount (n : Money) : n.toDecimal.le maxTotalAmount := by
  have h := n.lt
  rw [Numeric.toDecimal, maxTotalAmount, Decimal.le_cents]
  omega

/-- The row of a sellable cart is well formed. -/
theorem IsRow.wellFormed {now : Instant} {draft : OrderDraft} {customer : UUID} {number : Text}
    {plants : UUID → Option Plant} {order : Order}
    (hrow : IsRow now draft customer number plants order) (hne : draft.items ≠ [])
    (hpos : PositiveItems draft.items)
    (hsell : ∀ item ∈ draft.items, lineError plants item = none) : order.WellFormed where
  items := by
    rw [hrow.items]
    simpa using hne
  positive item hi := by
    rw [hrow.items] at hi
    obtain ⟨line, hl, rfl⟩ := List.mem_map.mp hi
    exact hpos line hl
  subtotal := by rw [hrow.subtotal, hrow.items, subtotalUnits_eq_sum hsell]
  shippingFee := by
    rw [Numeric.toDecimal, Numeric.toDecimal, shippingFeeFor_cents, hrow.shipping,
      cartShipping_of_sellable hne hsell, hrow.subtotal]
  total := hrow.total
  bounded := Numeric.le_maxTotalAmount _
  reference := by rw [hrow.paymentReference, hrow.paymentMethod, hrow.orderNumber]

/-- The scope of the history: every order is well formed. -/
def historyScope (serialized : Bool) : Scope where
  serialized := serialized
  inv db := ∀ o ∈ db.orders.rows, o.WellFormed
  rel d d' := (∀ o ∈ d.orders.rows, o.WellFormed) → ∀ o ∈ d'.orders.rows, o.WellFormed
  answers _ := True
  refl _ := id
  trans h₁ h₂ := h₂ ∘ h₁
  keeps h := h

section Runs

variable {ι : Type}

/-- The contract of the shop within the scope of the history. -/
def historyContract (site : Deployment) (serialized : Bool) (requests : ι → Request)
    (hitems : ∀ i draft, (requests i).draft? = some draft → draft.items ≠ []) :
    Contract (shop site serialized requests) :=
  shopContract (historyScope serialized) site requests (fun _ => trivial)
    fun i _ _ _ _ _ hp hd => by
      -- a new row is well formed as it is inserted; old ones keep their columns
      rcases Request.orders_cases hp with ⟨draft, now, id, order, hdraft, -, hplaced⟩ | hsame
      · intro o ho
        rcases hplaced.mem_rows.mp ho with ho | rfl
        · exact hd o ho
        · exact hplaced.row.wellFormed (hitems i draft hdraft) hplaced.positive hplaced.sellable
      · exact forall_orders_of_placed Order.wellFormed_placed hsame hd

variable [DecidableEq ι]

/-- **History.**  For any requests under any schedule every committed order is
well formed, and every order that was ever committed is still there with all
its columns but status and payment. -/
theorem orders_historically_correct (site : Deployment) (serialized : Bool)
    (requests : ι → Request)
    (hitems : ∀ i draft, (requests i).draft? = some draft → draft.items ≠ []) {d : Db}
    (hd : ∀ o ∈ d.orders.rows, o.WellFormed) (ms : ℕ → Move ι Outside) (n : ℕ) :
    (∀ o ∈ (trace (shop site serialized requests) d ms n).db.orders.rows, o.WellFormed) ∧
    ∀ m ≤ n, ∀ id o, (trace (shop site serialized requests) d ms m).db.orders.get id = some o →
      ∃ o', (trace (shop site serialized requests) d ms n).db.orders.get id = some o' ∧
        o'.placed = o.placed := by
  refine ⟨((historyContract site serialized requests hitems).good_trace hd ms n).inv,
    fun m hmn id o ho => ?_⟩
  exact ((historyContract site serialized requests hitems).rely_trace hd ms hmn).1.orders id o ho

theorem fernOrder_wellFormed : fernOrder.WellFormed where
  items := by decide
  positive := by decide
  subtotal := by decide
  shippingFee := by decide
  total := by decide
  bounded := by decide
  reference := by decide

/-- One order, while somebody cancels it and another one is placed. -/
theorem orders_historically_correct_fern :
    ∃ o, (trace (shop smallShop false fun cancels : Bool =>
        if cancels then .updateOrderStatus 5 .cancelled else .createOrder oneFern) Db.oneOrder
      (fun n => if n < 2 then .start (n = 0) else .step (n % 2 = 0) (atNoon n)) 60).db.orders.get 5
        = some o ∧ o.placed = fernOrder.placed := by
  have hdraft : ∀ (cancels : Bool) draft, (if cancels then Request.updateOrderStatus 5 .cancelled
      else .createOrder oneFern).draft? = some draft → draft.items ≠ [] := by
    intro cancels draft h
    cases cancels
    · cases h
      nofun
    · cases h
  have hstart : ∀ o ∈ Db.oneOrder.orders.rows, o.WellFormed := by
    intro o ho
    rw [List.mem_singleton.mp ho]
    exact fernOrder_wellFormed
  exact (orders_historically_correct smallShop false _ hdraft hstart
    (fun n => if n < 2 then .start (n = 0) else .step (n % 2 = 0) (atNoon n)) 60).2 0
    (Nat.zero_le _) 5 fernOrder rfl

end Runs

end GreenGarden
