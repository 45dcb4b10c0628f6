/-
GreenGarden/Pricing.lean

Pricing of a cart (`orders/service.py`: `_unit_price`, `shipping_fee_for`,
`price_order`).

Every amount is a `Decimal` under the default context.  The loop keeps a
running subtotal over the sellable lines; unsellable lines carry their error
and add nothing.  `priceOrder_eq` says what the loop computes: for
non-negative quantities it is the exact sum in hundredths, or
`decimal.InvalidOperation` when that sum does not fit 28 digits, and never a
rounded amount.
-/
import GreenGarden.Schema

namespace GreenGarden

open Transaction

/-- One requested line: which plant and how many. -/
structure OrderItemInput where
  plantId : UUID
  quantity : ℤ
  deriving DecidableEq

/-- One requested line after pricing; `error` is set when it cannot be sold. -/
structure PricedLine where
  item : OrderItemInput
  plant : Option Plant
  unitPrice : Decimal
  lineTotal : Decimal
  error : Option Error
  deriving DecidableEq

/-- The line can be sold. -/
def PricedLine.available (line : PricedLine) : Bool := line.error.isNone

/-- Totals over the sellable lines. -/
structure OrderPrice where
  lines : List PricedLine
  subtotal : Decimal
  shippingFee : Decimal
  total : Decimal
  currency : Text
  deriving DecidableEq

/-- The one currency of the shop. -/
def orderCurrency : Text := "VND".toList

/-- Nothing to pay. -/
def zeroAmount : Decimal := .cents 0

/-- Shipping is free at or above this subtotal. -/
def freeShippingAbove : Decimal := .cents 50000000

/-- What shipping costs below the threshold. -/
def shippingFee : Decimal := .cents 5000000

/-- The largest total that the column holds. -/
def maxTotalAmount : Decimal := .cents 999999999999

/-- `amount.quantize(Decimal("0.01"))`. -/
def quantize (amount : Decimal) : Except Error Decimal :=
  match amount.quantize (-2) with
  | some d => .ok d
  | none => .error .invalidOperation

/-- VND price for one unit; no VND price means no price at all. -/
def unitPrice (plant : Plant) : Except Error Decimal :=
  match plant.priceVi with
  | none => .error (.plantUnavailable plant.name)
  | some price => quantize price.toDecimal

/-- Flat delivery fee, waived when the subtotal reaches the threshold. -/
def shippingFeeFor (subtotal : Decimal) : Decimal :=
  if freeShippingAbove.le subtotal then zeroAmount else shippingFee

/-- One turn of the pricing loop. -/
def priceLine (plants : UUID → Option Plant) (item : OrderItemInput) :
    Except Error PricedLine :=
  match plants item.plantId with
  | none => .ok ⟨item, none, zeroAmount, zeroAmount, some .plantNotFound⟩
  | some plant =>
      if plant.isActive = false then
        .ok ⟨item, some plant, zeroAmount, zeroAmount, some (.plantUnavailable plant.name)⟩
      else
        match unitPrice plant with
        | .error (.plantUnavailable name) =>
            .ok ⟨item, some plant, zeroAmount, zeroAmount, some (.plantUnavailable name)⟩
        | .error e => .error e
        | .ok price =>
            match quantize (price.mul (.ofInt item.quantity)) with
            | .error e => .error e
            | .ok lineTotal => .ok ⟨item, some plant, price, lineTotal, none⟩

/-- The pricing loop: the lines, and the subtotal so far. -/
def priceLines (plants : UUID → Option Plant) :
    List OrderItemInput → Decimal → Except Error (List PricedLine × Decimal)
  | [], subtotal => .ok ([], subtotal)
  | item :: items, subtotal =>
      match priceLine plants item with
      | .error e => .error e
      | .ok line =>
          match priceLines plants items
              (if line.available then subtotal.add line.lineTotal else subtotal) with
          | .error e => .error e
          | .ok (lines, total) => .ok (line :: lines, total)

/-- Price every line from already-loaded catalogue rows, writing nothing. -/
def priceOrder (items : List OrderItemInput) (plants : UUID → Option Plant) :
    Except Error OrderPrice :=
  match priceLines plants items zeroAmount with
  | .error e => .error e
  | .ok (lines, subtotal) =>
      match quantize subtotal with
      | .error e => .error e
      | .ok subtotal =>
          let shipping := if lines.any PricedLine.available then shippingFeeFor subtotal
            else zeroAmount
          .ok ⟨lines, subtotal, shipping, subtotal.add shipping, orderCurrency⟩

/-! ### What a line costs, in hundredths -/

/-- The price of a line's plant, if the line can be sold. -/
def sellablePrice (plants : UUID → Option Plant) (id : UUID) : Option Money :=
  (plants id).bind fun plant => if plant.isActive then plant.priceVi else none

/-- Hundredths a line adds to the subtotal. -/
def lineUnits (plants : UUID → Option Plant) (item : OrderItemInput) : ℤ :=
  match sellablePrice plants item.plantId with
  | some price => price.units * item.quantity
  | none => 0

/-- The exact subtotal in hundredths. -/
def subtotalUnits (plants : UUID → Option Plant) (items : List OrderItemInput) : ℤ :=
  (items.map (lineUnits plants)).sum

/-- The shipping fee in hundredths. -/
def shippingUnits (subtotal : ℤ) : ℤ := if 50000000 ≤ subtotal then 0 else 5000000

/-- Why a line cannot be sold. -/
def lineError (plants : UUID → Option Plant) (item : OrderItemInput) : Option Error :=
  match plants item.plantId with
  | none => some .plantNotFound
  | some plant =>
      if plant.isActive ∧ plant.priceVi.isSome then none
      else some (.plantUnavailable plant.name)

/-- A line as the exact arithmetic prices it. -/
def exactLine (plants : UUID → Option Plant) (item : OrderItemInput) : PricedLine where
  item := item
  plant := plants item.plantId
  unitPrice := match sellablePrice plants item.plantId with
    | some price => price.toDecimal
    | none => zeroAmount
  lineTotal := .cents (lineUnits plants item)
  error := lineError plants item

@[simp] theorem exactLine_item (plants : UUID → Option Plant) (item : OrderItemInput) :
    (exactLine plants item).item = item := rfl

@[simp] theorem exactLine_error (plants : UUID → Option Plant) (item : OrderItemInput) :
    (exactLine plants item).error = lineError plants item := rfl

/-- A line is sellable exactly when its plant has a price to sell at. -/
theorem lineError_eq_none {plants : UUID → Option Plant} {item : OrderItemInput} :
    lineError plants item = none ↔ ∃ price, sellablePrice plants item.plantId = some price := by
  unfold lineError sellablePrice
  rcases plants item.plantId with - | plant
  · simp
  · rcases h : plant.isActive <;> simp [h, Option.isSome_iff_exists]

theorem lineUnits_of_error {plants : UUID → Option Plant} {item : OrderItemInput}
    (h : lineError plants item ≠ none) : lineUnits plants item = 0 := by
  unfold lineUnits
  rcases hs : sellablePrice plants item.plantId with - | price
  · rfl
  · exact absurd (lineError_eq_none.mpr ⟨price, hs⟩) h

theorem lineUnits_nonneg {plants : UUID → Option Plant} {item : OrderItemInput}
    (h : 0 ≤ item.quantity) : 0 ≤ lineUnits plants item := by
  unfold lineUnits
  rcases sellablePrice plants item.plantId with - | price
  · exact le_rfl
  · exact mul_nonneg (Int.natCast_nonneg _) h

theorem subtotalUnits_nonneg {plants : UUID → Option Plant} {items : List OrderItemInput}
    (h : ∀ item ∈ items, 0 ≤ item.quantity) : 0 ≤ subtotalUnits plants items := by
  refine List.sum_nonneg fun n hn => ?_
  obtain ⟨item, hmem, rfl⟩ := List.mem_map.mp hn
  exact lineUnits_nonneg (h item hmem)

/-! ### The decimal loop against the exact arithmetic -/

theorem quantize_money (price : Money) : quantize price.toDecimal = .ok price.toDecimal := by
  have h : ((price.units : ℕ) : ℤ).natAbs < 10 ^ Decimal.prec := by
    have := price.lt
    rw [Int.natAbs_natCast]
    exact this.trans (by decide)
  rw [quantize, Numeric.toDecimal, Decimal.quantize_cents h]

theorem priceLine_eq (plants : UUID → Option Plant) {item : OrderItemInput}
    (hq : 0 ≤ item.quantity) :
    priceLine plants item =
      if lineUnits plants item < 10 ^ Decimal.prec then .ok (exactLine plants item)
      else .error .invalidOperation := by
  have hzero : (0 : ℤ) < 10 ^ Decimal.prec := by decide
  rcases hp : plants item.plantId with - | plant
  · simp [priceLine, hp, exactLine, lineError, lineUnits, sellablePrice, hzero, zeroAmount]
  rcases ha : plant.isActive
  · simp [priceLine, hp, ha, exactLine, lineError, lineUnits, sellablePrice, hzero, zeroAmount]
  rcases hv : plant.priceVi with - | price
  · simp [priceLine, hp, ha, unitPrice, hv, exactLine, lineError, lineUnits, sellablePrice, hzero,
      zeroAmount]
  -- a sellable line: the product is exact or refused
  have hunits : lineUnits plants item = price.units * item.quantity := by
    simp [lineUnits, sellablePrice, hp, ha, hv]
  have hmul := Decimal.quantize_mul_cents (u := price.units) (q := item.quantity)
    (mul_nonneg (Int.natCast_nonneg _) hq)
  have hexact : exactLine plants item
      = ⟨item, some plant, price.toDecimal, .cents (price.units * item.quantity), none⟩ := by
    simp [exactLine, hp, ha, hv, sellablePrice, lineError, hunits]
  simp only [priceLine, hp, ha, unitPrice, hv, quantize_money, hunits, hexact,
    Bool.true_eq_false, if_false]
  simp only [quantize, Numeric.toDecimal, hmul]
  by_cases hlt : (price.units : ℤ) * item.quantity < 10 ^ Decimal.prec
  · simp only [if_pos hlt]
  · simp only [if_neg hlt]

theorem priceLines_eq (plants : UUID → Option Plant) {items : List OrderItemInput}
    {subtotal : Decimal} {n : ℤ} (hq : ∀ item ∈ items, 0 ≤ item.quantity) (hn : 0 ≤ n)
    (htrack : subtotal.Tracks n) :
    (∃ total, priceLines plants items subtotal = .ok (items.map (exactLine plants), total) ∧
      total.Tracks (n + subtotalUnits plants items)) ∨
    (priceLines plants items subtotal = .error .invalidOperation ∧
      10 ^ Decimal.prec ≤ n + subtotalUnits plants items) := by
  induction items generalizing subtotal n with
  | nil => exact .inl ⟨subtotal, rfl, by simpa [subtotalUnits] using htrack⟩
  | cons item items ih =>
    have hitem := hq item List.mem_cons_self
    have hrest : ∀ item ∈ items, 0 ≤ item.quantity :=
      fun i hi => hq i (List.mem_cons_of_mem _ hi)
    have hunits : 0 ≤ lineUnits plants item := lineUnits_nonneg hitem
    have hsum : subtotalUnits plants (item :: items)
        = lineUnits plants item + subtotalUnits plants items := by
      simp [subtotalUnits]
    have hline := priceLine_eq plants hitem
    by_cases hlt : lineUnits plants item < 10 ^ Decimal.prec
    · rw [if_pos hlt] at hline
      -- the subtotal after this line tracks the exact sum so far
      have hnext : (if (exactLine plants item).available then
          subtotal.add (exactLine plants item).lineTotal else subtotal).Tracks
            (n + lineUnits plants item) := by
        by_cases herr : lineError plants item = none
        · rw [if_pos (by simp [PricedLine.available, herr])]
          exact htrack.add hn hunits
        · rw [if_neg (by simpa [PricedLine.available, Option.isSome_iff_ne_none] using herr),
            lineUnits_of_error herr, add_zero]
          exact htrack
      rcases ih hrest (add_nonneg hn hunits) hnext with ⟨total, hrun, ht⟩ | ⟨hrun, hbig⟩
      · refine .inl ⟨total, ?_, ?_⟩
        · simp only [priceLines, hline, hrun, List.map_cons]
        · rw [hsum, ← add_assoc]; exact ht
      · refine .inr ⟨?_, by rw [hsum]; omega⟩
        simp only [priceLines, hline, hrun]
    · rw [if_neg hlt] at hline
      have : 0 ≤ subtotalUnits plants items := subtotalUnits_nonneg hrest
      refine .inr ⟨?_, by rw [hsum]; omega⟩
      simp only [priceLines, hline]

theorem shippingFeeFor_cents (n : ℤ) :
    shippingFeeFor (.cents n) = .cents (shippingUnits n) := by
  simp only [shippingFeeFor, shippingUnits, freeShippingAbove, Decimal.le_cents]
  split <;> rfl

/-- Hundredths of shipping on a cart: none when nothing in it can be sold. -/
def cartShipping (plants : UUID → Option Plant) (items : List OrderItemInput) : ℤ :=
  if items.any fun item => (lineError plants item).isNone then
    shippingUnits (subtotalUnits plants items)
  else 0

/-- The price of a cart by exact arithmetic. -/
def exactPrice (items : List OrderItemInput) (plants : UUID → Option Plant) : OrderPrice where
  lines := items.map (exactLine plants)
  subtotal := .cents (subtotalUnits plants items)
  shippingFee := .cents (cartShipping plants items)
  total := .cents (subtotalUnits plants items + cartShipping plants items)
  currency := orderCurrency

theorem shippingUnits_nonneg (n : ℤ) : 0 ≤ shippingUnits n := by
  unfold shippingUnits
  split <;> omega

theorem cartShipping_nonneg (plants : UUID → Option Plant) (items : List OrderItemInput) :
    0 ≤ cartShipping plants items := by
  unfold cartShipping
  split
  · exact shippingUnits_nonneg _
  · exact le_rfl

/-- **Pricing is exact.**  For non-negative quantities `priceOrder` returns the
exact amounts, or signals when the subtotal does not fit the context. -/
theorem priceOrder_eq (plants : UUID → Option Plant) {items : List OrderItemInput}
    (hq : ∀ item ∈ items, 0 ≤ item.quantity) :
    priceOrder items plants =
      if subtotalUnits plants items < 10 ^ Decimal.prec then .ok (exactPrice items plants)
      else .error .invalidOperation := by
  have hnn : 0 ≤ subtotalUnits plants items := subtotalUnits_nonneg hq
  have hstart : zeroAmount.Tracks 0 := .inl ⟨by decide, rfl⟩
  rcases priceLines_eq plants hq le_rfl hstart with ⟨total, hrun, ht⟩ | ⟨hrun, hbig⟩
  · rw [zero_add] at ht
    have hquant := ht.quantize hnn
    simp only [priceOrder, hrun, quantize, hquant]
    by_cases hlt : subtotalUnits plants items < 10 ^ Decimal.prec
    · -- the fee is added only to small subtotals, so the total fits as well
      have hfits : ∀ fee, (fee = 0 ∨ (fee = 5000000 ∧ subtotalUnits plants items < 50000000)) →
          Decimal.add (.cents (subtotalUnits plants items)) (.cents fee)
            = .cents (subtotalUnits plants items + fee) := by
        intro fee hfee
        refine Decimal.add_cents ((Decimal.natAbs_lt_prec (by omega)).mpr ?_)
        rcases hfee with rfl | ⟨rfl, hsmall⟩
        · rwa [add_zero]
        · exact lt_trans (by omega : _ < (60000000 : ℤ)) (by decide)
      have hany : (items.map (exactLine plants)).any PricedLine.available
          = items.any fun item => (lineError plants item).isNone := by
        rw [List.any_map]
        rfl
      have hship : (if items.any fun item => (lineError plants item).isNone then
          shippingFeeFor (.cents (subtotalUnits plants items)) else zeroAmount)
          = .cents (cartShipping plants items) := by
        unfold cartShipping
        split
        · exact shippingFeeFor_cents _
        · rfl
      have hadd := hfits (cartShipping plants items) (by
        unfold cartShipping shippingUnits
        split_ifs <;> omega)
      simp only [if_pos hlt, hany, hship, hadd]
      rfl
    · simp only [if_neg hlt]
  · rw [zero_add] at hbig
    simp only [priceOrder, hrun]
    rw [if_neg (not_lt.mpr hbig)]

end GreenGarden
