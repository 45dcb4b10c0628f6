/-
GreenGarden/CartForms.lean

Pricing does not depend on how a cart is written.  A cart of fewer than a
million lines prices to fewer than 28 digits, so nothing is rounded anywhere
(`priceOrder_of_admitted`); what it costs is then a sum over its lines, and a
sum does not change when the lines change places, when a line is split into
several of the same plant, or when lines that cannot be sold come and go
(`Rewritten.same`).
-/
import GreenGarden.System

namespace GreenGarden

/-- A cart that the checkout could be asked to price. -/
structure Admitted (items : List OrderItemInput) : Prop where
  length : items.length < 10 ^ 6
  quantity : ∀ item ∈ items, 1 ≤ item.quantity ∧ item.quantity ≤ 2 ^ 31 - 1

/-- What a line costs: price times quantity, if it can be sold. -/
def lineCost (plants : UUID → Option Plant) (item : OrderItemInput) : ℚ :=
  match sellablePrice plants item.plantId with
  | some price => price.toDecimal.toRat * item.quantity
  | none => 0

/-- What the lines cost that can be sold. -/
def cartCost (plants : UUID → Option Plant) (items : List OrderItemInput) : ℚ :=
  (items.map (lineCost plants)).sum

/-- Some line of the cart can be sold. -/
def AnySellable (plants : UUID → Option Plant) (items : List OrderItemInput) : Prop :=
  ∃ item ∈ items, ∃ price, sellablePrice plants item.plantId = some price

/-- Two ways of writing one cart: one comes from the other by moving lines, by splitting lines
into lines of the same plant, by adding lines that cannot be sold, or by undoing these. -/
inductive Rewritten (plants : UUID → Option Plant) :
    List OrderItemInput → List OrderItemInput → Prop
  | perm {items items' : List OrderItemInput} : items.Perm items' → Rewritten plants items items'
  | split (before after : List OrderItemInput) (id : UUID) {parts : List ℤ} :
      parts ≠ [] → Rewritten plants (before ++ ⟨id, parts.sum⟩ :: after)
        (before ++ parts.map (OrderItemInput.mk id) ++ after)
  | unsellable (before after : List OrderItemInput) {item : OrderItemInput} :
      sellablePrice plants item.plantId = none →
      Rewritten plants (before ++ after) (before ++ item :: after)
  | symm {items items' : List OrderItemInput} :
      Rewritten plants items items' → Rewritten plants items' items
  | trans {items items' items'' : List OrderItemInput} : Rewritten plants items items' →
      Rewritten plants items' items'' → Rewritten plants items items''

/-- The price of a cart, nothing lost to rounding on the way or at the end. -/
structure PricedExactly (plants : UUID → Option Plant) (items : List OrderItemInput)
    (price : OrderPrice) : Prop where
  lineTotal : ∀ line ∈ price.lines, line.available = true →
    line.lineTotal.toRat = line.unitPrice.toRat * line.item.quantity
  running : ∀ n, ∃ lines subtotal,
    priceLines plants (items.take n) zeroAmount = .ok (lines, subtotal) ∧
    subtotal.toRat = cartCost plants (items.take n)
  subtotal : price.subtotal.toRat = cartCost plants items
  total_of_sellable : AnySellable plants items →
    price.shippingFee = shippingFeeFor price.subtotal ∧
    price.total.toRat = price.subtotal.toRat + (shippingFeeFor price.subtotal).toRat
  total_of_unsellable : ¬ AnySellable plants items → price.total.toRat = 0

section Exact

variable {plants : UUID → Option Plant} {items items' : List OrderItemInput}

/-! ### Nothing is rounded -/

theorem Admitted.nonneg (h : Admitted items) : ∀ item ∈ items, 0 ≤ item.quantity :=
  fun item hi => zero_le_one.trans (h.quantity item hi).1

theorem Admitted.take (h : Admitted items) (n : ℕ) : Admitted (items.take n) where
  length := (List.length_take_le' n items).trans_lt h.length
  quantity item hi := h.quantity item (List.mem_of_mem_take hi)

/-- A million lines of the dearest plant still fit 28 digits. -/
theorem Admitted.subtotalUnits_lt (h : Admitted items) :
    subtotalUnits plants items < 10 ^ Decimal.prec := by
  have hline : ∀ n ∈ items.map (lineUnits plants), n ≤ 10 ^ 12 * 2 ^ 31 := by
    intro n hn
    obtain ⟨item, hi, rfl⟩ := List.mem_map.mp hn
    obtain ⟨hpos, hmax⟩ := h.quantity item hi
    unfold lineUnits
    rcases sellablePrice plants item.plantId with - | price
    · exact show (0 : ℤ) ≤ 10 ^ 12 * 2 ^ 31 by decide
    · have hp : (price.units : ℤ) ≤ 10 ^ 12 := by exact_mod_cast price.lt.le
      exact mul_le_mul hp (by omega) (by omega) (by decide)
  have hsum := List.sum_le_card_nsmul _ _ hline
  rw [List.length_map, nsmul_eq_mul] at hsum
  have hlength : (items.length : ℤ) ≤ 10 ^ 6 := by exact_mod_cast h.length.le
  calc subtotalUnits plants items
      ≤ (items.length : ℤ) * (10 ^ 12 * 2 ^ 31) := hsum
    _ ≤ 10 ^ 6 * (10 ^ 12 * 2 ^ 31) := mul_le_mul_of_nonneg_right hlength (by decide)
    _ < 10 ^ Decimal.prec := by decide

theorem priceOrder_of_admitted (h : Admitted items) :
    priceOrder items plants = .ok (exactPrice items plants) := by
  rw [priceOrder_eq plants h.nonneg, if_pos h.subtotalUnits_lt]

theorem priceLines_of_admitted (h : Admitted items) :
    priceLines plants items zeroAmount =
      .ok (items.map (exactLine plants), .cents (subtotalUnits plants items)) := by
  have hstart : zeroAmount.Tracks 0 := .inl ⟨by decide, rfl⟩
  have hlt : subtotalUnits plants items < 10 ^ Decimal.prec := h.subtotalUnits_lt
  rcases priceLines_eq plants h.nonneg le_rfl hstart with ⟨total, hrun, htrack⟩ | ⟨-, hbig⟩
  · rw [zero_add] at htrack
    rcases htrack with ⟨-, rfl⟩ | ⟨hge, -⟩
    · exact hrun
    · exact absurd hlt (not_lt.mpr hge)
  · rw [zero_add] at hbig
    exact absurd hlt (not_lt.mpr hbig)

/-! ### Hundredths as amounts -/

theorem toRat_cents (n : ℤ) : (Decimal.cents n).toRat = n / 100 := by
  rw [Decimal.toRat, Decimal.cents]
  norm_num [div_eq_mul_inv]

theorem lineCost_eq (plants : UUID → Option Plant) (item : OrderItemInput) :
    lineCost plants item = (lineUnits plants item : ℚ) / 100 := by
  rw [lineCost, lineUnits]
  rcases sellablePrice plants item.plantId with - | price
  · simp
  · simp only [Numeric.toDecimal, toRat_cents, Int.cast_mul, Int.cast_natCast]
    ring

theorem cartCost_eq (plants : UUID → Option Plant) (items : List OrderItemInput) :
    cartCost plants items = (subtotalUnits plants items : ℚ) / 100 := by
  induction items with
  | nil => simp [cartCost, subtotalUnits]
  | cons item items ih =>
    rw [cartCost, subtotalUnits] at ih ⊢
    rw [List.map_cons, List.map_cons, List.sum_cons, List.sum_cons, ih, lineCost_eq, Int.cast_add]
    ring

theorem anySellable_iff : AnySellable plants items ↔
    (items.any fun item => (lineError plants item).isNone) = true := by
  simp only [AnySellable, List.any_eq_true, Option.isNone_iff_eq_none, lineError_eq_none]

theorem subtotalUnits_of_unsellable (h : ¬ AnySellable plants items) :
    subtotalUnits plants items = 0 := by
  refine List.sum_eq_zero fun n hn => ?_
  obtain ⟨item, hi, rfl⟩ := List.mem_map.mp hn
  exact lineUnits_of_error fun herr => h ⟨item, hi, lineError_eq_none.mp herr⟩

theorem exactPrice_pricedExactly (h : Admitted items) :
    PricedExactly plants items (exactPrice items plants) where
  lineTotal line hline havailable := by
    obtain ⟨item, -, rfl⟩ := List.mem_map.mp hline
    rw [PricedLine.available, exactLine_error, Option.isNone_iff_eq_none] at havailable
    obtain ⟨price, hprice⟩ := lineError_eq_none.mp havailable
    simp only [exactLine, lineUnits, hprice, Numeric.toDecimal, toRat_cents, Int.cast_mul,
      Int.cast_natCast]
    ring
  running n := ⟨_, _, priceLines_of_admitted (h.take n), by rw [toRat_cents, cartCost_eq]⟩
  subtotal := by rw [exactPrice, toRat_cents, cartCost_eq]
  total_of_sellable hsell := by
    simp only [exactPrice, cartShipping, if_pos (anySellable_iff.mp hsell), shippingFeeFor_cents,
      toRat_cents, Int.cast_add, add_div, and_self]
  total_of_unsellable hsell := by
    have hany := anySellable_iff.not.mp hsell
    simp only [exactPrice, cartShipping, if_neg hany, subtotalUnits_of_unsellable hsell,
      toRat_cents, add_zero, Int.cast_zero, zero_div]

/-! ### Rewriting a cart -/

theorem subtotalUnits_append (l r : List OrderItemInput) :
    subtotalUnits plants (l ++ r) = subtotalUnits plants l + subtotalUnits plants r := by
  rw [subtotalUnits, List.map_append, List.sum_append, subtotalUnits, subtotalUnits]

theorem subtotalUnits_cons (item : OrderItemInput) (r : List OrderItemInput) :
    subtotalUnits plants (item :: r) = lineUnits plants item + subtotalUnits plants r := by
  rw [subtotalUnits, List.map_cons, List.sum_cons, subtotalUnits]

/-- The parts of a line cost what the line costs. -/
theorem subtotalUnits_parts (id : UUID) (parts : List ℤ) :
    subtotalUnits plants (parts.map (OrderItemInput.mk id)) = lineUnits plants ⟨id, parts.sum⟩ := by
  induction parts with
  | nil => rw [lineUnits]; split <;> simp [subtotalUnits]
  | cons q parts ih =>
    rw [List.map_cons, subtotalUnits_cons, ih, List.sum_cons]
    simp only [lineUnits]
    split
    · rw [mul_add]
    · rfl

/-- Rewriting a cart changes neither what it costs nor whether anything in it can be sold. -/
theorem Rewritten.same (h : Rewritten plants items items') :
    subtotalUnits plants items = subtotalUnits plants items' ∧
      (AnySellable plants items ↔ AnySellable plants items') := by
  induction h with
  | perm hperm =>
    exact ⟨(hperm.map _).sum_eq, exists_congr fun item => and_congr_left' hperm.mem_iff⟩
  | split before after id hne =>
    rename_i parts
    constructor
    · simp only [subtotalUnits_append, subtotalUnits_cons, subtotalUnits_parts, add_assoc]
    · obtain ⟨q, rest, rfl⟩ := List.exists_cons_of_ne_nil hne
      simp only [AnySellable, List.mem_append, List.mem_cons, List.mem_map, or_and_right,
        exists_or, exists_eq_left, List.map_cons]
      constructor
      · rintro (h | h | h)
        · exact Or.inl (Or.inl h)
        · exact Or.inl (Or.inr (Or.inl h))
        · exact Or.inr h
      · rintro ((h | h | ⟨-, ⟨q', -, rfl⟩, h⟩) | h)
        · exact Or.inl h
        · exact Or.inr (Or.inl h)
        · exact Or.inr (Or.inl h)
        · exact Or.inr (Or.inr h)
  | unsellable before after hnone =>
    rename_i item
    have hzero : lineUnits plants item = 0 := by rw [lineUnits, hnone]
    constructor
    · simp only [subtotalUnits_append, subtotalUnits_cons, hzero, zero_add]
    · simp only [AnySellable, List.mem_append, List.mem_cons, or_and_right, exists_or,
        exists_eq_left, hnone, reduceCtorEq, exists_false, false_or]
  | symm _ ih => exact ⟨ih.1.symm, ih.2.symm⟩
  | trans _ _ ih ih' => exact ⟨ih.1.trans ih'.1, ih.2.trans ih'.2⟩

/-- **Pricing is exact and independent of how the cart is written.** -/
theorem pricing_exact (h : Admitted items) :
    ∃ price, priceOrder items plants = .ok price ∧ PricedExactly plants items price ∧
      ∀ items', Admitted items' → Rewritten plants items items' →
        ∃ price', priceOrder items' plants = .ok price' ∧ price'.subtotal = price.subtotal ∧
          price'.shippingFee = price.shippingFee ∧ price'.total = price.total := by
  refine ⟨_, priceOrder_of_admitted h, exactPrice_pricedExactly h, fun items' h' hrewritten => ?_⟩
  obtain ⟨hsum, hany⟩ := hrewritten.same
  rw [anySellable_iff, anySellable_iff, ← Bool.eq_iff_iff] at hany
  refine ⟨_, priceOrder_of_admitted h', ?_⟩
  simp only [exactPrice, cartShipping, hsum, hany, and_self]

end Exact

/-- Three ferns on one line, or two and one with an unknown plant between them. -/
theorem pricing_exact_ferns :
    ∃ price, priceOrder [⟨7, 3⟩] Db.ferns.plants.get = .ok price ∧
      ∃ price', priceOrder [⟨7, 2⟩, ⟨8, 1⟩, ⟨7, 1⟩] Db.ferns.plants.get = .ok price' ∧
        price'.subtotal = price.subtotal ∧ price'.shippingFee = price.shippingFee ∧
        price'.total = price.total := by
  have hthree : Admitted [⟨7, 3⟩] := ⟨by decide, by decide⟩
  obtain ⟨price, hprice, -, hsame⟩ := @pricing_exact Db.ferns.plants.get _ hthree
  have hsplit : Rewritten Db.ferns.plants.get [⟨7, 3⟩] [⟨7, 2⟩, ⟨7, 1⟩] :=
    Rewritten.split [] [] 7 (List.cons_ne_nil 2 [1])
  exact ⟨price, hprice, hsame _ ⟨by decide, by decide⟩
    (hsplit.trans (Rewritten.unsellable [⟨7, 2⟩] [⟨7, 1⟩] (by decide)))⟩

end GreenGarden
