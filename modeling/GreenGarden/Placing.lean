/-
GreenGarden/Placing.lean

`createOrder` as a triple: what holds when it commits (`Placed`), and what
must have been the case when it fails (`OrderFailure`).

The proof follows the body.  Each step leaves a fact that the locks taken with
it keep true (`Resolved`, `Checked`, `Allocated`), so that all of them still hold
at the commit, when the plants, the order numbers and the customer's row are
as they were when they were looked at.
-/
import GreenGarden.Steps
import GreenGarden.Numbering

namespace GreenGarden

open Transaction

/-- Why creating an order can fail, in a database it has looked at. -/
def OrderFailure (S : Scope) (draft : OrderDraft) : Error → Db → Prop
  | .customerInactive phone, d => phone = draft.phone ∧
      ∃ c ∈ d.customers.rows, c.phone = draft.phone ∧ c.isActive = false
  | .plantNotFound, d => ∃ seen, S.Sees seen d ∧
      ∃ item ∈ draft.items, seen.plants.get item.plantId = none
  | .plantUnavailable name, d => ∃ item ∈ draft.items,
      lineError d.plants.get item = some (.plantUnavailable name)
  | .insufficientStock name requested available, d => ∃ id ∈ plantIds draft.items, ∃ plant,
      d.plants.get id = some plant ∧ plant.name = name ∧ plant.stock = available ∧
      requested = totalOf draft.items id ∧ available < requested
  | .invalidOperation, d | .orderTotalTooLarge, d =>
      PositiveItems draft.items → maxTotalUnits < totalUnits d.plants.get draft.items
  | .numericOverflow, _ | .integrity .ordersTotalIsSubtotalPlusShipping, _
  | .integrity .orderItemsQuantityPositive, _ => ¬ PositiveItems draft.items
  | .integrity .primaryKey, d => ∃ v, S.answers v ∧ ((d.customers.get v.uuid).isSome ∨
      (d.orders.get v.uuid).isSome ∨ (d.notifications.get v.uuid).isSome)
  | .integrity .customersPhone, d => ∃ seen, S.Sees seen d ∧
      phoneTaken seen draft.phone = false ∧ phoneTaken d draft.phone = true
  | .integrity .ordersPaymentReference, d => S.inv d ∧ ∃ number, IsNumber number ∧
      number ∉ d.orderNumbers ∧ referenceTaken d (some (paymentReferenceFor number)) = true
  | _, _ => False

/-! ### The customer -/

/-- The customer of an order has been found or made; `writes` is what is
staged for the customers table so far. -/
inductive Resolved (S : Scope) (draft : OrderDraft) (h : Set Key) (d : Db) :
    OrderCustomer → (Table UUID Customer → Table UUID Customer) → Prop
  | known {seen : Db} {id : UUID} {c : Customer} (hseen : S.Sees seen d)
      (hget : seen.customers.get id = some c) (hphone : c.phone = draft.phone)
      (hactive : c.isActive = true) :
      Resolved S draft h d
        ⟨id, c.name, if c.email = none then draft.customerEmail else none⟩ fun t => t
  | created {seen : Db} {id : UUID} (hseen : S.Sees seen d)
      (hunknown : phoneTaken seen draft.phone = false) (hid : Key.customer id ∈ h)
      (hphone : Key.customerPhone draft.phone ∈ h) (hnew : d.customers.get id = none)
      (hfree : phoneTaken d draft.phone = false) :
      Resolved S draft h d ⟨id, draft.customerName, none⟩ fun t =>
        t.insert id ⟨draft.phone, draft.customerName, draft.customerEmail, true⟩

theorem Resolved.step {S : Scope} {draft : OrderDraft} {h h' : Set Key} {d d' : Db}
    {customer : OrderCustomer} {writes : Table UUID Customer → Table UUID Customer}
    (hr : Resolved S draft h d customer writes) (hsub : h ⊆ h') (hd : S.rely.rel h d d') :
    Resolved S draft h' d' customer writes := by
  cases hr with
  | known hseen hget hphone hactive => exact .known (hseen.step hd) hget hphone hactive
  | created hseen hunknown hid hphone hnew hfree =>
    exact .created (hseen.step hd) hunknown (hsub hid) (hsub hphone)
      ((hd.1.customer _ (Set.notMem_compl_iff.mpr hid)).trans hnew)
      (hd.1.phone _ (Set.notMem_compl_iff.mpr hphone) hfree)

section Rules

variable {β : Type} {S : Scope} {draft : OrderDraft} {h : Set Key} {b : List (Db → Db)} {d : Db}
variable {Q : β → Set Key → List (Db → Db) → Db → Prop}

theorem phoneTaken_eq_true {db : Db} {phone : Text} :
    phoneTaken db phone = true ↔ ∃ c ∈ db.customers.rows, c.phone = phone := by
  rw [← Bool.not_eq_false, phoneTaken, Option.isSome_eq_false_iff, Option.isNone_iff_eq_none,
    Table.find?_eq_none]
  simp

theorem wp_resolveCustomerForOrder {g : OrderCustomer → Session β} (hinv : S.inv d)
    (hg : ∀ customer h' b' d' writes, S.rely.rel h d d' → h ⊆ h' →
      (∀ db, flush b' db = { db with customers := writes db.customers }) →
      Resolved S draft h' d' customer writes →
      wp S.rely (OrderFailure S draft) (g customer) Q h' b' d') :
    wp S.rely (OrderFailure S draft)
      (resolveCustomerForOrder draft.phone draft.customerName draft.customerEmail >>= g)
      Q h [] d := by
  rw [resolveCustomerForOrder, getCustomerByPhone, bind_assoc]
  refine wp_query fun d₁ h₁ => ?_
  have hinv₁ := S.keeps h₁.2 hinv
  rw [flush_nil]
  rcases hfind : d₁.customers.find? (fun c => c.phone = draft.phone) with - | ⟨id, c⟩
  · -- a new phone: insert a customer
    have hnone : phoneTaken d₁ draft.phone = false := by rw [phoneTaken, hfind]; rfl
    simp only [insertCustomer, bind_assoc]
    refine wp_newId (fun v d₂ hv h₂ hused => ⟨v, hv, .inl hused⟩) fun v d₂ hv h₂ hfree => ?_
    have hseen₂ := (Scope.Sees.refl hinv₁).step h₂
    refine wp_claimUnique (fun d₃ h₃ htaken => ⟨d₁, hseen₂.step h₃, hnone, htaken⟩)
      fun d₃ h₃ htaken => wp_stage ?_
    simp only [pure_bind]
    have hnew : d₂.customers.get v.uuid = none := by simpa using hfree
    refine hg _ _ _ d₃ (fun t => t.insert v.uuid _) ?_ ?_ (fun db => rfl) ?_
    · exact S.rely.trans h₁ (S.rely.trans h₂ (S.rely.anti (Set.subset_insert _ _) h₃))
    · exact (Set.subset_insert _ _).trans (Set.subset_insert _ _)
    · refine .created (hseen₂.step h₃) hnone (.inr (.inl rfl)) (.inl rfl) ?_ htaken
      exact (h₃.1.customer _ (Set.notMem_compl_iff.mpr (.inl rfl))).trans hnew
  · -- a known phone
    obtain ⟨hget, hphone⟩ := Table.get_of_find? hfind
    have hphone : c.phone = draft.phone := by simpa using hphone
    simp only [bind_assoc, pure_bind]
    refine wp_failIf (fun hin => ⟨rfl, c, Table.mem_rows_of_get hget, hphone, hin⟩) fun hact => ?_
    exact hg _ h [] d₁ (fun t => t) h₁ subset_rfl (fun db => rfl)
      (.known (.refl hinv₁) hget hphone (by simpa using hact))

end Rules

/-! ### The cart -/

/-- The cart has been checked and priced, against plants whose rows are locked. -/
structure Checked (draft : OrderDraft) (h : Set Key) (d : Db) (plants : UUID → Option Plant)
    (priced : OrderPrice) : Prop where
  locked : ∀ id ∈ plantIds draft.items, Key.plant id ∈ h
  current : ∀ id ∈ plantIds draft.items, plants id = d.plants.get id
  stock : ∀ id ∈ plantIds draft.items, ∃ plant, plants id = some plant ∧
    plant.isActive = true ∧ totalOf draft.items id ≤ plant.stock
  priced : priceOrder draft.items plants = .ok priced
  sellable : ∀ item ∈ draft.items, lineError plants item = none
  affordable : PositiveItems draft.items → totalUnits plants draft.items ≤ maxTotalUnits

theorem Checked.step {S : Scope} {draft : OrderDraft} {h h' : Set Key} {d d' : Db}
    {plants : UUID → Option Plant} {priced : OrderPrice} (hc : Checked draft h d plants priced)
    (hsub : h ⊆ h') (hd : S.rely.rel h d d') : Checked draft h' d' plants priced where
  locked id hid := hsub (hc.locked id hid)
  current id hid := (hc.current id hid).trans
    (hd.1.plant id (Set.notMem_compl_iff.mpr (hc.locked id hid))).symm
  stock := hc.stock
  priced := hc.priced
  sellable := hc.sellable
  affordable := hc.affordable

theorem totalUnits_congr {plants plants' : UUID → Option Plant} {items : List OrderItemInput}
    (h : ∀ item ∈ items, plants item.plantId = plants' item.plantId) :
    totalUnits plants items = totalUnits plants' items := by
  have hp := exactPrice_congr h
  have := congrArg (fun p : OrderPrice => p.total.coeff) hp
  exact this

theorem plantId_mem {items : List OrderItemInput} {item : OrderItemInput} (h : item ∈ items) :
    item.plantId ∈ plantIds items := mem_plantIds.mpr ⟨item, h, rfl⟩

section Rules

variable {β : Type} {S : Scope} {draft : OrderDraft} {h : Set Key} {b : List (Db → Db)} {d : Db}
variable {Q : β → Set Key → List (Db → Db) → Db → Prop}

theorem quantize_error {amount : Decimal} {e : Error} (h : quantize amount = .error e) :
    e = .invalidOperation := by
  unfold quantize at h
  split at h <;> cases h
  rfl

theorem priceLine_error {plants : UUID → Option Plant} {item : OrderItemInput} {e : Error}
    (h : priceLine plants item = .error e) : e = .invalidOperation := by
  rcases hp : plants item.plantId with - | plant
  · simp only [priceLine, hp] at h
    cases h
  rcases ha : plant.isActive
  · simp only [priceLine, hp, ha, if_true] at h
    cases h
  rcases hv : plant.priceVi with - | price
  · simp only [priceLine, hp, ha, unitPrice, hv, Bool.true_eq_false, if_false] at h
    cases h
  · simp only [priceLine, hp, ha, unitPrice, hv, quantize_money, Bool.true_eq_false,
      if_false] at h
    split at h
    · rename_i e' he
      cases h
      exact quantize_error he
    · cases h

theorem priceLines_error {plants : UUID → Option Plant} {items : List OrderItemInput}
    {subtotal : Decimal} {e : Error} (h : priceLines plants items subtotal = .error e) :
    e = .invalidOperation := by
  induction items generalizing subtotal with
  | nil => cases h
  | cons item items ih =>
    simp only [priceLines] at h
    rcases hline : priceLine plants item with e' | line
    · rw [hline] at h
      cases h
      exact priceLine_error hline
    rw [hline] at h
    simp only at h
    split at h
    · rename_i e' hrest
      cases h
      exact ih hrest
    · cases h

/-- An error of pricing is the context running out of digits. -/
theorem priceOrder_error {plants : UUID → Option Plant} {items : List OrderItemInput} {e : Error}
    (h : priceOrder items plants = .error e) : e = .invalidOperation := by
  unfold priceOrder at h
  split at h
  · rename_i e' he
    cases h
    exact priceLines_error he
  · split at h
    · rename_i e' he
      cases h
      exact quantize_error he
    · cases h

/-- The rows of the cart are locked, and `plants` is what they hold. -/
structure Found (items : List OrderItemInput) (h : Set Key) (d : Db)
    (plants : UUID → Option Plant) : Prop where
  found : ∀ id ∈ plantIds items, plants id ≠ none
  current : ∀ id ∈ plantIds items, plants id = d.plants.get id
  locked : ∀ id ∈ plantIds items, Key.plant id ∈ h

theorem Found.agree {items : List OrderItemInput} {plants : UUID → Option Plant}
    (hf : Found items h d plants) :
    ∀ item ∈ items, plants item.plantId = d.plants.get item.plantId :=
  fun _ hi => hf.current _ (plantId_mem hi)

theorem found_lockedPlants {items : List OrderItemInput} {seen : Db}
    (hlock : ∀ id ∈ plantIds items, (seen.plants.get id).isSome → Key.plant id ∈ h)
    (hfound : ∀ id ∈ plantIds items, lockedPlants (plantIds items) seen d id ≠ none) :
    Found items h d (lockedPlants (plantIds items) seen d) := by
  have hseen : ∀ id ∈ plantIds items, (seen.plants.get id).isSome := by
    intro id hid
    by_contra hs
    exact hfound id hid (if_neg fun hc => hs hc.2)
  exact ⟨hfound, fun id hid => if_pos ⟨hid, hseen id hid⟩,
    fun id hid => hlock id hid (hseen id hid)⟩

/-- A plant that is not found was not there when the rows were chosen: one that
was there then still is. -/
theorem missing_of_lockedPlants {seen : Db} {id : UUID} (hseen : S.Sees seen d)
    (hid : id ∈ plantIds draft.items)
    (hnone : lockedPlants (plantIds draft.items) seen d id = none) :
    OrderFailure S draft .plantNotFound d := by
  rcases hs : seen.plants.get id with - | plant
  · obtain ⟨item, hitem, rfl⟩ := mem_plantIds.mp hid
    exact ⟨seen, hseen, item, hitem, hs⟩
  · have hsome : (seen.plants.get id).isSome := by rw [hs]; rfl
    have := hseen.2.1.plants id hsome
    rw [lockedPlants, if_pos ⟨hid, hsome⟩] at hnone
    rw [hnone] at this
    cases this

/-- What the stock check reports is so in the database. -/
theorem StockFailure.orderFailure {plants : UUID → Option Plant} {e : Error}
    (hf : Found draft.items h d plants)
    (hcause : StockFailure plants (requestedOf draft.items) e) : OrderFailure S draft e d := by
  cases e with
  | plantNotFound =>
    obtain ⟨id, n, hmem, hnone⟩ := hcause
    exact absurd hnone (hf.found id (mem_requestedOf.mp hmem).1)
  | plantUnavailable name =>
    obtain ⟨id, n, plant, hmem, hp, rfl, hin⟩ := hcause
    obtain ⟨item, hitem, rfl⟩ := mem_plantIds.mp (mem_requestedOf.mp hmem).1
    refine ⟨item, hitem, ?_⟩
    rw [← lineError_congr (hf.agree item hitem), lineError, hp]
    simp [hin]
  | insufficientStock name requested available =>
    obtain ⟨id, plant, hmem, hp, hname, hstock, hlt⟩ := hcause
    obtain ⟨hid, hreq⟩ := mem_requestedOf.mp hmem
    exact ⟨id, hid, plant, by rw [← hf.current id hid, hp], hname, hstock, hreq, hlt⟩
  | _ => exact hcause.elim

/-- Pricing fails on amounts that no order may have. -/
theorem Found.priceOrder_orderFailure {plants : UUID → Option Plant} {e : Error}
    (hf : Found draft.items h d plants) (he : priceOrder draft.items plants = .error e) :
    OrderFailure S draft e d := by
  obtain rfl := priceOrder_error he
  intro hpos
  rw [priceOrder_eq plants hpos.nonneg] at he
  split at he
  · cases he
  · rename_i hbig
    have hship := cartShipping_nonneg plants draft.items
    have hprec : maxTotalUnits < (10 : ℤ) ^ Decimal.prec := by decide
    have hsum : totalUnits plants draft.items
      = subtotalUnits plants draft.items + cartShipping plants draft.items := rfl
    rw [← totalUnits_congr hf.agree]
    omega

/-- What a line reports is so in the database. -/
theorem Found.line_orderFailure {plants : UUID → Option Plant} {item : OrderItemInput} {e : Error}
    (hf : Found draft.items h d plants) (hitem : item ∈ draft.items)
    (hcause : lineError plants item = some e) : OrderFailure S draft e d := by
  have hcause' := hcause
  rw [lineError_congr (hf.agree item hitem)] at hcause'
  unfold lineError at hcause
  split at hcause
  · rename_i hnone
    exact absurd hnone (hf.found _ (plantId_mem hitem))
  · split at hcause
    · cases hcause
    · cases hcause
      exact ⟨item, hitem, hcause'⟩

theorem le_maxTotalAmount_iff {plants : UUID → Option Plant} {priced : OrderPrice}
    (hpriced : priceOrder draft.items plants = .ok priced) (hpos : PositiveItems draft.items) :
    priced.total.le maxTotalAmount ↔ totalUnits plants draft.items ≤ maxTotalUnits := by
  rw [priceOrder_exact hpos hpriced]
  exact Decimal.le_cents _ _

theorem wp_checkCart {g : (UUID → Option Plant) × OrderPrice → Session β} (hinv : S.inv d)
    (hb : ∀ db, (flush b db).plants = db.plants)
    (hg : ∀ plants priced h' d', S.rely.rel h d d' → h ⊆ h' →
      Checked draft h' d' plants priced →
      wp S.rely (OrderFailure S draft) (g (plants, priced)) Q h' b d') :
    wp S.rely (OrderFailure S draft) (checkCart draft.items >>= g) Q h b d := by
  simp only [checkCart, bind_assoc, pure_bind]
  refine wp_lockPlants hinv hb fun seen d' h' hseen _ hd hsub hlock _ => ?_
  set plants := lockedPlants (plantIds draft.items) seen d' with hplants
  -- every plant of the cart is there
  refine wp_failIf ?_ fun hmissing => ?_
  · rintro ⟨id, hid, hnone⟩
    exact missing_of_lockedPlants hseen hid hnone
  push Not at hmissing
  have hf : Found draft.items h' d' plants := found_lockedPlants hlock hmissing
  -- the stock check
  rcases checkStock_cases plants (requestedOf draft.items) with ⟨hok, hstock⟩ | ⟨e, herr, hcause⟩
  swap
  · refine wp_ofExcept (fun e' he' => ?_) fun a ha => by rw [herr] at ha; cases ha
    rw [herr] at he'
    cases he'
    exact hcause.orderFailure hf
  refine wp_ofExcept (fun e' he' => by rw [hok] at he'; cases he') fun _ _ => ?_
  -- pricing, and the error of the first bad line
  refine wp_ofExcept (fun e he => hf.priceOrder_orderFailure he) fun priced hpriced => ?_
  rcases checkLines_cases hpriced with ⟨hlok, hsell⟩ | ⟨e, hlerr, item, hitem, hcause⟩
  swap
  · refine wp_ofExcept (fun e' he' => ?_) fun a ha => by rw [hlerr] at ha; cases ha
    rw [hlerr] at he'
    cases he'
    exact hf.line_orderFailure hitem hcause
  refine wp_ofExcept (fun e' he' => by rw [hlok] at he'; cases he') fun _ _ => ?_
  -- the largest total
  refine wp_failIf (fun hbig hpos => ?_) fun hfits => ?_
  · rw [le_maxTotalAmount_iff hpriced hpos, not_le] at hbig
    rwa [← totalUnits_congr hf.agree]
  · refine hg plants priced h' d' hd hsub ?_
    exact
      { locked := hf.locked
        current := hf.current
        stock := fun id hid => hstock id _ (mem_requestedOf.mpr ⟨hid, rfl⟩)
        priced := hpriced
        sellable := hsell
        affordable := fun hpos => (le_maxTotalAmount_iff hpriced hpos).mp (not_not.mp hfits) }

end Rules

/-! ### The order number -/

/-- The number is the next one of its date, and nobody else can take it. -/
structure Allocated (h : Set Key) (d : Db) (number : Text) : Prop where
  locked : Key.advisory orderNumberLockKey ∈ h
  next : ∃ date sequence, number = formatNumber (numberPrefix date) sequence ∧
    nextSequence (numberPrefix date) (numbersOf date d.orderNumbers) = some sequence

theorem Allocated.step {S : Scope} {h h' : Set Key} {d d' : Db} {number : Text}
    (ha : Allocated h d number) (hsub : h ⊆ h') (hd : S.rely.rel h d d') :
    Allocated h' d' number where
  locked := hsub ha.locked
  next := by
    rw [hd.1.numbers (Set.notMem_compl_iff.mpr ha.locked)]
    exact ha.next

theorem Allocated.free {h : Set Key} {d : Db} {number : Text} (ha : Allocated h d number) :
    number ∉ d.orderNumbers := by
  obtain ⟨date, sequence, rfl, hnext⟩ := ha.next
  intro hmem
  exact nextSequence_free hnext
    (List.mem_filter.mpr ⟨hmem, isPrefixOf_formatNumber.mpr rfl⟩)

theorem Allocated.isNumber {h : Set Key} {d : Db} {number : Text} (ha : Allocated h d number) :
    IsNumber number := by
  obtain ⟨date, sequence, hnumber, -⟩ := ha.next
  exact ⟨date, sequence, hnumber⟩

/-! ### The customer's row at the commit -/

/-- What the order does to the customers table: nothing, fill in an email, or
add the customer. -/
inductive Filed (S : Scope) (draft : OrderDraft) (h : Set Key) (d : Db) :
    UUID → (Table UUID Customer → Table UUID Customer) → Prop
  | known {seen : Db} {id : UUID} {c : Customer} (hseen : S.Sees seen d)
      (hget : seen.customers.get id = some c) (hphone : c.phone = draft.phone)
      (hactive : c.isActive = true) : Filed S draft h d id fun t => t
  | filled {seen : Db} {id : UUID} {c : Customer} (email : Text) (hseen : S.Sees seen d)
      (hget : seen.customers.get id = some c) (hphone : c.phone = draft.phone)
      (hactive : c.isActive = true) (hid : Key.customer id ∈ h) :
      Filed S draft h d id fun t => t.modify id fun c => { c with email := email }
  | created {seen : Db} {id : UUID} (hseen : S.Sees seen d)
      (hunknown : phoneTaken seen draft.phone = false) (hid : Key.customer id ∈ h)
      (hphone : Key.customerPhone draft.phone ∈ h) (hnew : d.customers.get id = none)
      (hfree : phoneTaken d draft.phone = false) :
      Filed S draft h d id fun t =>
        t.insert id ⟨draft.phone, draft.customerName, draft.customerEmail, true⟩

theorem Filed.step {S : Scope} {draft : OrderDraft} {h h' : Set Key} {d d' : Db} {id : UUID}
    {writes : Table UUID Customer → Table UUID Customer} (hf : Filed S draft h d id writes)
    (hsub : h ⊆ h') (hd : S.rely.rel h d d') : Filed S draft h' d' id writes := by
  cases hf with
  | known hseen hget hphone hactive => exact .known (hseen.step hd) hget hphone hactive
  | filled email hseen hget hphone hactive hid =>
    exact .filled email (hseen.step hd) hget hphone hactive (hsub hid)
  | created hseen hunknown hid hphone hnew hfree =>
    exact .created (hseen.step hd) hunknown (hsub hid) (hsub hphone)
      ((hd.1.customer _ (Set.notMem_compl_iff.mpr hid)).trans hnew)
      (hd.1.phone _ (Set.notMem_compl_iff.mpr hphone) hfree)

section Rules

variable {β : Type} {S : Scope} {F : Error → Db → Prop} {draft : OrderDraft} {h : Set Key}
variable {b : List (Db → Db)} {d : Db} {Q : β → Set Key → List (Db → Db) → Db → Prop}

theorem wp_generateOrderNumber {g : Text → Session β}
    (hb : ∀ db, (flush b db).orders = db.orders)
    (hg : ∀ number h' d', S.rely.rel h d d' → h ⊆ h' → Allocated h' d' number →
      wp S.rely F (g number) Q h' b d') :
    wp S.rely F (generateOrderNumber >>= g) Q h b d := by
  rw [generateOrderNumber, bind_assoc]
  refine wp_outside fun v _ => ?_
  rw [bind_assoc]
  refine wp_acquire fun d₁ h₁ => ?_
  rw [bind_assoc]
  refine wp_query fun d₂ h₂ => ?_
  have hnumbers : (flush b d₂).orderNumbers = d₂.orderNumbers := by
    rw [Db.orderNumbers, Db.orderNumbers, hb]
  simp only [hnumbers]
  obtain ⟨sequence, hnext⟩ := nextSequence_isSome (numberPrefix v.clock.date)
    (d₂.orderNumbers.filter (numberPrefix v.clock.date).isPrefixOf)
  rw [hnext]
  exact hg _ _ d₂ (S.rely.trans h₁ (S.rely.anti (Set.subset_insert _ _) h₂))
    (Set.subset_insert _ _) ⟨.inl rfl, v.clock.date, sequence, rfl, hnext⟩

theorem wp_flushOrderCustomer {customer : OrderCustomer} {g : Unit → Session β}
    {writes : Table UUID Customer → Table UUID Customer}
    (hr : Resolved S draft h d customer writes)
    (hb : ∀ db, flush b db = { db with customers := writes db.customers })
    (hg : ∀ h' b' d' writes', S.rely.rel h d d' → h ⊆ h' →
      (∀ db, flush b' db = { db with customers := writes' db.customers }) →
      Filed S draft h' d' customer.id writes' → wp S.rely F (g ()) Q h' b' d') :
    wp S.rely F (customer.flush >>= g) Q h b d := by
  cases hr with
  | @known seen id c hseen hget hphone hactive =>
    rcases he : (if c.email = none then draft.customerEmail else none) with - | email
    · simp only [OrderCustomer.flush, pure_bind]
      exact hg h b d _ (S.rely.refl h d) subset_rfl hb (.known hseen hget hphone hactive)
    · simp only [OrderCustomer.flush, bind_assoc]
      refine wp_acquire fun d₁ h₁ => wp_stage ?_
      refine hg _ _ d₁ _ h₁ (Set.subset_insert _ _) (fun db => ?_)
        (.filled email (hseen.step h₁) hget hphone hactive (.inl rfl))
      rw [flush_cons, hb db]
  | created hseen hunknown hid hphone hnew hfree =>
    simp only [OrderCustomer.flush, pure_bind]
    exact hg h b d _ (S.rely.refl h d) subset_rfl hb
      (.created hseen hunknown hid hphone hnew hfree)

end Rules

/-! ### The rows of the order -/

theorem subtotalUnits_congr {plants plants' : UUID → Option Plant} {items : List OrderItemInput}
    (h : ∀ item ∈ items, plants item.plantId = plants' item.plantId) :
    subtotalUnits plants items = subtotalUnits plants' items :=
  congrArg (fun p : OrderPrice => p.subtotal.coeff) (exactPrice_congr h)

theorem cartShipping_congr {plants plants' : UUID → Option Plant} {items : List OrderItemInput}
    (h : ∀ item ∈ items, plants item.plantId = plants' item.plantId) :
    cartShipping plants items = cartShipping plants' items :=
  congrArg (fun p : OrderPrice => p.shippingFee.coeff) (exactPrice_congr h)

theorem IsRow.congr {now : Instant} {draft : OrderDraft} {customer : UUID} {number : Text}
    {plants plants' : UUID → Option Plant} {order : Order}
    (hrow : IsRow now draft customer number plants order)
    (h : ∀ item ∈ draft.items, plants item.plantId = plants' item.plantId) :
    IsRow now draft customer number plants' order :=
  { hrow with
    items := by
      rw [hrow.items]
      refine List.map_congr_left fun item hi => ?_
      simp only [soldItem, sellablePrice, h item hi]
    subtotal := by rw [hrow.subtotal, subtotalUnits_congr h]
    shipping := by rw [hrow.shipping, cartShipping_congr h] }

/-- The order has its key and its row. -/
structure Inserted (now : Instant) (draft : OrderDraft) (h : Set Key) (d : Db) (id : UUID)
    (order : Order) (customer : UUID) (number : Text) (plants : UUID → Option Plant) : Prop where
  locked : Key.order id ∈ h
  fresh : d.orders.get id = none
  positive : PositiveItems draft.items
  row : IsRow now draft customer number plants order

theorem Inserted.step {S : Scope} {now : Instant} {draft : OrderDraft} {h h' : Set Key}
    {d d' : Db} {id : UUID} {order : Order} {customer : UUID} {number : Text}
    {plants : UUID → Option Plant} (hi : Inserted now draft h d id order customer number plants)
    (hsub : h ⊆ h') (hd : S.rely.rel h d d') :
    Inserted now draft h' d' id order customer number plants where
  locked := hsub hi.locked
  fresh := (hd.1.order id (Set.notMem_compl_iff.mpr hi.locked)).trans hi.fresh
  positive := hi.positive
  row := hi.row

section Rules

variable {β : Type} {S : Scope} {now : Instant} {draft : OrderDraft} {h : Set Key}
variable {b : List (Db → Db)} {d : Db} {Q : β → Set Key → List (Db → Db) → Db → Prop}

theorem wp_insertOrder {customer : UUID} {number : Text} {plants : UUID → Option Plant}
    {priced : OrderPrice} {g : UUID → Session β} (hinv : S.inv d)
    (hchecked : Checked draft h d plants priced) (hnumber : Allocated h d number)
    (hb : ∀ db, (flush b db).orders = db.orders)
    (hg : ∀ id order h' d', S.rely.rel h d d' → h ⊆ h' →
      Inserted now draft h' d' id order customer number plants →
      wp S.rely (OrderFailure S draft) (g id) Q h'
        ((fun db => { db with orders := db.orders.insert id order }) :: b) d') :
    wp S.rely (OrderFailure S draft)
      (insertOrder (orderRow now draft customer number priced plants) >>= g) Q h b d := by
  rw [insertOrder, bind_assoc]
  refine wp_newId (fun v d₁ hv h₁ hused => ?_) fun v d₁ hv h₁ hused => ?_
  · rw [hb] at hused
    exact ⟨v, hv, .inr (.inl hused)⟩
  rw [hb] at hused
  have hsub₁ := Set.subset_insert (Key.order v.uuid) h
  have hnumber₁ : Allocated (insert (Key.order v.uuid) h) d₁ number := hnumber.step hsub₁ h₁
  rw [bind_assoc]
  -- a row that cannot be built has a quantity that is not positive
  refine wp_ofExcept (fun e he => ?_) fun order horder => ?_
  · have hneg : ¬ PositiveItems draft.items := by
      intro hpos
      obtain ⟨order, hok⟩ := orderRow_isOk hpos hchecked.priced (hchecked.affordable hpos)
      rw [hok] at he
      cases he
    rcases orderRow_error he with rfl | rfl | rfl <;> exact hneg
  obtain ⟨hpos, hrow⟩ := orderRow_ok hchecked.priced horder
  have hnew : d₁.orders.get v.uuid = none := by simpa using hused
  rw [bind_assoc]
  refine wp_claimUnique (fun d₂ h₂ htaken => ?_) fun d₂ h₂ _ => ?_
  · -- the number is still free
    have hfree := (hnumber₁.step (S := S) subset_rfl h₂).free
    rw [Db.orderNumbers, hb, ← Db.orderNumbers, hrow.orderNumber] at htaken
    exact hfree (by simpa using htaken)
  have hinv₂ : S.inv d₂ := S.keeps (S.trans h₁.2 h₂.2) hinv
  have hsub₂ := Set.subset_insert (Key.orderNumber order.orderNumber) (insert (Key.order v.uuid) h)
  have hnumber₂ := hnumber₁.step hsub₂ h₂
  have hins₂ : Inserted now draft (insert (Key.orderNumber order.orderNumber)
      (insert (Key.order v.uuid) h)) d₂ v.uuid order customer number plants :=
    { locked := .inr (.inl rfl)
      fresh := (h₂.1.order _ (Set.notMem_compl_iff.mpr (.inl rfl))).trans hnew
      positive := hpos
      row := hrow }
  have hrel₂ : S.rely.rel h d d₂ := S.rely.trans h₁ (S.rely.anti hsub₁ h₂)
  rw [bind_assoc]
  refine wp_whenElse (fun hsome => ?_) fun _ => ?_
  · refine wp_claimUnique (fun d₃ h₃ htaken => ?_) fun d₃ h₃ _ => ?_
    · refine ⟨S.keeps h₃.2 hinv₂, number, hnumber.isNumber,
        (hnumber₂.step (S := S) subset_rfl h₃).free, ?_⟩
      obtain ⟨r, hr⟩ := Option.ne_none_iff_exists'.mp hsome
      have href : order.paymentReference = some (paymentReferenceFor number) := by
        rw [hr, hrow.reference hr, hrow.orderNumber]
      rw [referenceTaken, hb, href] at htaken
      exact htaken
    · rw [bind_assoc]
      refine wp_stage ?_
      rw [pure_bind]
      refine hg v.uuid order _ d₃
        (S.rely.trans hrel₂ (S.rely.anti (hsub₁.trans hsub₂) h₃))
        ((hsub₁.trans hsub₂).trans (Set.subset_insert _ _)) ?_
      exact hins₂.step (Set.subset_insert _ _) h₃
  · rw [bind_assoc]
    refine wp_stage ?_
    rw [pure_bind]
    exact hg v.uuid order _ d₂ hrel₂ (hsub₁.trans hsub₂) hins₂

end Rules

end GreenGarden
