/-
GreenGarden/Transfer.lean

Paying exactly what was shown.

The transfer instructions round the total to whole dong; the webhook compares
what came in with the total itself.  Prices have two decimals, so a total need
not be a whole number of dong, and then the amount that was shown does not
settle the order (`half_dong_not_settled`).  It does exactly when the quantities
times the prices add up to whole dong and the columns of the transaction hold
the payload (`shown_amount_settles_iff`); the shipping fee never matters.
-/
import GreenGarden.Reference
import GreenGarden.Quote

namespace GreenGarden

open Transaction

/-! ### What is shown -/

theorem quantize_zero_cents (n : ℤ) {d : Decimal} (h : (Decimal.cents n).quantize 0 = some d) :
    d = .ofInt (Decimal.roundHalfEven n 100) := by
  have hrescale : (Decimal.cents n).rescale 0 = Decimal.roundHalfEven n 100 := by
    simp [Decimal.rescale, Decimal.cents]
  rw [Decimal.quantize, hrescale] at h
  split at h
  · exact (Option.some.inj h).symm
  · cases h

/-- The reference and the amount of the transfer instructions. -/
theorem bankTransferInfo_some {settings : Settings} {order : Order}
    {details : BankTransferDetails} (h : bankTransferInfo settings order = .ok (some details)) :
    order.paymentMethod = .bankTransfer ∧ order.paymentReference = some details.reference ∧
    details.amount = .ofInt (Decimal.roundHalfEven order.totalAmount.units 100) := by
  unfold bankTransferInfo at h
  split at h
  · rename_i reference accountNumber hmethod href haccount
    split at h
    · cases h
    · split at h
      · cases h
      · rename_i amount hamount
        cases h
        exact ⟨hmethod, href, quantize_zero_cents _ hamount⟩
  · cases h

/-- The amount shown is the total exactly when the total is whole dong. -/
theorem shown_eqv_total_iff {amount : Decimal} {total : Money}
    (h : amount.eqv (.ofInt (Decimal.roundHalfEven total.units 100))) :
    amount.eqv total.toDecimal ↔ (total.units : ℤ) % 100 = 0 := by
  rw [Decimal.eqv_iff] at h
  rw [Decimal.eqv_iff, h, ← Decimal.eqv_iff, Numeric.toDecimal, Decimal.eqv_cents_ofInt,
    Decimal.roundHalfEven_mul_iff _ _ (by decide)]

theorem hundred_dvd_shipping (plants : UUID → Option Plant) (items : List OrderItemInput) :
    cartShipping plants items % 100 = 0 := by
  unfold cartShipping shippingUnits
  split_ifs <;> rfl

/-! ### What comes back -/

theorem isSpace_of_isDigit {c : Char} (h : c.isDigit = true) : isSpace c = false := by
  have hrange : 48 ≤ c.toNat ∧ c.toNat ≤ 57 := Char.isDigit_iff_toNat.mp h
  simp only [isSpace, List.contains_eq_mem, decide_eq_false_iff_not]
  intro hmem
  simp only [List.mem_cons, List.not_mem_nil, or_false] at hmem
  omega

theorem toUpper_of_isDigit {c : Char} (h : c.isDigit = true) : c.toUpper = c := by
  refine Char.toUpper_eq_of_not_isLower fun hl => ?_
  simp only [Char.isLower, Char.isDigit, Bool.and_eq_true, decide_eq_true_eq,
    UInt32.le_iff_toNat_le] at hl h
  exact absurd (hl.1.trans h.2) (by decide)

/-- A code that is a reference is taken as it is. -/
theorem upper_strip_reference (cm : CaseMap) (date : UtcDate) (sequence : ℕ) :
    cm.upper (strip (paymentReferenceFor (formatNumber (numberPrefix date) sequence)))
      = paymentReferenceFor (formatNumber (numberPrefix date) sequence) := by
  rw [paymentReferenceFor_formatNumber]
  set ds := date.compact ++ zeroPad 4 sequence with hds
  have hdigit : ∀ c ∈ ds, c.isDigit = true := by
    intro c hc
    rcases List.mem_append.mp hc with h | h
    · exact isDigit_of_mem_compact h
    · exact isDigit_of_mem_zeroPad h
  have hstrip : strip ('G' :: 'G' :: ds) = 'G' :: 'G' :: ds := by
    refine strip_of_forall fun c hc => ?_
    rcases List.mem_cons.mp hc with rfl | hc
    · decide
    rcases List.mem_cons.mp hc with rfl | hc
    · decide
    · exact isSpace_of_isDigit (hdigit c hc)
  have hupper := upper_take cm (a := 'G') (b := 'G') (.inl rfl) (.inl rfl) hdigit
    ('G' :: 'G' :: ds).length
  have hmap : ds.map Char.toUpper = ds :=
    (List.map_congr_left fun c hc => toUpper_of_isDigit (hdigit c hc)).trans (List.map_id ds)
  rw [List.take_length, List.take_of_length_le (by simp), List.map_cons, List.map_cons, hmap]
    at hupper
  rw [hstrip, hupper]
  rfl

/-- What the scanner finds in the texts of a payload. -/
def foundReferences (cm : CaseMap) (payload : SePayWebhookPayload) : List Text :=
  [payload.content, payload.description].flatMap fun text =>
    (Scan.findall referencePattern (text.getD [])).map cm.upper

/-- A code, and no other reference in the texts: one candidate. -/
theorem candidates_of_code {cm : CaseMap} {payload : SePayWebhookPayload} {date : UtcDate}
    {sequence : ℕ}
    (hcode : payload.code = some (paymentReferenceFor (formatNumber (numberPrefix date) sequence)))
    (hother : ∀ m ∈ foundReferences cm payload,
      m = paymentReferenceFor (formatNumber (numberPrefix date) sequence)) :
    candidateReferences cm payload
      = [paymentReferenceFor (formatNumber (numberPrefix date) sequence)] := by
  have hpresent :
      present (some (paymentReferenceFor (formatNumber (numberPrefix date) sequence))) = true := by
    rw [paymentReferenceFor_formatNumber]
    rfl
  have hfilter : (foundReferences cm payload).filter (fun m =>
      !m == paymentReferenceFor (formatNumber (numberPrefix date) sequence)) = [] := by
    rw [List.filter_eq_nil_iff]
    intro m hm
    simp [hother m hm]
  unfold foundReferences at hfilter
  simp only [candidateReferences, hcode, hpresent, if_true, Option.getD_some,
    upper_strip_reference]
  rw [List.singleton_append, List.eraseDups_cons, hfilter]
  rfl

/-! ### The whole way -/

/-- Only one order has the reference: that one is picked. -/
theorem oldest_of_unique {d : Db} {id : UUID} {order : Order} {r : Text}
    (hget : d.orders.get id = some order) (hmethod : order.paymentMethod = .bankTransfer)
    (href : order.paymentReference = some r)
    (hunique : ∀ id' o', d.orders.get id' = some o' → o'.paymentReference = some r → id' = id)
    (pick : ℕ) : (oldest (namedOrders d [r]) pick).map Prod.fst = some id := by
  have hmem : (id, order) ∈ namedOrders d [r] :=
    mem_namedOrders.mpr ⟨Table.get_eq_some.mp hget, hmethod, r, List.mem_singleton.mpr rfl, href⟩
  obtain ⟨e, hpick⟩ := oldest_isSome (List.ne_nil_of_mem hmem) pick
  obtain ⟨hentry, -, r', hr', href'⟩ := mem_namedOrders.mp (mem_of_oldest hpick).1
  rw [List.mem_singleton.mp hr'] at href'
  rw [hpick, Option.map_some, hunique e.1 e.2 (Table.get_eq_some.mpr hentry) href']

/-- The order a checkout made, as it was made. -/
theorem runAlone_createOrder {draft : OrderDraft} {d d₁ : Db} {vs : ℕ → Outside} {id : UUID}
    (hids : ∀ n, NewIds d (vs n)) (hrun : runAlone vs (createOrder draft) d = (.ok id, d₁)) :
    ∃ now order date sequence, d₁.orders.get id = some order ∧
      IsRow now draft order.customerId (formatNumber (numberPrefix date) sequence)
        d.plants.get order := by
  obtain ⟨h, b, rfl, now, order, hplaced⟩ := runAlone_ok wp_createOrder hids hrun
  obtain ⟨date, sequence, hnumber, -⟩ := hplaced.next
  refine ⟨now, order, date, sequence, ?_, hnumber ▸ hplaced.row⟩
  rw [hplaced.orders, Table.get_insert_self hplaced.fresh]

/-- **Paying exactly what was shown.**  Make an order, alone, on any database;
show the transfer instructions; let a payment of the amount shown come in with
the reference shown as its code, into any database in which the order is still
as it was made.  The payment is matched and the order paid, if and only if the
quantities times the prices add up to whole dong and the payload can be
recorded. -/
theorem shown_amount_settles_iff (cm : CaseMap) (settings : Settings) (draft : OrderDraft)
    {d d₁ d₂ : Db} {vs vs' : ℕ → Outside} {id : UUID} {order : Order}
    {details : BankTransferDetails} {payload : SePayWebhookPayload}
    (hids : ∀ n, NewIds d (vs n)) (hrun : runAlone vs (createOrder draft) d = (.ok id, d₁))
    (horder : d₁.orders.get id = some order)
    (hshown : bankTransferInfo settings order = .ok (some details))
    (hget : d₂.orders.get id = some order)
    (hunique : ∀ id' o', d₂.orders.get id' = some o' →
      o'.paymentReference = order.paymentReference → id' = id)
    (hids' : ∀ n, NewTransaction d₂ (vs' n)) (hnew : recorded d₂ payload.id = false)
    (hin : payload.transferType = some "in".toList) (hcode : payload.code = some details.reference)
    (hother : ∀ m ∈ foundReferences cm payload, m = details.reference)
    (hamount : payload.transferAmount.eqv details.amount) :
    (∃ d₃ paidAt, runAlone vs' (processSepayWebhook cm payload) d₂ = (.ok (some .matched), d₃) ∧
      d₃.orders.get id = some { order with paymentStatus := .paid, paidAt := some paidAt } ∧
      settledOrder d₃ payload.id = some id) ↔
    subtotalUnits d.plants.get draft.items % 100 = 0 ∧ payload.Storable := by
  obtain ⟨now, order', date, sequence, horder', hrow⟩ := runAlone_createOrder hids hrun
  obtain rfl : order' = order := Option.some.inj (horder'.symm.trans horder)
  obtain ⟨hmethod, href, hround⟩ := bankTransferInfo_some hshown
  rw [hround] at hamount
  -- the reference that was shown is the one the order was numbered with
  have hreference : details.reference
      = paymentReferenceFor (formatNumber (numberPrefix date) sequence) := by
    have hmade := hrow.paymentReference
    rw [href, ← hrow.paymentMethod, hmethod] at hmade
    exact Option.some.inj hmade
  have hcandidates : candidateReferences cm payload = [details.reference] := by
    rw [hreference] at hcode hother ⊢
    exact candidates_of_code hcode hother
  have hunpaid : order'.paymentStatus ≠ .paid := by
    rw [← hrow.fresh]
    nofun
  -- the total is whole dong exactly when the subtotal is
  have hwhole : (order'.totalAmount.units : ℤ) % 100 = 0 ↔
      subtotalUnits d.plants.get draft.items % 100 = 0 := by
    have hshipping := hundred_dvd_shipping d.plants.get draft.items
    rw [hrow.total, Nat.cast_add, hrow.subtotal, hrow.shipping]
    omega
  -- so the question is whether the amount shown equals the total
  rw [← hwhole, ← shown_eqv_total_iff hamount]
  by_cases hstorable : payload.Storable
  swap
  · -- a payload that its columns refuse ends the delivery
    refine iff_of_false ?_ fun h => hstorable h.2
    rintro ⟨d₃, paidAt, hrun₃, -, -⟩
    exact hstorable (storable_of_recorded hnew hrun₃)
  rw [and_iff_left hstorable]
  obtain ⟨row, hstore⟩ := transactionRow_ok_iff.mpr hstorable
  obtain ⟨tid, outcome, locks, d₃, hrun₃, hs⟩ :=
    runAlone_delivery cm vs' hnew hstore (fun _ hv => hv) hids'
  obtain ⟨v, -, hchosen⟩ := hs.chosen hin
  rw [hcandidates, oldest_of_unique hget hmethod href (by rwa [href] at hunique)] at hchosen
  obtain ⟨hmatched, hmismatch⟩ := hs.unpaid hchosen hget hunpaid
  constructor
  · rintro ⟨d₃', paidAt, hrun', -, -⟩
    by_contra hne
    rw [hrun₃, hmismatch hne] at hrun'
    cases (Prod.mk.inj hrun').1
  · intro heqv
    obtain ⟨hstatus, paidAt, hpaid⟩ := hmatched heqv
    exact ⟨d₃, paidAt, by rw [hrun₃, hstatus], hpaid, by rw [hs.settledOrder, hchosen]⟩

/-! ### Ferns at 150000.50 -/

/-- Ferns, to be paid by transfer. -/
def fernTransfer (n : ℤ) : OrderDraft :=
  { oneFern with items := [⟨7, n⟩], paymentMethod := .bankTransfer }

/-- The database after that order, which goes under 3. -/
def transferred (n : ℤ) : Db := (runAlone atNoon (createOrder (fernTransfer n)) Db.ferns).2

/-- The order that was placed. -/
def transferredOrder (n : ℤ) : Order := ((transferred n).orders.get 3).getD fernOrder

/-- What the customer is shown. -/
def shown (amount : ℤ) : BankTransferDetails where
  bankCode := "MB".toList
  bankName := "MB".toList
  accountNumber := "0123456789".toList
  accountHolder := none
  amount := .ofInt amount
  reference := "GG202505010001".toList
  qrUrl := "https://qr.sepay.vn/img?acc=0123456789&bank=MB&amount=".toList ++ showInt amount
    ++ "&des=GG202505010001&template=compact".toList

/-- The payment of what was shown. -/
def shownPayment (amount : ℤ) : SePayWebhookPayload :=
  payment 1 (some "GG202505010001".toList) none (.ofInt amount)

/-- Two ferns come to 350001 dong: paying that settles the order. -/
theorem shown_amount_settles_iff_two :
    ∃ d₃ paidAt, runAlone atNoon (processSepayWebhook .ascii (shownPayment 350001))
        (transferred 2) = (.ok (some .matched), d₃) ∧
      d₃.orders.get 3
        = some { transferredOrder 2 with paymentStatus := .paid, paidAt := some paidAt } ∧
      settledOrder d₃ 1 = some 3 := by
  have hmade : (runAlone atNoon (createOrder (fernTransfer 2)) Db.ferns).1 = .ok 3 := by
    decide +kernel
  have horder : (transferred 2).orders.get 3 = some (transferredOrder 2) := by decide +kernel
  have hshown : bankTransferInfo smallShop.settings (transferredOrder 2)
      = .ok (some (shown 350001)) := by decide +kernel
  have hkeys : (transferred 2).orders.keys = [3] := by decide +kernel
  have honly : ∀ id' o', (transferred 2).orders.get id' = some o' →
      o'.paymentReference = (transferredOrder 2).paymentReference → id' = 3 := by
    intro id' o' hget _
    have hmem : id' ∈ (transferred 2).orders.keys :=
      List.mem_map_of_mem (f := Prod.fst) (Table.get_eq_some.mp hget)
    rw [hkeys] at hmem
    exact List.mem_singleton.mp hmem
  exact (shown_amount_settles_iff .ascii smallShop.settings (fernTransfer 2)
    (fun _ => ⟨rfl, rfl, rfl⟩) (Prod.ext hmade rfl) horder hshown horder honly
    (fun _ => rfl) (by decide +kernel) rfl rfl (by decide) (by decide)).mpr
      ⟨by decide, transactionRow_ok_iff.mp ⟨_, rfl⟩⟩

/-- One fern comes to 200000.50: the 200000 that are shown do not settle it. -/
theorem half_dong_not_settled :
    (runAlone atNoon (createOrder (fernTransfer 1)) Db.ferns).1 = .ok 3 ∧
    bankTransferInfo smallShop.settings (transferredOrder 1) = .ok (some (shown 200000)) ∧
    (runAlone atNoon (processSepayWebhook .ascii (shownPayment 200000)) (transferred 1)).1
      = .ok (some .amountMismatch) ∧
    ((runAlone atNoon (processSepayWebhook .ascii (shownPayment 200000))
      (transferred 1)).2.orders.get 3).map Order.paymentStatus = some .pending :=
  ⟨by decide +kernel, by decide +kernel, by decide +kernel, by decide +kernel⟩

end GreenGarden
