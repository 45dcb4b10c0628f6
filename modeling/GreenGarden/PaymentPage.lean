/-
GreenGarden/PaymentPage.lean

The page a customer watches after checking out (`orders/public_router.py`:
`get_storefront_order_payment`) and the books behind it.

The page is one query and the transfer instructions computed from the row it
found, so all it can show is what some commit left.  `Request.books_cases`
says what a commit can do to the orders and the transactions; the books
(`Backed`) are kept in each case, and the instructions do not look at the
columns that change.
-/
import GreenGarden.Reconciliation
import GreenGarden.Inbox
import GreenGarden.Transfer
import GreenGarden.ReviewPages

namespace GreenGarden

open Transaction

/-! ### The page -/

/-- Payment state of one order for the thank-you page; no customer data. -/
structure StorefrontPaymentStatus where
  orderId : UUID
  orderNumber : Text
  paymentMethod : PaymentMethod
  paymentStatus : PaymentStatus
  paidAt : Option UtcDateTime
  payment : Option BankTransferDetails

/-- What the thank-you page asks for. -/
def getStorefrontOrderPayment (settings : Settings) (orderId : UUID) :
    Session StorefrontPaymentStatus := do
  let order ← getOrder orderId
  let payment ← Tx.ofExcept (bankTransferInfo settings order)
  return ⟨orderId, order.orderNumber, order.paymentMethod, order.paymentStatus, order.paidAt,
    payment⟩

/-- A customer who opens the page now reads this. -/
def Shown (settings : Settings) (d : Db) (id : UUID) (page : StorefrontPaymentStatus) : Prop :=
  ∀ vs, runAlone vs (getStorefrontOrderPayment settings id) d = (.ok page, d)

/-- The instructions do not depend on what becomes of the order. -/
theorem bankTransferInfo_congr {settings : Settings} {o o' : Order} (h : o'.placed = o.placed) :
    bankTransferInfo settings o' = bankTransferInfo settings o := by
  show bankTransferInfo settings o'.placed = bankTransferInfo settings o.placed
  rw [h]

/-- An amount that a column holds can always be rounded to whole dong. -/
theorem quantize_total (total : Money) : ∃ amount, total.toDecimal.quantize 0 = some amount := by
  have hrescale : total.toDecimal.rescale 0 = Decimal.roundHalfEven total.units 100 := by
    simp [Decimal.rescale, Numeric.toDecimal, Decimal.cents]
  have hbound : (Decimal.roundHalfEven total.units 100).natAbs < 10 ^ Decimal.prec := by
    have htotal : total.units < 10 ^ 12 := total.lt
    have hprec : 10 ^ 12 < 10 ^ Decimal.prec := by norm_num [Decimal.prec]
    have hle : (Decimal.roundHalfEven total.units 100).natAbs ≤ total.units := by
      unfold Decimal.roundHalfEven
      split_ifs <;> omega
    omega
  rw [Decimal.quantize, hrescale, if_pos hbound]
  exact ⟨_, rfl⟩

/-- There are instructions, or there are none to give; there is no error. -/
theorem exists_bankTransferInfo (settings : Settings) (o : Order) :
    ∃ payment, bankTransferInfo settings o = .ok payment := by
  obtain ⟨amount, hamount⟩ := quantize_total o.totalAmount
  unfold bankTransferInfo
  split
  · split
    · exact ⟨none, rfl⟩
    · rw [hamount]
      exact ⟨_, rfl⟩
  · exact ⟨none, rfl⟩

theorem runAlone_payment_none (settings : Settings) (vs : ℕ → Outside) {d : Db} {id : UUID}
    (ho : d.orders.get id = none) :
    runAlone vs (getStorefrontOrderPayment settings id) d = (.error .orderNotFound, d) := by
  rw [runAlone, getStorefrontOrderPayment, getOrder, bind_assoc, query, alone_query, flush_nil, ho]
  rfl

theorem runAlone_payment_some (settings : Settings) (vs : ℕ → Outside) {d : Db} {id : UUID}
    {o : Order} {payment : Option BankTransferDetails} (ho : d.orders.get id = some o)
    (hpayment : bankTransferInfo settings o = .ok payment) :
    runAlone vs (getStorefrontOrderPayment settings id) d
      = (.ok ⟨id, o.orderNumber, o.paymentMethod, o.paymentStatus, o.paidAt, payment⟩, d) := by
  rw [runAlone, getStorefrontOrderPayment, getOrder, bind_assoc, query, alone_query, flush_nil, ho]
  show alone vs (Tx.ofExcept (bankTransferInfo settings o) >>= _) 0 [] d = _
  rw [hpayment]
  rfl

theorem shown_iff {settings : Settings} {d : Db} {id : UUID} {page : StorefrontPaymentStatus} :
    Shown settings d id page ↔ ∃ o payment, d.orders.get id = some o ∧
      bankTransferInfo settings o = .ok payment ∧
      page = ⟨id, o.orderNumber, o.paymentMethod, o.paymentStatus, o.paidAt, payment⟩ := by
  constructor
  · intro h
    have hread := h fun _ => atNoon 0
    rcases ho : d.orders.get id with - | o
    · rw [runAlone_payment_none settings _ ho] at hread
      cases hread
    · obtain ⟨payment, hpayment⟩ := exists_bankTransferInfo settings o
      rw [runAlone_payment_some settings _ ho hpayment] at hread
      cases hread
      exact ⟨o, payment, rfl, hpayment, rfl⟩
  · rintro ⟨o, payment, ho, hpayment, rfl⟩ vs
    exact runAlone_payment_some settings vs ho hpayment

/-! ### The books -/

/-- What a commit does to the orders and the transactions. -/
theorem Request.books_cases {S : Scope} {site : Deployment} {request : Request} {reply : Reply}
    {h : Set Key} {b : List (Db → Db)} {d : Db} (hp : request.post S site reply h b d) :
    (∃ draft now id order, request.draft? = some draft ∧ reply = .row id ∧
      Placed S now draft id order h d (flush b d)) ∨
    request.draft? = none ∧
      ((∃ id target seen old order, Moved S id target seen old order d (flush b d)) ∨
      (∃ payload tid row orderId status, request = .processSepayWebhook payload ∧
        reply = .webhook (some status) ∧
        Settled S site.caseMap payload tid row (orderId, status) h d (flush b d)) ∨
      ((flush b d).orders = d.orders ∧ (flush b d).transactions = d.transactions)) := by
  cases request with
  | createOrder draft =>
    obtain ⟨id, hr, now, ⟨order, hplaced⟩, -⟩ := hp
    exact .inl ⟨draft, now, id, order, rfl, hr, hplaced⟩
  | postStorefrontOrder payload =>
    obtain ⟨id, hr, now, ⟨order, hplaced⟩, -⟩ := hp
    exact .inl ⟨payload.draft, now, id, order, rfl, hr, hplaced⟩
  | updateOrderStatus id target =>
    refine .inr ⟨rfl, ?_⟩
    obtain ⟨_, -, rfl | ⟨-, seen, old, order, hm⟩, -⟩ := hp
    · exact .inr (.inr ⟨rfl, rfl⟩)
    · exact .inl ⟨id, target, seen, old, order, hm⟩
  | processSepayWebhook payload =>
    refine .inr ⟨rfl, ?_⟩
    obtain ⟨status, hr, hw, -⟩ := hp
    cases status with
    | none =>
      obtain ⟨rfl, -⟩ := hw
      exact .inr (.inr ⟨rfl, rfl⟩)
    | some status =>
      obtain ⟨tid, amount, orderId, hs⟩ := hw
      exact .inr (.inl ⟨payload, tid, amount, orderId, status, rfl, hr, hs⟩)
  | createPlant | updatePlant | setPlantStatus =>
    obtain ⟨_, -, he, -⟩ := hp
    exact .inr ⟨rfl, .inr (.inr ⟨he.orders, he.transactions⟩)⟩
  | createCustomer | updateCustomer | setCustomerStatus =>
    obtain ⟨_, -, he, -⟩ := hp
    exact .inr ⟨rfl, .inr (.inr ⟨he.orders, he.transactions⟩)⟩

/-- The transaction is good for the order: it came in, names the order and is
of its total. -/
structure GoodFor (cm : CaseMap) (t : PaymentTransaction) (o : Order) : Prop where
  incoming : t.rawPayload.transferType = some "in".toList
  method : o.paymentMethod = .bankTransfer
  reference : ∃ r ∈ candidateReferences cm t.rawPayload, o.paymentReference = some r
  amount : t.rawPayload.transferAmount.eqv o.totalAmount.toDecimal

theorem GoodFor.congr {cm : CaseMap} {t : PaymentTransaction} {o o' : Order}
    (h : GoodFor cm t o) (hplaced : o'.placed = o.placed) : GoodFor cm t o' where
  incoming := h.incoming
  method := (congrArg Order.paymentMethod hplaced).trans h.method
  reference := by
    obtain ⟨r, hr, href⟩ := h.reference
    exact ⟨r, hr, (congrArg Order.paymentReference hplaced).trans href⟩
  amount := by
    show t.rawPayload.transferAmount.eqv o'.placed.totalAmount.toDecimal
    rw [hplaced]
    exact h.amount

/-- An order is paid exactly when a transaction on record pays it, and that is
one that is good for it. -/
structure Backed (cm : CaseMap) (d : Db) : Prop where
  paid : ∀ id o, d.orders.get id = some o → o.paymentStatus = .paid →
    ∃ tid t, d.transactions.get tid = some t ∧ t.pays id = true
  pays : ∀ tid t id, d.transactions.get tid = some t → t.pays id = true →
    ∃ o, d.orders.get id = some o ∧ o.paymentStatus = .paid ∧ GoodFor cm t o
  once : ∀ tid tid' t t' id, d.transactions.get tid = some t → d.transactions.get tid' = some t' →
    t.pays id = true → t'.pays id = true → tid = tid'
  stamped : ∀ id o, d.orders.get id = some o → (o.paidAt.isSome ↔ o.paymentStatus = .paid)

section Commits

variable {S : Scope} {cm : CaseMap} {h : Set Key} {d d' : Db}

/-- A new order is unpaid, and no transaction pays it. -/
theorem Backed.placed {now : Instant} {draft : OrderDraft} {id : UUID} {order : Order}
    (hb : Backed cm d) (hp : Placed S now draft id order h d d') : Backed cm d' := by
  have hget : ∀ oid o, d'.orders.get oid = some o → (oid = id ∧ o = order) ∨
      d.orders.get oid = some o := by
    intro oid o ho
    rw [hp.orders, Table.get_insert hp.fresh] at ho
    split at ho
    · rename_i heq
      exact .inl ⟨heq, (Option.some.inj ho).symm⟩
    · exact .inr ho
  have hpending : order.paymentStatus = .pending ∧ order.paidAt = none := by
    rw [← hp.row.fresh]
    exact ⟨rfl, rfl⟩
  refine ⟨fun oid o ho hpaid => ?_, fun tid t oid ht hpays => ?_, ?_, fun oid o ho => ?_⟩
  · rw [hp.transactions]
    rcases hget oid o ho with ⟨-, rfl⟩ | hold
    · rw [hpending.1] at hpaid
      cases hpaid
    · exact hb.paid oid o hold hpaid
  · rw [hp.transactions] at ht
    obtain ⟨o, ho, hrest⟩ := hb.pays tid t oid ht hpays
    exact ⟨o, by rw [hp.orders, Table.get_insert_of_get ho], hrest⟩
  · rw [hp.transactions]
    exact hb.once
  · rcases hget oid o ho with ⟨-, rfl⟩ | hold
    · rw [hpending.1, hpending.2]
      simp
    · exact hb.stamped oid o hold

/-- A status request leaves the payment columns and the transactions alone. -/
theorem Backed.moved {oid : UUID} {target : OrderStatus} {seen : Db} {old order : Order}
    (hb : Backed cm d) (hm : Moved S oid target seen old order d d') : Backed cm d' := by
  have hget : ∀ id o, d'.orders.get id = some o → ∃ o₀, d.orders.get id = some o₀ ∧
      o.paymentStatus = o₀.paymentStatus ∧ o.paidAt = o₀.paidAt := by
    intro id o ho
    rcases hold : d.orders.get id with - | o₀
    · rw [hm.orders, Table.get_modify, hold] at ho
      split at ho <;> cases ho
    · rw [hm.get hold] at ho
      cases ho
      refine ⟨o₀, rfl, ?_⟩
      split <;> exact ⟨rfl, rfl⟩
  refine ⟨fun id o ho hpaid => ?_, fun tid t id ht hpays => ?_, ?_, fun id o ho => ?_⟩
  · rw [hm.transactions]
    obtain ⟨o₀, ho₀, hstatus, -⟩ := hget id o ho
    exact hb.paid id o₀ ho₀ (hstatus ▸ hpaid)
  · rw [hm.transactions] at ht
    obtain ⟨o, ho, hpaid, hgood⟩ := hb.pays tid t id ht hpays
    refine ⟨_, hm.get ho, ?_, hgood.congr ?_⟩
    · split <;> exact hpaid
    · split <;> rfl
  · rw [hm.transactions]
    exact hb.once
  · obtain ⟨o₀, ho₀, hstatus, hat⟩ := hget id o ho
    rw [hstatus, hat]
    exact hb.stamped id o₀ ho₀

/-- The order that a transaction was applied to has the reference it was found by. -/
theorem Selected.goodReference {references : List Text} {id : UUID} {order : Order}
    (hsel : Selected S references h d id order) :
    order.paymentMethod = .bankTransfer ∧
      ∃ r ∈ references, order.paymentReference = some r := by
  obtain ⟨seen, v, named, -, hseen, hchosen⟩ := hsel.chosen
  obtain ⟨hentry, hmethod, r, hr, href⟩ := mem_namedOrders.mp (mem_of_oldest hchosen).1
  obtain ⟨o, ho, hplaced⟩ := hseen.2.1.orders id named (Table.get_eq_some.mpr hentry)
  obtain rfl : order = o := Option.some.inj (hsel.current.symm.trans ho)
  exact ⟨(congrArg Order.paymentMethod hplaced).trans hmethod, r, hr,
    (congrArg Order.paymentReference hplaced).trans href⟩

/-- A transaction that is recorded pays an order that was unpaid, or none. -/
theorem Backed.settled {payload : SePayWebhookPayload} {tid : UUID} {row : PaymentTransaction}
    {outcome : Option UUID × PaymentMatchStatus} (hb : Backed cm d)
    (hs : Settled S cm payload tid row outcome h d d') : Backed cm d' := by
  have hrow : ∀ id t, d'.transactions.get id = some t →
      (id = tid ∧ t = settledRow row outcome) ∨ d.transactions.get id = some t := by
    intro id t ht
    rw [hs.transactions, Table.get_insert hs.fresh] at ht
    split at ht
    · rename_i heq
      exact .inl ⟨heq, (Option.some.inj ht).symm⟩
    · exact .inr ht
  have hnew : d'.transactions.get tid = some (settledRow row outcome) := by
    rw [hs.transactions, Table.get_insert_self hs.fresh]
  have hold : ∀ id t, d.transactions.get id = some t → d'.transactions.get id = some t := by
    intro id t ht
    rw [hs.transactions, Table.get_insert_of_get ht]
  have hget : ∀ id o, d'.orders.get id = some o → ∃ o₀, d.orders.get id = some o₀ := by
    intro id o ho
    obtain ⟨o₀, ho₀, -⟩ := hs.sameOrders.symm.get ho
    exact ⟨o₀, ho₀⟩
  -- no transaction so far pays the order that is matched now
  have hunpaid : ∀ id id' t, outcome = (some id, .matched) → d.transactions.get id' = some t →
      t.pays id = false := by
    intro id id' t hout ht
    rw [Bool.eq_false_iff]
    intro hpays
    obtain ⟨o, ho, hpaid, -⟩ := hb.pays id' t id ht hpays
    rcases hs.effect ho with ⟨-, hne, -⟩ | ⟨hne, -⟩
    · exact hne hpaid
    · exact hne hout
  refine ⟨fun id o ho hpaid => ?_, fun id t oid ht hpays => ?_,
    fun id id' t t' oid ht ht' hpays hpays' => ?_, fun id o ho => ?_⟩
  · obtain ⟨o₀, ho₀⟩ := hget id o ho
    rcases hs.effect ho₀ with ⟨hout, -⟩ | ⟨-, hsame, -⟩
    · exact ⟨tid, _, hnew, pays_settledRow.mpr hout⟩
    · rw [ho] at hsame
      cases hsame
      obtain ⟨id', t, ht, hpays⟩ := hb.paid id o ho₀ hpaid
      exact ⟨id', t, hold id' t ht, hpays⟩
  · rcases hrow id t ht with ⟨-, rfl⟩ | ht
    · have hout := pays_settledRow.mp hpays
      obtain ⟨writes, hsettle, horders⟩ := hs.settlement
      rw [hout] at hsettle
      cases hsettle with
      | @matched _ order paidAt hin hsel hne hamount =>
        obtain ⟨hmethod, href⟩ := hsel.goodReference
        rw [← hs.rawPayload] at hin href hamount
        refine ⟨{ order with paymentStatus := .paid, paidAt := some paidAt }, ?_, rfl,
          ⟨hin, hmethod, href, hamount⟩⟩
        rw [horders, Table.get_modify_self, hsel.current]
        rfl
    · obtain ⟨o, ho, hpaid, hgood⟩ := hb.pays id t oid ht hpays
      obtain ⟨o', ho', hpaid', -⟩ := hs.paidKept oid o ho hpaid
      obtain ⟨o'', ho'', hplaced⟩ := hs.sameOrders.get ho
      rw [ho'] at ho''
      cases ho''
      exact ⟨o', ho', hpaid', hgood.congr hplaced⟩
  · rcases hrow id t ht with ⟨rfl, rfl⟩ | ht <;> rcases hrow id' t' ht' with ⟨rfl, rfl⟩ | ht'
    · rfl
    · rw [hunpaid oid id' t' (pays_settledRow.mp hpays) ht'] at hpays'
      cases hpays'
    · rw [hunpaid oid id t (pays_settledRow.mp hpays') ht] at hpays
      cases hpays
    · exact hb.once id id' t t' oid ht ht' hpays hpays'
  · obtain ⟨o₀, ho₀⟩ := hget id o ho
    rcases hs.effect ho₀ with ⟨-, -, -, paidAt, hpaid⟩ | ⟨-, hsame, -⟩
    · rw [ho] at hpaid
      cases hpaid
      simp
    · rw [ho] at hsame
      cases hsame
      exact hb.stamped id o ho₀

/-- **Every commit keeps the books.** -/
theorem Backed.step {site : Deployment} {request : Request} {reply : Reply}
    {b : List (Db → Db)} (hb : Backed site.caseMap d) (hp : request.post S site reply h b d) :
    Backed site.caseMap (flush b d) := by
  rcases Request.books_cases hp with ⟨draft, now, id, order, -, -, hplaced⟩ |
    ⟨-, ⟨id, target, seen, old, order, hm⟩ | ⟨payload, tid, amount, orderId, status, -, -, hs⟩ |
      ⟨horders, htransactions⟩⟩
  · exact hb.placed hplaced
  · exact hb.moved hm
  · exact hb.settled hs
  · exact ⟨by rw [horders, htransactions]; exact hb.paid,
      by rw [horders, htransactions]; exact hb.pays, by rw [htransactions]; exact hb.once,
      by rw [horders]; exact hb.stamped⟩

end Commits

/-! ### Runs of the site -/

/-- A commit of the site is one of the shop, or leaves orders and transactions
alone. -/
theorem SiteRequest.shop_cases {site : SiteDeployment} {request : SiteRequest}
    {reply : SiteReply} {h : Set SiteKey} {b : List (SiteDb → SiteDb)} {s : SiteDb}
    (hp : request.post site reply h b s) :
    (∃ r reply' h' b', request = .shop r ∧ reply = .shop reply' ∧
      r.post lockScope site.shop reply' h' b' s.shop ∧ (flush b s).shop = flush b' s.shop) ∨
    request.draft? = none ∧ (flush b s).shop.orders = s.shop.orders ∧
      (flush b s).shop.transactions = s.shop.transactions := by
  cases request with
  | shop request =>
    obtain ⟨r, b, rfl, rfl, hpost⟩ := hp
    exact .inl ⟨request, r, _, b, rfl, rfl, hpost, inSite.get_flush b s⟩
  | markNotificationRead id =>
    obtain ⟨-, ⟨ids, -, hb, -⟩, -⟩ := hp
    rw [hb]
    exact .inr ⟨rfl, rfl, rfl⟩
  | markAllNotificationsRead =>
    obtain ⟨n, -, ids, -, -, hb, -⟩ := hp
    rw [hb]
    exact .inr ⟨rfl, rfl, rfl⟩
  | postPublicReview sent =>
    obtain ⟨id, -, -, -, review, -, hflush⟩ := hp
    rw [hflush]
    exact .inr ⟨rfl, rfl, rfl⟩
  | postPublicPlantReview slug sent =>
    obtain ⟨id, -, -, -, review, -, hflush⟩ := hp
    rw [hflush]
    exact .inr ⟨rfl, rfl, rfl⟩
  | setReviewStatus id status =>
    obtain ⟨-, rfl | ⟨-, hflush⟩⟩ := hp
    · exact .inr ⟨rfl, rfl, rfl⟩
    · rw [hflush]
      exact .inr ⟨rfl, rfl, rfl⟩
  | getPublicReviews | getPublicPlantReviews =>
    obtain ⟨_, -, rfl⟩ := hp
    exact .inr ⟨rfl, rfl, rfl⟩

section Runs

variable {ι : Type} [DecidableEq ι] (site : SiteDeployment) (settings : Settings)
variable (requests : ι → SiteRequest) {start : SiteDb} (ms : ℕ → Move ι SiteOutside)

/-- What is on record was there at the start, or a delivery was answered so. -/
def Delivered (start s : SiteDb) (result : ι → Option SiteReply) : Prop :=
  ∀ tid t, s.shop.transactions.get tid = some t → start.shop.transactions.get tid = some t ∨
    ∃ i, requests i = .shop (.processSepayWebhook t.rawPayload) ∧
      result i = some (.shop (.webhook (some t.matchStatus)))

/-- An order that a checkout was told of is there. -/
def Told (s : SiteDb) (result : ι → Option SiteReply) : Prop :=
  ∀ i draft id, (requests i).draft? = some draft → result i = some (.shop (.row id)) →
    (s.shop.orders.get id).isSome

theorem backed_run (hstart : Backed site.shop.caseMap start.shop) (n : ℕ) :
    Backed site.shop.caseMap (siteRun site requests start ms n).db.shop := by
  induction n with
  | zero => exact hstart
  | succ n ih =>
    rcases siteRun_step site requests start ms n with ⟨hdb, -⟩ | ⟨i, reply, h, b, hpost, hdb, -⟩
    · rwa [hdb]
    · rw [hdb]
      rcases SiteRequest.shop_cases hpost with ⟨r, reply', h', b', -, -, hpost', hshop⟩ |
        ⟨-, horders, htransactions⟩
      · rw [hshop]
        exact ih.step hpost'
      · exact ⟨by rw [horders, htransactions]; exact ih.paid,
          by rw [horders, htransactions]; exact ih.pays, by rw [htransactions]; exact ih.once,
          by rw [horders]; exact ih.stamped⟩

theorem delivered_run (n : ℕ) :
    Delivered requests start (siteRun site requests start ms n).db
      (siteRun site requests start ms n).result := by
  induction n with
  | zero => exact fun tid t ht => .inl ht
  | succ n ih =>
    -- what was answered stays answered
    have later : ∀ tid t, (siteRun site requests start ms n).db.shop.transactions.get tid = some t →
        start.shop.transactions.get tid = some t ∨
          ∃ i, requests i = .shop (.processSepayWebhook t.rawPayload) ∧
            (siteRun site requests start ms (n + 1)).result i
              = some (.shop (.webhook (some t.matchStatus))) := by
      intro tid t ht
      rcases ih tid t ht with hold | ⟨i, hi, hres⟩
      · exact .inl hold
      · exact .inr ⟨i, hi, result_stays (Nat.le_succ n) hres⟩
    intro tid t ht
    rcases siteRun_step site requests start ms n with ⟨hdb, -⟩ | ⟨i, reply, h, b, hpost, hdb, hres⟩
    · rw [hdb] at ht
      exact later tid t ht
    rw [hdb] at ht
    rcases SiteRequest.shop_cases hpost with ⟨r, reply', h', b', hi, hreply, hpost', hshop⟩ |
      ⟨-, -, htransactions⟩
    · rw [hshop] at ht
      rcases Request.books_cases hpost' with ⟨draft, now, id, order, -, -, hplaced⟩ |
        ⟨-, ⟨id, target, seen, old, order, hm⟩ |
          ⟨payload, rid, amount, orderId, status, rfl, rfl, hs⟩ | ⟨-, hsame⟩⟩
      · rw [hplaced.transactions] at ht
        exact later tid t ht
      · rw [hm.transactions] at ht
        exact later tid t ht
      · rw [hs.transactions, Table.get_insert hs.fresh] at ht
        split at ht
        · cases ht
          refine .inr ⟨i, hs.rawPayload.symm ▸ hi, ?_⟩
          rw [hres, Function.update_self, hreply]
          rfl
        · exact later tid t ht
      · rw [hsame] at ht
        exact later tid t ht
    · rw [htransactions] at ht
      exact later tid t ht

theorem told_run (n : ℕ) :
    Told requests (siteRun site requests start ms n).db
      (siteRun site requests start ms n).result := by
  induction n with
  | zero =>
    intro i draft id _ hres
    cases hres
  | succ n ih =>
    intro i draft id hdraft hres
    have later : ((siteRun site requests start ms n).db.shop.orders.get id).isSome →
        ((siteRun site requests start ms (n + 1)).db.shop.orders.get id).isSome := by
      intro hsome
      obtain ⟨o, ho⟩ := Option.isSome_iff_exists.mp hsome
      obtain ⟨o', ho', -⟩ :=
        (siteRun_change site requests start ms (Nat.le_succ n)).shop.orders id o ho
      rw [ho']
      rfl
    rcases siteRun_step site requests start ms n with ⟨-, hsame⟩ | ⟨j, reply, h, b, hpost, hdb, hup⟩
    · rw [hsame] at hres
      exact later (ih i draft id hdraft hres)
    rcases eq_or_ne i j with rfl | hne
    · rw [hup, Function.update_self] at hres
      cases hres
      rcases SiteRequest.shop_cases hpost with ⟨r, reply', h', b', hi, hreply, hpost', hshop⟩ |
        ⟨hnone, -, -⟩
      · cases hreply
        rw [hi] at hdraft
        rcases Request.books_cases hpost' with ⟨draft', now, oid, order, -, hrow, hplaced⟩ |
          ⟨hnone, -⟩
        · cases hrow
          rw [hdb, hshop, hplaced.orders, Table.get_insert_self hplaced.fresh]
          rfl
        · rw [SiteRequest.draft?, hnone] at hdraft
          cases hdraft
      · rw [hnone] at hdraft
        cases hdraft
    · rw [hup, Function.update_of_ne hne] at hres
      exact later (ih i draft id hdraft hres)

/-- What a later look at the page can differ in. -/
structure StorefrontPaymentStatus.FollowedBy (page page' : StorefrontPaymentStatus) : Prop where
  orderId : page'.orderId = page.orderId
  orderNumber : page'.orderNumber = page.orderNumber
  paymentMethod : page'.paymentMethod = page.paymentMethod
  payment : page'.payment = page.payment
  paid : page.paymentStatus = .paid → page' = page

/-- The page says paid, with a time, when one transaction on record pays the
order, and otherwise says neither.  That transaction is on record since the
start or was delivered; it came in, carries the reference that the page tells
the customer to use, and is of the order's total. -/
structure PageBacked (cm : CaseMap) (requests : ι → SiteRequest) (start s : SiteDb)
    (result : ι → Option SiteReply) (id : UUID) (page : StorefrontPaymentStatus) : Prop where
  paid : page.paymentStatus = .paid ↔
    ∃! tid, ∃ t, s.shop.transactions.get tid = some t ∧ t.pays id = true
  stamped : page.paidAt.isSome ↔ page.paymentStatus = .paid
  good : ∀ tid t, s.shop.transactions.get tid = some t → t.pays id = true →
    t.rawPayload.transferType = some "in".toList ∧ page.paymentMethod = .bankTransfer ∧
    (∀ details, page.payment = some details →
      details.reference ∈ candidateReferences cm t.rawPayload) ∧
    ∃ o, s.shop.orders.get id = some o ∧ t.rawPayload.transferAmount.eqv o.totalAmount.toDecimal
  delivered : ∀ tid t, s.shop.transactions.get tid = some t → t.pays id = true →
    start.shop.transactions.get tid = some t ∨
      ∃ i, requests i = .shop (.processSepayWebhook t.rawPayload) ∧
        result i = some (.shop (.webhook (some .matched)))

omit [DecidableEq ι] in
theorem pageBacked {s : SiteDb} {result : ι → Option SiteReply} {id : UUID}
    {page : StorefrontPaymentStatus} {cm : CaseMap} (hb : Backed cm s.shop)
    (hd : Delivered requests start s result) (hpage : Shown settings s.shop id page) :
    PageBacked cm requests start s result id page := by
  obtain ⟨o, payment, ho, hpayment, rfl⟩ := shown_iff.mp hpage
  refine ⟨⟨fun hpaid => ?_, fun hpays => ?_⟩, hb.stamped id o ho, fun tid t ht hpays => ?_,
    fun tid t ht hpays => ?_⟩
  · obtain ⟨tid, t, ht, hpays⟩ := hb.paid id o ho hpaid
    refine ⟨tid, ⟨t, ht, hpays⟩, ?_⟩
    rintro tid' ⟨t', ht', hpays'⟩
    exact hb.once tid' tid t' t id ht' ht hpays' hpays
  · obtain ⟨tid, ⟨t, ht, hpays⟩, -⟩ := hpays
    obtain ⟨o', ho', hpaid, -⟩ := hb.pays tid t id ht hpays
    rw [ho] at ho'
    cases ho'
    exact hpaid
  · obtain ⟨o', ho', -, hgood⟩ := hb.pays tid t id ht hpays
    rw [ho] at ho'
    cases ho'
    refine ⟨hgood.incoming, hgood.method, fun details hdetails => ?_, o, ho, hgood.amount⟩
    rw [show payment = some details from hdetails] at hpayment
    obtain ⟨r, hr, href⟩ := hgood.reference
    rw [(bankTransferInfo_some hpayment).2.1] at href
    cases href
    exact hr
  · rcases hd tid t ht with hold | ⟨i, hi, hres⟩
    · exact .inl hold
    · rw [PaymentTransaction.pays, decide_eq_true_eq] at hpays
      rw [hpays.2] at hres
      exact .inr ⟨i, hi, hres⟩

/-- The number and the method of an order are those it was placed with. -/
theorem number_and_method {o o' : Order} (h : o'.placed = o.placed) :
    o'.orderNumber = o.orderNumber ∧ o'.paymentMethod = o.paymentMethod := by
  have hnumber : o'.placed.orderNumber = o.placed.orderNumber := by rw [h]
  have hmethod : o'.placed.paymentMethod = o.placed.paymentMethod := by rw [h]
  exact ⟨hnumber, hmethod⟩

/-- The order and the columns it is shown with, at a later moment. -/
theorem followedBy {s s' : SiteDb} {k : Set SiteKey} {id : UUID} {page : StorefrontPaymentStatus}
    (hchange : SiteChange k s s') (hkept : PaidKept s.shop s'.shop)
    (hpage : Shown settings s.shop id page) :
    ∃ page', Shown settings s'.shop id page' ∧ page.FollowedBy page' := by
  obtain ⟨o, payment, ho, hpayment, rfl⟩ := shown_iff.mp hpage
  obtain ⟨o', ho', hplaced⟩ := hchange.shop.orders id o ho
  obtain ⟨hnumber, hmethod⟩ := number_and_method hplaced
  refine ⟨_, shown_iff.mpr ⟨o', payment, ho', ?_, rfl⟩, rfl, hnumber, hmethod, rfl,
    fun hpaid => ?_⟩
  · rw [bankTransferInfo_congr hplaced, hpayment]
  · obtain ⟨o'', ho'', hpaid', hat⟩ := hkept id o ho hpaid
    rw [ho'] at ho''
    cases ho''
    have hpaid : o.paymentStatus = .paid := hpaid
    rw [hnumber, hmethod, hpaid', hat, hpaid]

/-- A commit of the shop keeps what is paid. -/
theorem Request.paidKept {S : Scope} {site : Deployment} {request : Request} {reply : Reply}
    {h : Set Key} {b : List (Db → Db)} {d : Db} (hp : request.post S site reply h b d) :
    PaidKept d (flush b d) := by
  rcases Request.books_cases hp with ⟨draft, now, id, order, -, -, hplaced⟩ |
    ⟨-, ⟨id, target, seen, old, order, hm⟩ | ⟨payload, tid, amount, orderId, status, -, -, hs⟩ |
      ⟨horders, -⟩⟩
  · intro oid o ho hpaid
    exact ⟨o, by rw [hplaced.orders, Table.get_insert_of_get ho], hpaid, rfl⟩
  · exact hm.paidKept
  · exact hs.paidKept
  · intro oid o ho hpaid
    exact ⟨o, by rw [horders, ho], hpaid, rfl⟩

theorem paidKept_run {m n : ℕ} (hmn : m ≤ n) :
    PaidKept (siteRun site requests start ms m).db.shop
      (siteRun site requests start ms n).db.shop := by
  induction n, hmn using Nat.le_induction with
  | base => exact fun id o ho hpaid => ⟨o, ho, hpaid, rfl⟩
  | succ n _ ih =>
    intro id o ho hpaid
    obtain ⟨o₁, ho₁, hpaid₁, hat₁⟩ := ih id o ho hpaid
    rcases siteRun_step site requests start ms n with ⟨hdb, -⟩ | ⟨i, reply, h, b, hpost, hdb, -⟩
    · exact ⟨o₁, by rw [hdb, ho₁], hpaid₁, hat₁⟩
    · rw [hdb]
      rcases SiteRequest.shop_cases hpost with ⟨r, reply', h', b', -, -, hpost', hshop⟩ |
        ⟨-, horders, -⟩
      · rw [hshop]
        obtain ⟨o₂, ho₂, hpaid₂, hat₂⟩ := Request.paidKept hpost' id o₁ ho₁ hpaid₁
        exact ⟨o₂, ho₂, hpaid₂, hat₂.trans hat₁⟩
      · exact ⟨o₁, by rw [horders, ho₁], hpaid₁, hat₁⟩

/-- **The payment page tells the truth.**  Whatever runs side by side, from
the moment a checkout is answered its order has a page.  What a customer has
read there stays, except that unpaid may become paid, after which nothing
changes any more; and the page says paid exactly when one transaction on
record pays the order. -/
theorem payment_page_backed (hstart : Backed site.shop.caseMap start.shop) :
    (∀ n i draft id, (requests i).draft? = some draft →
      (siteRun site requests start ms n).result i = some (.shop (.row id)) →
      ∃ page, Shown settings (siteRun site requests start ms n).db.shop id page) ∧
    ∀ m n, m ≤ n → ∀ id page, Shown settings (siteRun site requests start ms m).db.shop id page →
      ∃ page', Shown settings (siteRun site requests start ms n).db.shop id page' ∧
        page.FollowedBy page' ∧
        PageBacked site.shop.caseMap requests start (siteRun site requests start ms n).db
          (siteRun site requests start ms n).result id page' := by
  constructor
  · intro n i draft id hdraft hres
    obtain ⟨o, ho⟩ := Option.isSome_iff_exists.mp
      (told_run site requests ms n i draft id hdraft hres)
    obtain ⟨payment, hpayment⟩ := exists_bankTransferInfo settings o
    exact ⟨_, shown_iff.mpr ⟨o, payment, ho, hpayment, rfl⟩⟩
  · intro m n hmn id page hpage
    obtain ⟨page', hpage', hfollowed⟩ := followedBy settings
      (siteRun_change site requests start ms hmn) (paidKept_run site requests ms hmn) hpage
    exact ⟨page', hpage', hfollowed, pageBacked settings requests
      (backed_run site requests ms hstart n) (delivered_run site requests ms n) hpage'⟩

end Runs

/-! ### One order, paid while it is watched -/

/-- The site with the one order. -/
def watchedOrder : SiteDb := ⟨oneTransfer, .empty⟩

theorem backed_watchedOrder : Backed .ascii watchedOrder.shop where
  paid id o ho hpaid := by
    rw [(get_oneTransfer ho).2] at hpaid
    cases hpaid
  pays _ _ _ ht _ := by cases ht
  once _ _ _ _ _ ht _ _ _ := by cases ht
  stamped id o ho := by
    rw [(get_oneTransfer ho).2]
    exact iff_of_false nofun nofun

/-- Its payment, delivered again and again, while the order is confirmed. -/
def watchedRequests (i : ℕ) : SiteRequest :=
  if i = 2 then .shop (.updateOrderStatus 5 .confirmed)
  else .shop (.processSepayWebhook (payment 1 (some "GG202505010001".toList) none
    (.cents 20000050)))

/-- The first three of them at once. -/
def siteTurns (n : ℕ) : Move ℕ SiteOutside :=
  if n < 3 then .start n else .step (n % 3) (siteAtNoon n)

/-- The site after 60 turns. -/
def watchedRun : State ℕ SiteDb SiteKey SiteOutside SiteError SiteReply :=
  siteRun ⟨smallShop, cLocale, asciiCasing⟩ watchedRequests watchedOrder siteTurns 60

theorem payment_page_backed_paid :
    ∃ page page', Shown smallShop.settings watchedOrder.shop 5 page ∧
      page.paymentStatus = .pending ∧ page.FollowedBy page' ∧
      Shown smallShop.settings watchedRun.db.shop 5 page' ∧ page'.paymentStatus = .paid ∧
      PageBacked .ascii watchedRequests watchedOrder watchedRun.db watchedRun.result 5 page' := by
  have hbefore : watchedOrder.shop.orders.get 5
      = some (transferOrder "GG-20250501-0001".toList 1) := rfl
  obtain ⟨payment, hpayment⟩ := exists_bankTransferInfo smallShop.settings
    (transferOrder "GG-20250501-0001".toList 1)
  have hpage := shown_iff.mpr ⟨_, payment, hbefore, hpayment, rfl⟩
  obtain ⟨page', hpage', hfollowed, hbacked⟩ := (payment_page_backed
    ⟨smallShop, cLocale, asciiCasing⟩ smallShop.settings watchedRequests siteTurns
    backed_watchedOrder).2 0 60 (Nat.zero_le 60) 5 _ hpage
  have hpaid : (watchedRun.db.shop.orders.get 5).map Order.paymentStatus = some .paid := by
    decide +kernel
  rw [watchedRun] at hpaid ⊢
  refine ⟨_, page', hpage, rfl, hfollowed, hpage', ?_, hbacked⟩
  obtain ⟨o, _, ho, -, rfl⟩ := shown_iff.mp hpage'
  rw [ho] at hpaid
  exact Option.some.inj hpaid

end GreenGarden
