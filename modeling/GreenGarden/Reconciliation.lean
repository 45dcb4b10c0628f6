/-
GreenGarden/Reconciliation.lean

Deliveries settle orders exactly once, in any order and however they overlap.

The orders are given and only their status and payment change
(`SameOrders`), so which order a transaction is meant for is settled before
anything runs (`Selects`).  What a delivery then does depends on the state of
that one order, which it reads under the row lock: it pays it or leaves it as
it is (`Settled.effect`).  The books that the deliveries keep (`Reconciled`)
say of every order whether some transaction with the right amount was meant
for it; that does not mention an order of events.

Amounts are compared as they were sent.  The column that records them has two
decimals, so a recorded amount can equal a total that was not paid
(`rounded_amount_not_settled`).
-/
import GreenGarden.Delivery

namespace GreenGarden

open Transaction

/-! ### The orders and what is meant for them -/

/-- The orders are the same, up to status and payment. -/
def SameOrders (d d' : Db) : Prop :=
  ∀ id, (d'.orders.get id).map Order.placed = (d.orders.get id).map Order.placed

theorem SameOrders.refl (d : Db) : SameOrders d d := fun _ => rfl

theorem SameOrders.symm {d d' : Db} (h : SameOrders d d') : SameOrders d' d :=
  fun id => (h id).symm

theorem SameOrders.trans {d d' d'' : Db} (h₁ : SameOrders d d') (h₂ : SameOrders d' d'') :
    SameOrders d d'' := fun id => (h₂ id).trans (h₁ id)

theorem SameOrders.get {d d' : Db} (h : SameOrders d d') {id : UUID} {o : Order}
    (ho : d.orders.get id = some o) :
    ∃ o', d'.orders.get id = some o' ∧ o'.placed = o.placed := by
  have hid := h id
  rw [ho, Option.map_some, Option.map_eq_some_iff] at hid
  exact hid

/-- An order that is named in one is named in the other. -/
theorem SameOrders.named {d d' : Db} (h : SameOrders d d') {references : List Text}
    {e : UUID × Order} (he : e ∈ namedOrders d references) :
    ∃ o', (e.1, o') ∈ namedOrders d' references ∧ o'.createdAt = e.2.createdAt := by
  obtain ⟨hmem, hmethod, r, hr, href⟩ := mem_namedOrders.mp he
  obtain ⟨o', ho', hplaced⟩ := h.get (Table.get_eq_some.mpr hmem)
  have hmethod' : o'.placed.paymentMethod = e.2.placed.paymentMethod := by rw [hplaced]
  have href' : o'.placed.paymentReference = e.2.placed.paymentReference := by rw [hplaced]
  have hcreated : o'.placed.createdAt = e.2.placed.createdAt := by rw [hplaced]
  exact ⟨o', mem_namedOrders.mpr ⟨Table.get_eq_some.mp ho', hmethod'.trans hmethod, r, hr,
    href'.trans href⟩, hcreated⟩

/-- No two orders were created at the same time. -/
def DistinctTimes (d : Db) : Prop :=
  ∀ id id' o o', d.orders.get id = some o → d.orders.get id' = some o' →
    o.createdAt = o'.createdAt → id = id'

/-- The order an incoming transaction is meant for: the oldest bank-transfer
order that its candidates name. -/
def Selects (cm : CaseMap) (d : Db) (payload : SePayWebhookPayload) (id : UUID) : Prop :=
  payload.transferType = some "in".toList ∧
  ∃ o, (id, o) ∈ namedOrders d (candidateReferences cm payload) ∧
    ∀ e ∈ namedOrders d (candidateReferences cm payload), o.createdAt ≤ e.2.createdAt

section Selection

variable {cm : CaseMap} {payload : SePayWebhookPayload} {d d' : Db} {id id' : UUID}

theorem Selects.unique (hd : DistinctTimes d) (h : Selects cm d payload id)
    (h' : Selects cm d payload id') : id = id' := by
  obtain ⟨-, o, ho, hmin⟩ := h
  obtain ⟨-, o', ho', hmin'⟩ := h'
  exact hd id id' o o' (Table.get_eq_some.mpr (mem_namedOrders.mp ho).1)
    (Table.get_eq_some.mpr (mem_namedOrders.mp ho').1) (le_antisymm (hmin _ ho') (hmin' _ ho))

/-- What a query picks later is what was meant from the start. -/
theorem Selects.of_oldest (hsame : SameOrders d d')
    (hin : payload.transferType = some "in".toList) {pick : ℕ} {o : Order}
    (hpick : oldest (namedOrders d' (candidateReferences cm payload)) pick = some (id, o)) :
    Selects cm d payload id := by
  obtain ⟨hmem, hmin⟩ := mem_of_oldest hpick
  obtain ⟨o₀, ho₀, hcreated⟩ := hsame.symm.named hmem
  refine ⟨hin, o₀, ho₀, fun e he => ?_⟩
  obtain ⟨o', ho', hcreated'⟩ := hsame.named he
  rw [hcreated, ← hcreated']
  exact hmin _ ho'

/-- Only bank-transfer orders are meant. -/
theorem Selects.method (h : Selects cm d payload id) {o : Order} (ho : d.orders.get id = some o) :
    o.paymentMethod = .bankTransfer := by
  obtain ⟨-, o', hmem, -⟩ := h
  obtain ⟨hentry, hmethod, -⟩ := mem_namedOrders.mp hmem
  rw [Table.get_eq_some.mpr hentry] at ho
  rw [← Option.some.inj ho]
  exact hmethod

end Selection

/-! ### One commit -/

/-- A paid order stays paid, since the same moment. -/
def PaidKept (d d' : Db) : Prop :=
  ∀ id o, d.orders.get id = some o → o.paymentStatus = .paid →
    ∃ o', d'.orders.get id = some o' ∧ o'.paymentStatus = .paid ∧ o'.paidAt = o.paidAt

/-- The scope of a run on given orders. -/
def orderScope (serialized : Bool) (d₀ : Db) : Scope where
  serialized := serialized
  inv := SameOrders d₀
  rel d d' := SameOrders d d' ∧ PaidKept d d'
  answers _ := True
  refl d := ⟨.refl d, fun _ o ho hp => ⟨o, ho, hp, rfl⟩⟩
  trans h₁ h₂ := ⟨h₁.1.trans h₂.1, fun id o ho hp => by
    obtain ⟨o', ho', hp', hat⟩ := h₁.2 id o ho hp
    obtain ⟨o'', ho'', hp'', hat'⟩ := h₂.2 id o' ho' hp'
    exact ⟨o'', ho'', hp'', hat'.trans hat⟩⟩
  keeps h hinv := hinv.trans h.1

section Commit

variable {serialized : Bool} {d₀ d d' : Db} {cm : CaseMap} {payload : SePayWebhookPayload}
variable {tid : UUID} {row : PaymentTransaction} {outcome : Option UUID × PaymentMatchStatus}
variable {h : Set Key}

/-- A delivery is applied to the order it was meant for from the start. -/
theorem Settled.selects_iff (hd₀ : DistinctTimes d₀)
    (hs : Settled (orderScope serialized d₀) cm payload tid row outcome h d d') (id : UUID) :
    Selects cm d₀ payload id ↔ outcome.1 = some id := by
  have meant : ∀ {oid order}, payload.transferType = some "in".toList →
      Selected (orderScope serialized d₀) (candidateReferences cm payload) h d oid order →
      (Selects cm d₀ payload id ↔ some oid = some id) := by
    intro oid order hin hsel
    obtain ⟨seen, v, named, -, hseen, hchosen⟩ := hsel.chosen
    have hsel₀ : Selects cm d₀ payload oid := .of_oldest hseen.1 hin hchosen
    rw [Option.some_inj]
    exact ⟨fun h => hsel₀.unique hd₀ h, fun h => h ▸ hsel₀⟩
  obtain ⟨writes, hsettle, -⟩ := hs.settlement
  cases hsettle with
  | ignored hout => exact ⟨fun hsel => absurd hsel.1 hout, nofun⟩
  | unmatched hin hv hseen hnone =>
    refine ⟨fun hsel => ?_, nofun⟩
    obtain ⟨-, o, ho, -⟩ := hsel
    obtain ⟨o', ho', -⟩ := SameOrders.named hseen.1 ho
    obtain ⟨e, he⟩ := oldest_isSome (List.ne_nil_of_mem ho') _
    rw [hnone] at he
    cases he
  | alreadyPaid hin hsel | amountMismatch hin hsel | matched _ hin hsel => exact meant hin hsel

/-- A delivery pays an unpaid order of the right amount that it was applied
to, or leaves the order as it is. -/
theorem Settled.effect {S : Scope} (hs : Settled S cm payload tid row outcome h d d')
    {id : UUID} {o : Order} (ho : d.orders.get id = some o) :
    (outcome = (some id, .matched) ∧ o.paymentStatus ≠ .paid ∧
      payload.transferAmount.eqv o.totalAmount.toDecimal ∧ ∃ paidAt, d'.orders.get id
        = some { o with paymentStatus := .paid, paidAt := some paidAt }) ∨
    (outcome ≠ (some id, .matched) ∧ d'.orders.get id = some o ∧
      (outcome.1 = some id → o.paymentStatus = .paid ∨
        ¬ payload.transferAmount.eqv o.totalAmount.toDecimal)) := by
  obtain ⟨writes, hsettle, horders⟩ := hs.settlement
  rw [horders]
  cases hsettle with
  | ignored | unmatched => exact .inr ⟨nofun, ho, nofun⟩
  | @alreadyPaid oid order _ hsel hpaid =>
    refine .inr ⟨nofun, ho, fun heq => .inl ?_⟩
    cases heq
    rwa [← Option.some.inj (hsel.current.symm.trans ho)]
  | @amountMismatch oid order _ hsel _ hamount =>
    refine .inr ⟨nofun, ho, fun heq => .inr ?_⟩
    cases heq
    rwa [← Option.some.inj (hsel.current.symm.trans ho)]
  | @matched oid order paidAt _ hsel hunpaid hamount =>
    by_cases hid : oid = id
    · subst hid
      obtain rfl : order = o := Option.some.inj (hsel.current.symm.trans ho)
      exact .inl ⟨rfl, hunpaid, hamount, paidAt, by rw [Table.get_modify_self, ho]; rfl⟩
    · have hne : ¬ some oid = some id := fun heq => hid (Option.some.inj heq)
      refine .inr ⟨fun heq => hne (congrArg Prod.fst heq), ?_, fun heq => absurd heq hne⟩
      rw [Table.get_modify_of_ne _ (fun heq => hid heq.symm), ho]

theorem Settled.sameOrders {S : Scope} (hs : Settled S cm payload tid row outcome h d d') :
    SameOrders d d' := by
  intro id
  rcases ho : d.orders.get id with - | o
  · obtain ⟨writes, hsettle, horders⟩ := hs.settlement
    rcases hsettle.get id with hsame | ⟨_, _, -, hget, -⟩
    · rw [horders, hsame, ho]
    · rw [ho] at hget
      cases hget
  · rcases hs.effect ho with ⟨-, -, -, paidAt, hget⟩ | ⟨-, hget, -⟩
    · rw [hget]
      rfl
    · rw [hget]

theorem Settled.paidKept {S : Scope} (hs : Settled S cm payload tid row outcome h d d') :
    PaidKept d d' := by
  intro id o ho hp
  rcases hs.effect ho with ⟨-, hunpaid, -⟩ | ⟨-, hget, -⟩
  · exact absurd hp hunpaid
  · exact ⟨o, hget, hp, rfl⟩

/-- A status request keeps everything else about the orders. -/
theorem Moved.get {S : Scope} {oid : UUID} {target : OrderStatus} {seen : Db} {old order : Order}
    (hm : Moved S oid target seen old order d d') {id : UUID} {o : Order}
    (ho : d.orders.get id = some o) :
    d'.orders.get id = some (if id = oid then { o with status := target } else o) := by
  rw [hm.orders, Table.get_modify, ho]
  split <;> rfl

theorem Moved.sameOrders {S : Scope} {oid : UUID} {target : OrderStatus} {seen : Db}
    {old order : Order} (hm : Moved S oid target seen old order d d') : SameOrders d d' := by
  intro id
  rcases ho : d.orders.get id with - | o
  · rw [hm.orders, Table.get_modify, ho]
    split <;> rfl
  · rw [hm.get ho]
    split <;> rfl

theorem Moved.paidKept {S : Scope} {oid : UUID} {target : OrderStatus} {seen : Db}
    {old order : Order} (hm : Moved S oid target seen old order d d') : PaidKept d d' := by
  intro id o ho hp
  refine ⟨_, hm.get ho, ?_⟩
  split
  · exact ⟨hp, rfl⟩
  · exact ⟨hp, rfl⟩

end Commit

/-! ### The books -/

/-- What runs: deliveries, and status requests on the same orders. -/
inductive Event where
  | delivery (payload : SePayWebhookPayload)
  | status (id : UUID) (target : OrderStatus)

/-- The request of the system that it is. -/
def Event.request : Event → Request
  | .delivery payload => .processSepayWebhook payload
  | .status id target => .updateOrderStatus id target

/-- The transaction paid the order. -/
def PaymentTransaction.pays (id : UUID) (t : PaymentTransaction) : Bool :=
  t.orderId = some id ∧ t.matchStatus = .matched

/-- A transaction of the order's amount was meant for it. -/
def Covered (cm : CaseMap) (d₀ db : Db) (id : UUID) (o : Order) : Prop :=
  ∃ t ∈ db.transactions.rows, Selects cm d₀ t.rawPayload id ∧
    t.rawPayload.transferAmount.eqv o.totalAmount.toDecimal

section Rows

variable {t : PaymentTransaction}
variable (h : ∃ row outcome, transactionRow t.rawPayload = .ok row ∧ t = settledRow row outcome)

include h

theorem providerTransactionId_of_settledRow : t.providerTransactionId = t.rawPayload.id := by
  obtain ⟨row, outcome, hrow, heq⟩ := h
  obtain ⟨-, hid, -⟩ := transactionRow_ok hrow
  rw [← hid, heq]
  rfl

theorem store_of_settledRow :
    Numeric.store 14 t.rawPayload.transferAmount = some t.transferAmount := by
  obtain ⟨row, outcome, hrow, heq⟩ := h
  obtain ⟨-, -, -, hamount⟩ := transactionRow_ok hrow
  rw [hamount, heq]
  rfl

/-- The column holds `in` as it is. -/
theorem incoming_of_settledRow (hin : t.rawPayload.transferType = some "in".toList) :
    t.transferType = some "in".toList := by
  obtain ⟨row, outcome, hrow, heq⟩ := h
  obtain ⟨-, -, htype, -⟩ := transactionRow_ok hrow
  rw [hin] at htype
  rw [heq]
  exact (Except.ok.inj htype).symm

end Rows

/-- The books agree with what was delivered so far. -/
structure Reconciled {ι : Type} (cm : CaseMap) (d₀ : Db) (events : ι → Event) (db : Db)
    (ρ : ι → Option Reply) : Prop where
  sent : ∀ t ∈ db.transactions.rows, (∃ i, events i = .delivery t.rawPayload) ∧
    ∃ row outcome, transactionRow t.rawPayload = .ok row ∧ t = settledRow row outcome
  once : (db.transactions.rows.map PaymentTransaction.providerTransactionId).Nodup
  delivered : ∀ i payload, events i = .delivery payload → ρ i ≠ none →
    recorded db payload.id = true
  paid : ∀ id o, db.orders.get id = some o → (o.paymentStatus = .paid ↔ Covered cm d₀ db id o)
  matched : ∀ id o, db.orders.get id = some o →
    db.transactions.rows.countP (PaymentTransaction.pays id)
      = if o.paymentStatus = .paid then 1 else 0
  amount : ∀ t ∈ db.transactions.rows, ∀ id o, db.orders.get id = some o → t.pays id = true →
    t.rawPayload.transferAmount.eqv o.totalAmount.toDecimal

section Books

variable {ι : Type} {cm : CaseMap} {d₀ d d' : Db} {events : ι → Event} {ρ ρ' : ι → Option Reply}

/-- Nothing has been delivered, and nothing is paid. -/
theorem Reconciled.start (hpending : ∀ id o, d.orders.get id = some o → o.paymentStatus = .pending)
    (hnone : d.transactions.rows = []) : Reconciled cm d events d fun _ => none where
  sent t ht := by
    rw [hnone] at ht
    cases ht
  once := by
    rw [hnone]
    exact List.nodup_nil
  delivered i _ _ h := absurd rfl h
  paid id o ho := by
    rw [hpending id o ho, Covered, hnone]
    exact ⟨nofun, fun ⟨_, ht, _⟩ => by cases ht⟩
  matched id o ho := by
    rw [hnone, hpending id o ho]
    rfl
  amount t ht := by
    rw [hnone] at ht
    cases ht

/-- A change of the orders that leaves totals and payment alone. -/
theorem Reconciled.same (hr : Reconciled cm d₀ events d ρ)
    (htransactions : d'.transactions = d.transactions)
    (horders : ∀ id o', d'.orders.get id = some o' → ∃ o, d.orders.get id = some o ∧
      o'.paymentStatus = o.paymentStatus ∧ o'.totalAmount = o.totalAmount)
    (hdelivered : ∀ i payload, events i = .delivery payload → ρ' i ≠ none →
      recorded d payload.id = true) : Reconciled cm d₀ events d' ρ' where
  sent := by rw [htransactions]; exact hr.sent
  once := by rw [htransactions]; exact hr.once
  delivered i payload hi hres := by
    rw [recorded, htransactions]
    exact hdelivered i payload hi hres
  paid id o' ho' := by
    obtain ⟨o, ho, hpayment, htotal⟩ := horders id o' ho'
    rw [hpayment, hr.paid id o ho, Covered, Covered, htransactions, htotal]
  matched id o' ho' := by
    obtain ⟨o, ho, hpayment, -⟩ := horders id o' ho'
    rw [htransactions, hpayment, hr.matched id o ho]
  amount t ht id o' ho' hpays := by
    obtain ⟨o, ho, -, htotal⟩ := horders id o' ho'
    rw [htransactions] at ht
    rw [htotal]
    exact hr.amount t ht id o ho hpays

section Settled

variable {serialized : Bool} {payload : SePayWebhookPayload} {tid : UUID} {row : PaymentTransaction}
variable {outcome : Option UUID × PaymentMatchStatus} {h : Set Key}

theorem pays_settledRow {id : UUID} :
    (settledRow row outcome).pays id = true ↔ outcome = (some id, .matched) := by
  rw [PaymentTransaction.pays, decide_eq_true_eq, Prod.ext_iff]
  rfl

/-- An order after a delivery is the order before it, up to payment. -/
theorem Settled.before {S : Scope} (hs : Settled S cm payload tid row outcome h d d')
    {id : UUID} {o' : Order} (ho' : d'.orders.get id = some o') :
    ∃ o, d.orders.get id = some o ∧ o'.totalAmount = o.totalAmount := by
  obtain ⟨o, ho, hplaced⟩ := hs.sameOrders.symm.get ho'
  have htotal : o.placed.totalAmount = o'.placed.totalAmount := by rw [hplaced]
  exact ⟨o, ho, htotal.symm⟩

theorem Settled.rows {S : Scope} (hs : Settled S cm payload tid row outcome h d d') :
    d'.transactions.rows = d.transactions.rows ++ [settledRow row outcome] := by
  rw [hs.transactions, Table.rows_insert hs.fresh]

theorem Settled.mem_rows {S : Scope} (hs : Settled S cm payload tid row outcome h d d')
    {t : PaymentTransaction} : t ∈ d'.transactions.rows ↔
      t ∈ d.transactions.rows ∨ t = settledRow row outcome := by
  rw [hs.rows, List.mem_append, List.mem_singleton]

theorem Settled.rawPayload {S : Scope} (hs : Settled S cm payload tid row outcome h d d') :
    (settledRow row outcome).rawPayload = payload := (transactionRow_ok hs.stored).1

theorem Settled.providerTransactionId {S : Scope}
    (hs : Settled S cm payload tid row outcome h d d') :
    (settledRow row outcome).providerTransactionId = payload.id :=
  (transactionRow_ok hs.stored).2.1

/-- The new transaction covers an order when the delivery was meant for it and
has its amount. -/
theorem Settled.covered_iff (hs : Settled (orderScope serialized d₀) cm payload tid row outcome
    h d d') (hd₀ : DistinctTimes d₀) {id : UUID} {o o' : Order}
    (htotal : o'.totalAmount = o.totalAmount) :
    Covered cm d₀ d' id o' ↔ Covered cm d₀ d id o ∨
      (outcome.1 = some id ∧ payload.transferAmount.eqv o.totalAmount.toDecimal) := by
  rw [← hs.selects_iff hd₀ id, Covered, Covered, htotal]
  constructor
  · rintro ⟨t, ht, hsel⟩
    rcases hs.mem_rows.mp ht with ht | rfl
    · exact .inl ⟨t, ht, hsel⟩
    · rw [hs.rawPayload] at hsel
      exact .inr hsel
  · rintro (⟨t, ht, hsel⟩ | hsel)
    · exact ⟨t, hs.mem_rows.mpr (.inl ht), hsel⟩
    · refine ⟨_, hs.mem_rows.mpr (.inr rfl), ?_⟩
      rw [hs.rawPayload]
      exact hsel

/-- **A delivery keeps the books.** -/
theorem Reconciled.settled (hr : Reconciled cm d₀ events d ρ) (hd₀ : DistinctTimes d₀) {i : ι}
    (hi : events i = .delivery payload)
    (hs : Settled (orderScope serialized d₀) cm payload tid row outcome h d d')
    (hdelivered : ∀ j, j ≠ i → ρ' j = ρ j) : Reconciled cm d₀ events d' ρ' := by
  have hrecorded := recorded_insert hs.fresh hs.transactions
  constructor
  case sent =>
    intro t ht
    rcases hs.mem_rows.mp ht with ht | rfl
    · exact hr.sent t ht
    · rw [hs.rawPayload]
      exact ⟨⟨i, hi⟩, row, outcome, hs.stored, rfl⟩
  case once =>
    rw [hs.rows, List.map_append, List.map_singleton, List.nodup_append_comm,
      List.singleton_append, List.nodup_cons]
    refine ⟨fun hold => ?_, hr.once⟩
    obtain ⟨t, ht, heq⟩ := List.mem_map.mp hold
    have hfalse := List.any_eq_false.mp hs.unrecorded t ht
    rw [decide_eq_true_eq] at hfalse
    exact hfalse (heq.trans hs.providerTransactionId)
  case delivered =>
    intro j payload' hj hres
    rw [hrecorded]
    by_cases hij : j = i
    · subst hij
      rw [hi] at hj
      cases hj
      simp [hs.providerTransactionId]
    · rw [hdelivered j hij] at hres
      rw [hr.delivered j payload' hj hres, Bool.true_or]
  case paid =>
    intro id o' ho'
    obtain ⟨o, ho, htotal⟩ := hs.before ho'
    rw [hs.covered_iff hd₀ htotal]
    rcases hs.effect ho with ⟨hout, -, hamount, paidAt, hget⟩ | ⟨-, hget, hleft⟩
    · -- the order is paid now, and this delivery is why
      rw [hget] at ho'
      rw [← Option.some.inj ho']
      exact ⟨fun _ => .inr ⟨congrArg Prod.fst hout, hamount⟩, fun _ => rfl⟩
    · -- the order is as it was: a delivery of its amount found it paid
      rw [hget] at ho'
      rw [← Option.some.inj ho', hr.paid id o ho]
      refine ⟨.inl, ?_⟩
      rintro (hcovered | ⟨hmeant, hamount⟩)
      · exact hcovered
      rcases hleft hmeant with hpaid | hne
      · exact (hr.paid id o ho).mp hpaid
      · exact absurd hamount hne
  case matched =>
    intro id o' ho'
    obtain ⟨o, ho, -⟩ := hs.before ho'
    rw [hs.rows, List.countP_append, List.countP_singleton, hr.matched id o ho]
    rcases hs.effect ho with ⟨hout, hunpaid, -, paidAt, hget⟩ | ⟨hout, hget, -⟩
    · rw [hget] at ho'
      rw [← Option.some.inj ho', if_neg hunpaid, if_pos (pays_settledRow.mpr hout)]
      rfl
    · rw [hget] at ho'
      rw [← Option.some.inj ho', if_neg (fun hp => hout (pays_settledRow.mp hp)), add_zero]
  case amount =>
    intro t ht id o' ho' hpays
    obtain ⟨o, ho, htotal⟩ := hs.before ho'
    rw [htotal]
    rcases hs.mem_rows.mp ht with ht | rfl
    · exact hr.amount t ht id o ho hpays
    · rcases hs.effect ho with ⟨-, -, hamount, -⟩ | ⟨hout, -, -⟩
      · rw [hs.rawPayload]
        exact hamount
      · exact absurd (pays_settledRow.mp hpays) hout

end Settled

end Books

/-! ### Runs -/

section Runs

variable {ι : Type}

/-- The contract of deliveries and status requests on given orders. -/
def eventContract (site : Deployment) (serialized : Bool) (events : ι → Event) (d : Db) :
    Contract (shop site serialized fun i => (events i).request) :=
  shopContract (orderScope serialized d) site _ (fun _ => trivial) fun i _ _ _ _ _ hp => by
    rcases hi : events i with payload | ⟨id, target⟩
    · rw [hi] at hp
      obtain ⟨status, -, hw, -⟩ := hp
      rcases status with - | status
      · obtain ⟨rfl, -⟩ := hw
        exact (orderScope serialized d).refl _
      · obtain ⟨tid, amount, orderId, hs⟩ := hw
        exact ⟨hs.sameOrders, hs.paidKept⟩
    · rw [hi] at hp
      obtain ⟨_, -, rfl | ⟨-, seen, old, order, hm⟩, -⟩ := hp
      · exact (orderScope serialized d).refl _
      · exact ⟨hm.sameOrders, hm.paidKept⟩

variable [DecidableEq ι]

/-- The engine after `n` moves of deliveries and status requests. -/
def eventRun (site : Deployment) (serialized : Bool) (events : ι → Event) (d : Db)
    (ms : ℕ → Move ι Outside) : ℕ → State ι Db Key Outside Error Reply :=
  trace (shop site serialized fun i => (events i).request) d ms

variable {site : Deployment} {serialized : Bool} {events : ι → Event} {d : Db}
variable {ms : ℕ → Move ι Outside} {n : ℕ}

/-- Every state of a run has its books in order. -/
theorem reconciled_run (htimes : DistinctTimes d)
    (hpending : ∀ id o, d.orders.get id = some o → o.paymentStatus = .pending)
    (hnone : d.transactions.rows = []) :
    Reconciled site.caseMap d events (eventRun site serialized events d ms n).db
      (eventRun site serialized events d ms n).result := by
  refine (eventContract site serialized events d).invariant (SameOrders.refl d)
    (Reconciled site.caseMap d events) (.start hpending hnone) ?_ ms n
  intro i reply h b d' ρ _ hp hρ hr
  -- the other results are what they were
  have hothers : ∀ j, j ≠ i → Function.update ρ i (some reply) j = ρ j :=
    fun j hj => Function.update_of_ne hj _ _
  change (events i).request.post _ _ _ _ _ _ at hp
  rcases hi : events i with payload | ⟨id, target⟩
  · rw [hi] at hp
    obtain ⟨status, -, hw, -⟩ := hp
    rcases status with - | status
    -- a retry changes nothing, and its transaction was recorded before
    · obtain ⟨rfl, hagain⟩ := hw
      refine hr.same rfl (fun id o ho => ⟨o, ho, rfl, rfl⟩) fun j payload' hj hres => ?_
      by_cases hij : j = i
      · subst hij
        rw [hi] at hj
        cases hj
        exact hagain
      · rw [hothers j hij] at hres
        exact hr.delivered j payload' hj hres
    · obtain ⟨tid, amount, orderId, hs⟩ := hw
      exact hr.settled htimes hi hs hothers
  · rw [hi] at hp
    have hdelivered : ∀ j payload, events j = .delivery payload →
        Function.update ρ i (some reply) j ≠ none → recorded d' payload.id = true := by
      intro j payload hj hres
      have hij : j ≠ i := by
        rintro rfl
        rw [hi] at hj
        cases hj
      rw [hothers j hij] at hres
      exact hr.delivered j payload hj hres
    obtain ⟨_, -, rfl | ⟨-, seen, old, order, hm⟩, -⟩ := hp
    · exact hr.same rfl (fun id o ho => ⟨o, ho, rfl, rfl⟩) hdelivered
    · refine hr.same hm.transactions (fun oid o' ho' => ?_) hdelivered
      obtain ⟨o, ho, -⟩ := hm.sameOrders.symm.get ho'
      have hget := hm.get ho
      rw [ho'] at hget
      refine ⟨o, ho, ?_⟩
      rw [Option.some.inj hget]
      split <;> exact ⟨rfl, rfl⟩

/-- Every delivery that was started has a successful one with its id. -/
def AllDelivered (events : ι → Event) (s : State ι Db Key Outside Error Reply) : Prop :=
  ∀ i payload, events i = .delivery payload → ∃ j payload', events j = .delivery payload' ∧
    payload'.id = payload.id ∧ s.result j ≠ none

/-- The state everything is in once all is delivered, whatever happened in
between. -/
structure SettledOnce (cm : CaseMap) (d₀ : Db) (events : ι → Event) (db : Db) : Prop where
  recorded : ∀ i payload, events i = .delivery payload →
    db.transactions.rows.countP (fun t => t.providerTransactionId = payload.id) = 1
  matched : ∀ id o, db.orders.get id = some o →
    db.transactions.rows.countP (PaymentTransaction.pays id) ≤ 1 ∧
    ∀ t ∈ db.transactions.rows, t.pays id = true → t.transferAmount.units = o.totalAmount.units
  paid : ∀ id o, db.orders.get id = some o → (o.paymentStatus = .paid ↔
    ∃ t ∈ db.transactions.rows, t.transferType = some "in".toList ∧
      Selects cm d₀ t.rawPayload id ∧ t.rawPayload.transferAmount.eqv o.totalAmount.toDecimal)
  independent : ∀ id o, db.orders.get id = some o → (o.paymentStatus = .paid ↔
    ∃ i payload, events i = .delivery payload ∧ Selects cm d₀ payload id ∧
      payload.transferAmount.eqv o.totalAmount.toDecimal)
  cod : ∀ id o, db.orders.get id = some o → o.paymentMethod = .cod → o.paymentStatus ≠ .paid

omit [DecidableEq ι] in
/-- Once all is delivered, the recorded row of a delivery carries its payload. -/
theorem Reconciled.exists_row {cm : CaseMap} {db : Db} {s : State ι Db Key Outside Error Reply}
    (hr : Reconciled cm d events db s.result)
    (hretry : ∀ i j payload payload', events i = .delivery payload →
      events j = .delivery payload' → payload.id = payload'.id → payload = payload')
    (hall : AllDelivered events s) {i : ι} {payload : SePayWebhookPayload}
    (hi : events i = .delivery payload) :
    ∃ t ∈ db.transactions.rows, t.rawPayload = payload := by
  obtain ⟨j, payload', hj, hid, hres⟩ := hall i payload hi
  have hrecorded := hr.delivered j payload' hj hres
  obtain ⟨t, ht, heq⟩ := List.any_eq_true.mp hrecorded
  obtain ⟨⟨k, hk⟩, hrow⟩ := hr.sent t ht
  rw [decide_eq_true_eq, providerTransactionId_of_settledRow hrow, hid] at heq
  -- `t` may come from another delivery of the same id, which is a retry
  exact ⟨t, ht, hretry k i _ _ hk hi heq⟩

omit [DecidableEq ι] in
/-- Once all is delivered, what covers an order can be read off the deliveries. -/
theorem Reconciled.covered_iff {cm : CaseMap} {db : Db} {s : State ι Db Key Outside Error Reply}
    (hr : Reconciled cm d events db s.result)
    (hretry : ∀ i j payload payload', events i = .delivery payload →
      events j = .delivery payload' → payload.id = payload'.id → payload = payload')
    (hall : AllDelivered events s) (id : UUID) (o : Order) :
    Covered cm d db id o ↔ ∃ i payload, events i = .delivery payload ∧
      Selects cm d payload id ∧ payload.transferAmount.eqv o.totalAmount.toDecimal := by
  constructor
  · rintro ⟨t, ht, hsel⟩
    obtain ⟨⟨i, hi⟩, -⟩ := hr.sent t ht
    exact ⟨i, _, hi, hsel⟩
  · rintro ⟨i, payload, hi, hsel⟩
    obtain ⟨t, ht, rfl⟩ := hr.exists_row hretry hall hi
    exact ⟨t, ht, hsel⟩

omit [DecidableEq ι] in
/-- Books in order, with everything delivered. -/
theorem Reconciled.settledOnce {cm : CaseMap} {db : Db} {s : State ι Db Key Outside Error Reply}
    (hr : Reconciled cm d events db s.result) (hsame : SameOrders d db)
    (hretry : ∀ i j payload payload', events i = .delivery payload →
      events j = .delivery payload' → payload.id = payload'.id → payload = payload')
    (hall : AllDelivered events s) : SettledOnce cm d events db := by
  constructor
  case recorded =>
    intro i payload hi
    obtain ⟨t, ht, rfl⟩ := hr.exists_row hretry hall hi
    have hcount : (db.transactions.rows.map PaymentTransaction.providerTransactionId).count
        t.rawPayload.id = 1 := by
      refine List.count_eq_one_of_mem hr.once ?_
      rw [← providerTransactionId_of_settledRow (hr.sent t ht).2]
      exact List.mem_map_of_mem ht
    rw [List.count_eq_countP, List.countP_map] at hcount
    rw [← hcount]
    refine List.countP_congr fun t' _ => ?_
    simp
  case matched =>
    intro id o ho
    refine ⟨?_, fun t ht hpays => ?_⟩
    · rw [hr.matched id o ho]
      split <;> decide
    · have hlt : o.totalAmount.units < 10 ^ 14 := o.totalAmount.lt.trans (by decide)
      have hstored := store_of_settledRow (hr.sent t ht).2
      rw [Numeric.store_of_eqv (hr.amount t ht id o ho hpays) hlt] at hstored
      rw [← Option.some.inj hstored]
  case paid =>
    intro id o ho
    rw [hr.paid id o ho]
    constructor
    · rintro ⟨t, ht, hsel, hamount⟩
      exact ⟨t, ht, incoming_of_settledRow (hr.sent t ht).2 hsel.1, hsel, hamount⟩
    · rintro ⟨t, ht, -, hsel, hamount⟩
      exact ⟨t, ht, hsel, hamount⟩
  case independent =>
    intro id o ho
    rw [hr.paid id o ho, hr.covered_iff hretry hall]
  case cod =>
    intro id o ho hcod hpaid
    obtain ⟨t, -, hsel, -⟩ := (hr.paid id o ho).mp hpaid
    obtain ⟨o₀, ho₀, hplaced⟩ := hsame.symm.get ho
    have hmethod : o₀.placed.paymentMethod = o.placed.paymentMethod := by rw [hplaced]
    have hboth := (hsel.method ho₀).symm.trans (hmethod.trans hcod)
    cases hboth

omit [DecidableEq ι] in
/-- A commit changes a status only if it was asked to, and to what was asked. -/
theorem Event.status_of_post {S : Scope} {event : Event} {reply : Reply} {h : Set Key}
    {b : List (Db → Db)} {db : Db} (hp : event.request.post S site reply h b db) {id : UUID}
    {o o' : Order} (ho : db.orders.get id = some o) (ho' : (flush b db).orders.get id = some o') :
    o'.status = o.status ∨ event = .status id o'.status := by
  have same : ∀ {o''}, (flush b db).orders.get id = some o'' → o''.status = o.status →
      o'.status = o.status := by
    intro o'' hget hstatus
    rw [Option.some.inj (ho'.symm.trans hget), hstatus]
  cases event with
  | delivery payload =>
    obtain ⟨status, -, hw, -⟩ := hp
    rcases status with - | status
    · obtain ⟨rfl, -⟩ := hw
      exact .inl (same ho rfl)
    · obtain ⟨tid, amount, orderId, hs⟩ := hw
      rcases hs.effect ho with ⟨-, -, -, paidAt, hget⟩ | ⟨-, hget, -⟩
      · exact .inl (same hget rfl)
      · exact .inl (same hget rfl)
  | status oid target =>
    obtain ⟨_, -, rfl | ⟨-, seen, old, order, hm⟩, -⟩ := hp
    · exact .inl (same ho rfl)
    · have hget := hm.get ho
      by_cases hid : id = oid
      · rw [if_pos hid] at hget
        rw [Option.some.inj (ho'.symm.trans hget), hid]
        exact .inr rfl
      · rw [if_neg hid] at hget
        exact .inl (same hget rfl)

/-- **Exactly-once settlement.**  Given orders that were created at distinct
times, none of them paid and nothing recorded; deliveries whose retries repeat
the payload, and status requests, in any interleaving.  Once every delivery
got through, `SettledOnce` holds.  At any time, what is paid stays paid since
the same moment, and the status of an order only ever changes by the commit
of a status request, to the status that it asked for. -/
theorem deliveries_settle_once (site : Deployment) (serialized : Bool) (events : ι → Event)
    (hretry : ∀ i j payload payload', events i = .delivery payload →
      events j = .delivery payload' → payload.id = payload'.id → payload = payload') {d : Db}
    (htimes : DistinctTimes d)
    (hpending : ∀ id o, d.orders.get id = some o → o.paymentStatus = .pending)
    (hnone : d.transactions.rows = []) (ms : ℕ → Move ι Outside) (n : ℕ) :
    (AllDelivered events (eventRun site serialized events d ms n) →
      SettledOnce site.caseMap d events (eventRun site serialized events d ms n).db) ∧
    (∀ m ≤ n, PaidKept (eventRun site serialized events d ms m).db
      (eventRun site serialized events d ms n).db) ∧
    ∀ id o o', (eventRun site serialized events d ms n).db.orders.get id = some o →
      (eventRun site serialized events d ms (n + 1)).db.orders.get id = some o' →
      o'.status ≠ o.status → ∃ i reply b, events i = .status id o'.status ∧
        Commits (eventRun site serialized events d ms n)
          (eventRun site serialized events d ms (n + 1)) i reply b := by
  have good : (eventContract site serialized events d).Good
      (eventRun site serialized events d ms n) :=
    (eventContract site serialized events d).good_trace (SameOrders.refl d) ms n
  refine ⟨fun hall => ?_, fun m hmn => ?_, fun id o o' ho ho' hne => ?_⟩
  · exact (reconciled_run htimes hpending hnone).settledOnce good.inv hretry hall
  · exact ((eventContract site serialized events d).rely_trace (SameOrders.refl d) ms hmn).2.2
  · have hstep : ((eventRun site serialized events d ms (n + 1)).db
          = (eventRun site serialized events d ms n).db ∧ _) ∨
        ∃ i reply b, Commits (eventRun site serialized events d ms n)
          (eventRun site serialized events d ms (n + 1)) i reply b :=
      trace_step _ d ms n
    rcases hstep with ⟨hdb, -⟩ | ⟨i, reply, b, hc⟩
    · rw [hdb, ho] at ho'
      exact absurd (congrArg Order.status (Option.some.inj ho')).symm hne
    · rw [hc.db] at ho'
      have hevent := Event.status_of_post (good.post hc.1) ho ho'
      exact ⟨i, reply, b, hevent.resolve_left hne, hc⟩

end Runs

/-! ### One order to be paid by transfer -/

/-- The only order, of 200000.50. -/
def oneTransfer : Db :=
  { Db.ferns with orders := Table.empty.insert 5 (transferOrder "GG-20250501-0001".toList 1) }

theorem get_oneTransfer {id : UUID} {o : Order} (h : oneTransfer.orders.get id = some o) :
    id = 5 ∧ o = transferOrder "GG-20250501-0001".toList 1 := by
  have hmem := Table.get_eq_some.mp h
  have hentries : oneTransfer.orders.entries
      = [(5, transferOrder "GG-20250501-0001".toList 1)] := rfl
  rw [hentries, List.mem_singleton] at hmem
  exact Prod.mk.inj hmem

/-- The payment of an amount, delivered twice, while the order is confirmed. -/
def paidTwice (amount : Decimal) (i : Fin 3) : Event :=
  if i = 2 then .status 5 .confirmed
  else .delivery (payment 1 (some "GG202505010001".toList) none amount)

/-- All three at once. -/
def takeTurns (n : ℕ) : Move (Fin 3) Outside :=
  if n < 3 then .start (Fin.ofNat 3 n) else .step (Fin.ofNat 3 n) (atNoon n)

theorem deliveries_settle_once_twice :
    SettledOnce .ascii oneTransfer (paidTwice (.cents 20000050))
      (eventRun smallShop false (paidTwice (.cents 20000050)) oneTransfer takeTurns 60).db := by
  have hpayload : ∀ i payload, paidTwice (.cents 20000050) i = .delivery payload →
      payload = payment 1 (some "GG202505010001".toList) none (.cents 20000050) := by
    intro i payload hi
    unfold paidTwice at hi
    split at hi <;> cases hi
    rfl
  refine (deliveries_settle_once smallShop false (paidTwice (.cents 20000050))
    (fun i j _ _ hi hj _ => (hpayload i _ hi).trans (hpayload j _ hj).symm)
    (fun _ _ _ _ h h' _ => (get_oneTransfer h).1.trans (get_oneTransfer h').1.symm)
    (fun _ _ h => by rw [(get_oneTransfer h).2]; rfl) rfl takeTurns 60).1 fun i payload hi => ?_
  exact ⟨0, _, rfl, by rw [hpayload i payload hi], by decide +kernel⟩

/-- A payment of 200000.504 is recorded as 200000.50, the total of the order
it was meant for, and does not pay it. -/
theorem rounded_amount_not_settled :
    AllDelivered (paidTwice ⟨200000504, -3⟩)
      (eventRun smallShop false (paidTwice ⟨200000504, -3⟩) oneTransfer takeTurns 60) ∧
    ¬ ∀ id o, (eventRun smallShop false (paidTwice ⟨200000504, -3⟩) oneTransfer takeTurns
        60).db.orders.get id = some o → (o.paymentStatus = .paid ↔
      ∃ t ∈ (eventRun smallShop false (paidTwice ⟨200000504, -3⟩) oneTransfer takeTurns
          60).db.transactions.rows, t.transferType = some "in".toList ∧
        Selects .ascii oneTransfer t.rawPayload id ∧
        t.transferAmount.toDecimal.eqv o.totalAmount.toDecimal) := by
  set payload := payment 1 (some "GG202505010001".toList) none ⟨200000504, -3⟩ with hpayload
  set db := (eventRun smallShop false (paidTwice ⟨200000504, -3⟩) oneTransfer takeTurns 60).db
    with hdb
  refine ⟨fun i payload' hi => ?_, fun h => ?_⟩
  · refine ⟨0, payload, rfl, ?_, by decide +kernel⟩
    unfold paidTwice at hi
    split at hi <;> cases hi
    rfl
  · set order : Order :=
      { transferOrder "GG-20250501-0001".toList 1 with status := .confirmed } with horder
    set t : PaymentTransaction :=
      { providerTransactionId := 1
        orderId := some 5
        gateway := none
        accountNumber := none
        subAccount := none
        code := some "GG202505010001".toList
        content := none
        transferType := some "in".toList
        transferAmount := ⟨20000050, by decide⟩
        referenceCode := none
        transactionDate := none
        matchStatus := .amountMismatch
        rawPayload := payload } with ht
    have hget : db.orders.get 5 = some order := by decide +kernel
    have hmem : t ∈ db.transactions.rows := by decide +kernel
    have hselects : Selects .ascii oneTransfer t.rawPayload 5 :=
      ⟨rfl, transferOrder "GG-20250501-0001".toList 1, by decide +kernel, by decide +kernel⟩
    have hpaid := (h 5 order hget).mpr ⟨t, hmem, rfl, hselects, by decide +kernel⟩
    exact absurd hpaid (by decide)

end GreenGarden
