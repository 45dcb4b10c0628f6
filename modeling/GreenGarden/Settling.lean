/-
GreenGarden/Settling.lean

`processSepayWebhook` as a triple.

The order is chosen from what the query saw (`Selected.chosen`), then locked
and read again, so that its payment state and total are those of the commit.
A delivery whose provider id is recorded stages nothing; any other one adds
exactly one row (`Settled`).
-/
import GreenGarden.Steps

namespace GreenGarden

open Transaction

/-- Why recording a transaction can fail: a column refuses its value, or a
generated key is taken. -/
def WebhookFailure (S : Scope) (payload : SePayWebhookPayload) (e : Error) (d : Db) : Prop :=
  transactionRow payload = .error e ∨
    e = .integrity .primaryKey ∧ ∃ v, S.answers v ∧ (d.transactions.get v.uuid).isSome = true

/-- What the columns hold of a payload. -/
theorem transactionRow_ok {payload : SePayWebhookPayload} {row : PaymentTransaction}
    (h : transactionRow payload = .ok row) :
    row.rawPayload = payload ∧ row.providerTransactionId = payload.id ∧
    storeNullable 10 payload.transferType = .ok row.transferType ∧
    Numeric.store 14 payload.transferAmount = some row.transferAmount := by
  have hbound : ∀ {α β : Type} {x : Except Error α} {f : α → Except Error β} {b : β},
      (x >>= f) = .ok b → ∃ a, x = .ok a ∧ f a = .ok b := by
    intro α β x f b hx
    cases x with
    | error e => cases hx
    | ok a => exact ⟨a, rfl, hx⟩
  rw [transactionRow] at h
  obtain ⟨id, hid, h⟩ := hbound h
  obtain ⟨gateway, -, h⟩ := hbound h
  obtain ⟨accountNumber, -, h⟩ := hbound h
  obtain ⟨subAccount, -, h⟩ := hbound h
  obtain ⟨code, -, h⟩ := hbound h
  obtain ⟨transferType, htype, h⟩ := hbound h
  obtain ⟨amount, hamount, h⟩ := hbound h
  obtain ⟨referenceCode, -, h⟩ := hbound h
  obtain ⟨transactionDate, -, h⟩ := hbound h
  cases h
  refine ⟨rfl, ?_, htype, ?_⟩
  · rw [storeBigInteger] at hid
    split at hid <;> cases hid
    rfl
  · rw [storeAmount] at hamount
    split at hamount <;> cases hamount
    assumption

/-- The errors of a column that cannot hold its value. -/
theorem transactionRow_error {payload : SePayWebhookPayload} {e : Error}
    (h : transactionRow payload = .error e) : e = .numericOverflow ∨ e = .stringTooLong := by
  have hstep : ∀ {α : Type} {x : Except Error α} {f : α → Except Error PaymentTransaction},
      (∀ e, x = .error e → e = .numericOverflow ∨ e = .stringTooLong) →
      (∀ a e, f a = .error e → e = .numericOverflow ∨ e = .stringTooLong) →
      ∀ e, (x >>= f) = .error e → e = .numericOverflow ∨ e = .stringTooLong := by
    intro α x f hx hf e he
    cases x with
    | error e' =>
      cases he
      exact hx e rfl
    | ok a => exact hf a e he
  have hnumber : ∀ e, storeBigInteger payload.id = .error e →
      e = .numericOverflow ∨ e = .stringTooLong := by
    intro e he
    rw [storeBigInteger] at he
    split at he <;> cases he
    exact .inl rfl
  have hamount : ∀ e, storeAmount payload.transferAmount = .error e →
      e = .numericOverflow ∨ e = .stringTooLong := by
    intro e he
    rw [storeAmount] at he
    split at he <;> cases he
    exact .inl rfl
  have htext : ∀ n value e, storeNullable n value = .error e →
      e = .numericOverflow ∨ e = .stringTooLong := by
    intro n value e he
    cases value with
    | none => cases he
    | some value =>
      rw [storeNullable, storeString] at he
      split at he <;> cases he
      exact .inr rfl
  exact hstep hnumber (fun _ => hstep (htext 100 _) fun _ => hstep (htext 100 _) fun _ =>
    hstep (htext 250 _) fun _ => hstep (htext 250 _) fun _ => hstep (htext 10 _) fun _ =>
    hstep hamount fun _ => hstep (htext 255 _) fun _ => hstep (htext 32 _) fun _ _ he => by
      cases he) e h

/-- An order was chosen by its reference, and is locked. -/
structure Selected (S : Scope) (references : List Text) (h : Set Key) (d : Db) (id : UUID)
    (order : Order) : Prop where
  locked : Key.order id ∈ h
  current : d.orders.get id = some order
  chosen : ∃ seen v named, S.answers v ∧ S.Sees seen d ∧
    oldest (namedOrders seen references) v.pick = some (id, named)

theorem Selected.step {S : Scope} {references : List Text} {h h' : Set Key} {d d' : Db}
    {id : UUID} {order : Order} (hs : Selected S references h d id order) (hsub : h ⊆ h')
    (hd : S.rely.rel h d d') : Selected S references h' d' id order where
  locked := hsub hs.locked
  current := (hd.1.order id (Set.notMem_compl_iff.mpr hs.locked)).trans hs.current
  chosen := by
    obtain ⟨seen, v, named, hv, hseen, hchosen⟩ := hs.chosen
    exact ⟨seen, v, named, hv, hseen.step hd, hchosen⟩

/-- What a transaction does to the order it names; `writes` is what becomes of
the orders table. -/
inductive Settlement (S : Scope) (cm : CaseMap) (payload : SePayWebhookPayload) (h : Set Key)
    (d : Db) : Option UUID × PaymentMatchStatus → (Table UUID Order → Table UUID Order) → Prop
  | ignored (hout : payload.transferType ≠ some "in".toList) :
      Settlement S cm payload h d (none, .ignored) fun t => t
  | unmatched {seen : Db} {v : Outside} (hin : payload.transferType = some "in".toList)
      (hv : S.answers v) (hseen : S.Sees seen d)
      (hnone : oldest (namedOrders seen (candidateReferences cm payload)) v.pick = none) :
      Settlement S cm payload h d (none, .unmatched) fun t => t
  | alreadyPaid {id : UUID} {order : Order} (hin : payload.transferType = some "in".toList)
      (hsel : Selected S (candidateReferences cm payload) h d id order)
      (hpaid : order.paymentStatus = .paid) :
      Settlement S cm payload h d (some id, .alreadyPaid) fun t => t
  | amountMismatch {id : UUID} {order : Order} (hin : payload.transferType = some "in".toList)
      (hsel : Selected S (candidateReferences cm payload) h d id order)
      (hunpaid : order.paymentStatus ≠ .paid)
      (hamount : ¬ payload.transferAmount.eqv order.totalAmount.toDecimal) :
      Settlement S cm payload h d (some id, .amountMismatch) fun t => t
  | matched {id : UUID} {order : Order} (paidAt : UtcDateTime)
      (hin : payload.transferType = some "in".toList)
      (hsel : Selected S (candidateReferences cm payload) h d id order)
      (hunpaid : order.paymentStatus ≠ .paid)
      (hamount : payload.transferAmount.eqv order.totalAmount.toDecimal) :
      Settlement S cm payload h d (some id, .matched) fun t =>
        t.modify id fun o => { o with paymentStatus := .paid, paidAt := some paidAt }

theorem Settlement.step {S : Scope} {cm : CaseMap} {payload : SePayWebhookPayload}
    {h h' : Set Key} {d d' : Db} {outcome : Option UUID × PaymentMatchStatus}
    {writes : Table UUID Order → Table UUID Order}
    (hs : Settlement S cm payload h d outcome writes) (hsub : h ⊆ h')
    (hd : S.rely.rel h d d') : Settlement S cm payload h' d' outcome writes := by
  cases hs with
  | ignored hout => exact .ignored hout
  | unmatched hin hv hseen hnone => exact .unmatched hin hv (hseen.step hd) hnone
  | alreadyPaid hin hsel hpaid => exact .alreadyPaid hin (hsel.step hsub hd) hpaid
  | amountMismatch hin hsel hunpaid hamount =>
    exact .amountMismatch hin (hsel.step hsub hd) hunpaid hamount
  | matched paidAt hin hsel hunpaid hamount =>
    exact .matched paidAt hin (hsel.step hsub hd) hunpaid hamount

/-- The row a delivery leaves behind. -/
def settledRow (row : PaymentTransaction) (outcome : Option UUID × PaymentMatchStatus) :
    PaymentTransaction :=
  { row with orderId := outcome.1, matchStatus := outcome.2 }

/-- The database went from `d` to `d'` by recording a transaction. -/
structure Settled (S : Scope) (cm : CaseMap) (payload : SePayWebhookPayload) (id : UUID)
    (row : PaymentTransaction) (outcome : Option UUID × PaymentMatchStatus) (h : Set Key)
    (d d' : Db) : Prop where
  stored : transactionRow payload = .ok row
  fresh : d.transactions.get id = none
  unrecorded : recorded d payload.id = false
  transactions : d'.transactions = d.transactions.insert id (settledRow row outcome)
  settlement : ∃ writes, Settlement S cm payload h d outcome writes ∧
    d'.orders = writes d.orders
  categories : d'.categories = d.categories
  plants : d'.plants = d.plants
  slugHistory : d'.slugHistory = d.slugHistory
  customers : d'.customers = d.customers
  notifications : d'.notifications = d.notifications

/-- An order after a settlement is the order before it, possibly paid. -/
theorem Settlement.get {S : Scope} {cm : CaseMap} {payload : SePayWebhookPayload} {h : Set Key}
    {d : Db} {outcome : Option UUID × PaymentMatchStatus}
    {writes : Table UUID Order → Table UUID Order}
    (hs : Settlement S cm payload h d outcome writes) (oid : UUID) :
    (writes d.orders).get oid = d.orders.get oid ∨
    ∃ order paidAt, Key.order oid ∈ h ∧ d.orders.get oid = some order ∧
      (writes d.orders).get oid
        = some { order with paymentStatus := .paid, paidAt := some paidAt } := by
  cases hs with
  | ignored | unmatched | alreadyPaid | amountMismatch => exact .inl rfl
  | @matched id order paidAt hin hsel hunpaid hamount =>
    by_cases hid : oid = id
    · subst hid
      refine .inr ⟨order, paidAt, hsel.locked, hsel.current, ?_⟩
      rw [Table.get_modify_self, hsel.current]
      rfl
    · exact .inl (Table.get_modify_of_ne _ hid _)

theorem Settlement.orderNumbers {S : Scope} {cm : CaseMap} {payload : SePayWebhookPayload}
    {h : Set Key} {d : Db} {outcome : Option UUID × PaymentMatchStatus}
    {writes : Table UUID Order → Table UUID Order}
    (hs : Settlement S cm payload h d outcome writes) :
    (writes d.orders).rows.map Order.orderNumber = d.orders.rows.map Order.orderNumber := by
  cases hs with
  | ignored | unmatched | alreadyPaid | amountMismatch => rfl
  | matched => exact Table.map_rows_modify _ _ _ _ fun _ _ => rfl

theorem recorded_insert {d d' : Db} {id : UUID} {t : PaymentTransaction}
    (hfresh : d.transactions.get id = none) (h : d'.transactions = d.transactions.insert id t)
    (p : ℤ) : recorded d' p = (recorded d p || decide (t.providerTransactionId = p)) := by
  rw [recorded, h, Table.rows_insert hfresh, List.any_append, recorded]
  simp

/-- Recording a transaction is a change under the locks it took. -/
theorem Settled.change {S : Scope} {cm : CaseMap} {payload : SePayWebhookPayload} {id : UUID}
    {row : PaymentTransaction} {outcome : Option UUID × PaymentMatchStatus} {h : Set Key}
    {d d' : Db} (hs : Settled S cm payload id row outcome h d d') (hid : Key.transaction id ∈ h)
    (hprovider : Key.providerTransaction payload.id ∈ h) : Change S.serialized h d d' := by
  obtain ⟨writes, hsettle, horders⟩ := hs.settlement
  have hrec : ∀ p, recorded d' p = (recorded d p || decide (payload.id = p)) := by
    intro p
    rw [recorded_insert hs.fresh hs.transactions, ← (transactionRow_ok hs.stored).2.1]
    rfl
  -- an order is as it was, or paid
  have kept : ∀ oid o, d.orders.get oid = some o →
      ∃ o', d'.orders.get oid = some o' ∧ o'.placed = o.placed ∧ o'.status = o.status := by
    intro oid o ho
    rw [horders]
    rcases hsettle.get oid with hsame | ⟨order, paidAt, -, hget, hpaid⟩
    · exact ⟨o, by rw [hsame, ho], rfl, rfl⟩
    · rw [ho] at hget
      cases hget
      exact ⟨_, hpaid, rfl, rfl⟩
  exact
    { plant := fun pid _ => by rw [hs.plants]
      plants := fun pid hp => by rwa [hs.plants]
      customer := fun cid _ => by rw [hs.customers]
      customers := fun cid hc => by rwa [hs.customers]
      phone := fun p _ hp => by rwa [phoneTaken, hs.customers]
      order := fun oid hoid => by
        rw [horders]
        rcases hsettle.get oid with hsame | ⟨_, _, hlock, -⟩
        · exact hsame
        · exact absurd hlock hoid
      orders := fun oid o ho => by
        obtain ⟨o', ho', hplaced, -⟩ := kept oid o ho
        exact ⟨o', ho', hplaced⟩
      numbers := fun _ => by rw [Db.orderNumbers, horders, hsettle.orderNumbers, Db.orderNumbers]
      status := fun _ oid o _ ho => by
        obtain ⟨o', ho', -, hstatus⟩ := kept oid o ho
        exact ⟨o', ho', hstatus⟩
      notification := fun nid _ => by rw [hs.notifications]
      transaction := fun tid htid => by
        have hne : tid ≠ id := by rintro rfl; exact htid hid
        rw [hs.transactions, Table.get_insert hs.fresh, if_neg hne]
      provider := fun p hp hr => by
        have hne : payload.id ≠ p := by rintro rfl; exact hp hprovider
        rw [hrec, hr]
        rw [Bool.false_or, decide_eq_false_iff_not]
        exact hne
      recorded := fun p hr => by rw [hrec, hr, Bool.true_or] }

section Triple

variable {β : Type} {S : Scope} {F : Error → Db → Prop} {cm : CaseMap}
variable {payload : SePayWebhookPayload} {h : Set Key} {b : List (Db → Db)} {d : Db}
variable {Q : β → Set Key → List (Db → Db) → Db → Prop}

theorem mem_of_oldest {orders : List (UUID × Order)} {pick : ℕ} {e : UUID × Order}
    (h : oldest orders pick = some e) :
    e ∈ orders ∧ ∀ e' ∈ orders, e.2.createdAt ≤ e'.2.createdAt := by
  have hmem := List.mem_of_getElem? h
  rw [List.mem_filter] at hmem
  exact ⟨hmem.1, by simpa using hmem.2⟩

theorem wp_lockOrderByReference {references : List Text}
    {g : Option (UUID × Order) → Session β} (hinv : S.inv d)
    (hb : ∀ db, (flush b db).orders = db.orders)
    (hnone : ∀ seen v, S.answers v → S.Sees seen seen → S.rely.rel h d seen →
      oldest (namedOrders seen references) v.pick = none → wp S.rely F (g none) Q h b seen)
    (hsome : ∀ id order d', S.rely.rel h d d' →
      Selected S references (insert (Key.order id) h) d' id order →
      wp S.rely F (g (some (id, order))) Q (insert (Key.order id) h) b d') :
    wp S.rely F (lockOrderByReference references >>= g) Q h b d := by
  rw [lockOrderByReference, bind_assoc]
  refine wp_outside fun v hv => ?_
  rw [bind_assoc]
  refine wp_query fun seen hd₁ => ?_
  have hinv₁ := S.keeps hd₁.2 hinv
  have hnamed : namedOrders (flush b seen) references = namedOrders seen references := by
    rw [namedOrders, namedOrders, hb]
  rw [hnamed]
  rcases hold : oldest (namedOrders seen references) v.pick with - | ⟨id, named⟩
  · exact hnone seen v hv (.refl hinv₁) hd₁ hold
  · simp only [bind_assoc]
    refine wp_acquire fun d₂ hd₂ => wp_query fun d₃ hd₃ => ?_
    have hd₂₃ : S.rely.rel h seen d₃ :=
      S.rely.trans hd₂ (S.rely.anti (Set.subset_insert _ _) hd₃)
    -- the row that was chosen has not gone away
    have hget : seen.orders.get id = some named :=
      Table.get_eq_some.mpr (List.mem_of_mem_filter (mem_of_oldest hold).1)
    obtain ⟨order, horder, -⟩ := hd₂₃.1.orders id named hget
    rw [hb, horder]
    exact hsome id order d₃ (S.rely.trans hd₁ hd₂₃)
      ⟨.inl rfl, horder, seen, v, named, hv, (Scope.Sees.refl hinv₁).step hd₂₃, hold⟩

theorem wp_settleOrder {g : Option UUID × PaymentMatchStatus → Session β} (hinv : S.inv d)
    (hb : ∀ db, (flush b db).orders = db.orders)
    (hg : ∀ outcome h' b' d' writes, S.rely.rel h d d' → h ⊆ h' →
      (∀ db, flush b' db = { flush b db with orders := writes db.orders }) →
      Settlement S cm payload h' d' outcome writes →
      wp S.rely F (g outcome) Q h' b' d') :
    wp S.rely F (settleOrder cm payload >>= g) Q h b d := by
  have hsame : ∀ db, flush b db = { flush b db with orders := db.orders } := by
    intro db
    rw [← hb db]
  rw [settleOrder]
  -- outgoing transfers are recorded and settle nothing
  refine wp_whenElse (fun hin => ?_) fun hout => ?_
  · rw [bind_assoc]
    refine wp_lockOrderByReference hinv hb (fun seen v hv hseen hd hold => ?_)
      fun id order d' hd hsel => ?_
    · exact hg _ h b seen (fun t => t) hd subset_rfl hsame (.unmatched hin hv hseen hold)
    · by_cases hpaid : order.paymentStatus = .paid
      · simp only [if_pos hpaid]
        exact hg _ _ b d' (fun t => t) hd (Set.subset_insert _ _) hsame
          (.alreadyPaid hin hsel hpaid)
      · by_cases hamount : payload.transferAmount.eqv order.totalAmount.toDecimal
        · simp only [if_neg hpaid, hamount, not_true_eq_false, if_false]
          rw [payOrder, bind_assoc, bind_assoc]
          refine wp_outside fun v _ => wp_stage ?_
          refine hg _ _ _ d' (fun t => t.modify id _) hd (Set.subset_insert _ _) (fun db => ?_)
            (.matched v.clock hin hsel hpaid hamount)
          rw [flush_cons, hb]
        · simp only [if_neg hpaid, hamount, not_false_eq_true, if_true]
          exact hg _ _ b d' (fun t => t) hd (Set.subset_insert _ _) hsame
            (.amountMismatch hin hsel hpaid hamount)
  · exact hg _ h b d (fun t => t) (S.rely.refl h d) subset_rfl hsame (.ignored hout)

/-- What a delivery commits. -/
def WebhookPost (S : Scope) (cm : CaseMap) (payload : SePayWebhookPayload)
    (reply : Option PaymentMatchStatus) (h : Set Key) (b : List (Db → Db)) (d : Db) : Prop :=
  (match reply with
    | none => b = [] ∧ recorded d payload.id = true
    | some status => ∃ id row orderId,
        Settled S cm payload id row (orderId, status) h d (flush b d)) ∧
    Change S.serialized h d (flush b d)

/-- **The triple of a delivery.** -/
theorem wp_processSepayWebhook (hinv : S.inv d) :
    wp S.rely (WebhookFailure S payload) (processSepayWebhook cm payload)
      (Stable S.rely fun reply h b d => WebhookPost S cm payload reply h b d) h [] d := by
  rw [processSepayWebhook]
  refine wp_ofExcept (fun e he => .inl he) fun row hstored => ?_
  refine wp_acquire fun d₁ hd₁ => wp_query fun d₂ hd₂ => ?_
  have hinv₂ : S.inv d₂ := S.keeps (S.trans hd₁.2 hd₂.2) hinv
  set h₂ := insert (Key.providerTransaction payload.id) h with hh₂
  rw [flush_nil]
  by_cases hagain : recorded d₂ payload.id = false
  swap
  · -- a retry: nothing is staged, and the record is still there at the commit
    rw [Bool.not_eq_false] at hagain
    simp only [Tx.whenElse, hagain, Bool.true_eq_false, if_false]
    exact fun d' hd' => ⟨⟨rfl, hd'.1.recorded _ hagain⟩, .refl d'⟩
  simp only [Tx.whenElse, hagain, if_true]
  rw [recordTransaction, bind_assoc]
  refine wp_newId (fun v d₃ hv hd₃ hused => .inr ⟨rfl, v, hv, hused⟩) fun v d₃ hv hd₃ hused => ?_
  have hnew : d₃.transactions.get v.uuid = none := by simpa using hused
  have hinv₃ := S.keeps hd₃.2 hinv₂
  rw [bind_assoc]
  refine wp_stage ?_
  rw [bind_assoc]
  -- the transaction is inserted unmatched and updated with the outcome
  refine wp_settleOrder hinv₃ (fun db => rfl) fun outcome h₄ b₄ d₄ writes hd₄ hsub₄ hb₄ hs => ?_
  simp only [bind_assoc]
  refine wp_stage (wp_pure fun d' hd' => ?_)
  -- both the new key and the provider's id were ours since they were looked up
  have hd₃' : S.rely.rel (insert (Key.transaction v.uuid) h₂) d₃ d' :=
    S.rely.trans hd₄ (S.rely.anti hsub₄ hd')
  have hfresh : d'.transactions.get v.uuid = none :=
    (hd₃'.1.transaction _ (Set.notMem_compl_iff.mpr (.inl rfl))).trans hnew
  have hd₂' : S.rely.rel h₂ d₂ d' :=
    S.rely.trans hd₃ (S.rely.anti (Set.subset_insert _ _) hd₃')
  have hsettled : Settled S cm payload v.uuid row outcome h₄ d' (flush ((fun db : Db =>
      { db with
        transactions := db.transactions.modify v.uuid fun t =>
          { t with orderId := outcome.1, matchStatus := outcome.2 } }) :: b₄) d') := by
    rw [flush_cons, hb₄]
    exact
      { stored := hstored
        fresh := hfresh
        unrecorded := hd₂'.1.provider _ (Set.notMem_compl_iff.mpr (.inl rfl)) hagain
        transactions := Table.modify_insert_self hfresh row
          fun t => { t with orderId := outcome.1, matchStatus := outcome.2 }
        settlement := ⟨writes, hs.step subset_rfl hd', rfl⟩
        categories := rfl
        plants := rfl
        slugHistory := rfl
        customers := rfl
        notifications := rfl }
  refine ⟨⟨v.uuid, row, outcome.1, hsettled⟩, hsettled.change (hsub₄ (.inl rfl)) ?_⟩
  exact hsub₄ (.inr (.inl rfl))

end Triple

end GreenGarden
