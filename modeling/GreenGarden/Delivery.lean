/-
GreenGarden/Delivery.lean

One delivery of a transaction, run alone on a database.

A delivery that is new and that its columns can hold is always recorded
(`runAlone_delivery`).  The row it leaves behind names the order it was
applied to, which is the one that the query picked (`Settled.chosen`), and no
other order is touched (`Settled.untouched`).
-/
import GreenGarden.Guarantee

namespace GreenGarden

open Transaction

/-- The order that the recorded transaction was applied to, if any. -/
def settledOrder (db : Db) (providerId : ℤ) : Option UUID :=
  (db.transactions.rows.find? fun t => t.providerTransactionId = providerId).bind
    PaymentTransaction.orderId

/-- A generated identifier is new among the transactions. -/
def NewTransaction (d : Db) (v : Outside) : Prop := d.transactions.get v.uuid = none

/-! ### What the columns hold -/

/-- A text that a `VARCHAR(n)` column takes: only blanks stand behind the limit. -/
def FitsColumn (n : ℕ) (value : Option Text) : Prop := ∀ c ∈ (value.getD []).drop n, c = ' '

/-- The columns of a transaction can hold the fields of a payload. -/
structure SePayWebhookPayload.Storable (payload : SePayWebhookPayload) : Prop where
  id : -2 ^ 63 ≤ payload.id ∧ payload.id < 2 ^ 63
  gateway : FitsColumn 100 payload.gateway
  accountNumber : FitsColumn 100 payload.accountNumber
  subAccount : FitsColumn 250 payload.subAccount
  code : FitsColumn 250 payload.code
  transferType : FitsColumn 10 payload.transferType
  transferAmount : ∃ amount, Numeric.store 14 payload.transferAmount = some amount
  referenceCode : FitsColumn 255 payload.referenceCode
  transactionDate : FitsColumn 32 payload.transactionDate

theorem storeNullable_ok_iff (n : ℕ) (value : Option Text) :
    (∃ stored, storeNullable n value = .ok stored) ↔ FitsColumn n value := by
  cases value with
  | none => exact iff_of_true ⟨none, rfl⟩ fun c hc => by simp at hc
  | some value =>
    rw [storeNullable, storeString, FitsColumn, Option.getD_some]
    split
    · rename_i hall
      refine iff_of_true ⟨_, rfl⟩ fun c hc => ?_
      simpa using List.all_eq_true.mp hall c hc
    · rename_i hall
      refine iff_of_false (by rintro ⟨_, h⟩; cases h) fun hfits => hall ?_
      exact List.all_eq_true.mpr fun c hc => decide_eq_true (hfits c hc)

theorem storeBigInteger_ok_iff {n : ℤ} :
    (∃ stored, storeBigInteger n = .ok stored) ↔ -2 ^ 63 ≤ n ∧ n < 2 ^ 63 := by
  rw [storeBigInteger]
  split
  · exact iff_of_true ⟨_, rfl⟩ ‹_›
  · exact iff_of_false (by rintro ⟨_, h⟩; cases h) ‹_›

theorem storeAmount_ok_iff {d : Decimal} :
    (∃ stored, storeAmount d = .ok stored) ↔ ∃ amount, Numeric.store 14 d = some amount := by
  rw [storeAmount]
  cases Numeric.store 14 d with
  | none => exact iff_of_false (by rintro ⟨_, h⟩; cases h) (by rintro ⟨_, h⟩; cases h)
  | some amount => exact iff_of_true ⟨_, rfl⟩ ⟨_, rfl⟩

/-- A payload can be recorded exactly when its columns can hold it. -/
theorem transactionRow_ok_iff {payload : SePayWebhookPayload} :
    (∃ row, transactionRow payload = .ok row) ↔ payload.Storable := by
  -- a sequence of steps succeeds when each of them does, whatever comes of it
  have hbind : ∀ {α : Type} {x : Except Error α} {f : α → Except Error PaymentTransaction}
      {p q : Prop}, ((∃ a, x = .ok a) ↔ p) → (∀ a, (∃ row, f a = .ok row) ↔ q) →
      ((∃ row, (x >>= f) = .ok row) ↔ p ∧ q) := by
    intro α x f p q hx hf
    cases x with
    | error e =>
      refine iff_of_false (by rintro ⟨_, h⟩; cases h) fun h => ?_
      obtain ⟨_, ha⟩ := hx.mpr h.1
      cases ha
    | ok a => exact (hf a).trans ⟨fun hq => ⟨hx.mp ⟨a, rfl⟩, hq⟩, And.right⟩
  have hsteps := hbind (storeBigInteger_ok_iff (n := payload.id)) fun id =>
    hbind (storeNullable_ok_iff 100 payload.gateway) fun gateway =>
    hbind (storeNullable_ok_iff 100 payload.accountNumber) fun accountNumber =>
    hbind (storeNullable_ok_iff 250 payload.subAccount) fun subAccount =>
    hbind (storeNullable_ok_iff 250 payload.code) fun code =>
    hbind (storeNullable_ok_iff 10 payload.transferType) fun transferType =>
    hbind (storeAmount_ok_iff (d := payload.transferAmount)) fun transferAmount =>
    hbind (storeNullable_ok_iff 255 payload.referenceCode) fun referenceCode =>
    hbind (f := fun transactionDate => .ok
        { providerTransactionId := id, gateway, accountNumber, subAccount, code, transferType,
          transferAmount, referenceCode, transactionDate, orderId := none,
          content := payload.content, matchStatus := .unmatched, rawPayload := payload })
      (storeNullable_ok_iff 32 payload.transactionDate)
      fun transactionDate => iff_of_true ⟨_, rfl⟩ trivial
  refine hsteps.trans ?_
  constructor
  · rintro ⟨hid, hg, ha, hs, hc, ht, hamount, hr, hd, -⟩
    exact ⟨hid, hg, ha, hs, hc, ht, hamount, hr, hd⟩
  · rintro ⟨hid, hg, ha, hs, hc, ht, hamount, hr, hd⟩
    exact ⟨hid, hg, ha, hs, hc, ht, hamount, hr, hd, trivial⟩

/-! ### The order that is picked -/

theorem mem_namedOrders {db : Db} {references : List Text} {e : UUID × Order} :
    e ∈ namedOrders db references ↔ e ∈ db.orders.entries ∧
      e.2.paymentMethod = .bankTransfer ∧ ∃ r ∈ references, e.2.paymentReference = some r := by
  rw [namedOrders, List.mem_filter, decide_eq_true_eq]

theorem exists_oldest {orders : List (UUID × Order)} (h : orders ≠ []) :
    ∃ e ∈ orders, ∀ e' ∈ orders, e.2.createdAt ≤ e'.2.createdAt := by
  rcases hmin : orders.argmin fun e => e.2.createdAt with - | e
  · exact absurd (List.argmin_eq_none.mp hmin) h
  · exact ⟨e, List.argmin_mem hmin, fun e' he' =>
      List.le_of_mem_argmin (f := fun e : UUID × Order => e.2.createdAt) he' hmin⟩

/-- Something is picked when there is something to pick from. -/
theorem oldest_isSome {orders : List (UUID × Order)} (h : orders ≠ []) (pick : ℕ) :
    ∃ e, oldest orders pick = some e := by
  set first := orders.filter fun e => ∀ e' ∈ orders, e.2.createdAt ≤ e'.2.createdAt with hfirst
  obtain ⟨e, he, hmin⟩ := exists_oldest h
  have hmem : e ∈ first := by
    rw [hfirst, List.mem_filter, decide_eq_true_eq]
    exact ⟨he, hmin⟩
  have hlt : pick % first.length < first.length :=
    Nat.mod_lt _ (List.length_pos_of_mem hmem)
  refine ⟨first[pick % first.length], ?_⟩
  show first[pick % first.length]? = some _
  exact List.getElem?_eq_getElem hlt

/-! ### The delivery -/

section Alone

variable {A : Outside → Prop} {d d' : Db} {cm : CaseMap} {payload : SePayWebhookPayload}
variable {row : PaymentTransaction} {id : UUID} {h : Set Key}
variable {outcome : Option UUID × PaymentMatchStatus}

/-- The triple of a delivery that is alone. -/
theorem wp_delivery (A : Outside → Prop) (d : Db) (cm : CaseMap) (payload : SePayWebhookPayload) :
    wp (Scope.quiet A d).rely (WebhookFailure (Scope.quiet A d) payload)
      (processSepayWebhook cm payload) (Stable (Scope.quiet A d).rely fun reply h b d' =>
        WebhookPost (Scope.quiet A d) cm payload reply h b d') ∅ [] d :=
  wp_processSepayWebhook rfl

/-- A new delivery is recorded. -/
theorem runAlone_delivery (cm : CaseMap) (vs : ℕ → Outside) (hnew : recorded d payload.id = false)
    (hstore : transactionRow payload = .ok row)
    (hA : ∀ v, A v → NewTransaction d v) (hvs : ∀ n, A (vs n)) :
    ∃ id outcome h d', runAlone vs (processSepayWebhook cm payload) d = (.ok (some outcome.2), d') ∧
      Settled (Scope.quiet A d) cm payload id row outcome h d d' := by
  have triple := wp_delivery A d cm payload
  rcases hrun : runAlone vs (processSepayWebhook cm payload) d with ⟨e | reply, d'⟩
  · obtain ⟨-, hf⟩ := runAlone_error triple hvs hrun
    -- the columns hold the payload and the new key is free
    rcases hf with hrow | ⟨-, v, hv, hused⟩
    · rw [hstore] at hrow
      cases hrow
    · rw [hA v hv] at hused
      cases hused
  · obtain ⟨h, b, rfl, hpost⟩ := runAlone_ok triple hvs hrun
    obtain ⟨hw, -⟩ := hpost d ((Scope.quiet A d).rely.refl h d)
    rcases reply with - | status
    · rw [hnew] at hw
      cases hw.2
    · obtain ⟨id, row', orderId, hs⟩ := hw
      obtain rfl : row' = row := Except.ok.inj (hs.stored.symm.trans hstore)
      exact ⟨id, (orderId, status), h, _, rfl, hs⟩

/-- A delivery that its columns refuse changes nothing. -/
theorem runAlone_refused (cm : CaseMap) (vs : ℕ → Outside) (hnew : recorded d payload.id = false)
    (hrefused : ¬ payload.Storable) :
    ∃ e, runAlone vs (processSepayWebhook cm payload) d = (.error e, d) := by
  have triple := wp_delivery (fun _ => True) d cm payload
  rcases hrun : runAlone vs (processSepayWebhook cm payload) d with ⟨e | reply, d'⟩
  · obtain ⟨rfl, -⟩ := runAlone_error triple (fun _ => trivial) hrun
    exact ⟨e, rfl⟩
  · obtain ⟨h, b, rfl, hpost⟩ := runAlone_ok triple (fun _ => trivial) hrun
    obtain ⟨hw, -⟩ := hpost d ((Scope.quiet (fun _ => True) d).rely.refl h d)
    rcases reply with - | status
    · rw [hnew] at hw
      cases hw.2
    · obtain ⟨id, row, orderId, hs⟩ := hw
      exact absurd (transactionRow_ok_iff.mp ⟨row, hs.stored⟩) hrefused

theorem storable_of_recorded {vs : ℕ → Outside} {status : Option PaymentMatchStatus}
    (hnew : recorded d payload.id = false)
    (hrun : runAlone vs (processSepayWebhook cm payload) d = (.ok status, d')) :
    payload.Storable := by
  by_contra hrefused
  obtain ⟨e, hfailed⟩ := runAlone_refused cm vs hnew hrefused
  rw [hfailed] at hrun
  cases (Prod.mk.inj hrun).1

/-- The row a delivery leaves behind names its order. -/
theorem Settled.settledOrder {S : Scope}
    (hs : Settled S cm payload id row outcome h d d') :
    GreenGarden.settledOrder d' payload.id = outcome.1 := by
  have hnone : d.transactions.rows.find? (fun t => t.providerTransactionId = payload.id)
      = none := by
    rw [List.find?_eq_none]
    intro t ht
    have hfalse := List.any_eq_false.mp hs.unrecorded t ht
    simpa using hfalse
  have hid : row.providerTransactionId = payload.id := (transactionRow_ok hs.stored).2.1
  rw [GreenGarden.settledOrder, hs.transactions, Table.rows_insert hs.fresh, List.find?_append,
    hnone]
  simp [hid, settledRow]

/-- An incoming transaction is applied to the order that the query picked. -/
theorem Settled.chosen (hs : Settled (Scope.quiet A d) cm payload id row outcome h d d')
    (hin : payload.transferType = some "in".toList) :
    ∃ v, A v ∧ outcome.1
      = (oldest (namedOrders d (candidateReferences cm payload)) v.pick).map Prod.fst := by
  have selected : ∀ {oid order},
      Selected (Scope.quiet A d) (candidateReferences cm payload) h d oid order →
      ∃ v, A v ∧ some oid
        = (oldest (namedOrders d (candidateReferences cm payload)) v.pick).map Prod.fst := by
    intro oid order hsel
    obtain ⟨seen, v, named, hv, hseen, hchosen⟩ := hsel.chosen
    rw [(Scope.quiet_sees hseen).1] at hchosen
    exact ⟨v, hv, by rw [hchosen]; rfl⟩
  obtain ⟨writes, hsettle, -⟩ := hs.settlement
  cases hsettle with
  | ignored hout => exact absurd hin hout
  | unmatched _ hv hseen hnone =>
    rw [(Scope.quiet_sees hseen).1] at hnone
    exact ⟨_, hv, by rw [hnone]; rfl⟩
  | alreadyPaid _ hsel | amountMismatch _ hsel | matched _ _ hsel => exact selected hsel

/-- What an incoming transaction does to the unpaid order it is applied to. -/
theorem Settled.unpaid {S : Scope} {oid : UUID} {order : Order}
    (hs : Settled S cm payload id row outcome h d d') (hoid : outcome.1 = some oid)
    (hget : d.orders.get oid = some order) (hunpaid : order.paymentStatus ≠ .paid) :
    (payload.transferAmount.eqv order.totalAmount.toDecimal → outcome.2 = .matched ∧ ∃ paidAt,
      d'.orders.get oid
        = some { order with paymentStatus := .paid, paidAt := some paidAt }) ∧
    (¬ payload.transferAmount.eqv order.totalAmount.toDecimal → outcome.2 = .amountMismatch) := by
  obtain ⟨writes, hsettle, horders⟩ := hs.settlement
  cases hsettle with
  | ignored | unmatched => cases hoid
  | @alreadyPaid _ order' _ hsel hpaid =>
    cases hoid
    obtain rfl : order' = order := Option.some.inj (hsel.current.symm.trans hget)
    exact absurd hpaid hunpaid
  | @amountMismatch _ order' _ hsel _ hamount =>
    cases hoid
    obtain rfl : order' = order := Option.some.inj (hsel.current.symm.trans hget)
    exact ⟨fun h => absurd h hamount, fun _ => rfl⟩
  | @matched _ order' paidAt _ hsel _ hamount =>
    cases hoid
    obtain rfl : order' = order := Option.some.inj (hsel.current.symm.trans hget)
    refine ⟨fun _ => ⟨rfl, paidAt, ?_⟩, fun h => absurd hamount h⟩
    rw [horders, Table.get_modify_self, hget]
    rfl

/-- No other order is touched. -/
theorem Settled.untouched {S : Scope} (hs : Settled S cm payload id row outcome h d d')
    {oid : UUID} (hoid : outcome.1 ≠ some oid) : d'.orders.get oid = d.orders.get oid := by
  obtain ⟨writes, hsettle, horders⟩ := hs.settlement
  rw [horders]
  cases hsettle with
  | ignored | unmatched | alreadyPaid | amountMismatch => rfl
  | matched => exact Table.get_modify_of_ne _ (fun heq => hoid (by rw [heq])) _

end Alone

end GreenGarden
