/-
GreenGarden/Placed.lean

The commit of an order.

`Placed` is what creating an order does to the database it commits into, with
every amount, stock and number computed from that very database.
`wp_createOrderAt` assembles the steps into the triple.
-/
import GreenGarden.Placing

namespace GreenGarden

open Transaction

/-- The notification of an order, if it raises one. -/
inductive Noted (draft : OrderDraft) (h : Set Key) (d : Db) (id : UUID) (number : Text) :
    (Table UUID Notification → Table UUID Notification) → Prop
  | silent (hsource : draft.source = .admin) : Noted draft h d id number fun t => t
  | queued {noteId : UUID} {name : Text} (hsource : draft.source = .storefront)
      (hid : Key.notification noteId ∈ h) (hnew : d.notifications.get noteId = none) :
      Noted draft h d id number fun t => t.insert noteId
        { type := .newOrder
          title := "New order".toList
          message := "Order ".toList ++ number ++ " from ".toList ++ name
          entityId := id
          isRead := false }

/-- The database went from `d` to `d'` by the order `order`, under `id`. -/
structure Placed (S : Scope) (now : Instant) (draft : OrderDraft) (id : UUID) (order : Order)
    (h : Set Key) (d d' : Db) : Prop where
  fresh : d.orders.get id = none
  orders : d'.orders = d.orders.insert id order
  positive : PositiveItems draft.items
  row : IsRow now draft order.customerId order.orderNumber d.plants.get order
  sellable : ∀ item ∈ draft.items, lineError d.plants.get item = none
  stock : ∀ pid ∈ plantIds draft.items, ∃ plant, d.plants.get pid = some plant ∧
    plant.isActive = true ∧ totalOf draft.items pid ≤ plant.stock
  affordable : totalUnits d.plants.get draft.items ≤ maxTotalUnits
  next : ∃ date sequence, order.orderNumber = formatNumber (numberPrefix date) sequence ∧
    nextSequence (numberPrefix date) (numbersOf date d.orderNumbers) = some sequence
  plants : ∀ pid, d'.plants.get pid = (d.plants.get pid).map fun p =>
    p.addStock (-totalOf draft.items pid)
  customers : ∃ writes, Filed S draft h d order.customerId writes ∧
    d'.customers = writes d.customers
  notifications : ∃ writes, Noted draft h d id order.orderNumber writes ∧
    d'.notifications = writes d.notifications
  categories : d'.categories = d.categories
  slugHistory : d'.slugHistory = d.slugHistory
  transactions : d'.transactions = d.transactions

theorem totalOf_eq_zero {items : List OrderItemInput} {id : UUID} (h : id ∉ plantIds items) :
    totalOf items id = 0 := by
  refine Tally.total_eq_zero fun hmem => h ?_
  rw [keys_itemAmounts, List.mem_map] at hmem
  exact mem_plantIds.mpr hmem

section Stock

variable {draft : OrderDraft} {h : Set Key} {d : Db} {plants : UUID → Option Plant}
variable {priced : OrderPrice}

theorem Checked.agree (hc : Checked draft h d plants priced) :
    ∀ item ∈ draft.items, plants item.plantId = d.plants.get item.plantId :=
  fun _ hi => hc.current _ (plantId_mem hi)

/-- The stock that was checked is enough for what is taken. -/
theorem Checked.enough (hc : Checked draft h d plants priced) {amount : UUID × ℤ}
    (hmem : amount ∈ requestedOf draft.items) {plant : Plant}
    (hplant : plants amount.1 = some plant) : 0 ≤ plant.stock + -1 * amount.2 := by
  obtain ⟨hid, hn⟩ := mem_requestedOf.mp hmem
  obtain ⟨plant', hplant', -, hle⟩ := hc.stock _ hid
  rw [hplant] at hplant'
  cases hplant'
  omega

/-- What is written is what is there less what was asked for. -/
theorem Checked.get_movePlants (hc : Checked draft h d plants priced) (pid : UUID) :
    (movePlants (-1) plants (requestedOf draft.items) d.plants).get pid
      = (d.plants.get pid).map fun p => p.addStock (-totalOf draft.items pid) := by
  have hagree : ∀ pid ∈ (requestedOf draft.items).map Prod.fst,
      plants pid = none ∨ plants pid = d.plants.get pid :=
    fun pid hpid => .inr (hc.current pid (mem_keys_requestedOf.mp hpid))
  rw [GreenGarden.get_movePlants (nodup_keys_requestedOf draft.items) hagree pid,
    total_requestedOf]
  by_cases hpid : pid ∈ plantIds draft.items
  · obtain ⟨plant, hplant, -⟩ := hc.stock pid hpid
    simp [hplant]
  · simp [totalOf_eq_zero hpid]

end Stock

theorem phoneTaken_congr {d d' : Db}
    (h : d'.customers.rows.map Customer.phone = d.customers.rows.map Customer.phone) (p : Text) :
    phoneTaken d' p = phoneTaken d p := by
  have hmem : ∀ db : Db, phoneTaken db p = true ↔ p ∈ db.customers.rows.map Customer.phone := by
    intro db
    rw [phoneTaken_eq_true, List.mem_map]
  rw [Bool.eq_iff_iff, hmem, hmem, h]

theorem phoneTaken_insert {d d' : Db} {id : UUID} {c : Customer} {p : Text}
    (h : d'.customers = d.customers.insert id c) (hne : c.phone ≠ p)
    (hfree : phoneTaken d p = false) : phoneTaken d' p = false := by
  by_cases hget : d.customers.get id = none
  · rw [Bool.eq_false_iff, ne_eq, phoneTaken_eq_true] at hfree ⊢
    rw [h, Table.rows_insert hget]
    rintro ⟨c', hc', hp⟩
    rcases List.mem_append.mp hc' with hc' | hc'
    · exact hfree ⟨c', hc', hp⟩
    · rw [List.mem_singleton.mp hc'] at hp
      exact hne hp
  · have hsame : d'.customers = d.customers := by
      rw [h, Table.insert, dif_pos (by rwa [Table.get_eq_none, not_not] at hget)]
    exact (phoneTaken_congr (by rw [hsame]) p).trans hfree

/-- Customer rows an order leaves alone, and what becomes of the others. -/
theorem Filed.change {S : Scope} {draft : OrderDraft} {h : Set Key} {d d' : Db} {id : UUID}
    {writes : Table UUID Customer → Table UUID Customer} (hf : Filed S draft h d id writes)
    (hd : d'.customers = writes d.customers) :
    (∀ cid, .customer cid ∉ h → d'.customers.get cid = d.customers.get cid) ∧
    (∀ cid, (d.customers.get cid).isSome → (d'.customers.get cid).isSome) ∧
    ∀ p, .customerPhone p ∉ h → phoneTaken d p = false → phoneTaken d' p = false := by
  cases hf with
  | known hseen hget hphone hactive =>
    exact ⟨fun cid _ => by rw [hd], fun cid hs => by rwa [hd],
      fun p _ hp => (phoneTaken_congr (by rw [hd]) p).trans hp⟩
  | filled email hseen hget hphone hactive hid =>
    refine ⟨fun cid hc => ?_, fun cid hs => ?_, fun p _ hp => ?_⟩
    · have hne : cid ≠ id := by rintro rfl; exact hc hid
      rw [hd, Table.get_modify_of_ne _ hne]
    · rw [hd]
      exact Table.isSome_get_modify hs _ _
    · exact (phoneTaken_congr (by rw [hd, Table.map_rows_modify]; exact fun r _ => rfl) p).trans hp
  | created hseen hunknown hid hphone hnew hfree =>
    refine ⟨fun cid hc => ?_, fun cid hs => ?_, fun p hp hpf => ?_⟩
    · have hne : cid ≠ id := by rintro rfl; exact hc hid
      rw [hd, Table.get_insert hnew, if_neg hne]
    · rw [hd]
      exact Table.isSome_get_insert hs _ _
    · refine phoneTaken_insert hd ?_ hpf
      rintro rfl
      exact hp hphone

/-- Placing an order is a change under the locks it took. -/
theorem Placed.change {S : Scope} {now : Instant} {draft : OrderDraft} {id : UUID}
    {order : Order} {h : Set Key} {d d' : Db} (hp : Placed S now draft id order h d d')
    (hid : Key.order id ∈ h) (hplants : ∀ pid ∈ plantIds draft.items, Key.plant pid ∈ h)
    (hlock : Key.advisory orderNumberLockKey ∈ h) : Change S.serialized h d d' := by
  obtain ⟨writes, hfiled, hcustomers⟩ := hp.customers
  obtain ⟨hcustomer, hsome, hphone⟩ := hfiled.change hcustomers
  obtain ⟨notes, hnoted, hnotes⟩ := hp.notifications
  exact
    { plant := fun pid hpid => by
        have hnot : pid ∉ plantIds draft.items := fun hm => hpid (hplants pid hm)
        rw [hp.plants, totalOf_eq_zero hnot]
        simp
      plants := fun pid hs => by rwa [hp.plants, Option.isSome_map]
      customer := hcustomer
      customers := hsome
      phone := hphone
      order := fun oid hoid => by
        have hne : oid ≠ id := by rintro rfl; exact hoid hid
        rw [hp.orders, Table.get_insert hp.fresh, if_neg hne]
      orders := fun oid o ho => ⟨o, by rw [hp.orders, Table.get_insert_of_get ho], rfl⟩
      -- only the holder of the advisory lock adds a number
      numbers := fun hno => absurd hlock hno
      status := fun _ oid o _ ho => ⟨o, by rw [hp.orders, Table.get_insert_of_get ho], rfl⟩
      notification := fun nid hnid => by
        cases hnoted with
        | silent => rw [hnotes]
        | @queued noteId name _ hkey hnew =>
          have hne : nid ≠ noteId := by rintro rfl; exact hnid hkey
          rw [hnotes, Table.get_insert hnew, if_neg hne]
      transaction := fun tid _ => by rw [hp.transactions]
      provider := fun p _ hr => by rwa [recorded, hp.transactions]
      recorded := fun p hr => by rwa [recorded, hp.transactions] }

section Triple

variable {β : Type} {S : Scope} {now : Instant} {draft : OrderDraft} {h : Set Key}
variable {b : List (Db → Db)} {d : Db} {Q : β → Set Key → List (Db → Db) → Db → Prop}

theorem wp_queueNotification {id : UUID} {number name : Text} {g : Unit → Session β}
    (hb : ∀ db, (flush b db).notifications = db.notifications)
    (hg : ∀ h' b' d' writes, S.rely.rel h d d' → h ⊆ h' →
      (∀ db, flush b' db
        = { flush b db with notifications := writes (flush b db).notifications }) →
      (∀ d'', S.rely.rel h' d' d'' → Noted draft h' d'' id number writes) →
      wp S.rely (OrderFailure S draft) (g ()) Q h' b' d') :
    wp S.rely (OrderFailure S draft)
      (Tx.whenElse (draft.source = .storefront)
        (queueNewOrderNotification id number name) () >>= g) Q h b d := by
  refine wp_whenElse (fun hsource => ?_) fun hsource => ?_
  · rw [queueNewOrderNotification, bind_assoc]
    refine wp_newId (fun v d₁ hv h₁ hused => ?_) fun v d₁ hv h₁ hused => wp_stage ?_
    · rw [hb] at hused
      exact ⟨v, hv, .inr (.inr hused)⟩
    · rw [hb] at hused
      have hnew : d₁.notifications.get v.uuid = none := by simpa using hused
      refine hg _ _ d₁ (fun t => t.insert v.uuid _) h₁ (Set.subset_insert _ _) (fun db => rfl) ?_
      intro d₂ h₂
      exact .queued hsource (.inl rfl)
        ((h₂.1.notification _ (Set.notMem_compl_iff.mpr (.inl rfl))).trans hnew)
  · have hadmin : draft.source = .admin := by
      rcases hs : draft.source with - | -
      · rfl
      · exact absurd hs hsource
    exact hg h b d (fun t => t) (S.rely.refl h d) subset_rfl (fun db => rfl)
      fun _ _ => .silent hadmin

/-- **The triple of an order.**  It commits as `Placed` says, under locks that
cover everything it changed; a failure is explained by `OrderFailure`. -/
theorem wp_createOrderAt (hinv : S.inv d) :
    wp S.rely (OrderFailure S draft) (createOrderAt now draft)
      (Stable S.rely fun id h b d => (∃ order, Placed S now draft id order h d (flush b d)) ∧
        Change S.serialized h d (flush b d)) h [] d := by
  rw [createOrderAt]
  refine wp_resolveCustomerForOrder hinv fun customer h₁ b₁ d₁ writes hd₁ hsub₁ hb₁ hres₁ => ?_
  have hinv₁ := S.keeps hd₁.2 hinv
  refine wp_checkCart hinv₁ (fun db => by rw [hb₁]) fun plants priced h₂ d₂ hd₂ hsub₂ hcart₂ => ?_
  have hinv₂ := S.keeps hd₂.2 hinv₁
  have hres₂ := hres₁.step hsub₂ hd₂
  refine wp_generateOrderNumber (fun db => by rw [hb₁]) fun number h₃ d₃ hd₃ hsub₃ hnum₃ => ?_
  have hinv₃ := S.keeps hd₃.2 hinv₂
  have hres₃ := hres₂.step hsub₃ hd₃
  have hcart₃ := hcart₂.step hsub₃ hd₃
  refine wp_flushOrderCustomer hres₃ hb₁ fun h₄ b₄ d₄ writes hd₄ hsub₄ hb₄ hfiled₄ => ?_
  have hinv₄ := S.keeps hd₄.2 hinv₃
  have hcart₄ := hcart₃.step hsub₄ hd₄
  have hnum₄ := hnum₃.step hsub₄ hd₄
  refine wp_insertOrder hinv₄ hcart₄ hnum₄ (fun db => by rw [hb₄])
    fun id order h₅ d₅ hd₅ hsub₅ hins₅ => ?_
  have hfiled₅ := hfiled₄.step hsub₅ hd₅
  have hcart₅ := hcart₄.step hsub₅ hd₅
  have hnum₅ := hnum₄.step hsub₅ hd₅
  -- the stock that was checked is the stock that is written
  refine wp_moveStock (fun amount hmem plant hplant hneg => ?_) fun b₆ hb₆ _ => ?_
  · exact absurd (hcart₅.enough hmem hplant) (not_le.mpr hneg)
  refine wp_queueNotification (fun db => by rw [hb₆, flush_cons, hb₄])
    fun h₇ b₇ d₇ notes hd₇ hsub₇ hb₇ hnoted => wp_pure fun d' hd' => ?_
  -- everything that was looked at under a lock is still so at the commit
  have hfiled := (hfiled₅.step hsub₇ hd₇).step (S := S) subset_rfl hd'
  have hcart := (hcart₅.step hsub₇ hd₇).step (S := S) subset_rfl hd'
  have hnum := (hnum₅.step hsub₇ hd₇).step (S := S) subset_rfl hd'
  have hins := (hins₅.step hsub₇ hd₇).step (S := S) subset_rfl hd'
  have hflush : flush b₇ d' =
      { d' with
        customers := writes d'.customers
        orders := d'.orders.insert id order
        plants := movePlants (-1) plants (requestedOf draft.items) d'.plants
        notifications := notes d'.notifications } := by
    rw [hb₇, hb₆, flush_cons, hb₄]
  have hplaced : Placed S now draft id order h₇ d' (flush b₇ d') := by
    rw [hflush]
    exact
      { fresh := hins.fresh
        orders := rfl
        positive := hins.positive
        row := by
          rw [hins.row.customerId, hins.row.orderNumber]
          exact hins.row.congr hcart.agree
        sellable := fun item hi => by
          rw [← lineError_congr (hcart.agree item hi)]
          exact hcart.sellable item hi
        stock := fun pid hpid => by
          rw [← hcart.current pid hpid]
          exact hcart.stock pid hpid
        affordable := by
          rw [← totalUnits_congr hcart.agree]
          exact hcart.affordable hins.positive
        next := by
          rw [hins.row.orderNumber]
          exact hnum.next
        plants := hcart.get_movePlants
        customers := ⟨writes, by rw [hins.row.customerId]; exact hfiled, rfl⟩
        notifications := ⟨notes, by rw [hins.row.orderNumber]; exact hnoted d' hd', rfl⟩
        categories := rfl
        slugHistory := rfl
        transactions := rfl }
  exact ⟨⟨order, hplaced⟩, hplaced.change hins.locked hcart.locked hnum.locked⟩

end Triple

end GreenGarden
