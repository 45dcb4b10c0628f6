/-
GreenGarden/Stock.lean

No oversell, and conservation of stock.

`reserved` is what the orders that are not cancelled hold of a plant.  Placing
an order moves its quantities from stock to reserved, cancelling moves them
back, and nothing else touches either: the sum is an invariant of every commit
(`Conserved.step`).  It needs the two things the locks are for, that the stock
written is computed from the stock at the commit, and that an order is
cancelled once (here because at most one status request per order is in
flight).
-/
import GreenGarden.History

namespace GreenGarden

open Transaction

/-- What an order holds of a plant. -/
def Order.holds (pid : UUID) (order : Order) : ℤ :=
  if order.status = .cancelled then 0 else Tally.total pid order.amounts

/-- What all orders hold of a plant. -/
def reserved (db : Db) (pid : UUID) : ℤ := (db.orders.rows.map (Order.holds pid)).sum

/-- The request edits a stock value directly. -/
def Request.carriesStock : Request → Bool
  | .updatePlant _ patch => patch.stock.isSome
  | _ => false

/-- Since `d₀` no stock has been lost or made up, and none is negative. -/
structure Conserved (d₀ d : Db) : Prop where
  positive : ∀ o ∈ d.orders.rows, ∀ item ∈ o.items, 0 < item.quantity
  plants : ∀ pid p₀, d₀.plants.get pid = some p₀ → ∃ p, d.plants.get pid = some p ∧
    0 ≤ p.stock ∧ p.stock + reserved d pid = p₀.stock + reserved d₀ pid

theorem amounts_soldItem (plants : UUID → Option Plant) (items : List OrderItemInput) :
    (items.map (soldItem plants)).map (fun item => (item.plantId, item.quantity))
      = itemAmounts items := by
  rw [List.map_map]
  rfl

theorem total_amounts_nonneg {order : Order} (h : ∀ item ∈ order.items, 0 < item.quantity)
    (pid : UUID) : 0 ≤ Tally.total pid order.amounts := by
  refine Tally.total_nonneg fun x hx => ?_
  obtain ⟨item, hi, rfl⟩ := List.mem_map.mp hx
  exact (h item hi).le

section Steps

variable {S : Scope} {d₀ d d' : Db}

/-- Placing an order moves its quantities from stock to reserved. -/
theorem Conserved.placed {now : Instant} {draft : OrderDraft} {id : UUID} {order : Order}
    {h : Set Key} (hc : Conserved d₀ d) (hp : Placed S now draft id order h d d') :
    Conserved d₀ d' where
  positive o ho item hi := by
    rcases hp.mem_rows.mp ho with ho | rfl
    · exact hc.positive o ho item hi
    · rw [hp.row.items] at hi
      obtain ⟨line, hl, rfl⟩ := List.mem_map.mp hi
      exact hp.positive line hl
  plants pid p₀ hp₀ := by
    obtain ⟨p, hget, hnn, hsum⟩ := hc.plants pid p₀ hp₀
    have hheld : order.holds pid = totalOf draft.items pid := by
      have hstatus : order.status = .pending := by rw [← hp.row.fresh]; rfl
      rw [Order.holds, hstatus, if_neg (by decide), Order.amounts, hp.row.items,
        amounts_soldItem, totalOf]
    have hres : reserved d' pid = reserved d pid + totalOf draft.items pid := by
      rw [reserved, hp.orders, Table.rows_insert hp.fresh, List.map_append, List.sum_append,
        reserved]
      simp [hheld]
    refine ⟨p.addStock (-totalOf draft.items pid), by rw [hp.plants, hget]; rfl, ?_, ?_⟩
    · by_cases hpid : pid ∈ plantIds draft.items
      · obtain ⟨plant, hplant, -, hle⟩ := hp.stock pid hpid
        rw [hget] at hplant
        cases hplant
        rw [Plant.addStock_stock]
        omega
      · rw [totalOf_eq_zero hpid]
        simpa using hnn
    · rw [hres, Plant.addStock_stock]
      omega

/-- What a move to `target` does to what the order holds. -/
theorem holds_of_status {order : Order} {target : OrderStatus} (pid : UUID)
    (h : order.status ≠ .cancelled) :
    Order.holds pid { order with status := target }
      = order.holds pid - if target = .cancelled then Tally.total pid order.amounts else 0 := by
  rw [Order.holds, Order.holds, if_neg h]
  by_cases ht : target = .cancelled
  · simp [ht]
  · simp only [ht, if_false, sub_zero]
    rfl

/-- A status change gives back what a cancelled order held, and only that. -/
theorem Conserved.moved {id : UUID} {target : OrderStatus} {seen : Db} {old order : Order}
    (hc : Conserved d₀ d) (hseen : Conserved d₀ seen) (hser : S.serialized = true)
    (hm : Moved S id target seen old order d d') : Conserved d₀ d' where
  positive := by
    refine forall_orders_of_placed (fun _ => Iff.rfl) ?_ hc.positive
    rw [hm.orders, Table.map_rows_modify]
    exact fun _ _ => rfl
  plants pid p₀ hp₀ := by
    obtain ⟨p, hget, hnn, hsum⟩ := hc.plants pid p₀ hp₀
    obtain ⟨ps, hgets, -⟩ := hseen.plants pid p₀ hp₀
    -- nobody else moved the order, so what was allowed still is
    have hne : order.status ≠ .cancelled := by
      intro hcancelled
      rw [hm.serialized hser] at hcancelled
      exact (ensureTransitionAllowed_eq_ok.mp hm.allowed).1 (.inr hcancelled)
    obtain ⟨found, hfound, hplants⟩ := hm.plants
    have hback : givenBack target found order pid
        = if target = .cancelled then Tally.total pid order.amounts else 0 := by
      have : found pid = true := hfound pid (by rw [hgets]; rfl)
      simp [givenBack, this]
    have hheld : Order.holds pid { order with status := target }
        = order.holds pid - givenBack target found order pid := by
      rw [holds_of_status pid hne, hback]
    have hres : reserved d' pid = reserved d pid - givenBack target found order pid := by
      rw [reserved, hm.orders, Table.sum_modify _ hm.current, hheld, reserved]
      ring
    have hback_nn : 0 ≤ givenBack target found order pid := by
      rw [hback]
      split
      · exact total_amounts_nonneg
          (hc.positive order (Table.mem_rows_of_get hm.current)) pid
      · exact le_rfl
    refine ⟨p.addStock (givenBack target found order pid), by rw [hplants, hget]; rfl, ?_, ?_⟩
    · rw [Plant.addStock_stock]
      omega
    · rw [hres, Plant.addStock_stock]
      omega

/-- A change of orders that keeps status and items, and keeps the stocks. -/
theorem Conserved.same (hc : Conserved d₀ d)
    (horders : d'.orders.rows.map (fun o => (o.status, o.items))
      = d.orders.rows.map fun o => (o.status, o.items))
    (hplants : ∀ pid p, d.plants.get pid = some p → ∃ p', d'.plants.get pid = some p' ∧
      p'.stock = p.stock) : Conserved d₀ d' where
  positive o ho item hi := by
    have hmem : (o.status, o.items) ∈ d.orders.rows.map fun o => (o.status, o.items) := by
      rw [← horders]
      exact List.mem_map.mpr ⟨o, ho, rfl⟩
    obtain ⟨o', ho', heq⟩ := List.mem_map.mp hmem
    have hitems : o'.items = o.items := (Prod.mk.inj heq).2
    exact hc.positive o' ho' item (hitems ▸ hi)
  plants pid p₀ hp₀ := by
    obtain ⟨p, hget, hnn, hsum⟩ := hc.plants pid p₀ hp₀
    obtain ⟨p', hget', hstock⟩ := hplants pid p hget
    have hres : reserved d' pid = reserved d pid := by
      have := congrArg (List.map fun x : OrderStatus × List OrderItem =>
        if x.1 = .cancelled then 0
        else Tally.total pid (x.2.map fun item => (item.plantId, item.quantity))) horders
      rw [List.map_map, List.map_map] at this
      exact congrArg List.sum this
    exact ⟨p', hget', by rw [hstock]; exact hnn, by rw [hstock, hres]; exact hsum⟩

theorem PlantWrite.stock {edit : Plant → Plant} {h : Set Key}
    {writes : Table UUID Plant → Table UUID Plant} (hw : PlantWrite edit h d writes)
    (hedit : ∀ p, (edit p).stock = p.stock) {pid : UUID} {p : Plant}
    (hget : d.plants.get pid = some p) :
    ∃ p', (writes d.plants).get pid = some p' ∧ p'.stock = p.stock := by
  cases hw with
  | none => exact ⟨p, hget, rfl⟩
  | created => exact ⟨p, Table.get_insert_of_get hget, rfl⟩
  | @edited id loaded hid =>
    rw [Table.get_modify]
    split
    · rw [hget]
      exact ⟨_, rfl, Plant.update_stock (hedit loaded) p⟩
    · exact ⟨p, hget, rfl⟩

/-- An edit of the catalogue that carries no stock value. -/
theorem Conserved.edited {edit : Plant → Plant} {h : Set Key} (hc : Conserved d₀ d)
    (he : CatalogueEdit edit h d d') (hedit : ∀ p, (edit p).stock = p.stock) :
    Conserved d₀ d' := by
  obtain ⟨writes, hw, hplants⟩ := he.plants
  refine hc.same (by rw [he.orders]) fun pid p hget => ?_
  rw [hplants]
  exact hw.stock hedit hget

/-- **A commit conserves the stock.** -/
theorem Conserved.step {site : Deployment} {request : Request} {reply : Reply} {h : Set Key}
    {b : List (Db → Db)} (hser : S.serialized = true)
    (hinv : ∀ db, S.inv db → Conserved d₀ db) (hstock : request.carriesStock = false)
    (hp : request.post S site reply h b d) (hc : Conserved d₀ d) :
    Conserved d₀ (flush b d) := by
  cases request with
  | createOrder draft =>
    obtain ⟨id, -, now, ⟨order, hplaced⟩, -⟩ := hp
    exact hc.placed hplaced
  | postStorefrontOrder payload =>
    obtain ⟨id, -, now, ⟨order, hplaced⟩, -⟩ := hp
    exact hc.placed hplaced
  | updateOrderStatus id target =>
    -- the status it checked against is from a state that was conserved too
    obtain ⟨_, -, rfl | ⟨-, seen, old, order, hm⟩, -⟩ := hp
    · exact hc
    · exact hc.moved (hinv seen hm.sees.1) hser hm
  | processSepayWebhook payload =>
    obtain ⟨status, -, hw, -⟩ := hp
    cases status with
    | none =>
      obtain ⟨rfl, -⟩ := hw
      exact hc
    | some status =>
      obtain ⟨tid, amount, orderId, hs⟩ := hw
      obtain ⟨writes, hsettle, horders⟩ := hs.settlement
      refine hc.same ?_ fun pid p hget => ⟨p, by rw [hs.plants, hget], rfl⟩
      rw [horders]
      cases hsettle with
      | ignored | unmatched | alreadyPaid | amountMismatch => rfl
      | matched => exact Table.map_rows_modify _ _ _ _ fun _ _ => rfl
  | createPlant plant =>
    obtain ⟨_, -, he, -⟩ := hp
    exact hc.edited he fun _ => rfl
  | updatePlant id patch =>
    obtain ⟨_, -, he, -⟩ := hp
    have hnone : patch.stock = none := by simpa [Request.carriesStock] using hstock
    exact hc.edited he fun p => by rw [PlantPatch.apply, hnone]; rfl
  | setPlantStatus id isActive =>
    obtain ⟨_, -, he, -⟩ := hp
    exact hc.edited he fun _ => rfl
  | createCustomer | updateCustomer | setCustomerStatus =>
    obtain ⟨_, -, he, -⟩ := hp
    exact hc.same (by rw [he.orders]) fun pid p hget => ⟨p, by rw [he.plants, hget], rfl⟩

end Steps

/-- The scope of conservation: since `d₀`, with serialized status requests. -/
def stockScope (d₀ : Db) : Scope where
  serialized := true
  inv := Conserved d₀
  rel d d' := Conserved d₀ d → Conserved d₀ d'
  answers _ := True
  refl _ := id
  trans h₁ h₂ := h₂ ∘ h₁
  keeps h := h

section Runs

variable {ι : Type}

/-- The contract of the shop within the scope of conservation. -/
def stockContract (site : Deployment) (requests : ι → Request) (d₀ : Db)
    (hstock : ∀ i, (requests i).carriesStock = false) :
    Contract (shop site true requests) :=
  shopContract (stockScope d₀) site requests (fun _ => trivial)
    fun i _ _ _ _ _ hp => Conserved.step rfl (fun _ h => h) (hstock i) hp

variable [DecidableEq ι]

/-- **No oversell, and conservation of stock.**  Start from a catalogue
without negative stock; run any requests that carry no stock value under any
schedule, with at most one status request per order in flight.  Then no stock
is negative, and stock plus what the orders hold is what it was at the start
(the initial stock, when there are no orders to start with). -/
theorem stock_conserved (site : Deployment) (requests : ι → Request)
    (hstock : ∀ i, (requests i).carriesStock = false) {d : Db}
    (hnn : ∀ pid p, d.plants.get pid = some p → 0 ≤ p.stock)
    (hpos : ∀ o ∈ d.orders.rows, ∀ item ∈ o.items, 0 < item.quantity)
    (ms : ℕ → Move ι Outside) (n : ℕ) (pid : UUID) (p₀ : Plant)
    (hp₀ : d.plants.get pid = some p₀) :
    ∃ p, (trace (shop site true requests) d ms n).db.plants.get pid = some p ∧
      0 ≤ p.stock ∧
      p.stock + reserved (trace (shop site true requests) d ms n).db pid
        = p₀.stock + reserved d pid := by
  have hstart : Conserved d d := ⟨hpos, fun pid p hp => ⟨p, hp, hnn pid p hp, rfl⟩⟩
  have hinv : Conserved d (trace (shop site true requests) d ms n).db :=
    ((stockContract site requests d hstock).good_trace hstart ms n).inv
  exact hinv.plants pid p₀ hp₀

/-- One fern, ordered twice at the same time. -/
theorem stock_conserved_ferns :
    ∃ p, (trace (shop smallShop true fun _ : Bool => .createOrder oneFern) Db.ferns
      (fun n => if n < 2 then .start (n = 0) else .step (n % 2 = 0) (atNoon n)) 60).db.plants.get 7
        = some p ∧ 0 ≤ p.stock := by
  have hferns : ∀ pid p, Db.ferns.plants.get pid = some p → p = fern := by
    intro pid p hp
    exact List.mem_singleton.mp (Table.mem_rows_of_get hp)
  obtain ⟨p, hp, hnn, -⟩ := stock_conserved smallShop (fun _ : Bool => .createOrder oneFern)
    (fun _ => rfl) (fun pid p hp => by rw [hferns pid p hp]; decide) (fun o ho => by cases ho)
    (fun n => if n < 2 then .start (n = 0) else .step (n % 2 = 0) (atNoon n)) 60 7 fern rfl
  exact ⟨p, hp, hnn⟩

end Runs

end GreenGarden
