/-
GreenGarden/Restock.lean

Status requests on one order, as many as one likes, at the same time.

The code promises that an order is never restocked twice and that completed
and cancelled are final (`OneRestock`).  But a request checks its transition
against a row it read without a lock, and writes the status whatever the row
holds by then.  Two cancellations that overlap give the quantities back twice
(`twice_restocked`).

The promise is kept in exactly those runs in which no request writes too late:
at every commit the transition is still allowed from the status committed at
that moment (`oneRestock_iff`).  A request that nobody overlaps is never too
late, for it makes the transition that it has checked (`inTime_alone`).
-/
import GreenGarden.Guarantee
import GreenGarden.Observing

namespace GreenGarden

open Transaction

/-! ### What is promised -/

/-- A real move along the pipeline, or to `cancelled` before the end of it. -/
def OrderStatus.Advances (s s' : OrderStatus) : Prop :=
  ¬ s.terminal ∧ (s' = .cancelled ∨ s.flowIndex < s'.flowIndex)

/-- What the plant has got back from the order. -/
def Order.returned (pid : UUID) (order : Order) : ℤ :=
  if order.status = .cancelled then Tally.total pid order.amounts else 0

/-- Along the committed databases `run`, the quantities of the order are back
in stock once if it is cancelled and not at all otherwise, a terminal status
stays, and the status only advances. -/
structure OneRestock (run : ℕ → Db) (oid : UUID) (order₀ : Order) : Prop where
  once : ∀ n pid p₀, (run 0).plants.get pid = some p₀ → ∃ order p,
    (run n).orders.get oid = some order ∧ (run n).plants.get pid = some p ∧
    p.stock = p₀.stock + order.returned pid - order₀.returned pid
  absorbing : ∀ m n, m ≤ n → ∀ o o', (run m).orders.get oid = some o →
    (run n).orders.get oid = some o' → o.status.terminal → o'.status = o.status
  forward : ∀ n, ∃ o o', (run n).orders.get oid = some o ∧
    (run (n + 1)).orders.get oid = some o' ∧
    (o'.status = o.status ∨ o.status.Advances o'.status)

/-- A write of `target` that is not too late, with `current` committed.  (A
completed order may be written as completed again.) -/
def InTime (current target : OrderStatus) : Prop :=
  ensureTransitionAllowed current target = .ok () ∨ (current = .completed ∧ target = .completed)

theorem flowIndex_injective : Function.Injective OrderStatus.flowIndex := by
  intro s s' h
  cases s <;> cases s' <;> first | rfl | cases h

/-- In time is: no change of a status that is not `cancelled`, or an advance. -/
theorem inTime_iff {current target : OrderStatus} :
    InTime current target ↔
      (target = current ∧ current ≠ .cancelled) ∨ current.Advances target := by
  rw [InTime, ensureTransitionAllowed_eq_ok, OrderStatus.Advances]
  constructor
  · rintro (⟨hnot, rfl | hle⟩ | ⟨rfl, rfl⟩)
    · exact .inr ⟨hnot, .inl rfl⟩
    · rcases hle.eq_or_lt with heq | hlt
      · refine .inl ⟨(flowIndex_injective heq).symm, ?_⟩
        rintro rfl
        exact hnot (.inr rfl)
      · exact .inr ⟨hnot, .inr hlt⟩
    · exact .inl ⟨rfl, by decide⟩
  · rintro (⟨rfl, hne⟩ | ⟨hnot, h⟩)
    · by_cases hc : target = .completed
      · exact .inr ⟨hc, hc⟩
      · exact .inl ⟨by rintro (h | h) <;> contradiction, .inr le_rfl⟩
    · exact .inl ⟨hnot, h.imp_right le_of_lt⟩

/-! ### One commit -/

/-- The scope of a run on one order: the plants of `d₀` stay. -/
def restockScope (d₀ : Db) : Scope where
  serialized := false
  inv db := ∀ pid, (d₀.plants.get pid).isSome = true → (db.plants.get pid).isSome = true
  rel d d' := ∀ pid, (d.plants.get pid).isSome = true → (d'.plants.get pid).isSome = true
  answers _ := True
  refl _ _ h := h
  trans h₁ h₂ pid h := h₂ pid (h₁ pid h)
  keeps hrel hinv pid h := hrel pid (hinv pid h)

/-- A commit that wrote `target` on `order`, whatever status that had. -/
structure Written (d₀ : Db) (oid : UUID) (target : OrderStatus) (order : Order) (d d' : Db) :
    Prop where
  current : d.orders.get oid = some order
  orders : d'.orders.get oid = some { order with status := target }
  plants : ∀ pid, (d₀.plants.get pid).isSome = true → d'.plants.get pid
    = (d.plants.get pid).map fun p =>
        p.addStock (Order.returned pid { order with status := target })

theorem Moved.written {d₀ d d' seen : Db} {oid : UUID} {target : OrderStatus} {old order : Order}
    (hm : Moved (restockScope d₀) oid target seen old order d d') :
    Written d₀ oid target order d d' where
  current := hm.current
  orders := by rw [hm.orders, Table.get_modify_self, hm.current]; rfl
  plants pid hs := by
    obtain ⟨found, hfound, hplants⟩ := hm.plants
    have hf : found pid = true := hfound pid (hm.sees.1 pid hs)
    have hback : givenBack target found order pid
        = Order.returned pid { order with status := target } := by
      simp only [givenBack, Order.returned, hf, and_true]
      rfl
    rw [hplants, hback]

/-! ### Runs -/

section Runs

variable {ι : Type} [DecidableEq ι]

/-- The engine after `n` moves of requests that each ask for a status of `oid`. -/
def statusRun (site : Deployment) (oid : UUID) (targets : ι → OrderStatus) (d : Db)
    (ms : ℕ → Move ι Outside) : ℕ → State ι Db Key Outside Error Reply :=
  trace (shop site false fun i => .updateOrderStatus oid (targets i)) d ms

/-- Every write of the run is in time. -/
def WritesInTime (run : ℕ → State ι Db Key Outside Error Reply) (oid : UUID)
    (targets : ι → OrderStatus) : Prop :=
  ∀ n i reply b, Commits (run n) (run (n + 1)) i reply b → b ≠ [] →
    ∀ order, (run n).db.orders.get oid = some order → InTime order.status (targets i)

variable {site : Deployment} {oid : UUID} {targets : ι → OrderStatus} {d : Db} {order₀ : Order}
variable {ms : ℕ → Move ι Outside}

omit [DecidableEq ι] in
/-- The contract of such a run. -/
def restockContract (site : Deployment) (oid : UUID) (targets : ι → OrderStatus) (d : Db) :
    Contract (shop site false fun i => .updateOrderStatus oid (targets i)) :=
  shopContract (restockScope d) site _ (fun _ => trivial)
    fun _ _ _ _ _ _ hp => (Request.post_change hp).plants

/-- A commit that writes something writes one status. -/
theorem written_of_commits {n : ℕ} {i : ι} {reply : Reply} {b : List (Db → Db)}
    (hc : Commits (statusRun site oid targets d ms n) (statusRun site oid targets d ms (n + 1))
      i reply b) (hb : b ≠ []) :
    ∃ order, Written d oid (targets i) order (statusRun site oid targets d ms n).db
      (statusRun site oid targets d ms (n + 1)).db := by
  have good := (restockContract site oid targets d).good_trace (fun _ h => h) ms n
  obtain ⟨_, -, hwrites, -⟩ := good.post hc.1
  rcases hwrites with rfl | ⟨-, seen, old, order, hm⟩
  · exact absurd rfl hb
  · rw [hc.db]
    exact ⟨order, hm.written⟩

/-- A request that sees one database throughout writes only what it has checked. -/
theorem seen_updateOrderStatus {target : OrderStatus} {h : Set Key}
    (horder : d.orders.get oid = some order₀) :
    wp (Rely.within fun d' => d' = d) (fun _ _ => True) (updateOrderStatus oid target)
      (fun _ _ b _ => b ≠ [] → InTime order₀.status target) h [] d := by
  rw [updateOrderStatus, getOrder, bind_assoc]
  refine wp_query fun d' hd' => ?_
  rw [flush_nil, hd' rfl, horder, pure_bind]
  refine wp_whenElse (fun _ => ?_) fun _ => wp_pure fun hb => absurd rfl hb
  rw [bind_assoc]
  refine wp_ofExcept (fun _ _ => trivial) fun _ hok => ?_
  exact wp_always (fun _ _ => trivial) fun _ _ _ _ _ => .inl hok

/-- **Nobody in between, nothing too late.**  A request from whose start to whose
commit nobody else commits is in time. -/
theorem inTime_alone {m n : ℕ} {i : ι} {reply : Reply} {b : List (Db → Db)} {order : Order}
    (hidle : (statusRun site oid targets d ms m).status i = .idle) (hmn : m ≤ n)
    (hstill : ∀ j, m ≤ j → j ≤ n →
      (statusRun site oid targets d ms j).db = (statusRun site oid targets d ms n).db)
    (hc : Commits (statusRun site oid targets d ms n) (statusRun site oid targets d ms (n + 1))
      i reply b) (hb : b ≠ [])
    (horder : (statusRun site oid targets d ms n).db.orders.get oid = some order) :
    InTime order.status (targets i) := by
  refine observed_alone (Q := fun _ b => b ≠ [] → InTime order.status (targets i)) hidle hmn
    hstill ?_ hc hb
  exact wp_bind (wp_mono (fun _ _ hf => hf) (fun _ _ _ _ hq => hq)
    (seen_updateOrderStatus horder))

/-- Every move leaves the database alone, or is a commit that writes. -/
theorem statusRun_step (site : Deployment) (oid : UUID) (targets : ι → OrderStatus) (d : Db)
    (ms : ℕ → Move ι Outside) (n : ℕ) :
    (statusRun site oid targets d ms (n + 1)).db = (statusRun site oid targets d ms n).db ∨
    ∃ i reply b, b ≠ [] ∧ Commits (statusRun site oid targets d ms n)
      (statusRun site oid targets d ms (n + 1)) i reply b := by
  rcases trace_step (shop site false fun i => .updateOrderStatus oid (targets i)) d ms n with
    ⟨hdb, -⟩ | ⟨i, reply, b, hc⟩
  · exact .inl hdb
  · by_cases hb : b = []
    · subst hb
      exact .inl hc.db
    · exact .inr ⟨i, reply, b, hb, hc⟩

/-- The order is there in every state, with the items it started with. -/
theorem statusRun_order (site : Deployment) (targets : ι → OrderStatus)
    (ms : ℕ → Move ι Outside) (horder : d.orders.get oid = some order₀) (n : ℕ) :
    ∃ order, (statusRun site oid targets d ms n).db.orders.get oid = some order ∧
      order.placed = order₀.placed :=
  ((restockContract site oid targets d).rely_trace (fun _ h => h) ms (Nat.zero_le n)).1.orders
    oid order₀ horder

/-- While no write is too late, stock follows what the order has returned. -/
theorem WritesInTime.once (horder : d.orders.get oid = some order₀)
    (hin : WritesInTime (statusRun site oid targets d ms) oid targets) (n : ℕ) {pid : UUID}
    {p₀ : Plant} (hp₀ : d.plants.get pid = some p₀) :
    ∃ order p, (statusRun site oid targets d ms n).db.orders.get oid = some order ∧
      (statusRun site oid targets d ms n).db.plants.get pid = some p ∧
      p.stock = p₀.stock + order.returned pid - order₀.returned pid := by
  induction n with
  | zero => exact ⟨order₀, p₀, horder, hp₀, by omega⟩
  | succ n ih =>
    obtain ⟨order, p, ho, hp, hstock⟩ := ih
    rcases statusRun_step site oid targets d ms n with hdb | ⟨i, reply, b, hb, hc⟩
    · rw [hdb]
      exact ⟨order, p, ho, hp, hstock⟩
    · obtain ⟨order', hw⟩ := written_of_commits hc hb
      obtain rfl : order' = order := Option.some.inj (hw.current.symm.trans ho)
      -- nothing was returned before a write that is in time
      have hzero : order'.returned pid = 0 := by
        refine if_neg fun hcancelled => ?_
        rcases inTime_iff.mp (hin n i reply b hc hb order' ho) with ⟨-, hne⟩ | hadv
        · exact hne hcancelled
        · exact hadv.1 (.inr hcancelled)
      refine ⟨{ order' with status := targets i },
        p.addStock (Order.returned pid { order' with status := targets i }), hw.orders, ?_, ?_⟩
      · rw [hw.plants pid (by rw [hp₀]; rfl), hp]
        rfl
      · rw [Plant.addStock_stock]
        omega

/-- While no write is too late, the status only advances. -/
theorem WritesInTime.forward (horder : d.orders.get oid = some order₀)
    (hin : WritesInTime (statusRun site oid targets d ms) oid targets) (n : ℕ) :
    ∃ o o', (statusRun site oid targets d ms n).db.orders.get oid = some o ∧
      (statusRun site oid targets d ms (n + 1)).db.orders.get oid = some o' ∧
      (o'.status = o.status ∨ o.status.Advances o'.status) := by
  obtain ⟨order, ho, -⟩ := statusRun_order site targets ms horder n
  rcases statusRun_step site oid targets d ms n with hdb | ⟨i, reply, b, hb, hc⟩
  · exact ⟨order, order, ho, by rw [hdb, ho], .inl rfl⟩
  · obtain ⟨order', hw⟩ := written_of_commits hc hb
    refine ⟨order', _, hw.current, hw.orders, ?_⟩
    exact (inTime_iff.mp (hin n i reply b hc hb order' hw.current)).imp_left And.left

/-- Statuses that only advance stay where they end. -/
theorem terminal_of_forward {run : ℕ → Db}
    (h : ∀ n, ∃ o o', (run n).orders.get oid = some o ∧ (run (n + 1)).orders.get oid = some o' ∧
      (o'.status = o.status ∨ o.status.Advances o'.status))
    {m n : ℕ} (hmn : m ≤ n) {o o' : Order} (ho : (run m).orders.get oid = some o)
    (ho' : (run n).orders.get oid = some o') (hterm : o.status.terminal) :
    o'.status = o.status := by
  induction n, hmn using Nat.le_induction generalizing o' with
  | base => rw [Option.some.inj (ho'.symm.trans ho)]
  | succ n hmn ih =>
    obtain ⟨a, a', ha, ha', hstep⟩ := h n
    obtain rfl : a' = o' := Option.some.inj (ha'.symm.trans ho')
    have hsame := ih ha
    rcases hstep with hstep | hadv
    · rw [hstep, hsame]
    · exact absurd (hsame ▸ hterm) hadv.1

/-- A write that keeps the promise was in time. -/
theorem inTime_of_oneRestock (horder : d.orders.get oid = some order₀)
    (hitems : order₀.items ≠ []) (hpos : ∀ item ∈ order₀.items, 0 < item.quantity)
    (hplants : ∀ item ∈ order₀.items, (d.plants.get item.plantId).isSome = true)
    (hone : OneRestock (fun n => (statusRun site oid targets d ms n).db) oid order₀)
    {n : ℕ} {target : OrderStatus} {order : Order}
    (hw : Written d oid target order (statusRun site oid targets d ms n).db
      (statusRun site oid targets d ms (n + 1)).db) : InTime order.status target := by
  obtain ⟨o, o', ho, ho', hstep⟩ := hone.forward n
  obtain rfl : order = o := Option.some.inj (hw.current.symm.trans ho)
  obtain rfl : { order with status := target } = o' := Option.some.inj (hw.orders.symm.trans ho')
  refine inTime_iff.mpr (hstep.imp_left fun heq => ⟨heq, fun hcancelled => ?_⟩)
  -- cancelled over cancelled: some plant got its quantity back once more
  obtain ⟨item, hitem⟩ := List.exists_mem_of_ne_nil _ hitems
  obtain ⟨p₀, hp₀⟩ := Option.isSome_iff_exists.mp (hplants item hitem)
  obtain ⟨order₁, hget, hplaced⟩ := statusRun_order site targets ms horder n
  obtain rfl : order = order₁ := Option.some.inj (hw.current.symm.trans hget)
  -- what comes back is positive, since every quantity is
  have hgain : 0 < Tally.total item.plantId order.amounts := by
    rw [amounts_eq_of_placed hplaced]
    have hmem : (item.plantId, item.quantity) ∈ order₀.amounts := List.mem_map_of_mem hitem
    refine lt_of_lt_of_le (hpos item hitem) (Tally.le_total (fun y hy => ?_) hmem)
    obtain ⟨i, hi, rfl⟩ := List.mem_map.mp hy
    exact (hpos i hi).le
  have hsame : ({ order with status := target } : Order) = order := by
    rw [show target = order.status from heq]
  obtain ⟨o₁, p, ho₁, hp, hstock⟩ := hone.once n _ p₀ hp₀
  obtain ⟨o₂, p', ho₂, hp', hstock'⟩ := hone.once (n + 1) _ p₀ hp₀
  obtain rfl : order = o₁ := Option.some.inj (hw.current.symm.trans ho₁)
  obtain rfl : order = o₂ := Option.some.inj (hsame ▸ hw.orders.symm.trans ho₂)
  have hmoved := hw.plants item.plantId (by rw [hp₀]; rfl)
  rw [hsame, show (statusRun site oid targets d ms n).db.plants.get _ = some p from hp,
    show (statusRun site oid targets d ms (n + 1)).db.plants.get _ = some p' from hp',
    Option.map_some] at hmoved
  rw [Option.some.inj hmoved, Plant.addStock_stock, Order.returned, if_pos hcancelled] at hstock'
  rw [Order.returned, if_pos hcancelled] at hstock
  omega

/-- **Restocked once.**  A run of status requests on one order keeps the
promise if and only if every write is in time: at its commit the transition is
still allowed from the status committed at that moment. -/
theorem oneRestock_iff (site : Deployment) (oid : UUID) (targets : ι → OrderStatus) {d : Db}
    {order₀ : Order} (horder : d.orders.get oid = some order₀) (hitems : order₀.items ≠ [])
    (hpos : ∀ item ∈ order₀.items, 0 < item.quantity)
    (hplants : ∀ item ∈ order₀.items, (d.plants.get item.plantId).isSome = true)
    (ms : ℕ → Move ι Outside) :
    OneRestock (fun n => (statusRun site oid targets d ms n).db) oid order₀ ↔
      WritesInTime (statusRun site oid targets d ms) oid targets := by
  constructor
  · intro hone n i reply b hc hb order horder'
    obtain ⟨order', hw⟩ := written_of_commits hc hb
    obtain rfl : order' = order := Option.some.inj (hw.current.symm.trans horder')
    exact inTime_of_oneRestock horder hitems hpos hplants hone hw
  · intro hin
    exact
      { once := fun n _ _ hp₀ => hin.once horder n hp₀
        absorbing := fun _ _ hmn _ _ ho ho' => terminal_of_forward (hin.forward horder) hmn ho ho'
        forward := hin.forward horder }

end Runs

/-- Two requests, of which the second reads the order before the first commits. -/
def overlap (n : ℕ) : Move Bool Outside :=
  if n = 0 then .start true
  else if n = 2 then .start false
  else .step (n = 1 ∨ 4 ≤ n ∧ n < 12) (atNoon n)

/-- Any two requests on an order of one fern. -/
theorem oneRestock_iff_fern :
    OneRestock (fun n => (statusRun smallShop 5 (fun _ : Bool => .completed) Db.oneOrder
      overlap n).db) 5 fernOrder ↔
    WritesInTime (statusRun smallShop 5 (fun _ : Bool => .completed) Db.oneOrder overlap) 5
      fun _ => .completed :=
  oneRestock_iff smallShop 5 (fun _ : Bool => .completed) rfl (by decide) (by decide) (by decide)
    overlap

/-- Two cancellations that overlap: of one fern ordered, two come back. -/
theorem twice_restocked :
    ¬ OneRestock (fun n => (statusRun smallShop 5 (fun _ : Bool => .cancelled) Db.oneOrder
      overlap n).db) 5 fernOrder := by
  intro h
  obtain ⟨order, p, ho, hp, hstock⟩ := h.once 20 7 fern rfl
  -- run the schedule: three in stock, one ordered, five at the end
  have hfinal : ((statusRun smallShop 5 (fun _ : Bool => .cancelled) Db.oneOrder
      overlap 20).db.plants.get 7).map Plant.stock = some 5 := by decide +kernel
  have hreturned : ((statusRun smallShop 5 (fun _ : Bool => .cancelled) Db.oneOrder
      overlap 20).db.orders.get 5).map (Order.returned 7) = some 1 := by decide +kernel
  rw [show (statusRun smallShop 5 _ Db.oneOrder overlap 20).db.plants.get 7 = some p from hp]
    at hfinal
  rw [show (statusRun smallShop 5 _ Db.oneOrder overlap 20).db.orders.get 5 = some order from ho]
    at hreturned
  rw [Option.some.inj hfinal, Option.some.inj hreturned] at hstock
  exact absurd hstock (by decide)

end GreenGarden
