/-
GreenGarden/Moving.lean

`updateOrderStatus` as a triple.

The status that the transition is checked against (`old`) was read without a
lock, so at the commit the order may have another one.  `Moved` keeps the two
apart; they are known to agree only when status requests are serialized.  What
goes back to the plants is computed from the items, which never change.
-/
import GreenGarden.Steps

namespace GreenGarden

open Transaction

/-- Why a status request can fail. -/
def StatusFailure (S : Scope) (id : UUID) (target : OrderStatus) : Error → Db → Prop
  | .orderNotFound, d => ∃ seen, S.Sees seen d ∧ seen.orders.get id = none
  | .terminalStatus current, d | .backwardsStatus current _, d => ∃ seen old, S.Sees seen d ∧
      seen.orders.get id = some old ∧ old.status = current ∧
      ensureTransitionAllowed current target ≠ .ok ()
  | .integrity .plantsStockNonNegative, d => ∃ pid plant, d.plants.get pid = some plant ∧
      ∃ order, d.orders.get id = some order ∧ plant.stock + Tally.total pid order.amounts < 0
  | _, _ => False

theorem ensureTransitionAllowed_eq_ok {current target : OrderStatus} :
    ensureTransitionAllowed current target = .ok () ↔
      ¬ current.terminal ∧ (target = .cancelled ∨ current.flowIndex ≤ target.flowIndex) := by
  unfold ensureTransitionAllowed
  split_ifs <;> simp_all

/-- What a move to `target` gives back to one plant, if its row was found. -/
def givenBack (target : OrderStatus) (found : UUID → Bool) (order : Order) (pid : UUID) : ℤ :=
  if target = .cancelled ∧ found pid = true then Tally.total pid order.amounts else 0

/-- The order went from `order` to the status `target`, on the strength of
having been seen as `old`. -/
structure Moved (S : Scope) (id : UUID) (target : OrderStatus) (seen : Db) (old order : Order)
    (d d' : Db) : Prop where
  sees : S.Sees seen d
  before : seen.orders.get id = some old
  current : d.orders.get id = some order
  placed : order.placed = old.placed
  allowed : ensureTransitionAllowed old.status target = .ok ()
  moves : target ≠ old.status
  serialized : S.serialized = true → order.status = old.status
  orders : d'.orders = d.orders.modify id fun o => { o with status := target }
  plants : ∃ found : UUID → Bool,
    (∀ pid, (seen.plants.get pid).isSome = true → found pid = true) ∧
    ∀ pid, d'.plants.get pid = (d.plants.get pid).map fun p =>
      p.addStock (givenBack target found order pid)
  categories : d'.categories = d.categories
  slugHistory : d'.slugHistory = d.slugHistory
  customers : d'.customers = d.customers
  notifications : d'.notifications = d.notifications
  transactions : d'.transactions = d.transactions

theorem amounts_eq_of_placed {o o' : Order} (h : o'.placed = o.placed) :
    o'.amounts = o.amounts := by
  have hitems : o'.placed.items = o.placed.items := congrArg Order.items h
  exact congrArg (List.map fun item : OrderItem => (item.plantId, item.quantity)) hitems

theorem total_eq_zero_of_notMem {amounts : List (UUID × ℤ)} {pid : UUID}
    (h : pid ∉ (Tally.tally amounts).map Prod.fst) : Tally.total pid amounts = 0 :=
  Tally.total_eq_zero fun hmem => h (Tally.mem_keys_tally.mpr hmem)

/-- A move is a change under the lock on the order and those on the plants
that got something back. -/
theorem Moved.change {S : Scope} {id : UUID} {target : OrderStatus} {seen : Db}
    {old order : Order} {h : Set Key} {d d' : Db}
    (hm : Moved S id target seen old order d d') (hid : Key.order id ∈ h)
    (hreq : S.serialized = true → Key.request id ∈ h)
    (hplant : ∀ pid, Key.plant pid ∉ h → d'.plants.get pid = d.plants.get pid) :
    Change S.serialized h d d' where
  plant := hplant
  plants pid hs := by
    obtain ⟨found, -, hget⟩ := hm.plants
    rwa [hget, Option.isSome_map]
  customer cid _ := by rw [hm.customers]
  customers cid hs := by rwa [hm.customers]
  phone p _ hp := by rwa [phoneTaken, hm.customers]
  order oid hoid := by
    have hne : oid ≠ id := by rintro rfl; exact hoid hid
    rw [hm.orders, Table.get_modify_of_ne _ hne]
  orders oid o ho := by
    rw [hm.orders, Table.get_modify]
    split
    · exact ⟨{ o with status := target }, by rw [ho]; rfl, rfl⟩
    · exact ⟨o, ho, rfl⟩
  numbers _ := by
    rw [Db.orderNumbers, Db.orderNumbers, hm.orders, Table.map_rows_modify]
    exact fun r _ => rfl
  status hs oid o hreq' ho := by
    have hne : oid ≠ id := by rintro rfl; exact hreq' (hreq hs)
    exact ⟨o, by rw [hm.orders, Table.get_modify_of_ne _ hne, ho], rfl⟩
  notification nid _ := by rw [hm.notifications]
  transaction tid _ := by rw [hm.transactions]
  provider p _ hr := by rwa [recorded, hm.transactions]
  recorded p hr := by rwa [recorded, hm.transactions]

section Triple

variable {β : Type} {S : Scope} {id : UUID} {target : OrderStatus} {h : Set Key}
variable {b : List (Db → Db)} {d : Db} {Q : β → Set Key → List (Db → Db) → Db → Prop}

/-- A restock has been staged, if the move needs one: `plants` is what it makes
of the plants table, `found` the database in which the rows were looked up. -/
structure Restocked (S : Scope) (target : OrderStatus) (old : Order) (seen found : Db)
    (h : Set Key) (d : Db) (plants : Table UUID Plant → Table UUID Plant) : Prop where
  later : ∀ pid, (seen.plants.get pid).isSome = true → (found.plants.get pid).isSome = true
  get : ∀ d', S.rely.rel h d d' → ∀ pid, (plants d'.plants).get pid
    = (d'.plants.get pid).map fun p =>
        p.addStock (givenBack target (fun pid => (found.plants.get pid).isSome) old pid)
  frame : ∀ d', S.rely.rel h d d' → ∀ pid, Key.plant pid ∉ h →
    (plants d'.plants).get pid = d'.plants.get pid

/-- The writes of a restock, on rows that are as they were when they were locked. -/
theorem get_restock {old : Order} {found d d' : Db} {pid : UUID}
    (hsame : ∀ pid ∈ (Tally.tally old.amounts).map Prod.fst,
      (found.plants.get pid).isSome = true → d'.plants.get pid = d.plants.get pid) :
    (movePlants 1 (lockedPlants ((Tally.tally old.amounts).map Prod.fst) found d)
      (Tally.tally old.amounts) d'.plants).get pid = (d'.plants.get pid).map fun p =>
        p.addStock (givenBack .cancelled (fun pid => (found.plants.get pid).isSome) old pid) := by
  set plants := lockedPlants ((Tally.tally old.amounts).map Prod.fst) found d with hplants
  have hagree : ∀ pid ∈ (Tally.tally old.amounts).map Prod.fst,
      plants pid = none ∨ plants pid = d'.plants.get pid := by
    intro pid hpid
    by_cases hs : (found.plants.get pid).isSome = true
    · exact .inr (by rw [hplants, lockedPlants, if_pos ⟨hpid, hs⟩, hsame pid hpid hs])
    · exact .inl (by rw [hplants, lockedPlants, if_neg fun hc => hs hc.2])
  rw [get_movePlants (Tally.nodup_keys_tally _) hagree, Tally.total_tally]
  rcases hget : d'.plants.get pid with - | p
  · rfl
  refine congrArg (fun n => some (p.addStock n)) ?_
  rw [one_mul]
  by_cases hpid : pid ∈ (Tally.tally old.amounts).map Prod.fst
  · by_cases hs : (found.plants.get pid).isSome = true
    · have hsome : (plants pid).isSome = true := by
        rw [hplants, lockedPlants, if_pos ⟨hpid, hs⟩, ← hsame pid hpid hs, hget]
        rfl
      rw [if_pos hsome, givenBack, if_pos ⟨rfl, hs⟩]
    · have hnone : ¬ (plants pid).isSome = true := by
        rw [hplants, lockedPlants, if_neg fun hc => hs hc.2]
        simp
      rw [if_neg hnone, givenBack, if_neg fun hc => hs hc.2]
  · rw [givenBack, total_eq_zero_of_notMem hpid]
    split <;> split <;> rfl

/-- The restock of a cancellation, with the rows it writes locked. -/
theorem Restocked.locked {old : Order} {seen found : Db}
    (hlater : ∀ pid, (seen.plants.get pid).isSome → (found.plants.get pid).isSome)
    (hlock : ∀ pid ∈ (Tally.tally old.amounts).map Prod.fst,
      (found.plants.get pid).isSome → Key.plant pid ∈ h) :
    Restocked S .cancelled old seen found h d
      (movePlants 1 (lockedPlants ((Tally.tally old.amounts).map Prod.fst) found d)
        (Tally.tally old.amounts)) := by
  have hsame : ∀ d', S.rely.rel h d d' → ∀ pid ∈ (Tally.tally old.amounts).map Prod.fst,
      (found.plants.get pid).isSome = true → d'.plants.get pid = d.plants.get pid :=
    fun d' hd' pid hpid hs => hd'.1.plant pid (Set.notMem_compl_iff.mpr (hlock pid hpid hs))
  refine ⟨hlater, fun d' hd' pid => get_restock (hsame d' hd'), fun d' hd' pid hpid => ?_⟩
  -- a plant whose row is not locked gets nothing
  have hzero : givenBack .cancelled (fun pid => (found.plants.get pid).isSome) old pid = 0 := by
    unfold givenBack
    split
    · rename_i hc
      exact total_eq_zero_of_notMem fun hmem => hpid (hlock pid hmem hc.2)
    · rfl
  rw [get_restock (hsame d' hd'), hzero]
  simp

/-- Any other move leaves the plants alone. -/
theorem Restocked.none {old : Order} {seen : Db} (hcancel : target ≠ .cancelled) :
    Restocked S target old seen seen h d fun t => t := by
  have hzero : ∀ pid, givenBack target (fun pid => (seen.plants.get pid).isSome) old pid = 0 :=
    fun pid => if_neg fun hc => hcancel hc.1
  refine ⟨fun _ hs => hs, fun d' _ pid => ?_, fun _ _ _ _ => rfl⟩
  rw [hzero]
  simp

/-- What a status request that stages anything commits. -/
def StatusPost (S : Scope) (id : UUID) (target : OrderStatus) (h : Set Key)
    (b : List (Db → Db)) (d : Db) : Prop :=
  (b = [] ∨ (b ≠ [] ∧ ∃ seen old order, Moved S id target seen old order d (flush b d))) ∧
    Change S.serialized h d (flush b d)

/-- The UPDATE of the status, after the restock. -/
theorem wp_writeStatus {old : Order} {seen found : Db} {h₀ : Set Key}
    {plants : Table UUID Plant → Table UUID Plant} (hinv : S.inv seen)
    (hreq : S.serialized = true → Key.request id ∈ h₀)
    (hget : seen.orders.get id = some old) (hmoves : target ≠ old.status)
    (hallowed : ensureTransitionAllowed old.status target = .ok ())
    (hd : S.rely.rel h₀ seen d) (hsub : h₀ ⊆ h)
    (hb : ∀ db, flush b db = { db with plants := plants db.plants })
    (hre : Restocked S target old seen found h d plants) :
    wp S.rely (StatusFailure S id target) (writeStatus id target >>= fun _ => pure id)
      (Stable S.rely fun _ h b d => StatusPost S id target h b d) h b d := by
  rw [writeStatus, bind_assoc]
  refine wp_acquire fun d₁ hd₁ => wp_stage (wp_pure fun d' hd' => ?_)
  have hdd' : S.rely.rel h d d' := S.rely.trans hd₁ (S.rely.anti (Set.subset_insert _ _) hd')
  have hseen : S.rely.rel h₀ seen d' := S.rely.trans hd (S.rely.anti hsub hdd')
  -- the order is still there, maybe with another status
  obtain ⟨order, horder, hplaced⟩ := hseen.1.orders id old hget
  set w : Db → Db := fun db =>
    { db with orders := db.orders.modify id fun o => { o with status := target } } with hw
  have hflush : flush (w :: b) d' =
      { d' with
        plants := plants d'.plants
        orders := d'.orders.modify id fun o => { o with status := target } } := by
    rw [flush_cons, hb]
  have hmoved : Moved S id target seen old order d' (flush (w :: b) d') := by
    rw [hflush]
    exact
      { sees := (Scope.Sees.refl hinv).step hseen
        before := hget
        current := horder
        placed := hplaced
        allowed := hallowed
        moves := hmoves
        serialized := fun hs => by
          obtain ⟨o', ho', hstatus⟩ := hseen.1.status hs id old
            (Set.notMem_compl_iff.mpr (hreq hs)) hget
          rw [horder] at ho'
          cases ho'
          exact hstatus
        orders := rfl
        plants := by
          refine ⟨fun pid => (found.plants.get pid).isSome, hre.later, fun pid => ?_⟩
          have hback : ∀ f, givenBack target f order pid = givenBack target f old pid := by
            intro f
            rw [givenBack, givenBack, amounts_eq_of_placed hplaced]
          rw [hback]
          exact hre.get d' hdd' pid
        categories := rfl
        slugHistory := rfl
        customers := rfl
        notifications := rfl
        transactions := rfl }
  refine ⟨.inr ⟨List.cons_ne_nil _ _, seen, old, order, hmoved⟩,
    hmoved.change (.inl rfl) (fun hs => .inr (hsub (hreq hs))) fun pid hpid => ?_⟩
  rw [hflush]
  exact hre.frame d' hdd' pid fun hc => hpid (.inr hc)

/-- **The triple of a status request.**  Either it staged nothing, or it
commits as `Moved` says. -/
theorem wp_updateOrderStatus (hinv : S.inv d)
    (hreq : S.serialized = true → Key.request id ∈ h) :
    wp S.rely (StatusFailure S id target) (updateOrderStatus id target)
      (Stable S.rely fun _ h b d => StatusPost S id target h b d) h [] d := by
  rw [updateOrderStatus, getOrder, bind_assoc]
  refine wp_query fun seen hd₁ => ?_
  have hinv₁ := S.keeps hd₁.2 hinv
  rw [flush_nil]
  rcases hget : seen.orders.get id with - | old
  · exact ⟨seen, .refl hinv₁, hget⟩
  simp only [pure_bind]
  refine wp_whenElse (fun hmoves => ?_) fun _ => wp_pure fun d' _ => ⟨.inl rfl, .refl d'⟩
  rw [bind_assoc]
  refine wp_ofExcept (fun e he => ?_) fun _ hallowed => ?_
  · have hne : ensureTransitionAllowed old.status target ≠ .ok () := by
      rw [he]
      intro h
      cases h
    have hcause : ∃ seen' old', S.Sees seen' seen ∧ seen'.orders.get id = some old' ∧
        old'.status = old.status ∧ ensureTransitionAllowed old.status target ≠ .ok () :=
      ⟨seen, old, .refl hinv₁, hget, rfl, hne⟩
    unfold ensureTransitionAllowed at he
    split_ifs at he <;> cases he <;> exact hcause
  rw [bind_assoc]
  refine wp_whenElse (fun hcancel => ?_) fun hcancel => ?_
  · -- the plants are locked and the restock is staged
    subst hcancel
    rw [restoreStock, bind_assoc]
    refine wp_lockPlants hinv₁ (fun db => rfl)
      fun found d₂ h₂ _ hfound hd₂ hsub₂ hlock _ => ?_
    refine wp_moveStock (fun amount hmem plant hplant hneg => ?_) fun b₃ hb₃ _ => ?_
    · -- what is given back is negative only if a quantity is
      obtain ⟨order, horder, hplaced⟩ := hd₂.1.orders id old hget
      obtain ⟨pid, n⟩ := amount
      obtain ⟨hkey, rfl⟩ := Tally.mem_tally.mp hmem
      refine ⟨pid, plant, get_of_lockedPlants hplant, order, horder, ?_⟩
      rw [amounts_eq_of_placed hplaced]
      simpa using hneg
    · exact wp_writeStatus hinv₁ hreq hget hmoves hallowed hd₂ hsub₂ hb₃
        (.locked hfound.1.plants hlock)
  · -- nothing is given back
    exact wp_writeStatus hinv₁ hreq hget hmoves hallowed (S.rely.refl h seen) subset_rfl
      (fun db => rfl) (.none hcancel)

end Triple

end GreenGarden
