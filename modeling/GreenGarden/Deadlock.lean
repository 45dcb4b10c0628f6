/-
GreenGarden/Deadlock.lean

The order in which orders, status changes and payments take their locks.

One ranking serves all of them: the provider's transaction id, the new
transaction row, the customer being created and its phone, the plants by id,
the advisory lock of order numbering, the customer row that gets its email,
the order row, then what an order inserts last.  A customer row is the one key
whose rank depends on the database: it is locked first by whoever creates the
row, and after the plants by whoever fills in an email of a row that exists.

Each part of a body is shown once to take its locks above all it is handed
(`Under`) and to leave only locks below the next stage.
-/
import GreenGarden.LockOrder
import GreenGarden.Guarantee

namespace GreenGarden

open Transaction

/-- The stage at which a key is locked. -/
def lockStage (db : Db) : Key → ℕ
  | .providerTransaction _ | .request _ => 0
  | .customer id => if (db.customers.get id).isSome then 4 else 0
  | .transaction _ | .customerPhone _ => 1
  | .plant _ => 2
  | .advisory _ => 3
  | .order _ => 5
  | .orderNumber _ => 6
  | .paymentReference _ => 7
  | .notification _ => 8
  | .plantSlug _ | .plantSku _ | .slugHistory _ | .historySlug _ => 9

/-- Plants are locked in the order of their ids. -/
def lockOffset : Key → ℕ
  | .plant id => id
  | _ => 0

/-- The rank of a key: its stage, then its place within the stage. -/
def lockRank (db : Db) (key : Key) : ℕ ×ₗ ℕ := toLex (lockStage db key, lockOffset key)

/-- Every lock in `h` is of an earlier stage than `n`. -/
def Under (n : ℕ) (h : Set Key) (db : Db) : Prop := ∀ k ∈ h, lockStage db k < n

section Stages

variable {n m : ℕ} {h : Set Key} {db db' : Db} {key : Key}

theorem lockRank_lt_of_stage {key key' : Key} (hlt : lockStage db key < lockStage db key') :
    lockRank db key < lockRank db key' :=
  Prod.Lex.toLex_lt_toLex.mpr (.inl hlt)

/-- The rank of a lock that is held does not change. -/
theorem lockStage_of_held (hd : lockScope.rely.rel h db db') (hk : key ∈ h) :
    lockStage db' key = lockStage db key := by
  cases key with
  | customer id =>
    have hsame := hd.1.customer id (Set.notMem_compl_iff.mpr hk)
    simp only [lockStage, hsame]
  | _ => rfl

theorem Under.step (hu : Under n h db) (hd : lockScope.rely.rel h db db') : Under n h db' := by
  intro k hk
  rw [lockStage_of_held hd hk]
  exact hu k hk

theorem Under.mono (hu : Under n h db) (hnm : n ≤ m) : Under m h db :=
  fun k hk => (hu k hk).trans_le hnm

theorem Under.insert (hu : Under n h db) (hk : lockStage db key < n) :
    Under n (insert key h) db := by
  rintro k (rfl | hk')
  · exact hk
  · exact hu k hk'

theorem Under.lt (hu : Under n h db) (hk : n ≤ lockStage db key) :
    ∀ k' ∈ h, lockRank db k' < lockRank db key :=
  fun k' hk' => lockRank_lt_of_stage ((hu k' hk').trans_le hk)

theorem under_empty (n : ℕ) (db : Db) : Under n ∅ db := by
  intro k hk
  exact absurd hk (Set.notMem_empty k)

end Stages

section Rules

variable {α β : Type} {n : ℕ} {h : Set Key} {b : List (Db → Db)} {d : Db}
variable {Q : β → Set Key → List (Db → Db) → Db → Prop}

/-- The discipline within the scope. -/
abbrev keepsOrder (t : Session β) (Q : β → Set Key → List (Db → Db) → Db → Prop) (h : Set Key)
    (b : List (Db → Db)) (d : Db) : Prop :=
  ordered lockScope.rely lockRank t Q h b d

/-- Taking a lock of stage `n`, above everything held. -/
theorem order_acquire {key : Key} {g : Unit → Session β} (hu : Under n h d)
    (hkey : ∀ db, lockStage db key = n)
    (hg : ∀ d', lockScope.rely.rel h d d' → Under (n + 1) (insert key h) d' →
      keepsOrder (g ()) Q (insert key h) b d') :
    keepsOrder (Tx.acquire key >>= g) Q h b d := by
  refine ordered_acquire (fun d' hd => (hu.step hd).lt (hkey d').ge) fun d' hd => hg d' hd ?_
  refine ((hu.step hd).mono (Nat.le_succ n)).insert ?_
  rw [hkey d']
  exact Nat.lt_succ_self n

/-- A generated key of stage `n`. -/
theorem order_newId {key : UUID → Key} {used : Db → UUID → Bool} {g : UUID → Session β}
    (hu : Under n h d) (hkey : ∀ db id, lockStage db (key id) = n)
    (hg : ∀ id d', Under (n + 1) (insert (key id) h) d' →
      keepsOrder (g id) Q (insert (key id) h) b d') :
    keepsOrder (newId key used >>= g) Q h b d := by
  refine ordered_bind (ordered_outside fun v _ => ?_)
  refine order_acquire hu (fun db => hkey db v.uuid) fun d₁ _ hu₁ => ordered_query fun d₂ hd₂ => ?_
  exact ordered_failIf fun _ => ordered_pure (hg v.uuid d₂ (hu₁.step hd₂))

/-- A new entry of a unique index of stage `n`. -/
theorem order_claimUnique {key : Key} {c : Constraint} {taken : Db → Bool} {g : Unit → Session β}
    (hu : Under n h d) (hkey : ∀ db, lockStage db key = n)
    (hg : ∀ d', lockScope.rely.rel h d d' → Under (n + 1) (insert key h) d' →
      keepsOrder (g ()) Q (insert key h) b d') :
    keepsOrder (claimUnique key c taken >>= g) Q h b d := by
  refine ordered_bind (order_acquire hu hkey fun d₁ hd₁ hu₁ => ordered_query fun d₂ hd₂ => ?_)
  have hd : lockScope.rely.rel h d d₂ :=
    lockScope.rely.trans hd₁ (lockScope.rely.anti (Set.subset_insert _ _) hd₂)
  by_cases hc : taken (flush b d₂) = true
  · simp only [raiseIf, Tx.failIf, if_pos hc]
    trivial
  · simp only [raiseIf, Tx.failIf, if_neg hc]
    exact hg d₂ hd (hu₁.step hd₂)

/-! ### Plants -/

/-- Plant rows in increasing order of their ids, from stage 2 on. -/
theorem order_acquirePlants {ids : List UUID} {g : Unit → Session β}
    (hsorted : ids.Pairwise (· < ·))
    (hu : ∀ k ∈ h, lockStage d k < 2 ∨ ∃ id, k = .plant id ∧ ∀ id' ∈ ids, id < id')
    (hg : ∀ h' d', lockScope.rely.rel ∅ d d' → Under 3 h' d' → keepsOrder (g ()) Q h' b d') :
    keepsOrder (Tx.acquireAll (ids.map .plant) >>= g) Q h b d := by
  induction ids generalizing h d with
  | nil =>
    apply hg h d (lockScope.rely.refl ∅ d)
    intro k hk
    rcases hu k hk with hlt | ⟨id, rfl, -⟩
    · exact hlt.trans (by decide)
    · exact Nat.lt_succ_self 2
  | cons id ids ih =>
    have htail := List.pairwise_cons.mp hsorted
    show keepsOrder (Tx.acquire (.plant id) >>= fun _ => Tx.acquireAll (ids.map .plant) >>= g)
      Q h b d
    refine ordered_acquire ?_ ?_
    · intro d' hd k hk
      rcases hu k hk with hlt | ⟨id', rfl, hlt⟩
      · apply lockRank_lt_of_stage
        rw [lockStage_of_held hd hk]
        exact hlt
      · exact Prod.Lex.toLex_lt_toLex.mpr (.inr ⟨rfl, hlt id List.mem_cons_self⟩)
    · intro d' hd
      refine ih htail.2 ?_ fun h₂ d₂ hd₂ => hg h₂ d₂ ?_
      · rintro k (rfl | hk)
        · exact .inr ⟨id, rfl, htail.1⟩
        · rcases hu k hk with hlt | ⟨id', rfl, hlt⟩
          · left
            rw [lockStage_of_held hd hk]
            exact hlt
          · exact .inr ⟨id', rfl, fun id'' hid => hlt id'' (List.mem_cons_of_mem _ hid)⟩
      · exact lockScope.rely.trans (lockScope.rely.anti (Set.empty_subset _) hd) hd₂

theorem order_lockPlants {ids : List UUID} {g : (UUID → Option Plant) → Session β}
    (hids : ids.Nodup) (hu : Under 2 h d)
    (hg : ∀ plants h' d', lockScope.rely.rel ∅ d d' → Under 3 h' d' →
      keepsOrder (g plants) Q h' b d') :
    keepsOrder (lockPlants ids >>= g) Q h b d := by
  refine ordered_bind (ordered_query fun d₁ hd₁ => ?_)
  apply order_acquirePlants
  · -- distinct ids in order are strictly increasing
    have hle := List.pairwise_insertionSort (· ≤ ·)
      (ids.filter fun id => ((flush b d₁).plants.get id).isSome)
    have hne := (List.perm_insertionSort (· ≤ ·) _).nodup_iff.mpr
      (hids.filter fun id => ((flush b d₁).plants.get id).isSome)
    exact (hle.and hne).imp fun h => lt_of_le_of_ne h.1 h.2
  · exact fun k hk => .inl ((hu.step hd₁) k hk)
  · intro h' d₂ hd₂ hu₂ d₃ hd₃
    have hd₁₃ := lockScope.rely.trans hd₂ (lockScope.rely.anti (Set.empty_subset _) hd₃)
    exact hg _ h' d₃ (lockScope.rely.trans (lockScope.rely.anti (Set.empty_subset _) hd₁) hd₁₃)
      (hu₂.step hd₃)

/-- Stock movements take no lock. -/
theorem order_moveStock {sign : ℤ} {plants : UUID → Option Plant} {amounts : List (UUID × ℤ)}
    {g : Unit → Session β} (hg : ∀ b', keepsOrder (g ()) Q h b' d) :
    keepsOrder (moveStock sign plants amounts >>= g) Q h b d := by
  induction amounts generalizing b with
  | nil => exact hg b
  | cons amount amounts ih =>
    rw [moveStock, bind_assoc, moveOne]
    rcases plants amount.1 with - | plant
    · exact ih
    · simp only [writeStock, bind_assoc]
      exact ordered_failIf fun _ => ordered_stage ih

/-! ### Orders -/

/-- A new customer comes first, before anything else is held. -/
theorem order_resolveCustomerForOrder {phone name : Text} {email : Option Text}
    {g : OrderCustomer → Session β} (hu : Under 0 h d)
    (hg : ∀ customer h' b' d', Under 2 h' d' →
      (customer.pendingEmail ≠ none → (d'.customers.get customer.id).isSome) →
      keepsOrder (g customer) Q h' b' d') :
    keepsOrder (resolveCustomerForOrder phone name email >>= g) Q h [] d := by
  have hnone : ∀ k, k ∉ h := fun k hk => Nat.not_lt_zero _ (hu k hk)
  rw [resolveCustomerForOrder, getCustomerByPhone, bind_assoc]
  refine ordered_query fun d₁ hd₁ => ?_
  rw [flush_nil]
  rcases hfind : d₁.customers.find? (fun c => c.phone = phone) with - | ⟨id, c⟩
  · simp only [insertCustomer, newId, bind_assoc]
    refine ordered_outside fun v _ => ordered_acquire (fun _ _ k hk => absurd hk (hnone k)) ?_
    intro d₂ hd₂
    refine ordered_query fun d₃ hd₃ => ordered_failIf fun hfresh => ?_
    -- the row does not exist, so its key still ranks first
    have hu₃ : Under 1 (insert (Key.customer v.uuid) h) d₃ := by
      rintro k (rfl | hk)
      · rw [flush_nil] at hfresh
        simp only [lockStage, if_neg hfresh]
        exact Nat.zero_lt_one
      · exact absurd hk (hnone k)
    refine order_claimUnique hu₃ (fun _ => rfl) fun d₄ _ hu₄ => ordered_stage ?_
    simp only [pure_bind]
    apply hg _ _ _ _ hu₄
    intro hpending
    exact absurd rfl hpending
  · simp only [bind_assoc, pure_bind]
    refine ordered_failIf fun _ => hg _ _ _ _ ((hu.step hd₁).mono (Nat.zero_le 2)) fun _ => ?_
    rw [(Table.get_of_find? hfind).1]
    rfl

theorem order_checkCart {items : List OrderItemInput}
    {g : (UUID → Option Plant) × OrderPrice → Session β} (hu : Under 2 h d)
    (hg : ∀ r h' d', lockScope.rely.rel ∅ d d' → Under 3 h' d' → keepsOrder (g r) Q h' b d') :
    keepsOrder (checkCart items >>= g) Q h b d := by
  simp only [checkCart, bind_assoc, pure_bind]
  refine order_lockPlants (List.nodup_dedup _) hu fun plants h' d' hd' hu' => ?_
  refine ordered_failIf fun _ => ordered_ofExcept fun _ _ => ordered_ofExcept fun priced _ => ?_
  exact ordered_ofExcept fun _ _ => ordered_failIf fun _ => hg _ h' d' hd' hu'

theorem order_generateOrderNumber {g : Text → Session β} (hu : Under 3 h d)
    (hg : ∀ number h' d', lockScope.rely.rel ∅ d d' → Under 4 h' d' →
      keepsOrder (g number) Q h' b d') :
    keepsOrder (generateOrderNumber >>= g) Q h b d := by
  simp only [generateOrderNumber, bind_assoc]
  refine ordered_outside fun v _ => order_acquire hu (fun _ => rfl) fun d₁ hd₁ hu₁ => ?_
  refine ordered_query fun d₂ hd₂ => ?_
  have hd : lockScope.rely.rel ∅ d d₂ :=
    lockScope.rely.trans (lockScope.rely.anti (Set.empty_subset _) hd₁)
      (lockScope.rely.anti (Set.empty_subset _) hd₂)
  split
  · exact hg _ _ d₂ hd (hu₁.step hd₂)
  · trivial

/-- An email goes to a customer row that exists, so its key ranks after the
advisory lock. -/
theorem order_flushCustomer {customer : OrderCustomer} {g : Unit → Session β} (hu : Under 4 h d)
    (hexists : customer.pendingEmail ≠ none → (d.customers.get customer.id).isSome)
    (hg : ∀ h' b' d', Under 5 h' d' → keepsOrder (g ()) Q h' b' d') :
    keepsOrder (customer.flush >>= g) Q h b d := by
  rw [OrderCustomer.flush]
  rcases hpending : customer.pendingEmail with - | email
  · exact hg h b d (hu.mono (Nat.le_succ 4))
  · have hstage : ∀ d', lockScope.rely.rel h d d' → lockStage d' (.customer customer.id) = 4 := by
      intro d' hd
      exact if_pos (hd.1.customers _ (hexists (by simp [hpending])))
    rw [bind_assoc]
    refine ordered_acquire (fun d' hd => (hu.step hd).lt (hstage d' hd).ge) fun d' hd => ?_
    refine ordered_stage (hg _ _ d' (((hu.step hd).mono (Nat.le_succ 4)).insert ?_))
    rw [hstage d' hd]
    exact Nat.lt_succ_self 4

theorem order_insertOrder {row : Except Error Order} {g : UUID → Session β} (hu : Under 5 h d)
    (hg : ∀ id h' b' d', Under 8 h' d' → keepsOrder (g id) Q h' b' d') :
    keepsOrder (insertOrder row >>= g) Q h b d := by
  simp only [insertOrder, bind_assoc, pure_bind]
  refine order_newId hu (fun _ _ => rfl) fun id d₁ hu₁ => ordered_ofExcept fun order _ => ?_
  refine order_claimUnique hu₁ (fun _ => rfl) fun d₂ _ hu₂ => ?_
  refine ordered_whenElse (fun _ => ?_) fun _ => ordered_stage (hg _ _ _ _ (hu₂.mono (by decide)))
  exact order_claimUnique hu₂ (fun _ => rfl) fun d₃ _ hu₃ => ordered_stage (hg _ _ _ _ hu₃)

/-- **An order takes its locks in rank order.** -/
theorem order_createOrderAt (now : Instant) (draft : OrderDraft) (hu : Under 0 h d) :
    keepsOrder (createOrderAt now draft) (fun _ _ _ _ => True) h [] d := by
  rw [createOrderAt]
  refine order_resolveCustomerForOrder hu fun customer h₁ b₁ d₁ hu₁ hpending => ?_
  refine order_checkCart hu₁ fun r h₂ d₂ hd₂ hu₂ => ?_
  refine order_generateOrderNumber hu₂ fun number h₃ d₃ hd₃ hu₃ => ?_
  refine order_flushCustomer hu₃ (fun hne => ?_) fun h₄ b₄ d₄ hu₄ => ?_
  · exact hd₃.1.customers _ (hd₂.1.customers _ (hpending hne))
  refine order_insertOrder hu₄ fun id h₅ b₅ d₅ hu₅ => order_moveStock fun b₆ => ?_
  refine ordered_whenElse (fun _ => ?_) fun _ => trivial
  simp only [queueNewOrderNotification, bind_assoc]
  exact order_newId hu₅ (fun _ _ => rfl) fun _ _ _ => trivial

/-! ### Status changes and payments -/

theorem order_updateOrderStatus (id : UUID) (target : OrderStatus) (hu : Under 0 h d) :
    keepsOrder (updateOrderStatus id target) (fun _ _ _ _ => True) h [] d := by
  have write : ∀ {h' : Set Key} {b' : List (Db → Db)} {d' : Db}, Under 5 h' d' →
      keepsOrder (writeStatus id target >>= fun _ => pure id) (fun _ _ _ _ => True) h' b' d' := by
    intro h' b' d' hu'
    rw [writeStatus, bind_assoc]
    exact order_acquire hu' (fun _ => rfl) fun _ _ _ => trivial
  rw [updateOrderStatus, getOrder, bind_assoc]
  refine ordered_query fun d₁ hd₁ => ?_
  split
  · trivial
  simp only [pure_bind]
  refine ordered_whenElse (fun _ => ?_) fun _ => trivial
  simp only [bind_assoc]
  refine ordered_ofExcept fun _ _ => ordered_whenElse (fun _ => ?_) fun _ => ?_
  · simp only [restoreStock, bind_assoc]
    refine order_lockPlants (Tally.nodup_keys_tally _) ((hu.step hd₁).mono (Nat.zero_le 2))
      fun plants h' d' _ hu' => order_moveStock fun b' => write (hu'.mono (by decide))
  · exact write ((hu.step hd₁).mono (Nat.zero_le 5))

theorem order_processSepayWebhook (cm : CaseMap) (payload : SePayWebhookPayload)
    (hu : Under 0 h d) :
    keepsOrder (processSepayWebhook cm payload) (fun _ _ _ _ => True) h [] d := by
  rw [processSepayWebhook]
  refine ordered_ofExcept fun amount _ => order_acquire hu (fun _ => rfl) fun d₁ _ hu₁ => ?_
  refine ordered_query fun d₂ hd₂ => ?_
  rw [Tx.whenElse]
  split
  swap
  · trivial
  simp only [recordTransaction, bind_assoc]
  refine order_newId (hu₁.step hd₂) (fun _ _ => rfl) fun id d₃ hu₃ => ordered_stage ?_
  -- the order a payment names is locked last
  rw [settleOrder]
  refine ordered_whenElse (fun _ => ?_) fun _ => trivial
  simp only [lockOrderByReference, bind_assoc]
  refine ordered_outside fun v _ => ordered_query fun d₄ hd₄ => ?_
  split
  · trivial
  simp only [bind_assoc, pure_bind]
  refine order_acquire ((hu₃.step hd₄).mono (m := 5) (by decide)) (fun _ => rfl) fun d₅ _ _ => ?_
  refine ordered_query fun d₆ _ => ?_
  split
  · trivial
  split
  · trivial
  split
  · trivial
  · simp only [payOrder, bind_assoc]
    exact ordered_outside fun _ _ => trivial

end Rules

/-! ### Runs -/

/-- The transactions of orders and payments. -/
inductive OrderTransaction where
  | createOrder (draft : OrderDraft)
  | postStorefrontOrder (payload : StorefrontOrderCreate)
  | updateOrderStatus (id : UUID) (status : OrderStatus)
  | processSepayWebhook (payload : SePayWebhookPayload)

/-- The request of the system that it is. -/
def OrderTransaction.request : OrderTransaction → Request
  | .createOrder draft => .createOrder draft
  | .postStorefrontOrder payload => .postStorefrontOrder payload
  | .updateOrderStatus id status => .updateOrderStatus id status
  | .processSepayWebhook payload => .processSepayWebhook payload

/-- Every one of them takes its locks in rank order. -/
theorem OrderTransaction.keepsOrder (site : Deployment) (t : OrderTransaction) (d : Db) :
    GreenGarden.keepsOrder (t.request.body site) (fun _ _ _ _ => True) ∅ [] d := by
  have row : ∀ {t : Session UUID}, GreenGarden.keepsOrder t (fun _ _ _ _ => True) ∅ [] d →
      GreenGarden.keepsOrder (replyRow t) (fun _ _ _ _ => True) ∅ [] d :=
    fun ht => ordered_bind (ordered_mono (fun _ _ _ _ _ => ordered_pure trivial) ht)
  have hu : Under 0 ∅ d := under_empty 0 d
  cases t with
  | createOrder draft =>
    exact row (ordered_outside fun v _ => order_createOrderAt v.now draft hu)
  | postStorefrontOrder payload =>
    apply row
    rw [GreenGarden.postStorefrontOrder]
    refine ordered_ofExcept fun _ _ => ordered_failIf fun _ => ordered_outside fun v _ => ?_
    rw [checkCheckoutPhoneLimit, bind_assoc]
    refine ordered_query fun d₁ hd₁ => ordered_failIf fun _ => ?_
    exact order_createOrderAt v.now payload.draft (hu.step hd₁)
  | updateOrderStatus id target => exact row (order_updateOrderStatus id target hu)
  | processSepayWebhook payload =>
    exact ordered_bind (ordered_mono (fun _ _ _ _ _ => ordered_pure trivial)
      (order_processSepayWebhook site.caseMap payload hu))

/-- **Orders, status changes and payments never deadlock.**  In no state of any
schedule do transactions wait for each other in a circle. -/
theorem orders_never_deadlock {ι : Type} [DecidableEq ι] (site : Deployment)
    (transactions : ι → OrderTransaction) (d : Db) (ms : ℕ → Move ι Outside) (n : ℕ) :
    ¬ ∃ i, Relation.TransGen
      (Waits (trace (shop site false fun i => (transactions i).request) d ms n)) i i := by
  rintro ⟨i, hi⟩
  refine no_deadlock (shopContract lockScope site (fun i => (transactions i).request)
    (fun _ => trivial) fun _ _ _ _ _ _ _ => trivial) lockRank (fun j d' _ => ?_) trivial ms n i hi
  -- nothing is reserved, so every body starts without a lock
  have hnone : {k | k ∈ (shop site false fun i => (transactions i).request).token j} = ∅ :=
    Set.eq_empty_iff_forall_notMem.mpr fun _ hk => List.not_mem_nil hk
  show ordered _ _ _ _ {k | k ∈ (shop site false fun i => (transactions i).request).token j} _ _
  rw [hnone]
  exact (transactions j).keepsOrder site d'

end GreenGarden
