/-
GreenGarden/FirstOrders.lean

First orders of a phone number, side by side.

An order looks the customer up and, finding nobody, inserts a row.  While the
number is new, two orders that have both found nobody cannot both commit: the
second INSERT meets the first row and fails (`second_first_order_fails`).
Where no lookup finds nobody while another order is past its own lookup, all
of them commit and share one row: `first_orders_share_customer`.

An order past its lookup is followed in the scope in which the number is taken
(`takenScope`): there its triple leaves no failure on the index of phones.  The
orders that have not looked yet start that triple when the number becomes
taken.  Stock is what it was at first, less what the committed orders asked
for (`Sold`).
-/
import GreenGarden.Filling

namespace GreenGarden

open Transaction

/-! ### The scope -/

/-- The row of the phone is one, and may order. -/
structure OneHolder (phone : Text) (d : Db) : Prop where
  active : ∀ id c, d.customers.get id = some c → c.phone = phone → c.isActive = true
  single : ∀ id id' c c', d.customers.get id = some c → d.customers.get id' = some c' →
    c.phone = phone → c'.phone = phone → id = id'

theorem OneHolder.of_rows {phone : Text} {d d' : Db} (h : OneHolder phone d)
    (row : ∀ k c', d'.customers.get k = some c' →
      ∃ c, d.customers.get k = some c ∧ c'.phone = c.phone ∧ c'.isActive = c.isActive) :
    OneHolder phone d' where
  active k c' hk hp := by
    obtain ⟨c, hc, hphone, hactive⟩ := row k c' hk
    rw [hactive]
    exact h.active k c hc (hphone.symm.trans hp)
  single k k' c₁ c₂ hk hk' hp hp' := by
    obtain ⟨c₃, hc₃, hphone₃, -⟩ := row k c₁ hk
    obtain ⟨c₄, hc₄, hphone₄, -⟩ := row k' c₂ hk'
    exact h.single k k' c₃ c₄ hc₃ hc₄ (hphone₃.symm.trans hp) (hphone₄.symm.trans hp')

/-- Customers keep their phones and their status. -/
def KeepsCustomers (d d' : Db) : Prop :=
  ∀ id c, d.customers.get id = some c →
    ∃ c', d'.customers.get id = some c' ∧ c'.phone = c.phone ∧ c'.isActive = c.isActive

theorem KeepsCustomers.refl (d : Db) : KeepsCustomers d d := fun _ c hc => ⟨c, hc, rfl, rfl⟩

theorem KeepsCustomers.trans {d d' d'' : Db} (h : KeepsCustomers d d')
    (h' : KeepsCustomers d' d'') : KeepsCustomers d d'' := by
  intro id c hc
  obtain ⟨c', hc', hphone, hactive⟩ := h id c hc
  obtain ⟨c'', hc'', hphone', hactive'⟩ := h' id c' hc'
  exact ⟨c'', hc'', hphone'.trans hphone, hactive'.trans hactive⟩

theorem KeepsCustomers.phoneTaken {d d' : Db} (h : KeepsCustomers d d') {phone : Text}
    (ht : phoneTaken d phone = true) : phoneTaken d' phone = true := by
  rw [phoneTaken_eq_true] at ht ⊢
  obtain ⟨c, hc, hphone⟩ := ht
  obtain ⟨id, hget⟩ := Table.mem_rows.mp hc
  obtain ⟨c', hget', hphone', -⟩ := h id c hget
  exact ⟨c', Table.mem_rows_of_get hget', hphone'.trans hphone⟩

/-- Orders of one phone side by side: what they keep, and what each commit does
to the plants and to the customers. -/
def firstScope (phone : Text) : Scope where
  serialized := false
  inv d := OrderBook d ∧ OneHolder phone d
  rel d d' := (OrderBook d ∧ OneHolder phone d → OrderBook d' ∧ OneHolder phone d') ∧
    (∃ k, (∀ pid, 0 ≤ k pid) ∧ Sold k d d') ∧ KeepsCustomers d d'
  answers _ := True
  refl d := ⟨id, ⟨fun _ => 0, fun _ => le_rfl, .refl d⟩, .refl d⟩
  trans h₁ h₂ := by
    obtain ⟨hinv₁, ⟨k₁, hk₁, hs₁⟩, hc₁⟩ := h₁
    obtain ⟨hinv₂, ⟨k₂, hk₂, hs₂⟩, hc₂⟩ := h₂
    exact ⟨hinv₂ ∘ hinv₁, ⟨_, fun pid => add_nonneg (hk₁ pid) (hk₂ pid), hs₁.trans hs₂⟩,
      hc₁.trans hc₂⟩
  keeps h := h.1

/-- The same, once the phone is taken. -/
def takenScope (phone : Text) : Scope :=
  { firstScope phone with
    inv := fun d => (firstScope phone).inv d ∧ phoneTaken d phone = true
    keeps := fun h hd => ⟨h.1 hd.1, h.2.2.phoneTaken hd.2⟩ }

section Commit

variable {S : Scope} {draft : OrderDraft} {h : Set Key} {d d' : Db} {id : UUID}
variable {writes : Table UUID Customer → Table UUID Customer}

/-- The row an order is filed under has the phone. -/
theorem Filed.keepsCustomers (hf : Filed S draft h d id writes)
    (hcustomers : d'.customers = writes d.customers) : KeepsCustomers d d' := by
  intro k c hc
  cases hf with
  | known => exact ⟨c, by rw [hcustomers]; exact hc, rfl, rfl⟩
  | filled email =>
    rw [hcustomers, Table.get_modify]
    split
    · exact ⟨{ c with email := email }, by rw [hc]; rfl, rfl, rfl⟩
    · exact ⟨c, hc, rfl, rfl⟩
  | created _ _ _ _ hnew =>
    exact ⟨c, by rw [hcustomers]; exact Table.get_insert_of_get hc, rfl, rfl⟩

theorem Filed.oneHolder (hf : Filed S draft h d id writes)
    (hcustomers : d'.customers = writes d.customers) (hd : OneHolder draft.phone d) :
    OneHolder draft.phone d' := by
  cases hf with
  | known => exact hd.of_rows fun k c hk => ⟨c, by rwa [hcustomers] at hk, rfl, rfl⟩
  | @filled seen id c email =>
    refine hd.of_rows fun k c' hk => ?_
    rw [hcustomers, Table.get_modify] at hk
    split at hk
    · obtain ⟨c, hc, rfl⟩ := Option.map_eq_some_iff.mp hk
      exact ⟨c, hc, rfl, rfl⟩
    · exact ⟨c', hk, rfl, rfl⟩
  | created _ _ _ _ hnew hfree =>
    -- nobody else has the phone
    have none : ∀ {k c}, d.customers.get k = some c → c.phone ≠ draft.phone := by
      intro k c hc hp
      rw [Bool.eq_false_iff] at hfree
      exact hfree (phoneTaken_eq_true.mpr ⟨c, Table.mem_rows_of_get hc, hp⟩)
    refine ⟨fun k c hk hp => ?_, fun k k' c₁ c₂ hk hk' hp hp' => ?_⟩
    · rw [hcustomers, Table.get_insert hnew] at hk
      split at hk
      · cases hk
        rfl
      · exact absurd hp (none hk)
    · rw [hcustomers, Table.get_insert hnew] at hk hk'
      split at hk <;> split at hk'
      · rename_i h₁ h₂
        exact h₁.trans h₂.symm
      · exact absurd hp' (none hk')
      · exact absurd hp (none hk)
      · exact absurd hp (none hk)

/-- The customer of the order, at the commit. -/
theorem Filed.customer (hseen : ∀ {seen}, S.Sees seen d → KeepsCustomers seen d)
    (hf : Filed S draft h d id writes) (hcustomers : d'.customers = writes d.customers) :
    ∃ c, d'.customers.get id = some c ∧ c.phone = draft.phone := by
  have kept : ∀ {c}, d.customers.get id = some c → c.phone = draft.phone →
      ∃ c, d'.customers.get id = some c ∧ c.phone = draft.phone := by
    intro c hc hp
    obtain ⟨c', hc', hphone, -⟩ := hf.keepsCustomers hcustomers id c hc
    exact ⟨c', hc', hphone.trans hp⟩
  cases hf with
  | @known seen id c hs hget hphone =>
    obtain ⟨c', hc', hphone', -⟩ := hseen hs id c hget
    exact kept hc' (hphone'.trans hphone)
  | @filled seen id c email hs hget hphone =>
    obtain ⟨c', hc', hphone', -⟩ := hseen hs id c hget
    exact kept hc' (hphone'.trans hphone)
  | created _ _ _ _ hnew =>
    exact ⟨_, by rw [hcustomers, Table.get_insert_self hnew], rfl⟩

end Commit

/-! ### Runs -/

section Runs

variable {ι : Type}

/-- Orders side by side. -/
def ordering (site : Deployment) (drafts : ι → OrderDraft) :
    Workload ι Db Key Outside Error Reply :=
  shop site false fun i => .createOrder (drafts i)

/-- A body that has not looked the customer up yet. -/
def YetToLook (draft : OrderDraft) (t : Session Reply) : Prop :=
  t = replyRow (createOrder draft) ∨ ∃ now, t = replyRow (createOrderAt now draft)

/-- Where `i` is running, it has done nothing but read the clock. -/
def YetToLookAt (drafts : ι → OrderDraft) (s : State ι Db Key Outside Error Reply) (i : ι) :
    Prop :=
  ∀ t b, s.status i = .running t b → b = [] ∧ YetToLook (drafts i) t

/-- A move that looks the customer up and finds nobody finds all the others yet
to look. -/
def LooksUpApart (drafts : ι → OrderDraft) (phone : Text)
    (s : State ι Db Key Outside Error Reply) : Move ι Outside → Prop
  | .step i _ => ∀ now b, s.status i = .running (replyRow (createOrderAt now (drafts i))) b →
      phoneTaken s.db phone = false → ∀ j, j ≠ i → YetToLookAt drafts s j
  | _ => True

variable [DecidableEq ι]

/-- Every lookup along the moves is apart. -/
def RunLooksUpApart (site : Deployment) (drafts : ι → OrderDraft) (phone : Text)
    (s : State ι Db Key Outside Error Reply) : List (Move ι Outside) → Prop
  | [] => True
  | m :: ms => LooksUpApart drafts phone s m ∧
      RunLooksUpApart site drafts phone ((fire (ordering site drafts) s m).getD s) ms

variable {site : Deployment} {drafts : ι → OrderDraft} {phone : Text}
variable {s s' : State ι Db Key Outside Error Reply} {m : Move ι Outside}

/-- Whoever is past its lookup now has just made it, or was past it before. -/
theorem yetToLookAt_fire (hm : fire (ordering site drafts) s m = some s') {i : ι}
    (hyet : YetToLookAt drafts s i) (hpast : ¬ YetToLookAt drafts s' i) :
    ∃ v now b, m = .step i v ∧
      s.status i = .running (replyRow (createOrderAt now (drafts i))) b := by
  have hi : i = m.actor := by
    by_contra hne
    refine hpast fun t b ht => hyet t b ?_
    rwa [fire_status_of_ne hm hne] at ht
  -- a status that is entered with nothing done
  have entered : ∀ {t b}, s'.status i = .running t b → b = [] ∧ YetToLook (drafts i) t →
      YetToLookAt drafts s' i := by
    intro t b hst ht t' b' hst'
    rw [hst] at hst'
    cases hst'
    exact ht
  cases m with
  | start j =>
    obtain rfl : i = j := hi
    simp only [fire] at hm
    split at hm
    · split at hm
      · obtain rfl := Option.some.inj hm
        exact absurd (entered (Function.update_self i _ _) ⟨rfl, .inl rfl⟩) hpast
      · cases hm
    · cases hm
  | abort j =>
    obtain rfl : i = j := hi
    simp only [fire] at hm
    split at hm
    · obtain rfl := Option.some.inj hm
      have hself : (s.finish i s.db .aborted).status i = .aborted := Function.update_self i _ _
      refine absurd (fun t b ht => ?_) hpast
      rw [hself] at ht
      cases ht
    · cases hm
  | step j v =>
    obtain rfl : i = j := hi
    rcases hst : s.status i with - | ⟨t, b⟩ | _ | _ | _
    case running =>
      obtain ⟨rfl, rfl | ⟨now, rfl⟩⟩ := hyet t b hst
      · -- the clock is read
        have hnext : fire (ordering site drafts) s (.step i v) =
            some (s.resume i (replyRow (createOrderAt v.now (drafts i))) []) := by
          simp only [fire, hst]
          rfl
        rw [hnext] at hm
        obtain rfl := Option.some.inj hm
        exact absurd (entered (Function.update_self i _ _) ⟨rfl, .inr ⟨_, rfl⟩⟩) hpast
      · exact ⟨v, now, [], rfl, rfl⟩
    all_goals
      simp only [fire, hst] at hm
      cases hm

/-- While the phone is new, at most one order is past its lookup. -/
theorem apart_fire (hm : fire (ordering site drafts) s m = some s')
    (hapart : LooksUpApart drafts phone s m) (hfree : phoneTaken s.db phone = false)
    (hpairs : ∀ i j, i ≠ j → YetToLookAt drafts s i ∨ YetToLookAt drafts s j) :
    ∀ i j, i ≠ j → YetToLookAt drafts s' i ∨ YetToLookAt drafts s' j := by
  -- one that was yet to look and did not move still is
  have still : ∀ {j}, j ≠ m.actor → YetToLookAt drafts s j → YetToLookAt drafts s' j := by
    intro j hj hyet t b ht
    rw [fire_status_of_ne hm hj] at ht
    exact hyet t b ht
  -- the one that moved
  have moved : ∀ {j}, j ≠ m.actor → YetToLookAt drafts s' m.actor ∨ YetToLookAt drafts s' j := by
    intro j hj
    by_cases hpast : YetToLookAt drafts s' m.actor
    · exact .inl hpast
    · right
      by_cases hyet : YetToLookAt drafts s m.actor
      · obtain ⟨v, now, b, hstep, hst⟩ := yetToLookAt_fire hm hyet hpast
        rw [hstep] at hapart
        exact still hj (hapart now b hst hfree j hj)
      · exact still hj ((hpairs _ _ hj.symm).resolve_left hyet)
  intro i j hij
  by_cases hi : i = m.actor
  · subst hi
    exact moved hij.symm
  · by_cases hj : j = m.actor
    · subst hj
      exact (moved hij).symm
    · exact (hpairs i j hij).imp (still hi) (still hj)

/-- The orders within their scope. -/
def orderingContract (site : Deployment) (drafts : ι → OrderDraft) (phone : Text)
    (hphone : ∀ i, (drafts i).phone = phone) : Contract (ordering site drafts) :=
  shopContract (firstScope phone) site (fun i => .createOrder (drafts i)) (fun _ => trivial)
    fun i reply h b d _ hp => by
      have hbook := (OrderBook.step hp).1
      obtain ⟨id, -, now, ⟨order, hplaced⟩, -⟩ := hp
      obtain ⟨writes, hfiled, hcustomers⟩ := hplaced.customers
      refine ⟨fun hinv => ⟨hbook hinv.1, ?_⟩, ⟨_, totalOf_nonneg hplaced.positive,
        hplaced.sold⟩, hfiled.keepsCustomers hcustomers⟩
      have hone := hfiled.oneHolder hcustomers
      rw [hphone i] at hone
      exact hone hinv.2

/-- What an order has to go through once the phone is taken. -/
def Following (drafts : ι → OrderDraft) (phone : Text) (i : ι) (t : Session Reply) (h : Set Key)
    (b : List (Db → Db)) (d : Db) : Prop :=
  wp (firstScope phone).rely (OrderFailure (takenScope phone) (drafts i)) t
    (fun _ _ _ _ => True) h b d

omit [DecidableEq ι] in
theorem following_of_yetToLook {i : ι} {t : Session Reply} {h : Set Key} {d : Db}
    (hd : (takenScope phone).inv d) (ht : YetToLook (drafts i) t) :
    Following drafts phone i t h [] d := by
  have order : ∀ now,
      Following drafts phone i (replyRow (createOrderAt now (drafts i))) h [] d := by
    intro now
    exact wp_bind (wp_mono (fun _ _ hf => hf) (fun _ _ _ _ _ => trivial)
      (wp_createOrderAt (S := takenScope phone) hd))
  rcases ht with rfl | ⟨now, rfl⟩
  · exact fun v _ => order v.now
  · exact order now

/-- What holds along a run in which lookups are apart. -/
structure FirstGood (site : Deployment) (drafts : ι → OrderDraft) (phone : Text)
    (hphone : ∀ i, (drafts i).phone = phone) (d₀ : Db)
    (s : State ι Db Key Outside Error Reply) : Prop where
  good : (orderingContract site drafts phone hphone).Good s
  apart : (phoneTaken s.db phone = true ∧
      ∀ i, (orderingContract site drafts phone hphone).At (Following drafts phone i) s i) ∨
    phoneTaken s.db phone = false ∧
      ∀ i j, i ≠ j → YetToLookAt drafts s i ∨ YetToLookAt drafts s j
  sold : ∃ done : Finset ι, (∀ i, i ∈ done ↔ (s.result i).isSome) ∧
    Sold (fun pid => ∑ i ∈ done, totalOf (drafts i).items pid) d₀ s.db
  owned : ∀ i reply, s.result i = some reply → ∃ id order c, reply = .row id ∧
    s.db.orders.get id = some order ∧ s.db.customers.get order.customerId = some c ∧
      c.phone = phone
  unfailed : ∀ i e, s.status i = .failed e → e = .integrity .primaryKey

section Step

variable {hphone : ∀ i, (drafts i).phone = phone} {d₀ : Db} {answers : ι → ℕ → Outside}

/-- An order that is about to fail has met a key that is in use. -/
theorem FirstGood.keyClash (h : FirstGood site drafts phone hphone d₀ s)
    (hserial : SucceedInTurn site drafts answers d₀) {i : ι} {e : Error} {b : List (Db → Db)}
    (hst : s.status i = .running (.fail e) b) : e = .integrity .primaryKey := by
  -- what the others leave is enough
  have hfill : Fillable (drafts i) s.db.plants.get := by
    obtain ⟨done, hdone, hsold⟩ := h.sold
    refine hserial.fillable hsold fun hmem => ?_
    have hsome := (hdone i).mp hmem
    simp [State.result, hst] at hsome
  obtain ⟨hbook, hone⟩ := h.good.inv
  have clash : ∀ {S : Scope} {held : Set Key} {d : Db},
      (firstScope phone).rely.rel held d s.db → OrderFailure S (drafts i) e d →
      (S.inv d → OrderBook d) → (∀ {seen}, S.Sees seen d → ∃ k, Sold k seen d) →
      e ≠ .integrity .customersPhone → e = .integrity .primaryKey := by
    intro S held d hd hf hinv hseen hne
    obtain ⟨-, -, ⟨k, hk, hsold⟩, hkept⟩ := hd
    refine hf.keyClash (hfill.before hk hsold) hinv (fun c hc hp => ?_) hseen hne
    obtain ⟨id, hget⟩ := Table.mem_rows.mp hc
    obtain ⟨c', hget', hphone', hactive'⟩ := hkept id c hget
    rw [← hactive']
    exact hone.active id c' hget' (hphone'.trans (hp.trans (hphone i)))
  rcases h.apart with ⟨-, hfollow⟩ | ⟨hfree, -⟩
  · -- nobody finds the index free and then taken, where it was taken all along
    obtain ⟨d, hd, hf⟩ := hfollow i _ _ hst
    refine clash (S := takenScope phone) hd hf (fun hinv => hinv.1.1)
      (fun hseen => ⟨_, hseen.2.2.2.1.choose_spec.2⟩) ?_
    rintro rfl
    obtain ⟨seen, hseen, hunknown, -⟩ := hf
    have htaken := hseen.1.2
    rw [← hphone i, hunknown] at htaken
    cases htaken
  · have hlocal := h.good.here i
    rw [hst] at hlocal
    obtain ⟨d, hd, hf⟩ := hlocal
    refine clash (S := firstScope phone) hd hf (fun hinv => hinv.1)
      (fun hseen => ⟨_, hseen.2.2.2.1.choose_spec.2⟩) ?_
    rintro rfl
    obtain ⟨-, -, -, htaken⟩ := hf
    rw [hphone i] at htaken
    have := hd.2.2.2.phoneTaken htaken
    rw [hfree] at this
    cases this

theorem not_yetToLook_ret {draft : OrderDraft} {reply : Reply} :
    ¬ YetToLook draft (.ret reply) := by
  rintro (h | ⟨now, h⟩)
  · cases h
  · cases h

/-- The commit of an order, in the database it commits into. -/
theorem FirstGood.placed (h : FirstGood site drafts phone hphone d₀ s) {i : ι} {reply : Reply}
    {b : List (Db → Db)} (hc : Commits s s' i reply b) :
    (firstScope phone).rely.rel ∅ s.db s'.db ∧ ∃ id now order, reply = .row id ∧
      Placed (firstScope phone) now (drafts i) id order (s.held i) s.db s'.db := by
  have hpost := h.good.post hc.1
  rw [hc.db]
  refine ⟨(orderingContract site drafts phone hphone).respects i reply _ ∅ b _ hpost h.good.inv
    (Set.disjoint_empty _), ?_⟩
  obtain ⟨id, hreply, now, ⟨order, hplaced⟩, -⟩ := hpost
  exact ⟨id, now, order, hreply, hplaced⟩

/-- Taken stays taken, and the commit of the first order finds all the others
yet to look. -/
theorem FirstGood.apart_fire (h : FirstGood site drafts phone hphone d₀ s)
    (hm : fire (ordering site drafts) s m = some s') (hapart : LooksUpApart drafts phone s m) :
    (phoneTaken s'.db phone = true ∧
      ∀ i, (orderingContract site drafts phone hphone).At (Following drafts phone i) s' i) ∨
    phoneTaken s'.db phone = false ∧
      ∀ i j, i ≠ j → YetToLookAt drafts s' i ∨ YetToLookAt drafts s' j := by
  have good' := h.good.fire hm
  rcases h.apart with ⟨htaken, hfollow⟩ | ⟨hfree, hpairs⟩
  · refine .inl ⟨?_, fun i => ?_⟩
    · rcases fire_committing hm with ⟨i, reply, b, -, hc⟩ | ⟨-, hdb, -⟩
      · exact (h.placed hc).1.2.2.2.phoneTaken htaken
      · rw [hdb]
        exact htaken
    · exact (hfollow i).fire (stepwise_wp _ _ _) h.good hm
        fun _ => following_of_yetToLook ⟨h.good.inv, htaken⟩ (.inl rfl)
  · have hpairs' := GreenGarden.apart_fire hm hapart hfree hpairs
    rcases fire_committing hm with ⟨i, reply, b, -, hc⟩ | ⟨-, hdb, -⟩
    · rcases hphone' : phoneTaken s'.db phone
      · exact .inr ⟨rfl, hpairs'⟩
      · refine .inl ⟨rfl, fun j t b' ht => ?_⟩
        -- whoever commits was past its lookup
        have hpast : ¬ YetToLookAt drafts s i := fun hyet => not_yetToLook_ret (hyet _ _ hc.1).2
        rcases eq_or_ne i j with rfl | hij
        · have hself : s'.status i = .committed reply := by
            rw [hc.2]
            exact Function.update_self i _ _
          rw [hself] at ht
          cases ht
        · have hst : s'.status j = s.status j := by
            rw [hc.2]
            exact Function.update_of_ne hij.symm _ _
          rw [hst] at ht
          obtain ⟨rfl, hyet⟩ := (hpairs i j hij).resolve_left hpast t b' ht
          exact ⟨s'.db, (firstScope phone).rely.refl _ _,
            following_of_yetToLook ⟨good'.inv, hphone'⟩ hyet⟩
    · rw [hdb]
      exact .inr ⟨hfree, hpairs'⟩

/-- **Every move keeps it**, if lookups are apart. -/
theorem FirstGood.fire (h : FirstGood site drafts phone hphone d₀ s)
    (hserial : SucceedInTurn site drafts answers d₀)
    (hm : fire (ordering site drafts) s m = some s') (hapart : LooksUpApart drafts phone s m) :
    FirstGood site drafts phone hphone d₀ s' where
  good := h.good.fire hm
  apart := h.apart_fire hm hapart
  sold := by
    obtain ⟨done, hdone, hsold⟩ := h.sold
    rcases fire_committing hm with ⟨i, reply, b, -, hc⟩ | ⟨-, hdb, hresult⟩
    · obtain ⟨-, id, now, order, -, hplaced⟩ := h.placed hc
      have hi : i ∉ done := by
        rw [hdone i]
        simp [State.result, hc.1]
      refine ⟨insert i done, fun j => ?_, ?_⟩
      · rw [hc.result, Finset.mem_insert, hdone j]
        rcases eq_or_ne j i with rfl | hj
        · simp
        · simp [hj]
      · have hnext := hsold.trans hplaced.sold
        simp only [Finset.sum_insert hi]
        simpa only [add_comm] using hnext
    · rw [hresult, hdb]
      exact ⟨done, hdone, hsold⟩
  owned j reply hj := by
    rcases fire_committing hm with ⟨i, reply', b, -, hc⟩ | ⟨-, hdb, hresult⟩
    · obtain ⟨hrel, id, now, order, hreply, hplaced⟩ := h.placed hc
      rw [hc.result] at hj
      rcases eq_or_ne j i with rfl | hji
      · rw [Function.update_self, Option.some.injEq] at hj
        subst hj
        obtain ⟨writes, hfiled, hcustomers⟩ := hplaced.customers
        obtain ⟨c, hget, hp⟩ := hfiled.customer (S := firstScope phone) (fun hseen => hseen.2.2.2.2)
          hcustomers
        refine ⟨id, order, c, hreply, ?_, hget, hp.trans (hphone j)⟩
        rw [hplaced.orders]
        exact Table.get_insert_self hplaced.fresh order
      · rw [Function.update_of_ne hji] at hj
        obtain ⟨id', old, c, hreply', horder, hget, hp⟩ := h.owned j reply hj
        obtain ⟨new, hnew, hsame⟩ := hrel.1.orders id' old horder
        obtain ⟨c', hget', hp', -⟩ := hrel.2.2.2 _ c hget
        have hcustomer : new.placed.customerId = old.placed.customerId :=
          congrArg Order.customerId hsame
        have hget'' : s'.db.customers.get new.placed.customerId = some c' := by
          rw [hcustomer]
          exact hget'
        exact ⟨id', new, c', hreply', hnew, hget'', hp'.trans hp⟩
    · rw [hresult] at hj
      rw [hdb]
      exact h.owned j reply hj
  unfailed i e hf := by
    rcases fire_failed hm hf with hbefore | ⟨b, hst⟩
    · exact h.unfailed i e hbefore
    · exact h.keyClash hserial hst

theorem FirstGood.moves (h : FirstGood site drafts phone hphone d₀ s)
    (hserial : SucceedInTurn site drafts answers d₀) (ms : List (Move ι Outside))
    (hms : RunLooksUpApart site drafts phone s ms) :
    FirstGood site drafts phone hphone d₀ (moves (ordering site drafts) s ms) := by
  induction ms generalizing s with
  | nil => exact h
  | cons m ms ih =>
    show FirstGood site drafts phone hphone d₀
      (Transaction.moves _ ((Transaction.fire (ordering site drafts) s m).getD s) ms)
    obtain ⟨hm, hrest⟩ := hms
    rcases hfire : Transaction.fire (ordering site drafts) s m with - | s'
    · rw [hfire] at hrest
      exact ih h hrest
    · rw [hfire] at hrest
      exact ih (h.fire hserial hfire hm) hrest

omit [DecidableEq ι] in
theorem firstGood_initial {d : Db} (hbook : OrderBook d) (hnew : phoneTaken d phone = false) :
    FirstGood site drafts phone hphone d (initial d) := by
  have none : ∀ {id c}, d.customers.get id = some c → c.phone ≠ phone := by
    intro id c hc hp
    rw [Bool.eq_false_iff] at hnew
    exact hnew (phoneTaken_eq_true.mpr ⟨c, Table.mem_rows_of_get hc, hp⟩)
  refine
    { good := (orderingContract site drafts phone hphone).good_initial ⟨hbook,
        fun id c hc hp => absurd hp (none hc), fun id id' c c' hc _ hp => absurd hp (none hc)⟩
      apart := .inr ⟨hnew, fun i _ _ => .inl fun t b ht => ?_⟩
      sold := ⟨∅, fun i => ?_, ?_⟩
      owned := fun i reply hr => ?_
      unfailed := fun i e hf => ?_ }
  · cases ht
  · simp [State.result, initial]
  · show Sold _ d d
    simpa using Sold.refl d
  · cases hr
  · cases hf

end Step

/-- The order has ended, and not because the client went away. -/
def Stopped : Status Db Key Outside Error Reply → Prop
  | .committed _ | .failed _ => True
  | _ => False

/-- Whatever has ended has committed, and one customer with the phone owns all
that has been ordered. -/
structure AllServed (phone : Text) (s : State ι Db Key Outside Error Reply) : Prop where
  committed : ∀ i, Stopped (s.status i) → ∃ id, s.status i = .committed (.row id)
  customer : (∃ i, Stopped (s.status i)) →
    ∃! cid, ∃ c, s.db.customers.get cid = some c ∧ c.phone = phone
  owner : ∀ i id, s.status i = .committed (.row id) → ∃ order c,
    s.db.orders.get id = some order ∧ s.db.customers.get order.customerId = some c ∧
      c.phone = phone

/-- No generated key was in use. -/
def KeysFresh (s : State ι Db Key Outside Error Reply) : Prop :=
  ∀ i, s.status i ≠ .failed (.integrity .primaryKey)

/-- What the order has failed with. -/
def failedWith (s : State ι Db Key Outside Error Reply) (i : ι) : Option Error :=
  match s.status i with
  | .failed e => some e
  | _ => none

omit [DecidableEq ι] in
theorem failedWith_eq_some {i : ι} {e : Error} :
    failedWith s i = some e ↔ s.status i = .failed e := by
  rw [failedWith]
  rcases s.status i with - | - | _ | _ | _ <;> simp

omit [DecidableEq ι] in
theorem result_eq_some {i : ι} {reply : Reply} :
    s.result i = some reply ↔ s.status i = .committed reply := by
  rw [State.result]
  rcases s.status i with - | - | _ | _ | _ <;> simp

omit [DecidableEq ι] in
theorem FirstGood.allServed {hphone : ∀ i, (drafts i).phone = phone} {d₀ : Db}
    (h : FirstGood site drafts phone hphone d₀ s) (hkeys : KeysFresh s) : AllServed phone s := by
  have committed : ∀ i, Stopped (s.status i) → ∃ id, s.status i = .committed (.row id) := by
    intro i hstop
    cases hst : s.status i with
    | committed reply =>
      obtain ⟨id, -, -, rfl, -⟩ := h.owned i reply (result_eq_some.mpr hst)
      exact ⟨id, rfl⟩
    | failed e =>
      exact absurd (hst.trans (congrArg Status.failed (h.unfailed i e hst))) (hkeys i)
    | idle | running | aborted =>
      rw [hst] at hstop
      exact hstop.elim
  have owner : ∀ i id, s.status i = .committed (.row id) → ∃ order c,
      s.db.orders.get id = some order ∧ s.db.customers.get order.customerId = some c ∧
        c.phone = phone := by
    intro i id hst
    obtain ⟨id', order, c, hreply, horder, hget, hp⟩ := h.owned i _ (result_eq_some.mpr hst)
    cases hreply
    exact ⟨order, c, horder, hget, hp⟩
  refine ⟨committed, ?_, owner⟩
  rintro ⟨i, hstop⟩
  obtain ⟨id, hst⟩ := committed i hstop
  obtain ⟨order, c, -, hget, hp⟩ := owner i id hst
  refine ⟨order.customerId, ⟨c, hget, hp⟩, ?_⟩
  rintro cid ⟨c', hget', hp'⟩
  exact h.good.inv.2.single _ _ _ _ hget' hget hp' hp

end Runs

/-- **First orders share their customer where lookups are apart.**  For any
orders of one new phone, each of which succeeds alone after any of the others:
in every run in which a lookup that finds nobody finds all other orders yet to
look, no order fails, and one customer with the phone owns all that has been
ordered. -/
theorem first_orders_share_customer {ι : Type} [DecidableEq ι] (site : Deployment)
    (drafts : ι → OrderDraft) (phone : Text) (hphone : ∀ i, (drafts i).phone = phone) (d : Db)
    (hbook : OrderBook d) (hnew : phoneTaken d phone = false) (answers : ι → ℕ → Outside)
    (hserial : SucceedInTurn site drafts answers d) (ms : List (Move ι Outside))
    (hkeys : KeysFresh (moves (ordering site drafts) (initial d) ms))
    (hapart : RunLooksUpApart site drafts phone (initial d) ms) :
    AllServed phone (moves (ordering site drafts) (initial d) ms) :=
  have hgood : FirstGood site drafts phone hphone d (initial d) := firstGood_initial hbook hnew
  (hgood.moves hserial ms hapart).allServed hkeys

/-! ### One at a time -/

section Alone

variable {ι : Type} [DecidableEq ι] {site : Deployment} {drafts : ι → OrderDraft} {phone : Text}

theorem runLooksUpApart_append (s : State ι Db Key Outside Error Reply)
    (ms ms' : List (Move ι Outside)) (h : RunLooksUpApart site drafts phone s ms)
    (h' : RunLooksUpApart site drafts phone (moves (ordering site drafts) s ms) ms') :
    RunLooksUpApart site drafts phone s (ms ++ ms') := by
  induction ms generalizing s with
  | nil => exact h'
  | cons m ms ih => exact ⟨h.1, ih _ h.2 h'⟩

/-- An order that runs while no other is running looks up apart. -/
theorem runLooksUpApart_alone (i : ι) (s : State ι Db Key Outside Error Reply)
    (hothers : ∀ j, j ≠ i → ∀ t b, s.status j ≠ .running t b) (ms : List (Move ι Outside))
    (hms : ∀ m ∈ ms, m.actor = i) : RunLooksUpApart site drafts phone s ms := by
  induction ms generalizing s with
  | nil => trivial
  | cons m ms ih =>
    have hactor : m.actor = i := hms m List.mem_cons_self
    refine ⟨?_, ih _ (fun j hj t b ht => ?_) fun m' hm' => hms m' (List.mem_cons_of_mem _ hm')⟩
    · cases m with
      | step k v =>
        obtain rfl : k = i := hactor
        exact fun _ _ _ _ j hj t b ht => absurd ht (hothers j hj t b)
      | start | abort => trivial
    · rcases hfire : fire (ordering site drafts) s m with - | s'
      · rw [hfire] at ht
        exact hothers j hj t b ht
      · rw [hfire, Option.getD_some, fire_status_of_ne hfire (hactor.symm ▸ hj)] at ht
        exact hothers j hj t b ht

end Alone

/-! ### Two first orders -/

/-- One fern each, for the same phone. -/
def twoFerns : Bool → OrderDraft := fun _ => oneFern

/-- Each order takes identifiers of its own. -/
def ownAnswers (i : Bool) : ℕ → Outside := freshAnswers (if i then 1 else 0)

/-- The next `n` moves of an order. -/
def orderSteps (i : Bool) (n : ℕ) : List (Move Bool Outside) :=
  (List.range n).map fun k => .step i (ownAnswers i k)

theorem succeedInTurn_ferns : SucceedInTurn smallShop twoFerns ownAnswers Db.ferns := by
  have ok : ∀ others ∈ [[], [true], [false]], ∀ i ∉ others,
      (runAlone (ownAnswers i) ((Request.createOrder (twoFerns i)).body smallShop)
        (inTurn smallShop twoFerns ownAnswers Db.ferns others)).1.toOption.isSome = true := by
    decide +kernel
  intro others hnd i hi
  have hmem : others ∈ [[], [true], [false]] := by
    match others with
    | [] => simp
    | [j] => cases j <;> simp
    | j :: k :: others => cases i <;> cases j <;> cases k <;> simp_all
  have hsome := ok others hmem i hi
  rcases hrun : (runAlone (ownAnswers i) ((Request.createOrder (twoFerns i)).body smallShop)
    (inTurn smallShop twoFerns ownAnswers Db.ferns others)).1 with e | reply
  · rw [hrun] at hsome
    cases hsome
  · exact ⟨reply, rfl⟩

/-- One after the other. -/
def inTurns : List (Move Bool Outside) :=
  (.start false :: orderSteps false 22) ++ (.start true :: orderSteps true 20)

theorem actor_orderSteps (i : Bool) (n : ℕ) :
    ∀ m ∈ Move.start i :: orderSteps i n, m.actor = i := by
  intro m hm
  rcases List.mem_cons.mp hm with rfl | hm
  · rfl
  · obtain ⟨k, -, rfl⟩ := List.mem_map.mp hm
    rfl

theorem first_orders_share_customer_in_turn :
    AllServed oneFern.phone (moves (ordering smallShop twoFerns) (initial Db.ferns) inTurns) := by
  have hresult : ∀ i, ((moves (ordering smallShop twoFerns) (initial Db.ferns) inTurns).result
      i).isSome = true := by decide +kernel
  have hfirst : ((moves (ordering smallShop twoFerns) (initial Db.ferns)
      (.start false :: orderSteps false 22)).result false).isSome = true := by decide +kernel
  refine first_orders_share_customer smallShop twoFerns oneFern.phone (fun _ => rfl) Db.ferns
    orderBook_ferns (by decide) ownAnswers succeedInTurn_ferns inTurns (fun i hi => ?_) ?_
  · have := hresult i
    rw [State.result, hi] at this
    cases this
  · refine runLooksUpApart_append _ _ _ (runLooksUpApart_alone false _ (fun j _ t b ht => ?_) _
      (actor_orderSteps false 22)) (runLooksUpApart_alone true _ (fun j hj t b ht => ?_) _
      (actor_orderSteps true 20))
    · cases ht
    · obtain rfl : j = false := by simpa using hj
      rw [State.result, ht] at hfirst
      cases hfirst

/-- Both have looked the customer up before either of them commits. -/
def bothUnknown : List (Move Bool Outside) :=
  [.start false, .start true] ++ orderSteps true 2 ++ orderSteps false 22 ++ orderSteps true 22

/-- The second order fails. -/
theorem second_first_order_fails :
    ¬ ∀ (site : Deployment) (drafts : Bool → OrderDraft) (phone : Text),
      (∀ i, (drafts i).phone = phone) → ∀ d : Db, OrderBook d → phoneTaken d phone = false →
      ∀ answers, SucceedInTurn site drafts answers d → ∀ ms : List (Move Bool Outside),
        KeysFresh (moves (ordering site drafts) (initial d) ms) →
          AllServed phone (moves (ordering site drafts) (initial d) ms) := by
  intro h
  have hfailures : ∀ i, failedWith (moves (ordering smallShop twoFerns) (initial Db.ferns)
      bothUnknown) i = if i then some (.integrity .customersPhone) else none := by decide +kernel
  have hfailed : (moves (ordering smallShop twoFerns) (initial Db.ferns) bothUnknown).status true =
      .failed (.integrity .customersPhone) := failedWith_eq_some.mp (hfailures true)
  have hserved := h smallShop twoFerns oneFern.phone (fun _ => rfl) Db.ferns orderBook_ferns
    (by decide) ownAnswers succeedInTurn_ferns bothUnknown fun i hi => by
      have hclash := (hfailures i).symm.trans (failedWith_eq_some.mpr hi)
      cases i <;> cases hclash
  obtain ⟨id, hcommitted⟩ := hserved.committed true (by rw [hfailed]; trivial)
  rw [hfailed] at hcommitted
  cases hcommitted

end GreenGarden
