/-
GreenGarden/PhoneLimit.lean

The hourly limit of checkouts per phone, under concurrency.

A checkout counts the orders of its phone when it starts and places its own
much later, and nothing makes two checkouts of one phone wait for each other
in between.  Four that count together all find room, and all four commit
(`rush_exceeds_limit`).

What the limit needs is that no other checkout of the phone commits between the
count of a checkout and its own commit (`CountsApart`): then the room that the
check found is still there at the commit (`placed_with_room`), and no hour
ever holds more than three orders of the phone (`phone_limit_kept`).
-/
import GreenGarden.Guarantee
import GreenGarden.Observing

namespace GreenGarden

open Transaction

/-! ### What is promised -/

/-- Orders of a phone created in the hour that begins at `t`. -/
def ordersWithin (db : Db) (phone : Text) (t : Instant) : ℕ :=
  db.orders.rows.countP fun o =>
    filedUnder db phone o && t ≤ o.createdAt && o.createdAt ≤ t + checkoutPhoneWindow

/-- No hour holds more orders of the phone than the limit allows. -/
def WithinLimit (phone : Text) (db : Db) : Prop :=
  ∀ t, ordersWithin db phone t ≤ checkoutPhoneLimit

/-! ### One commit -/

/-- No customer goes away or changes phone. -/
def PhonesKept (d d' : Db) : Prop :=
  ∀ cid c, d.customers.get cid = some c → ∃ c', d'.customers.get cid = some c' ∧ c'.phone = c.phone

/-- Every order belongs to a customer. -/
def OrdersOwned (db : Db) : Prop :=
  ∀ o ∈ db.orders.rows, (db.customers.get o.customerId).isSome = true

theorem PhonesKept.trans {d d' d'' : Db} (h₁ : PhonesKept d d') (h₂ : PhonesKept d' d'') :
    PhonesKept d d'' := by
  intro cid c hc
  obtain ⟨c', hc', hphone⟩ := h₁ cid c hc
  obtain ⟨c'', hc'', hphone'⟩ := h₂ cid c' hc'
  exact ⟨c'', hc'', hphone'.trans hphone⟩

/-- The scope of a run of checkouts: phones stay as they are. -/
def phoneScope : Scope where
  serialized := false
  inv := OrdersOwned
  rel d d' := PhonesKept d d' ∧ (OrdersOwned d → OrdersOwned d')
  answers _ := True
  refl _ := ⟨fun _ c hc => ⟨c, hc, rfl⟩, id⟩
  trans h₁ h₂ := ⟨h₁.1.trans h₂.1, h₂.2 ∘ h₁.2⟩
  keeps h := h.2

section Commit

variable {now : Instant} {draft : OrderDraft} {id : UUID} {order : Order} {h : Set Key}
variable {d d' : Db}

/-- The customer an order is filed under has the phone of the draft. -/
theorem Filed.phone {writes : Table UUID Customer → Table UUID Customer} {cid : UUID}
    (hf : Filed phoneScope draft h d cid writes) (hd : d'.customers = writes d.customers) :
    PhonesKept d d' ∧ ∃ c, d'.customers.get cid = some c ∧ c.phone = draft.phone := by
  cases hf with
  | known hseen hget hphone =>
    obtain ⟨c, hc, hc'⟩ := hseen.2.2.1 cid _ hget
    rw [PhonesKept, hd]
    exact ⟨fun _ c hc => ⟨c, hc, rfl⟩, c, hc, hc'.trans hphone⟩
  | filled email hseen hget hphone =>
    obtain ⟨c, hc, hc'⟩ := hseen.2.2.1 cid _ hget
    rw [PhonesKept, hd]
    refine ⟨fun cid' c' hget' => ?_, { c with email := email }, ?_, hc'.trans hphone⟩
    · rw [Table.get_modify, hget']
      split
      · exact ⟨_, rfl, rfl⟩
      · exact ⟨c', rfl, rfl⟩
    · rw [Table.get_modify_self, hc]
      rfl
  | created hseen hunknown hid hphone hnew =>
    rw [PhonesKept, hd]
    refine ⟨fun cid' c' hget' => ⟨c', Table.get_insert_of_get hget', rfl⟩, ?_⟩
    exact ⟨_, Table.get_insert_self hnew _, rfl⟩

theorem Placed.phone (hp : Placed phoneScope now draft id order h d d') :
    PhonesKept d d' ∧ ∃ c, d'.customers.get order.customerId = some c ∧ c.phone = draft.phone := by
  obtain ⟨writes, hfiled, hcustomers⟩ := hp.customers
  exact hfiled.phone hcustomers

theorem Placed.ordersOwned (hp : Placed phoneScope now draft id order h d d')
    (howned : OrdersOwned d) : OrdersOwned d' := by
  obtain ⟨hkept, c, hc, -⟩ := hp.phone
  intro o ho
  rcases hp.mem_rows.mp ho with ho | rfl
  · obtain ⟨c', hc'⟩ := Option.isSome_iff_exists.mp (howned o ho)
    obtain ⟨c'', hc'', -⟩ := hkept _ c' hc'
    rw [hc'']
    rfl
  · rw [hc]
    rfl

/-- An order that was there is filed under the same phone as before. -/
theorem filedUnder_of_kept (hkept : PhonesKept d d') {o : Order}
    (howned : (d.customers.get o.customerId).isSome = true) (phone : Text) :
    filedUnder d' phone o = filedUnder d phone o := by
  obtain ⟨c, hc⟩ := Option.isSome_iff_exists.mp howned
  obtain ⟨c', hc', hphone⟩ := hkept _ c hc
  rw [filedUnder, filedUnder, hc, hc', Option.any_some, Option.any_some, hphone]

/-- What an order adds to a count of the orders of a phone. -/
theorem Placed.countP_filedUnder (hp : Placed phoneScope now draft id order h d d')
    (howned : OrdersOwned d) (phone : Text) (p : Order → Bool) :
    d'.orders.rows.countP (fun o => filedUnder d' phone o && p o)
      = d.orders.rows.countP (fun o => filedUnder d phone o && p o)
        + if draft.phone = phone ∧ p order = true then 1 else 0 := by
  obtain ⟨hkept, c, hc, hphone⟩ := hp.phone
  have hnew : filedUnder d' phone order = decide (draft.phone = phone) := by
    rw [filedUnder, hc, Option.any_some, hphone]
  have hold : d.orders.rows.countP (fun o => filedUnder d' phone o && p o)
      = d.orders.rows.countP (fun o => filedUnder d phone o && p o) := by
    refine List.countP_congr fun o ho => ?_
    rw [filedUnder_of_kept hkept (howned o ho)]
  rw [hp.orders, Table.rows_insert hp.fresh, List.countP_append, hold, List.countP_singleton, hnew]
  simp only [Bool.and_eq_true, decide_eq_true_eq]

/-- What an order adds to the count of an hour. -/
theorem Placed.ordersWithin (hp : Placed phoneScope now draft id order h d d')
    (howned : OrdersOwned d) (phone : Text) (t : Instant) :
    GreenGarden.ordersWithin d' phone t = GreenGarden.ordersWithin d phone t
      + if draft.phone = phone ∧ t ≤ now ∧ now ≤ t + checkoutPhoneWindow then 1 else 0 := by
  have hcount := hp.countP_filedUnder howned phone
    fun o => t ≤ o.createdAt && o.createdAt ≤ t + checkoutPhoneWindow
  simp only [← Bool.and_assoc, hp.row.createdAt, Bool.and_eq_true, decide_eq_true_eq] at hcount
  exact hcount

theorem length_ordersSince (db : Db) (phone : Text) (since : Instant) :
    (ordersSince db phone since).length
      = db.orders.rows.countP fun o => filedUnder db phone o && since ≤ o.createdAt := by
  rw [ordersSince, List.length_insertionSort, List.length_map, ← List.countP_eq_length_filter]

/-- An order of another phone is not counted. -/
theorem Placed.length_ordersSince (hp : Placed phoneScope now draft id order h d d')
    (howned : OrdersOwned d) {phone : Text} (hne : draft.phone ≠ phone) (since : Instant) :
    (ordersSince d' phone since).length = (ordersSince d phone since).length := by
  rw [GreenGarden.length_ordersSince, GreenGarden.length_ordersSince,
    hp.countP_filedUnder howned phone fun o => since ≤ o.createdAt, if_neg fun h => hne h.1,
    add_zero]

/-- Orders of an hour that has not ended before `now` were created since an
hour before `now`. -/
theorem ordersWithin_le_ordersSince {db : Db} {phone : Text} {t : Instant}
    (hnow : now ≤ t + checkoutPhoneWindow) :
    GreenGarden.ordersWithin db phone t
      ≤ (ordersSince db phone (now - checkoutPhoneWindow)).length := by
  rw [length_ordersSince]
  -- an order of the window was created within the hour before `now`
  refine List.countP_mono_left fun o _ ho => ?_
  simp only [Bool.and_eq_true, decide_eq_true_eq] at ho ⊢
  refine ⟨ho.1.1, sub_le_iff_le_add.mpr (hnow.trans ?_)⟩
  gcongr
  exact ho.1.2

/-- A commit that finds room keeps the limit. -/
theorem Placed.withinLimit (hp : Placed phoneScope now draft id order h d d')
    (howned : OrdersOwned d) {phone : Text} (hlimit : WithinLimit phone d)
    (hroom : draft.phone = phone →
      (ordersSince d phone (now - checkoutPhoneWindow)).length < checkoutPhoneLimit) :
    WithinLimit phone d' := by
  intro t
  rw [hp.ordersWithin howned]
  split
  · rename_i hin
    have hcount : GreenGarden.ordersWithin d phone t
        ≤ (ordersSince d phone (now - checkoutPhoneWindow)).length :=
      ordersWithin_le_ordersSince hin.2.2
    have := hroom hin.1
    omega
  · exact hlimit t

end Commit

/-! ### Runs -/

section Runs

variable {ι : Type}

/-- The contract of a run of checkouts. -/
def phoneContract (site : Deployment) (payloads : ι → StorefrontOrderCreate) :
    Contract (shop site false fun i => .postStorefrontOrder (payloads i)) :=
  shopContract phoneScope site _ (fun _ => trivial) fun _ _ _ _ _ _ hp => by
    obtain ⟨_, -, _, ⟨order, hplaced⟩, -⟩ := hp
    exact ⟨hplaced.phone.1, hplaced.ordersOwned⟩

variable [DecidableEq ι]

/-- The engine after `n` moves of checkouts. -/
def checkoutRun (site : Deployment) (payloads : ι → StorefrontOrderCreate) (d : Db)
    (ms : ℕ → Move ι Outside) : ℕ → State ι Db Key Outside Error Reply :=
  trace (shop site false fun i => .postStorefrontOrder (payloads i)) d ms

/-- Every move leaves the database and the replies alone, or is a commit. -/
theorem checkoutRun_step (site : Deployment) (payloads : ι → StorefrontOrderCreate) (d : Db)
    (ms : ℕ → Move ι Outside) (n : ℕ) :
    ((checkoutRun site payloads d ms (n + 1)).db = (checkoutRun site payloads d ms n).db ∧
      (checkoutRun site payloads d ms (n + 1)).result
        = (checkoutRun site payloads d ms n).result) ∨
    ∃ i reply b, Commits (checkoutRun site payloads d ms n)
      (checkoutRun site payloads d ms (n + 1)) i reply b :=
  trace_step _ d ms n

/-! ### The count -/

/-- What is left of a checkout that has read the clock: the count, and the order. -/
def countThenOrder (now : Instant) (payload : StorefrontOrderCreate) : Session Reply :=
  replyRow do
    checkCheckoutPhoneLimit now payload.phone
    createOrderAt now payload.draft

/-- With this move the checkout counts the orders of its phone. -/
def Counts (payloads : ι → StorefrontOrderCreate) (s : State ι Db Key Outside Error Reply)
    (move : Move ι Outside) (i : ι) (now : Instant) : Prop :=
  (∃ v, move = .step i v) ∧ s.status i = .running (countThenOrder now (payloads i)) []

/-- No other checkout of the phone commits between the count of a checkout and
its own commit. -/
def CountsApart (site : Deployment) (payloads : ι → StorefrontOrderCreate) (phone : Text) (d : Db)
    (ms : ℕ → Move ι Outside) : Prop :=
  ∀ m n i now reply b, normalizeVnPhone (payloads i).phone = phone →
    Counts payloads (checkoutRun site payloads d ms m) (ms m) i now →
    Commits (checkoutRun site payloads d ms n) (checkoutRun site payloads d ms (n + 1)) i reply b →
    ∀ k j reply' b', m ≤ k → k < n →
      Commits (checkoutRun site payloads d ms k) (checkoutRun site payloads d ms (k + 1)) j
        reply' b' →
      normalizeVnPhone (payloads j).phone ≠ phone

/-- A body that has not counted yet, or fails before it does or for what it counts. -/
def YetToCount (payload : StorefrontOrderCreate) (t : Session Reply) : Prop :=
  (∃ e, t = .fail e) ∨ (t = .ask fun v => countThenOrder v.now payload) ∨
    ∃ now, t = countThenOrder now payload

/-- Where `i` is running, it has not counted yet. -/
def YetToCountAt (payloads : ι → StorefrontOrderCreate) (s : State ι Db Key Outside Error Reply)
    (i : ι) : Prop :=
  ∀ t b, s.status i = .running t b → b = [] ∧ YetToCount (payloads i) t

/-- The check leaves room for the order of a checkout. -/
def HasRoom (payload : StorefrontOrderCreate) (now : Instant) (db : Db) : Prop :=
  (ordersSince db (normalizeVnPhone payload.phone) (now - checkoutPhoneWindow)).length
    < checkoutPhoneLimit

omit [DecidableEq ι] in
theorem yetToCount_body (site : Deployment) (payload : StorefrontOrderCreate) :
    YetToCount payload ((Request.postStorefrontOrder payload).body site) := by
  show YetToCount payload (replyRow (postStorefrontOrder site.settings payload))
  rw [postStorefrontOrder, raiseIf, Tx.failIf]
  rcases verifyBotSignals payload.toBotSignals with e | _
  · exact .inl ⟨e, rfl⟩
  · split
    · exact .inl ⟨_, rfl⟩
    · exact .inr (.inl rfl)

omit [DecidableEq ι] in
theorem not_yetToCount_ret {payload : StorefrontOrderCreate} {reply : Reply} :
    ¬ YetToCount payload (.ret reply) := by
  rintro (⟨e, h⟩ | h | ⟨now, h⟩) <;> cases h

omit [DecidableEq ι] in
/-- **The check.**  The count goes on with the order where it finds room, and fails where not. -/
theorem read_countThenOrder (now : Instant) (payload : StorefrontOrderCreate) :
    ∃ f, countThenOrder now payload = .read f ∧ ∀ db,
      (HasRoom payload now db ∧ f db = replyRow (createOrderAt now payload.draft)) ∨
      ∃ e, f db = .fail e := by
  refine ⟨_, rfl, fun db => ?_⟩
  obtain ⟨rows, hread⟩ : ∃ rows, (ordersSince db (normalizeVnPhone payload.phone)
    (now - checkoutPhoneWindow)).take checkoutPhoneLimit = rows := ⟨_, rfl⟩
  -- the query reads no more rows than the limit
  have hrows : ¬ rows.length < checkoutPhoneLimit ↔ ¬ HasRoom payload now db := by
    rw [HasRoom, ← hread, List.length_take]
    omega
  by_cases hroom : HasRoom payload now db
  · refine .inl ⟨hroom, ?_⟩
    simp only [raiseIf, Tx.failIf, Tx.bind, hread]
    rw [if_neg fun h => hrows.mp h hroom]
    rfl
  · refine .inr ⟨.checkoutRateLimited (retryAfter (rows.getLastD now) now), ?_⟩
    simp only [raiseIf, Tx.failIf, Tx.bind, hread]
    rw [if_pos (hrows.mpr hroom)]
    rfl

variable {site : Deployment} {payloads : ι → StorefrontOrderCreate} {phone : Text} {d : Db}
variable {ms : ℕ → Move ι Outside} {s s' : State ι Db Key Outside Error Reply}
variable {move : Move ι Outside} {i : ι} {n : ℕ}

/-- **One move.**  Who had not counted still has not, or counts now and finds room. -/
theorem yetToCountAt_fire
    (hm : fire (shop site false fun i => .postStorefrontOrder (payloads i)) s move = some s')
    (hyet : YetToCountAt payloads s i) :
    YetToCountAt payloads s' i ∨ ∃ now, Counts payloads s move i now ∧
      HasRoom (payloads i) now s.db ∧ s'.db = s.db ∧
      s'.status i = .running (replyRow (createOrderAt now (payloads i).draft)) [] := by
  rcases eq_or_ne i move.actor with rfl | hi
  swap
  · refine .inl fun t b ht => hyet t b ?_
    rwa [fire_status_of_ne hm hi] at ht
  -- a status that is entered before the count
  have entered : ∀ {i t}, s'.status i = .running t [] → YetToCount (payloads i) t →
      YetToCountAt payloads s' i := by
    intro i t hst ht t' b' hst'
    rw [hst] at hst'
    cases hst'
    exact ⟨rfl, ht⟩
  have ended : ∀ {i st}, s'.status i = st → (∀ t b, st ≠ .running t b) →
      YetToCountAt payloads s' i :=
    fun hst hrun t b ht => absurd (hst.symm.trans ht) (hrun t b)
  cases move with
  | start i =>
    obtain ⟨-, -, rfl⟩ := fire_start hm
    exact .inl (entered (Function.update_self _ _ _) (yetToCount_body site (payloads i)))
  | abort i =>
    obtain ⟨t, b, -, rfl⟩ := fire_abort hm
    exact .inl (ended (Function.update_self _ _ _) (by simp))
  | step i v =>
    obtain ⟨t, b, hst, hadv⟩ := fire_step hm
    obtain ⟨rfl, ⟨e, rfl⟩ | rfl | ⟨now, rfl⟩⟩ := hyet t b hst
    · obtain rfl := Option.some.inj hadv
      exact .inl (ended (Function.update_self _ _ _) (by simp))
    · -- the clock is read
      obtain rfl := Option.some.inj hadv
      exact .inl (entered (Function.update_self _ _ _) (.inr (.inr ⟨v.now, rfl⟩)))
    · -- the count
      obtain ⟨f, hread, hcheck⟩ := read_countThenOrder now (payloads i)
      have hadv' : advance s i v [] (.read f) = some s' := hread ▸ hadv
      have hs : s' = s.resume i (f s.db) [] := (Option.some.inj hadv').symm
      have hself : s'.status i = .running (f s.db) [] := by
        rw [hs]
        exact Function.update_self _ _ _
      rcases hcheck s.db with ⟨hroom, hf⟩ | ⟨e, hf⟩
      · rw [hf] at hself
        exact .inr ⟨now, ⟨⟨v, rfl⟩, hst⟩, hroom, by rw [hs]; rfl, hself⟩
      · rw [hf] at hself
        exact .inl (entered hself (.inl ⟨e, rfl⟩))

/-- What is left of a checkout past its count places the order. -/
def Placing (payload : StorefrontOrderCreate) (now : Instant) (t : Session Reply) (h : Set Key)
    (b : List (Db → Db)) (d : Db) : Prop :=
  wp phoneScope.rely (fun _ _ => True) t
    (Stable phoneScope.rely fun _ h b d => ∃ id order,
      Placed phoneScope now payload.draft id order h d (flush b d)) h b d

/-- Before move `n` the checkout has counted, with move `m`, and has found room. -/
structure FoundRoom (site : Deployment) (payloads : ι → StorefrontOrderCreate) (d : Db)
    (ms : ℕ → Move ι Outside) (n : ℕ) (i : ι) (now : Instant) (m : ℕ) : Prop where
  before : m < n
  counts : Counts payloads (checkoutRun site payloads d ms m) (ms m) i now
  room : HasRoom (payloads i) now (checkoutRun site payloads d ms m).db
  placing : (phoneContract site payloads).At (Placing (payloads i) now)
    (checkoutRun site payloads d ms n) i

/-- Who is running has not counted yet, or has counted and found room. -/
theorem foundRoom_run (site : Deployment) (payloads : ι → StorefrontOrderCreate)
    (ms : ℕ → Move ι Outside) (howned : OrdersOwned d) (n : ℕ) (i : ι) :
    YetToCountAt payloads (checkoutRun site payloads d ms n) i ∨
      ∃ now m, FoundRoom site payloads d ms n i now m := by
  induction n with
  | zero =>
    refine .inl fun t b ht => ?_
    cases ht
  | succ n ih =>
    have good := (phoneContract site payloads).good_trace howned ms n
    rcases hm : fire (shop site false fun i => .postStorefrontOrder (payloads i))
      (checkoutRun site payloads d ms n) (ms n) with - | s'
    · -- a move that cannot be made
      have hsame : checkoutRun site payloads d ms (n + 1) = checkoutRun site payloads d ms n := by
        rw [checkoutRun, trace_succ, ← checkoutRun, hm]
        rfl
      rcases ih with hyet | ⟨now, m, hc⟩
      · rw [hsame]
        exact .inl hyet
      · exact .inr ⟨now, m, Nat.lt_succ_of_lt hc.before, hc.counts, hc.room, hsame ▸ hc.placing⟩
    · have hnext : checkoutRun site payloads d ms (n + 1) = s' := by
        rw [checkoutRun, trace_succ, ← checkoutRun, hm]
        rfl
      by_cases hyet : YetToCountAt payloads (checkoutRun site payloads d ms n) i
      · rcases yetToCountAt_fire hm hyet with hyet' | ⟨now, hcounts, hroom, hdb, hst⟩
        · rw [hnext]
          exact .inl hyet'
        · refine .inr ⟨now, n, Nat.lt_succ_self n, hcounts, hroom, ?_⟩
          rw [hnext]
          intro t b ht
          rw [hst] at ht
          cases ht
          refine ⟨s'.db, phoneScope.rely.refl _ _, ?_⟩
          have hinv : phoneScope.inv s'.db := hdb ▸ good.inv
          exact wp_bind (wp_mono (fun _ _ _ => trivial)
            (fun id h b d hq d' hd' => ⟨id, (hq d' hd').1⟩) (wp_createOrderAt hinv))
      · obtain ⟨now, m, hc⟩ := ih.resolve_left hyet
        refine .inr ⟨now, m, Nat.lt_succ_of_lt hc.before, hc.counts, hc.room, ?_⟩
        rw [hnext]
        -- it has started, as it has counted
        refine hc.placing.fire (stepwise_wp _ _ _) good hm fun hidle => ?_
        exact absurd (fun t b ht => by cases hidle.symm.trans ht) hyet

/-- Orders of other phones leave the count alone. -/
theorem length_ordersSince_run (ms : ℕ → Move ι Outside) (howned : OrdersOwned d) {m n : ℕ}
    (hmn : m ≤ n)
    (hothers : ∀ k j reply b, m ≤ k → k < n →
      Commits (checkoutRun site payloads d ms k) (checkoutRun site payloads d ms (k + 1)) j
        reply b → normalizeVnPhone (payloads j).phone ≠ phone) (since : Instant) :
    (ordersSince (checkoutRun site payloads d ms n).db phone since).length
      = (ordersSince (checkoutRun site payloads d ms m).db phone since).length := by
  induction n, hmn using Nat.le_induction with
  | base => rfl
  | succ n hmn ih =>
    rw [← ih fun k j reply b hmk hkn => hothers k j reply b hmk (Nat.lt_succ_of_lt hkn)]
    rcases checkoutRun_step site payloads d ms n with ⟨hdb, -⟩ | ⟨j, reply, b, hc⟩
    · rw [hdb]
    · have good := (phoneContract site payloads).good_trace howned ms n
      obtain ⟨id, -, now, ⟨order, hplaced⟩, -⟩ := good.post hc.1
      rw [hc.db]
      exact hplaced.length_ordersSince good.inv
        (hothers n j reply b hmn (Nat.lt_succ_self n) hc) since

/-- **Room at the commit.**  Where counts are apart, a checkout commits an order
that the count before it still has room for. -/
theorem placed_with_room (howned : OrdersOwned d)
    (hapart : CountsApart site payloads phone d ms)
    (hphone : normalizeVnPhone (payloads i).phone = phone)
    {reply : Reply} {b : List (Db → Db)}
    (hc : Commits (checkoutRun site payloads d ms n) (checkoutRun site payloads d ms (n + 1)) i
      reply b) :
    ∃ now id order, HasRoom (payloads i) now (checkoutRun site payloads d ms n).db ∧
      Placed phoneScope now (payloads i).draft id order
        ((checkoutRun site payloads d ms n).held i) (checkoutRun site payloads d ms n).db
        (checkoutRun site payloads d ms (n + 1)).db := by
  rcases foundRoom_run site payloads ms howned n i with hyet | ⟨now, m, hfound⟩
  · exact absurd (hyet _ _ hc.1).2 not_yetToCount_ret
  · obtain ⟨d', hd', hplacing⟩ := hfound.placing _ _ hc.1
    obtain ⟨id, order, hplaced⟩ := hplacing _ hd'
    refine ⟨now, id, order, ?_, hc.db ▸ hplaced⟩
    have hcount := length_ordersSince_run ms howned hfound.before.le
      (hapart m n i now reply b hphone hfound.counts hc) (now - checkoutPhoneWindow)
    have hroom := hfound.room
    rw [HasRoom, hphone] at hroom ⊢
    rwa [hcount]

/-- **The phone limit.**  In a run of checkouts in which no other checkout of the
phone commits between the count of a checkout and its own commit, no hour ever
holds more than three orders of the phone. -/
theorem phone_limit_kept (site : Deployment) (payloads : ι → StorefrontOrderCreate) {d : Db}
    (howned : OrdersOwned d) {phone : Text} (hlimit : WithinLimit phone d)
    (ms : ℕ → Move ι Outside) (hapart : CountsApart site payloads phone d ms) (n : ℕ) :
    WithinLimit phone (checkoutRun site payloads d ms n).db := by
  induction n with
  | zero => exact hlimit
  | succ n ih =>
    have good : (phoneContract site payloads).Good (checkoutRun site payloads d ms n) :=
      (phoneContract site payloads).good_trace howned ms n
    rcases checkoutRun_step site payloads d ms n with ⟨hdb, -⟩ | ⟨i, reply, b, hc⟩
    · rw [hdb]
      exact ih
    -- only a checkout of this phone adds to its windows
    by_cases hphone : normalizeVnPhone (payloads i).phone = phone
    · obtain ⟨now, id, order, hroom, hplaced⟩ := placed_with_room howned hapart hphone hc
      refine hplaced.withinLimit good.inv ih fun _ => ?_
      rwa [HasRoom, hphone] at hroom
    · obtain ⟨id, -, now, ⟨order, hplaced⟩, -⟩ := good.post hc.1
      rw [hc.db]
      exact hplaced.withinLimit good.inv ih fun h => absurd h hphone

end Runs

/-! ### Checkouts of one phone -/

/-- A fern, ordered in the shop. -/
def fernCheckout : StorefrontOrderCreate where
  website := none
  formElapsedMs := some 5000
  phone := "090 123 4567".toList
  name := "An".toList
  paymentMethod := .cod
  shippingAddress := "Hue".toList
  note := none
  items := [⟨7, 1⟩]

/-- Two checkouts at once.  The second has read the clock before the first
starts to count, and counts after the first has committed. -/
def countingLater (n : ℕ) : Move Bool Outside :=
  if n = 0 then .start false
  else if n = 1 then .start true
  else if n = 2 then .step true (atNoon 0)
  else if n < 40 then .step false (atNoon n)
  else .step true (atNoon n)

/-- Both commit, and their hour holds two orders of the phone. -/
theorem phone_limit_kept_counting_later :
    WithinLimit "0901234567".toList
      (checkoutRun smallShop (fun _ : Bool => fernCheckout) Db.ferns countingLater 60).db ∧
    ordersWithin (checkoutRun smallShop (fun _ : Bool => fernCheckout) Db.ferns
      countingLater 60).db "0901234567".toList (atNoon 0).now = 2 := by
  have hfirst : ∀ {n reply b}, Commits
      (checkoutRun smallShop (fun _ : Bool => fernCheckout) Db.ferns countingLater n)
      (checkoutRun smallShop (fun _ => fernCheckout) Db.ferns countingLater (n + 1)) false reply b →
      n = 29 := fun hc => commit_moment hc (by decide +kernel) (by decide +kernel)
  have hsecond : ∀ {n reply b}, Commits
      (checkoutRun smallShop (fun _ : Bool => fernCheckout) Db.ferns countingLater n)
      (checkoutRun smallShop (fun _ => fernCheckout) Db.ferns countingLater (n + 1)) true reply b →
      n = 59 := fun hc => commit_moment hc (by decide +kernel) (by decide +kernel)
  -- before it goes on to count, the second checkout only reads the clock
  have hclock : ∃ f, (checkoutRun smallShop (fun _ : Bool => fernCheckout) Db.ferns
      countingLater 2).status true = .running (.ask f) [] := ⟨_, rfl⟩
  refine ⟨phone_limit_kept smallShop (fun _ : Bool => fernCheckout) (fun o ho => by cases ho)
    (fun _ => Nat.zero_le _) countingLater ?_ 60, by decide +kernel⟩
  rintro m n i now reply b - ⟨⟨v, hmove⟩, hst⟩ hc k j reply' b' hmk hkn hc' -
  cases i with
  | false =>
    obtain rfl := hfirst hc
    cases j with
    | false => exact absurd (hfirst hc') hkn.ne
    | true => exact absurd (hsecond hc') (by omega)
  | true =>
    cases j with
    | true => exact absurd ((hsecond hc').trans (hsecond hc).symm) hkn.ne
    | false =>
      obtain rfl := hfirst hc'
      have hm : m = 2 := by
        unfold countingLater at hmove
        split_ifs at hmove <;> first | omega | cases hmove
      obtain ⟨f, hf⟩ := hclock
      rw [hm, hf] at hst
      cases hst

/-- Four checkouts at once: each of them counts before the first one commits. -/
def rush (n : ℕ) : Move (Fin 4) Outside :=
  if n < 4 then .start (Fin.ofNat 4 n)
  else if n < 12 then .step (Fin.ofNat 4 n) (atNoon n)
  else .step (Fin.ofNat 4 ((n - 12) / 32)) (atNoon n)

/-- All four commit, and their hour holds four orders of the phone. -/
theorem rush_exceeds_limit :
    ¬ WithinLimit "0901234567".toList (checkoutRun smallShop (fun _ : Fin 4 => fernCheckout)
      { Db.ferns with plants := Table.empty.insert 7 { fern with stock := 4 } } rush 140).db := by
  intro h
  have hfour : ordersWithin (checkoutRun smallShop (fun _ : Fin 4 => fernCheckout)
      { Db.ferns with plants := Table.empty.insert 7 { fern with stock := 4 } } rush 140).db
      "0901234567".toList (atNoon 0).now = 4 := by decide +kernel
  have hlimit := h (atNoon 0).now
  rw [hfour] at hlimit
  exact absurd hlimit (by decide)

end GreenGarden
