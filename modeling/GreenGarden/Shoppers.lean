/-
GreenGarden/Shoppers.lean

One shopper, one customer?

A checkout looks the customer up by the canonical form of the phone typed;
the administrators' requests look it up, and store it, as typed.  Rows never
share a phone (`PhonesDistinct`), but one number can be stored in two
spellings: then a checkout leaves two rows for it (`shopper_duplicated`).

While the administrators write the number in its canonical spelling, and give
no other number to the row that has it (`KeepsNumber`), every row that has it
spells it so, and no row loses it (`Request.keepsNumber_step`).  From the first
checkout that commits there is then exactly one, and while that one is inactive
no checkout commits (`one_customer_per_shopper`).
-/
import GreenGarden.Guarantee

namespace GreenGarden

open Transaction

/-- The phone typed at the checkout, where a request is one. -/
def Request.checkoutPhone : Request → Option Text
  | .createOrder draft => if draft.source = .storefront then some draft.customerPhone else none
  | .postStorefrontOrder payload => some payload.phone
  | _ => none

/-- The row is the customer of this phone number, however it is written. -/
def HasNumber (db : Db) (phone : Text) (id : UUID) : Prop :=
  ∃ c, db.customers.get id = some c ∧ normalizeVnPhone c.phone = normalizeVnPhone phone

/-- No row holds the number in a spelling other than the canonical one. -/
def SpelledCanonically (db : Db) (phone : Text) : Prop :=
  ∀ c ∈ db.customers.rows, normalizeVnPhone c.phone = normalizeVnPhone phone →
    c.phone = normalizeVnPhone phone

/-- No two rows have the same phone. -/
def PhonesDistinct (db : Db) : Prop :=
  ∀ id id' c c', db.customers.get id = some c → db.customers.get id' = some c' →
    c.phone = c'.phone → id = id'

/-- The shop after `n` requests, one after another, each with its own outside
values; there are no customers at first. -/
def shopRun (site : Deployment) (shop : Db) (requests : ℕ → Request)
    (answers : ℕ → ℕ → Outside) : ℕ → Db
  | 0 => { shop with customers := .empty }
  | n + 1 =>
      (runAlone (answers n) ((requests n).body site) (shopRun site shop requests answers n)).2

/-! ### What a request does to the customers -/

section Step

variable {S : Scope} {site : Deployment} {request : Request} {reply : Reply} {h : Set Key}
variable {b : List (Db → Db)} {d : Db}

/-- What a request is to do to the customers, but for the customer of an order. -/
def Request.customerChange : Request → Option CustomerChange
  | .createCustomer phone name email => some (.create ⟨phone, name, email, true⟩)
  | .updateCustomer id patch => some (.edit id patch.apply)
  | .setCustomerStatus id isActive => some (.edit id (Customer.activated isActive))
  | _ => none

/-- A request places an order, or changes the customers, or leaves them alone. -/
theorem Request.customers_cases (hp : request.post S site reply h b d) :
    (∃ draft now id order, request.draft? = some draft ∧
      Placed S now draft id order h d (flush b d)) ∨
    request.draft? = none ∧ ((flush b d).customers = d.customers ∨
      ∃ change writes, request.customerChange = some change ∧ CustomerWrite h d change writes ∧
        (flush b d).customers = writes d.customers) := by
  cases request with
  | createOrder draft =>
    obtain ⟨id, -, now, ⟨order, hplaced⟩, -⟩ := hp
    exact .inl ⟨draft, now, id, order, rfl, hplaced⟩
  | postStorefrontOrder payload =>
    obtain ⟨id, -, now, ⟨order, hplaced⟩, -⟩ := hp
    exact .inl ⟨payload.draft, now, id, order, rfl, hplaced⟩
  | updateOrderStatus id target =>
    obtain ⟨_, -, rfl | ⟨-, seen, old, order, hm⟩, -⟩ := hp
    · exact .inr ⟨rfl, .inl rfl⟩
    · exact .inr ⟨rfl, .inl hm.customers⟩
  | processSepayWebhook payload =>
    obtain ⟨status, -, hw, -⟩ := hp
    cases status with
    | none =>
      obtain ⟨rfl, -⟩ := hw
      exact .inr ⟨rfl, .inl rfl⟩
    | some status =>
      obtain ⟨tid, amount, orderId, hs⟩ := hw
      exact .inr ⟨rfl, .inl hs.customers⟩
  | createPlant | updatePlant | setPlantStatus =>
    obtain ⟨_, -, he, -⟩ := hp
    exact .inr ⟨rfl, .inl he.customers⟩
  | createCustomer | updateCustomer | setCustomerStatus =>
    obtain ⟨_, -, he, -⟩ := hp
    obtain ⟨writes, hw, hcustomers⟩ := he.customers
    exact .inr ⟨rfl, .inr ⟨_, writes, rfl, hw, hcustomers⟩⟩

/-- A row that is added has a phone of its own. -/
theorem PhonesDistinct.insert {d' : Db} {id : UUID} {customer : Customer} (hd : PhonesDistinct d)
    (hnew : d.customers.get id = none) (hfree : phoneTaken d customer.phone = false)
    (hcustomers : d'.customers = d.customers.insert id customer) : PhonesDistinct d' := by
  have other : ∀ {k c}, d.customers.get k = some c → c.phone ≠ customer.phone := by
    intro k c hc heq
    rw [Bool.eq_false_iff] at hfree
    exact hfree (phoneTaken_eq_true.mpr ⟨c, Table.mem_rows_of_get hc, heq⟩)
  intro k k' c c' hk hk' hphone
  rw [hcustomers, Table.get_insert hnew] at hk hk'
  split at hk <;> split at hk'
  · rename_i h₁ h₂
    exact h₁.trans h₂.symm
  · cases hk
    exact absurd hphone.symm (other hk')
  · cases hk'
    exact absurd hphone (other hk)
  · exact hd _ _ _ _ hk hk' hphone

/-- A row that is edited keeps its phone, or gets one that was free. -/
theorem PhonesDistinct.modify {d' : Db} {id : UUID} {f : Customer → Customer}
    (hd : PhonesDistinct d) (hcustomers : d'.customers = d.customers.modify id f)
    (hf : ∀ c, (f c).phone = c.phone ∨ phoneTaken d (f c).phone = false) : PhonesDistinct d' := by
  have row : ∀ {k c}, d'.customers.get k = some c → ∃ old, d.customers.get k = some old ∧
      (c.phone = old.phone ∨ k = id ∧ phoneTaken d c.phone = false) := by
    intro k c hk
    rw [hcustomers, Table.get_modify] at hk
    split at hk
    · rename_i hid
      obtain ⟨old, hold, rfl⟩ := Option.map_eq_some_iff.mp hk
      exact ⟨old, hold, (hf old).imp (fun h => h) fun h => ⟨hid, h⟩⟩
    · exact ⟨c, hk, .inl rfl⟩
  have free : ∀ {k c phone}, d.customers.get k = some c → phoneTaken d phone = false →
      c.phone ≠ phone := by
    intro k c phone hc hfree heq
    rw [Bool.eq_false_iff] at hfree
    exact hfree (phoneTaken_eq_true.mpr ⟨c, Table.mem_rows_of_get hc, heq⟩)
  intro k k' c c' hk hk' hphone
  obtain ⟨old, hold, hsame | ⟨rfl, hfree⟩⟩ := row hk
  · obtain ⟨old', hold', hsame' | ⟨rfl, hfree'⟩⟩ := row hk'
    · exact hd _ _ _ _ hold hold' (hsame.symm.trans (hphone.trans hsame'))
    · exact absurd (hsame.symm.trans hphone) (free hold hfree')
  · obtain ⟨old', hold', hsame' | ⟨rfl, -⟩⟩ := row hk'
    · exact absurd (hsame'.symm.trans hphone.symm) (free hold' hfree)
    · rfl

/-- **Every commit keeps phones apart.** -/
theorem PhonesDistinct.step (hd : PhonesDistinct d) (hp : request.post S site reply h b d) :
    PhonesDistinct (flush b d) := by
  have same : (flush b d).customers = d.customers → PhonesDistinct (flush b d) := by
    intro heq id id' c c' hc hc'
    rw [heq] at hc hc'
    exact hd _ _ _ _ hc hc'
  rcases Request.customers_cases hp with ⟨draft, now, id, order, -, hplaced⟩ |
    ⟨-, hsame | ⟨change, writes, -, hw, hcustomers⟩⟩
  · obtain ⟨writes, hfiled, hcustomers⟩ := hplaced.customers
    cases hfiled with
    | known => exact same hcustomers
    | filled => exact hd.modify hcustomers fun _ => .inl rfl
    | created _ _ _ _ hnew hfree => exact hd.insert hnew hfree hcustomers
  · exact same hsame
  · cases hw with
    | none => exact same hcustomers
    | created _ _ _ hnew hfree => exact hd.insert hnew hfree hcustomers
    | @edited id edit loaded _ hphone =>
      refine hd.modify hcustomers fun c => ?_
      by_cases hsame : (edit loaded).phone = loaded.phone
      · exact .inl (by rw [Customer.update, changed, if_pos hsame])
      · refine .inr ?_
        rw [Customer.update, changed, if_neg hsame]
        exact (hphone.resolve_left hsame).2

/-- An edited row keeps its phone, or gets the one that the request gives. -/
theorem phone_of_edit {cid : UUID} {edit : Customer → Customer}
    (hchange : request.customerChange = some (.edit cid edit)) (loaded current : Customer) :
    (Customer.update loaded (edit loaded) current).phone = current.phone ∨
      ∃ patch, request = .updateCustomer cid patch ∧
        patch.phone = some (Customer.update loaded (edit loaded) current).phone := by
  by_cases hsame : (edit loaded).phone = loaded.phone
  · exact .inl (if_pos hsame)
  rw [Customer.update, changed, if_neg hsame]
  cases request with
  | updateCustomer id patch =>
    cases hchange
    refine .inr ⟨patch, rfl, ?_⟩
    rcases hphone : patch.phone with - | phone
    · exact absurd (by rw [CustomerPatch.apply, hphone]; rfl) hsame
    · rw [CustomerPatch.apply, hphone]
      rfl
  | setCustomerStatus id isActive =>
    cases hchange
    exact absurd rfl hsame
  | _ => cases hchange

/-- The phone that a request stores in a row is `phone`. -/
def Request.Stores (request : Request) (phone : Text) : Prop :=
  (∃ draft, request.draft? = some draft ∧ draft.phone = phone) ∨
  (∃ name email, request = .createCustomer phone name email) ∨
  ∃ id patch, request = .updateCustomer id patch ∧ patch.phone = some phone

/-- The phone of a row is what it was, or the request has stored it. -/
theorem Request.phone_origin (hp : request.post S site reply h b d) {id : UUID} {c' : Customer}
    (hget : (flush b d).customers.get id = some c') :
    (∃ c, d.customers.get id = some c ∧ c.phone = c'.phone) ∨ request.Stores c'.phone := by
  have same : (flush b d).customers = d.customers →
      ∃ c, d.customers.get id = some c ∧ c.phone = c'.phone :=
    fun heq => ⟨c', by rwa [heq] at hget, rfl⟩
  rcases Request.customers_cases hp with ⟨draft, now, oid, order, hdraft, hplaced⟩ |
    ⟨-, hsame | ⟨change, writes, hchange, hw, hcustomers⟩⟩
  · obtain ⟨writes, hfiled, hcustomers⟩ := hplaced.customers
    cases hfiled with
    | known => exact .inl (same hcustomers)
    | filled =>
      rw [hcustomers, Table.get_modify] at hget
      split at hget
      · obtain ⟨c, hc, rfl⟩ := Option.map_eq_some_iff.mp hget
        exact .inl ⟨c, hc, rfl⟩
      · exact .inl ⟨c', hget, rfl⟩
    | created _ _ _ _ hnew =>
      rw [hcustomers, Table.get_insert hnew] at hget
      split at hget
      · cases hget
        exact .inr (.inl ⟨draft, hdraft, rfl⟩)
      · exact .inl ⟨c', hget, rfl⟩
  · exact .inl (same hsame)
  · cases hw with
    | none => exact .inl (same hcustomers)
    | created customer _ _ hnew =>
      rw [hcustomers, Table.get_insert hnew] at hget
      split at hget
      · cases hget
        cases request <;> cases hchange
        exact .inr (.inr (.inl ⟨_, _, rfl⟩))
      · exact .inl ⟨c', hget, rfl⟩
    | @edited cid edit loaded =>
      rw [hcustomers, Table.get_modify] at hget
      split at hget
      · obtain ⟨c, hc, rfl⟩ := Option.map_eq_some_iff.mp hget
        rcases phone_of_edit hchange loaded c with hsame | ⟨patch, hrequest, hphone⟩
        · exact .inl ⟨c, hc, hsame.symm⟩
        · exact .inr (.inr (.inr ⟨cid, patch, hrequest, hphone⟩))
      · exact .inl ⟨c', hget, rfl⟩

/-- A row keeps its phone, or the request gives it another. -/
theorem Request.phone_stays (hp : request.post S site reply h b d) {id : UUID} {c : Customer}
    (hget : d.customers.get id = some c) :
    ∃ c', (flush b d).customers.get id = some c' ∧ (c'.phone = c.phone ∨
      ∃ patch, request = .updateCustomer id patch ∧ patch.phone = some c'.phone) := by
  have same : (flush b d).customers = d.customers →
      ∃ c', (flush b d).customers.get id = some c' ∧ (c'.phone = c.phone ∨
        ∃ patch, request = .updateCustomer id patch ∧ patch.phone = some c'.phone) :=
    fun heq => ⟨c, by rwa [heq], .inl rfl⟩
  rcases Request.customers_cases hp with ⟨draft, now, oid, order, hdraft, hplaced⟩ |
    ⟨-, hsame | ⟨change, writes, hchange, hw, hcustomers⟩⟩
  · obtain ⟨writes, hfiled, hcustomers⟩ := hplaced.customers
    cases hfiled with
    | known => exact same hcustomers
    | filled =>
      rw [hcustomers, Table.get_modify, hget]
      split
      · exact ⟨_, rfl, .inl rfl⟩
      · exact ⟨c, rfl, .inl rfl⟩
    | created => exact ⟨c, by rw [hcustomers]; exact Table.get_insert_of_get hget, .inl rfl⟩
  · exact same hsame
  · cases hw with
    | none => exact same hcustomers
    | created => exact ⟨c, by rw [hcustomers]; exact Table.get_insert_of_get hget, .inl rfl⟩
    | @edited cid edit loaded =>
      rw [hcustomers, Table.get_modify, hget]
      split
      · rename_i hid
        subst hid
        exact ⟨_, rfl, phone_of_edit hchange loaded c⟩
      · exact ⟨c, rfl, .inl rfl⟩

end Step

/-! ### What the administrators write -/

/-- The phone that a request of an administrator stores as it is typed. -/
def Request.typedPhone : Request → Option Text
  | .createOrder draft => if draft.source = .admin then some draft.customerPhone else none
  | .createCustomer phone _ _ => some phone
  | .updateCustomer _ patch => patch.phone
  | _ => none

/-- The request leaves the number alone: it writes it in its canonical spelling
or not at all, and gives no other number to a row that has it. -/
structure KeepsNumber (phone : Text) (d : Db) (request : Request) : Prop where
  spelled : ∀ p ∈ request.typedPhone, normalizeVnPhone p = normalizeVnPhone phone →
    p = normalizeVnPhone phone
  stays : ∀ id patch p, request = .updateCustomer id patch → patch.phone = some p →
    HasNumber d phone id → normalizeVnPhone p = normalizeVnPhone phone

/-- A request stores a phone in canonical form, or as it is typed. -/
theorem Request.Stores.cases {request : Request} {p : Text} (h : request.Stores p) :
    (∃ typed, p = normalizeVnPhone typed) ∨ request.typedPhone = some p := by
  rcases h with ⟨draft, hdraft, rfl⟩ | ⟨name, email, rfl⟩ | ⟨id, patch, rfl, hp⟩
  · cases request with
    | createOrder =>
      cases hdraft
      cases hsource : draft.source with
      | storefront => exact .inl ⟨draft.customerPhone, by rw [OrderDraft.phone, hsource]⟩
      | admin =>
        refine .inr ?_
        rw [Request.typedPhone, if_pos hsource, OrderDraft.phone, hsource]
    | postStorefrontOrder payload =>
      cases hdraft
      exact .inl ⟨payload.phone, rfl⟩
    | _ => cases hdraft
  · exact .inr rfl
  · exact .inr hp

section Number

variable {S : Scope} {site : Deployment} {request : Request} {reply : Reply} {h : Set Key}
variable {b : List (Db → Db)} {d : Db} {phone : Text}

/-- **One request.**  Every row that has the number still spells it canonically,
and no row loses it. -/
theorem Request.keepsNumber_step (hkeeps : KeepsNumber phone d request)
    (hspelled : SpelledCanonically d phone) (hp : request.post S site reply h b d) :
    SpelledCanonically (flush b d) phone ∧
      ∀ id, HasNumber d phone id → HasNumber (flush b d) phone id := by
  constructor
  · intro c' hc' hnumber
    obtain ⟨id, hget⟩ := Table.mem_rows.mp hc'
    rcases Request.phone_origin hp hget with ⟨c, hc, hphone⟩ | hstores
    · rw [← hphone] at hnumber ⊢
      exact hspelled c (Table.mem_rows_of_get hc) hnumber
    · rcases hstores.cases with ⟨typed, htyped⟩ | htyped
      · rw [htyped, normalizeVnPhone_idem] at hnumber
        rw [htyped, hnumber]
      · exact hkeeps.spelled _ htyped hnumber
  · rintro id ⟨c, hc, hnumber⟩
    obtain ⟨c', hc', hsame | ⟨patch, hrequest, hphone⟩⟩ := Request.phone_stays hp hc
    · exact ⟨c', hc', by rw [hsame, hnumber]⟩
    · exact ⟨c', hc', hkeeps.stays id patch _ hrequest hphone ⟨c, hc, hnumber⟩⟩

end Number

/-! ### One request, run alone -/

theorem checkoutPhone_draft {request : Request} {phone : Text}
    (h : request.checkoutPhone = some phone) :
    ∃ draft, request.draft? = some draft ∧ draft.phone = normalizeVnPhone phone := by
  cases request with
  | createOrder draft =>
    simp only [Request.checkoutPhone, Option.ite_none_right_eq_some, Option.some.injEq] at h
    obtain ⟨hsource, rfl⟩ := h
    exact ⟨draft, rfl, by rw [OrderDraft.phone, hsource]⟩
  | postStorefrontOrder payload =>
    cases h
    exact ⟨payload.draft, rfl, rfl⟩
  | _ => cases h

/-- A request run alone on `d` is one of its commits, or changes nothing. -/
theorem runAlone_request (site : Deployment) (request : Request) (vs : ℕ → Outside) (d : Db) :
    (∃ reply h b, runAlone vs (request.body site) d = (.ok reply, flush b d) ∧
      request.post (Scope.quiet (fun _ => True) d) site reply h b d) ∨
    ∃ e, runAlone vs (request.body site) d = (.error e, d) := by
  have hinv : (Scope.quiet (fun _ => True) d).inv d := rfl
  have triple : wp _ _ (request.body site) _ _ [] d := request.triple hinv
  have hnone : {k | k ∈ if (Scope.quiet (fun _ => True) d).serialized = true then
      request.token else []} = (∅ : Set Key) := by
    ext k
    simp [Scope.quiet]
  rw [hnone] at triple
  rcases hrun : runAlone vs (request.body site) d with ⟨e | reply, d'⟩
  · obtain ⟨rfl, -⟩ := runAlone_error triple (fun _ => trivial) hrun
    exact .inr ⟨e, rfl⟩
  · obtain ⟨h, b, rfl, hpost⟩ := runAlone_ok triple (fun _ => trivial) hrun
    exact .inl ⟨reply, h, b, rfl, hpost d ⟨.refl d, rfl⟩⟩

/-! ### A checkout -/

/-- The row an order is filed under: it is active and was there before, or it
is new and nobody had the phone. -/
theorem Filed.holder {answers : Outside → Prop} {draft : OrderDraft} {h : Set Key} {d d' : Db}
    {id : UUID} {writes : Table UUID Customer → Table UUID Customer}
    (hf : Filed (Scope.quiet answers d) draft h d id writes)
    (hcustomers : d'.customers = writes d.customers) :
    (∃ c, d'.customers.get id = some c ∧ c.phone = draft.phone) ∧
    (∀ k, k ≠ id → d'.customers.get k = d.customers.get k) ∧
    ((∃ c, d.customers.get id = some c ∧ c.phone = draft.phone ∧ c.isActive = true) ∨
      d.customers.get id = none ∧ phoneTaken d draft.phone = false) := by
  cases hf with
  | @known seen id c hseen hget hphone hactive =>
    obtain ⟨rfl, -⟩ := Scope.quiet_sees hseen
    refine ⟨⟨c, by rw [hcustomers]; exact hget, hphone⟩, fun k _ => by rw [hcustomers], ?_⟩
    exact .inl ⟨c, hget, hphone, hactive⟩
  | @filled seen id c email hseen hget hphone hactive =>
    obtain ⟨rfl, -⟩ := Scope.quiet_sees hseen
    refine ⟨⟨{ c with email := email }, ?_, hphone⟩, fun k hk => ?_,
      .inl ⟨c, hget, hphone, hactive⟩⟩
    · rw [hcustomers, Table.get_modify, if_pos rfl, hget]
      rfl
    · rw [hcustomers, Table.get_modify_of_ne _ hk]
  | created hseen hunknown hid hphone hnew hfree =>
    refine ⟨⟨_, by rw [hcustomers, Table.get_insert hnew, if_pos rfl], rfl⟩, fun k hk => ?_,
      .inr ⟨hnew, hfree⟩⟩
    rw [hcustomers, Table.get_insert hnew, if_neg hk]

section Checkout

variable {answers : Outside → Prop} {draft : OrderDraft} {h : Set Key} {d d' : Db} {id : UUID}
variable {writes : Table UUID Customer → Table UUID Customer} {phone : Text}

/-- Where the number is spelled canonically, the order goes to its one row. -/
theorem Filed.only (hd : PhonesDistinct d) (hphone : draft.phone = normalizeVnPhone phone)
    (hf : Filed (Scope.quiet answers d) draft h d id writes)
    (hcustomers : d'.customers = writes d.customers) (hspelled : SpelledCanonically d phone)
    {k : UUID} {c : Customer} (hk : d.customers.get k = some c)
    (hnumber : normalizeVnPhone c.phone = normalizeVnPhone phone) :
    k = id ∧ c.isActive = true := by
  obtain ⟨-, -, ⟨c₀, hget, hphone₀, hactive⟩ | ⟨-, hfree⟩⟩ := hf.holder hcustomers
  · have heq : c.phone = c₀.phone :=
      (hspelled c (Table.mem_rows_of_get hk) hnumber).trans (hphone₀.trans hphone).symm
    obtain rfl := hd _ _ _ _ hk hget heq
    rw [hk] at hget
    cases hget
    exact ⟨rfl, hactive⟩
  · rw [Bool.eq_false_iff] at hfree
    refine absurd (phoneTaken_eq_true.mpr ⟨c, Table.mem_rows_of_get hk, ?_⟩) hfree
    rw [hphone]
    exact hspelled c (Table.mem_rows_of_get hk) hnumber

/-- **One row for the number afterwards**, exactly if no other spelling of it
was stored. -/
theorem Filed.existsUnique_iff (hd : PhonesDistinct d)
    (hphone : draft.phone = normalizeVnPhone phone)
    (hf : Filed (Scope.quiet answers d) draft h d id writes)
    (hcustomers : d'.customers = writes d.customers) :
    (∃! k, HasNumber d' phone k) ↔ SpelledCanonically d phone := by
  obtain ⟨⟨c', hget', hphone'⟩, hother, hbefore⟩ := hf.holder hcustomers
  have hself : HasNumber d' phone id :=
    ⟨c', hget', by rw [hphone', hphone, normalizeVnPhone_idem]⟩
  constructor
  · rintro hunique c hc hnumber
    obtain ⟨k, hk⟩ := Table.mem_rows.mp hc
    by_cases hid : k = id
    · subst hid
      rcases hbefore with ⟨c₀, hget, hphone₀, -⟩ | ⟨hnone, -⟩
      · rw [hk] at hget
        cases hget
        exact hphone₀.trans hphone
      · rw [hk] at hnone
        cases hnone
    · -- a second row with the number
      exact absurd (hunique.unique ⟨c, (hother k hid).trans hk, hnumber⟩ hself) hid
  · intro hspelled
    refine ⟨id, hself, ?_⟩
    rintro k ⟨c, hk, hnumber⟩
    by_contra hid
    exact hid (hf.only hd hphone hcustomers hspelled ((hother k hid).symm.trans hk) hnumber).1

end Checkout

/-- A checkout run alone. -/
theorem runAlone_checkout (site : Deployment) {request : Request} (vs : ℕ → Outside) {d : Db}
    (hd : PhonesDistinct d) {phone : Text} (hcheckout : request.checkoutPhone = some phone) :
    ((∃ reply, (runAlone vs (request.body site) d).1 = .ok reply) →
      ((∃! id, HasNumber (runAlone vs (request.body site) d).2 phone id) ↔
        SpelledCanonically d phone)) ∧
    (SpelledCanonically d phone →
      (∃ id c, d.customers.get id = some c ∧
        normalizeVnPhone c.phone = normalizeVnPhone phone ∧ c.isActive = false) →
      ∃ e, (runAlone vs (request.body site) d).1 = .error e) := by
  obtain ⟨draft, hdraft, hphone⟩ := checkoutPhone_draft hcheckout
  rcases runAlone_request site request vs d with ⟨reply, h, b, hrun, hpost⟩ | ⟨e, hrun⟩
  · rcases Request.customers_cases hpost with ⟨draft', now, id, order, hdraft', hplaced⟩ |
      ⟨hnone, -⟩
    · obtain rfl : draft = draft' := Option.some.inj (hdraft.symm.trans hdraft')
      obtain ⟨writes, hfiled, hcustomers⟩ := hplaced.customers
      rw [hrun]
      refine ⟨fun _ => hfiled.existsUnique_iff hd hphone hcustomers, ?_⟩
      rintro hspelled ⟨k, c, hk, hnumber, hinactive⟩
      obtain ⟨-, hactive⟩ := hfiled.only hd hphone hcustomers hspelled hk hnumber
      rw [hinactive] at hactive
      cases hactive
    · rw [hdraft] at hnone
      cases hnone
  · rw [hrun]
    refine ⟨?_, fun _ _ => ⟨e, rfl⟩⟩
    rintro ⟨reply, hr⟩
    cases hr

/-! ### Every run -/

theorem phonesDistinct_shopRun (site : Deployment) (shop : Db) (requests : ℕ → Request)
    (answers : ℕ → ℕ → Outside) (n : ℕ) :
    PhonesDistinct (shopRun site shop requests answers n) := by
  induction n with
  | zero =>
    intro id id' c c' hc
    cases hc
  | succ n ih =>
    rw [shopRun]
    rcases runAlone_request site (requests n) (answers n) (shopRun site shop requests answers n)
      with ⟨reply, h, b, hrun, hpost⟩ | ⟨e, hrun⟩
    · rw [hrun]
      exact ih.step hpost
    · rw [hrun]
      exact ih

/-- While the administrators leave the number alone, it is spelled canonically,
and a row that has it keeps it. -/
theorem spelledCanonically_shopRun (site : Deployment) (shop : Db) (requests : ℕ → Request)
    (answers : ℕ → ℕ → Outside) (phone : Text) {m n : ℕ} (hmn : m ≤ n)
    (hkeeps : ∀ k < n, KeepsNumber phone (shopRun site shop requests answers k) (requests k)) :
    SpelledCanonically (shopRun site shop requests answers n) phone ∧
      ∀ id, HasNumber (shopRun site shop requests answers m) phone id →
        HasNumber (shopRun site shop requests answers n) phone id := by
  have spelled : ∀ k ≤ n, SpelledCanonically (shopRun site shop requests answers k) phone ∧
      (k < n → ∀ id, HasNumber (shopRun site shop requests answers k) phone id →
        HasNumber (shopRun site shop requests answers (k + 1)) phone id) := by
    have step : ∀ k < n, SpelledCanonically (shopRun site shop requests answers k) phone →
        SpelledCanonically (shopRun site shop requests answers (k + 1)) phone ∧
          ∀ id, HasNumber (shopRun site shop requests answers k) phone id →
            HasNumber (shopRun site shop requests answers (k + 1)) phone id := by
      intro k hk hspelled
      rw [shopRun]
      rcases runAlone_request site (requests k) (answers k)
        (shopRun site shop requests answers k) with ⟨reply, h, b, hrun, hpost⟩ | ⟨e, hrun⟩
      · rw [hrun]
        exact Request.keepsNumber_step (hkeeps k hk) hspelled hpost
      · rw [hrun]
        exact ⟨hspelled, fun _ h => h⟩
    intro k
    induction k with
    | zero =>
      intro hk
      have hnone : SpelledCanonically (shopRun site shop requests answers 0) phone :=
        fun c hc => by cases hc
      exact ⟨hnone, fun hlt => (step 0 hlt hnone).2⟩
    | succ k ih =>
      intro hk
      have hnext := (step k hk (ih (Nat.le_of_succ_le hk)).1).1
      exact ⟨hnext, fun hlt => (step (k + 1) hlt hnext).2⟩
  refine ⟨(spelled n le_rfl).1, ?_⟩
  induction n, hmn using Nat.le_induction with
  | base => exact fun _ h => h
  | succ n hmn ih =>
    intro id hid
    exact (spelled n (Nat.le_succ n)).2 (Nat.lt_succ_self n) id
      (ih (fun k hk => hkeeps k (Nat.lt_succ_of_lt hk))
        (fun k hk => ⟨(spelled k (Nat.le_succ_of_le hk)).1,
          fun hlt => (spelled k (Nat.le_succ_of_le hk)).2 (Nat.lt_succ_of_lt hlt)⟩) id hid)

/-- The request is a checkout with the number. -/
def Request.ChecksOut (request : Request) (phone : Text) : Prop :=
  ∃ typed, request.checkoutPhone = some typed ∧ normalizeVnPhone typed = normalizeVnPhone phone

/-- One shopper is one customer, after `n` requests: exactly one row has the
number, once a checkout with it has committed, and a checkout with it fails
while a row that has it is inactive. -/
structure OneCustomer (site : Deployment) (shop : Db) (requests : ℕ → Request)
    (answers : ℕ → ℕ → Outside) (phone : Text) (n : ℕ) : Prop where
  single : ∀ m < n, (requests m).ChecksOut phone →
    (∃ reply, (runAlone (answers m) ((requests m).body site)
      (shopRun site shop requests answers m)).1 = .ok reply) →
    ∃! id, HasNumber (shopRun site shop requests answers n) phone id
  inactive : (requests n).ChecksOut phone →
    (∃ id c, (shopRun site shop requests answers n).customers.get id = some c ∧
      normalizeVnPhone c.phone = normalizeVnPhone phone ∧ c.isActive = false) →
    ∃ e, (runAlone (answers n) ((requests n).body site)
      (shopRun site shop requests answers n)).1 = .error e

/-- The number does not depend on how it is typed. -/
theorem hasNumber_congr {db : Db} {phone typed : Text}
    (h : normalizeVnPhone typed = normalizeVnPhone phone) :
    HasNumber db typed = HasNumber db phone := by
  funext id
  rw [HasNumber, HasNumber, h]

/-- **One shopper is one customer**, in every state of every run in which the
administrators leave the shopper's number alone. -/
theorem one_customer_per_shopper (site : Deployment) (shop : Db) (requests : ℕ → Request)
    (answers : ℕ → ℕ → Outside) (phone : Text) (n : ℕ)
    (hkeeps : ∀ k < n, KeepsNumber phone (shopRun site shop requests answers k) (requests k)) :
    OneCustomer site shop requests answers phone n := by
  have hdistinct := phonesDistinct_shopRun site shop requests answers
  refine ⟨fun m hmn ⟨typed, hcheckout, htyped⟩ hcommits => ?_, fun ⟨typed, hcheckout, htyped⟩ => ?_⟩
  · obtain ⟨hspelled, hstays⟩ :=
      spelledCanonically_shopRun site shop requests answers phone (m := m + 1) hmn hkeeps
    have hbefore := (spelledCanonically_shopRun site shop requests answers phone le_rfl
      fun k hk => hkeeps k (hk.trans hmn)).1
    have hone := ((runAlone_checkout site (answers m) (hdistinct m) hcheckout).1 hcommits).mpr
      (by rwa [SpelledCanonically, htyped])
    rw [hasNumber_congr htyped] at hone
    obtain ⟨id, hid, -⟩ := hone
    refine ⟨id, hstays id hid, ?_⟩
    -- two rows with the number have the same phone
    rintro id' ⟨c', hc', hnumber'⟩
    obtain ⟨c, hc, hnumber⟩ := hstays id hid
    refine hdistinct n _ _ _ _ hc' hc ?_
    rw [hspelled c' (Table.mem_rows_of_get hc') hnumber',
      hspelled c (Table.mem_rows_of_get hc) hnumber]
  · have hspelled :=
      (spelledCanonically_shopRun site shop requests answers phone le_rfl hkeeps).1
    have hrejects := (runAlone_checkout site (answers n) (hdistinct n) hcheckout).2
      (by rwa [SpelledCanonically, htyped])
    rwa [htyped] at hrejects

/-- A checkout for one fern. -/
def fernFor (phone : Text) : Request :=
  .createOrder { oneFern with customerPhone := phone, source := .storefront }

/-- Each request takes identifiers of its own. -/
def freshAnswers (n k : ℕ) : Outside := atNoon (100 * n + k)

/-- An administrator adds a customer, who checks out with the number spelled
otherwise; the customer is renamed, orders by phone and is deactivated. -/
def oneShopper : ℕ → Request
  | 0 => .createCustomer "0901234567".toList "An".toList none
  | 1 => fernFor "+84 90 123 45 67".toList
  | 2 => .updateCustomer 0 ⟨some "0901234567".toList, some "An Binh".toList, none⟩
  | 3 => .createOrder oneFern
  | 4 => .setCustomerStatus 0 false
  | _ => fernFor "090 123 4567".toList

/-- The first checkout has committed, there still is one customer, and the last
checkout is rejected. -/
theorem one_customer_per_shopper_renamed :
    OneCustomer smallShop Db.ferns oneShopper freshAnswers "0901234567".toList 5 ∧
    (∃ reply, (runAlone (freshAnswers 1) ((oneShopper 1).body smallShop)
      (shopRun smallShop Db.ferns oneShopper freshAnswers 1)).1 = .ok reply) ∧
    (shopRun smallShop Db.ferns oneShopper freshAnswers 5).customers.get 0
      = some ⟨"0901234567".toList, "An Binh".toList, none, false⟩ := by
  refine ⟨one_customer_per_shopper smallShop Db.ferns oneShopper freshAnswers _ 5 fun k hk => ?_,
    ⟨_, rfl⟩, by decide +kernel⟩
  have hspelled : ∀ k < 5, ∀ p ∈ (oneShopper k).typedPhone,
      p = normalizeVnPhone "0901234567".toList := by decide +kernel
  refine ⟨fun p hp _ => hspelled k hk p hp, fun id patch p hrequest hphone _ => ?_⟩
  rw [hspelled k hk p (by rw [hrequest]; exact hphone), normalizeVnPhone_idem]

/-- An administrator writes the number with its country code, and the shopper
checks out with the same number in the local form. -/
def twoSpellings : ℕ → Request
  | 0 => .createCustomer "+84901234567".toList "An".toList none
  | _ => fernFor "0901234567".toList

/-- The checkout adds a second customer for the number. -/
theorem shopper_duplicated :
    ¬ ∀ (site : Deployment) (shop : Db) (requests : ℕ → Request) (answers : ℕ → ℕ → Outside)
      (phone : Text) (n : ℕ), OneCustomer site shop requests answers phone n := by
  intro h
  have hcommits : ∃ reply, (runAlone (freshAnswers 1) ((twoSpellings 1).body smallShop)
      (shopRun smallShop Db.ferns twoSpellings freshAnswers 1)).1 = .ok reply :=
    ⟨.row 103, by rfl⟩
  have hadmin : ∃ c ∈ (shopRun smallShop Db.ferns twoSpellings freshAnswers 2).customers.get 0,
      normalizeVnPhone c.phone = normalizeVnPhone "0901234567".toList := by decide +kernel
  have hshopper : ∃ c ∈ (shopRun smallShop Db.ferns twoSpellings freshAnswers 2).customers.get 101,
      normalizeVnPhone c.phone = normalizeVnPhone "0901234567".toList := by decide +kernel
  have hunique := (h smallShop Db.ferns twoSpellings freshAnswers "0901234567".toList 2).single 1
    (Nat.lt_succ_self 1) ⟨_, rfl, rfl⟩ hcommits
  exact absurd (hunique.unique hadmin hshopper) (by decide)

end GreenGarden
