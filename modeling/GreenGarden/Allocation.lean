/-
GreenGarden/Allocation.lean

Order numbers never collide and have no gaps, whatever runs side by side.

The allocation of a number is a query under the advisory lock, and the lock is
held to the commit; so at the commit the list of numbers is still the one the
sequence was computed from, and appending to it keeps it a list of runs
(`OrderBook`).  The prefix was read from the clock before the wait, which does
not matter: the run that is continued is that of the prefix.
-/
import GreenGarden.Guarantee

namespace GreenGarden

open Transaction

/-- The numbers are runs, and a reference is its order's number without dashes. -/
structure OrderBook (db : Db) : Prop where
  numbered : Numbered db.orderNumbers
  references : ∀ o ∈ db.orders.rows, ∀ r, o.paymentReference = some r →
    r = paymentReferenceFor o.orderNumber

theorem orderBook_ferns : OrderBook Db.ferns := ⟨Numbered.nil, by nofun⟩

/-- A commit keeps the book, and adds at most one number, at its end. -/
theorem OrderBook.step {S : Scope} {site : Deployment} {request : Request} {reply : Reply}
    {h : Set Key} {b : List (Db → Db)} {d : Db} (hp : request.post S site reply h b d) :
    (OrderBook d → OrderBook (flush b d)) ∧ d.orderNumbers <+: (flush b d).orderNumbers := by
  rcases Request.orders_cases hp with ⟨draft, now, id, order, -, -, hplaced⟩ | hsame
  -- an order takes the next number of its date, under the lock
  · rw [hplaced.orderNumbers]
    refine ⟨fun hbook => ⟨?_, fun o ho r hr => ?_⟩, List.prefix_append _ _⟩
    · rw [hplaced.orderNumbers]
      obtain ⟨date, sequence, hnumber, hnext⟩ := hplaced.next
      rw [hnumber]
      exact hbook.numbered.append hnext
    · rcases hplaced.mem_rows.mp ho with ho | rfl
      · exact hbook.references o ho r hr
      · exact hplaced.row.reference hr
  -- anything else leaves numbers and references alone
  · rw [orderNumbers_of_placed hsame]
    refine ⟨fun hbook => ⟨?_, ?_⟩, List.prefix_refl _⟩
    · rw [orderNumbers_of_placed hsame]
      exact hbook.numbered
    · exact forall_orders_of_placed (fun _ => Iff.rfl) hsame hbook.references

/-- Distinct numbers make distinct references. -/
theorem OrderBook.nodup_references {db : Db} (hbook : OrderBook db) :
    (db.orders.rows.filterMap Order.paymentReference).Nodup := by
  have hnumbers : db.orders.rows.Pairwise fun o o' => o.orderNumber ≠ o'.orderNumber :=
    List.pairwise_map.mp hbook.numbered.nodup
  have hformat : ∀ o ∈ db.orders.rows, IsNumber o.orderNumber := fun o ho =>
    hbook.numbered.formatted _ (List.mem_map_of_mem ho)
  refine List.Pairwise.filterMap _ (R := fun o o' => o ∈ db.orders.rows ∧ o' ∈ db.orders.rows ∧
    o.orderNumber ≠ o'.orderNumber) (fun o o' hne r hr r' hr' heq => ?_) ?_
  · obtain ⟨ho, ho', hne⟩ := hne
    rw [hbook.references o ho r hr, hbook.references o' ho' r' hr'] at heq
    exact hne (reference_injective (hformat o ho) (hformat o' ho') heq)
  · exact hnumbers.imp_of_mem fun ho ho' hne => ⟨ho, ho', hne⟩

/-- A reference that is taken belongs to a number that is taken. -/
theorem OrderBook.mem_of_referenceTaken {db : Db} (hbook : OrderBook db) {number : Text}
    (hnumber : IsNumber number)
    (htaken : referenceTaken db (some (paymentReferenceFor number)) = true) :
    number ∈ db.orderNumbers := by
  rw [referenceTaken, List.any_eq_true] at htaken
  obtain ⟨o, ho, hr⟩ := htaken
  have href := hbook.references o ho _ (of_decide_eq_true hr)
  have hmem : o.orderNumber ∈ db.orderNumbers := List.mem_map_of_mem ho
  rwa [reference_injective hnumber (hbook.numbered.formatted _ hmem) href]

/-- The scope of the allocation: the book is kept and only grows at its end. -/
def bookScope (serialized : Bool) : Scope where
  serialized := serialized
  inv := OrderBook
  rel d d' := (OrderBook d → OrderBook d') ∧ d.orderNumbers <+: d'.orderNumbers
  answers _ := True
  refl _ := ⟨id, List.prefix_refl _⟩
  trans h₁ h₂ := ⟨h₂.1 ∘ h₁.1, h₁.2.trans h₂.2⟩
  keeps h := h.1

/-- The errors that a taken number would cause. -/
def NumberTaken : Error → Prop
  | .integrity .ordersOrderNumber | .integrity .ordersPaymentReference | .diverged => True
  | _ => False

theorem Request.failure_not_numberTaken {serialized : Bool} {request : Request} {e : Error}
    {d : Db} (hf : request.failure (bookScope serialized) e d) : ¬ NumberTaken e := by
  have order : ∀ {draft : OrderDraft}, OrderFailure (bookScope serialized) draft e d →
      ¬ NumberTaken e := by
    intro draft hf htaken
    unfold NumberTaken at htaken
    split at htaken
    · exact hf
    · -- the number was free, so its reference was
      obtain ⟨hbook, number, hnumber, hfree, htaken⟩ := hf
      exact hfree (hbook.mem_of_referenceTaken hnumber htaken)
    · exact hf
    · exact htaken
  intro htaken
  cases request with
  | createOrder => exact order hf htaken
  | postStorefrontOrder payload =>
    have hplace : OrderFailure (bookScope serialized) payload.draft e d := by
      unfold NumberTaken at htaken
      split at htaken
      · exact hf
      · exact hf
      · exact hf
      · exact htaken.elim
    exact order hplace htaken
  | processSepayWebhook payload =>
    rcases hf with hrow | ⟨rfl, -⟩
    · rcases transactionRow_error hrow with rfl | rfl <;> exact htaken
    · exact htaken
  | updateOrderStatus | createPlant | updatePlant | setPlantStatus
  | createCustomer | updateCustomer | setCustomerStatus =>
    unfold NumberTaken at htaken
    split at htaken
    · exact hf
    · exact hf
    · exact hf
    · exact htaken

section Runs

variable {ι : Type} [DecidableEq ι]

omit [DecidableEq ι] in
/-- The contract of the shop within the scope of the allocation. -/
def bookContract (site : Deployment) (serialized : Bool) (requests : ι → Request) :
    Contract (shop site serialized requests) :=
  shopContract (bookScope serialized) site requests (fun _ => trivial)
    fun _ _ _ _ _ _ hp => OrderBook.step hp

/-- **Order numbers.**  For any requests under any schedule: numbers are
distinct, so are references, no request fails because a number is taken or
because the probing loop does not end, the numbers of each date are 1, 2, ...,
and a commit adds its number at the end of the list. -/
theorem order_numbers_never_collide (site : Deployment) (serialized : Bool)
    (requests : ι → Request) {d : Db} (hd : OrderBook d) (ms : ℕ → Move ι Outside) (n : ℕ) :
    (trace (shop site serialized requests) d ms n).db.orderNumbers.Nodup ∧
    ((trace (shop site serialized requests) d ms n).db.orders.rows.filterMap
      Order.paymentReference).Nodup ∧
    (∀ i e, (trace (shop site serialized requests) d ms n).status i = .failed e →
      ¬ NumberTaken e) ∧
    (∀ pre taken, ∃ sequence, nextSequence pre taken = some sequence) ∧
    (∀ date, ∃ k, numbersOf date (trace (shop site serialized requests) d ms n).db.orderNumbers
      = numberRun date k) ∧
    ∀ m ≤ n, (trace (shop site serialized requests) d ms m).db.orderNumbers <+:
      (trace (shop site serialized requests) d ms n).db.orderNumbers := by
  have good := (bookContract site serialized requests).good_trace hd ms n
  have hbook : OrderBook (trace (shop site serialized requests) d ms n).db := good.inv
  refine ⟨hbook.numbered.nodup, hbook.nodup_references, fun i e hst => ?_, nextSequence_isSome,
    hbook.numbered.runs, fun m hmn => ?_⟩
  -- a failed request is explained by what it saw when it failed
  · have here := good.here i
    rw [hst] at here
    obtain ⟨d', hfail⟩ := here
    exact Request.failure_not_numberTaken hfail
  · exact ((bookContract site serialized requests).rely_trace hd ms hmn).2.2

end Runs

/-! ### Over midnight -/

/-- What a transaction takes from outside one second into the second of May. -/
def afterMidnight (uuid : UUID) : Outside :=
  { atNoon uuid with
    clock := ⟨{ (atNoon 0).clock.date with day := 2, day_range := by decide }, 1000000⟩
    now := 1746144001000000 }

/-- A fern for each of some customers. -/
def fernForEach (i : ℕ) : Request :=
  .createOrder { oneFern with customerPhone := "09012345".toList ++ zeroPad 2 i }

/-- Four orders take turns; midnight passes, and the last of them is given up. -/
def overMidnight (n : ℕ) : Move ℕ Outside :=
  if n < 4 then .start n
  else if n < 60 then .step (n % 4) (atNoon n)
  else if n = 60 then .abort 3
  else .step (n % 4) (afterMidnight n)

/-- Three orders are numbered.  The first of them had read the clock before
midnight, and commits after it. -/
theorem order_numbers_never_collide_midnight :
    (trace (shop smallShop false fernForEach) Db.ferns overMidnight 200).db.orderNumbers
      = ["GG-20250501-0001".toList, "GG-20250502-0001".toList, "GG-20250502-0002".toList] ∧
    (trace (shop smallShop false fernForEach) Db.ferns overMidnight 200).db.orderNumbers.Nodup :=
  ⟨by decide +kernel,
    (order_numbers_never_collide smallShop false _ orderBook_ferns overMidnight 200).1⟩

end GreenGarden
