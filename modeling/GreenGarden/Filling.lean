/-
GreenGarden/Filling.lean

Carts that can be filled, and what selling them leaves.

`Sold` follows the plants exactly: they are what they were, less some stock.
An order whose cart can be filled (`Fillable`) has few ways left to fail
(`OrderFailure.keyClash`).  Where each of a family of orders succeeds alone
after any of the others (`SucceedInTurn`), each can be filled in every
database that has the stock the others leave, whichever way they were run
(`SucceedInTurn.fillable`).
-/
import GreenGarden.Shoppers
import GreenGarden.Allocation

namespace GreenGarden

open Transaction

/-! ### Plants that have only been sold -/

/-- The plants of `d'` are those of `d`, less some stock. -/
def Sold (k : UUID → ℤ) (d d' : Db) : Prop :=
  ∀ pid, d'.plants.get pid = (d.plants.get pid).map fun p => p.addStock (-k pid)

section Sold

variable {k k' : UUID → ℤ} {d d' d'' : Db}

theorem Sold.refl (d : Db) : Sold (fun _ => 0) d d := by
  intro pid
  simp

theorem Sold.trans (h : Sold k d d') (h' : Sold k' d' d'') :
    Sold (fun pid => k pid + k' pid) d d'' := by
  intro pid
  rw [h' pid, h pid, Option.map_map]
  refine congrArg (fun f => (d.plants.get pid).map f) ?_
  funext p
  simp only [Function.comp_apply, Plant.addStock, Plant.mk.injEq, true_and, and_true]
  omega

theorem Sold.sellablePrice (h : Sold k d d') (pid : UUID) :
    sellablePrice d'.plants.get pid = GreenGarden.sellablePrice d.plants.get pid := by
  simp only [GreenGarden.sellablePrice, h pid]
  rcases d.plants.get pid with - | plant
  · rfl
  · rfl

theorem Sold.lineError (h : Sold k d d') (item : OrderItemInput) :
    lineError d'.plants.get item = GreenGarden.lineError d.plants.get item := by
  simp only [GreenGarden.lineError, h item.plantId]
  rcases d.plants.get item.plantId with - | plant
  · rfl
  · rfl

theorem Sold.totalUnits (h : Sold k d d') (items : List OrderItemInput) :
    totalUnits d'.plants.get items = GreenGarden.totalUnits d.plants.get items := by
  have hline : lineUnits d'.plants.get = lineUnits d.plants.get := by
    funext item
    simp only [lineUnits, h.sellablePrice]
  have hsum : subtotalUnits d'.plants.get items = subtotalUnits d.plants.get items := by
    rw [subtotalUnits, subtotalUnits, hline]
  simp only [GreenGarden.totalUnits, cartShipping, hsum, h.lineError]

end Sold

/-! ### Carts that can be filled -/

/-- The catalogue has everything the order asks for. -/
structure Fillable (draft : OrderDraft) (plants : UUID → Option Plant) : Prop where
  positive : PositiveItems draft.items
  sellable : ∀ item ∈ draft.items, lineError plants item = none
  stock : ∀ pid ∈ plantIds draft.items, ∃ plant, plants pid = some plant ∧
    totalOf draft.items pid ≤ plant.stock
  affordable : totalUnits plants draft.items ≤ maxTotalUnits

theorem totalOf_nonneg {items : List OrderItemInput} (h : PositiveItems items) (pid : UUID) :
    0 ≤ totalOf items pid := by
  refine Tally.total_nonneg fun x hx => ?_
  obtain ⟨item, hi, rfl⟩ := List.mem_map.mp hx
  exact (h item hi).le

section Fillable

variable {S : Scope} {draft : OrderDraft} {now : Instant} {order : Order} {h : Set Key}
variable {d d' : Db} {id : UUID} {k : UUID → ℤ}

theorem Placed.fillable (hp : Placed S now draft id order h d d') :
    Fillable draft d.plants.get where
  positive := hp.positive
  sellable := hp.sellable
  stock pid hpid := by
    obtain ⟨plant, hget, -, hle⟩ := hp.stock pid hpid
    exact ⟨plant, hget, hle⟩
  affordable := hp.affordable

theorem Placed.sold (hp : Placed S now draft id order h d d') :
    Sold (totalOf draft.items) d d' := hp.plants

/-- What can be filled could be filled before others bought. -/
theorem Fillable.before (hf : Fillable draft d'.plants.get) (hk : ∀ pid, 0 ≤ k pid)
    (hs : Sold k d d') : Fillable draft d.plants.get where
  positive := hf.positive
  sellable item hi := (hs.lineError item).symm.trans (hf.sellable item hi)
  stock pid hpid := by
    obtain ⟨plant, hget, hle⟩ := hf.stock pid hpid
    rw [hs pid] at hget
    obtain ⟨p, hp, rfl⟩ := Option.map_eq_some_iff.mp hget
    have := hk pid
    rw [Plant.addStock_stock] at hle
    exact ⟨p, hp, by omega⟩
  affordable := by
    rw [← hs.totalUnits]
    exact hf.affordable

/-- Why an order that can be filled may still fail: on the index of phones, or
because a generated key is in use. -/
theorem OrderFailure.keyClash {e : Error} (hf : OrderFailure S draft e d)
    (hfill : Fillable draft d.plants.get) (hbook : S.inv d → OrderBook d)
    (hactive : ∀ c ∈ d.customers.rows, c.phone = draft.phone → c.isActive = true)
    (hsold : ∀ {seen}, S.Sees seen d → ∃ k, Sold k seen d)
    (hphone : e ≠ .integrity .customersPhone) : e = .integrity .primaryKey := by
  unfold OrderFailure at hf
  split at hf
  · obtain ⟨-, c, hc, hp, hoff⟩ := hf
    rw [hactive c hc hp] at hoff
    cases hoff
  · obtain ⟨seen, hseen, item, hi, hnone⟩ := hf
    obtain ⟨k, hk⟩ := hsold hseen
    have herr := hfill.sellable item hi
    rw [lineError, hk, hnone] at herr
    cases herr
  · obtain ⟨item, hi, herr⟩ := hf
    rw [hfill.sellable item hi] at herr
    cases herr
  · obtain ⟨pid, hpid, plant, hget, -, rfl, rfl, hlt⟩ := hf
    obtain ⟨plant', hget', hle⟩ := hfill.stock pid hpid
    rw [hget] at hget'
    cases hget'
    omega
  · have := hf hfill.positive
    have := hfill.affordable
    omega
  · have := hf hfill.positive
    have := hfill.affordable
    omega
  · exact absurd hfill.positive hf
  · exact absurd hfill.positive hf
  · exact absurd hfill.positive hf
  · rfl
  · exact absurd rfl hphone
  · obtain ⟨hinv, number, hnumber, hfree, htaken⟩ := hf
    exact absurd ((hbook hinv).mem_of_referenceTaken hnumber htaken) hfree
  · exact hf.elim

end Fillable

/-! ### One after another -/

section Turns

variable {ι : Type} (site : Deployment) (drafts : ι → OrderDraft) (answers : ι → ℕ → Outside)

/-- The database after some of the orders, each run alone. -/
def inTurn (d : Db) : List ι → Db
  | [] => d
  | i :: others =>
      inTurn (runAlone (answers i) ((Request.createOrder (drafts i)).body site) d).2 others

/-- Each order succeeds if it is run alone after any of the others. -/
def SucceedInTurn (d : Db) : Prop :=
  ∀ others : List ι, others.Nodup → ∀ i ∉ others, ∃ reply,
    (runAlone (answers i) ((Request.createOrder (drafts i)).body site)
      (inTurn site drafts answers d others)).1 = .ok reply

variable {site drafts answers}

theorem inTurn_append (d : Db) (others : List ι) (i : ι) :
    inTurn site drafts answers d (others ++ [i]) =
      (runAlone (answers i) ((Request.createOrder (drafts i)).body site)
        (inTurn site drafts answers d others)).2 := by
  induction others generalizing d with
  | nil => rfl
  | cons j others ih => exact ih _

/-- An order that succeeds alone could be filled, and takes what it asks for. -/
theorem fillable_of_runAlone {vs : ℕ → Outside} {draft : OrderDraft} {d : Db} {reply : Reply}
    (hok : (runAlone vs ((Request.createOrder draft).body site) d).1 = .ok reply) :
    Fillable draft d.plants.get ∧
      Sold (totalOf draft.items) d (runAlone vs ((Request.createOrder draft).body site) d).2 := by
  rcases runAlone_request site (.createOrder draft) vs d with ⟨reply', h, b, hrun, hpost⟩ |
    ⟨e, hrun⟩
  · obtain ⟨id, -, now, ⟨order, hplaced⟩, -⟩ := hpost
    rw [hrun]
    exact ⟨hplaced.fillable, hplaced.sold⟩
  · rw [hrun] at hok
    cases hok

/-- What is left after some of the orders, whichever way they went. -/
theorem SucceedInTurn.sold {d : Db} (h : SucceedInTurn site drafts answers d) {others : List ι}
    (hnd : others.Nodup) :
    Sold (fun pid => (others.map fun i => totalOf (drafts i).items pid).sum) d
      (inTurn site drafts answers d others) := by
  induction others using List.reverseRecOn with
  | nil => exact .refl d
  | append_singleton others i ih =>
    have hsplit := List.nodup_append.mp hnd
    have hi : i ∉ others := fun hmem => hsplit.2.2 i hmem i (List.mem_singleton_self i) rfl
    obtain ⟨reply, hok⟩ := h others hsplit.1 i hi
    have hnext := (ih hsplit.1).trans (fillable_of_runAlone hok).2
    rw [inTurn_append]
    simpa using hnext

/-- **Every order can be filled after any of the others**, in any database that
has the stock the others leave. -/
theorem SucceedInTurn.fillable [DecidableEq ι] {d d' : Db}
    (h : SucceedInTurn site drafts answers d) {done : Finset ι}
    (hsold : Sold (fun pid => ∑ i ∈ done, totalOf (drafts i).items pid) d d') {i : ι}
    (hi : i ∉ done) : Fillable (drafts i) d'.plants.get := by
  have hmem : i ∉ done.toList := fun hmem => hi (Finset.mem_toList.mp hmem)
  obtain ⟨reply, hok⟩ := h done.toList done.nodup_toList i hmem
  have hleft := h.sold done.nodup_toList
  have hsame : d'.plants.get = (inTurn site drafts answers d done.toList).plants.get := by
    funext pid
    rw [hsold pid, hleft pid]
    simp only [Finset.sum_map_toList]
  rw [hsame]
  exact (fillable_of_runAlone hok).1

end Turns

end GreenGarden
