/-
GreenGarden/Interference.lean

What the requests of the shop can do to one another.

`Change serialized k d d'` is the one relation everything rests on: the
database went from `d` to `d'` by somebody who held the locks `k`.  Rows are
written under their row locks, nothing is deleted but retired slugs, the
columns an order is placed with never change (`Order.placed`), and numbers are
only allocated under the advisory lock.  What others may do to a transaction
that holds `h` is a change by somebody who holds nothing in `h`.

A `Scope` adds what a particular group of requests promises on top: a
condition every database meets (`inv`) and a relation every commit respects
(`rel`).
-/
import GreenGarden.System
import GreenGarden.Cart
import GreenGarden.RelyGuarantee

namespace GreenGarden

open Transaction

/-- The database went from `d` to `d'` under the locks `k`. -/
structure Change (serialized : Bool) (k : Set Key) (d d' : Db) : Prop where
  plant : ∀ id, .plant id ∉ k → d'.plants.get id = d.plants.get id
  plants : ∀ id, (d.plants.get id).isSome → (d'.plants.get id).isSome
  customer : ∀ id, .customer id ∉ k → d'.customers.get id = d.customers.get id
  customers : ∀ id, (d.customers.get id).isSome → (d'.customers.get id).isSome
  phone : ∀ p, .customerPhone p ∉ k → phoneTaken d p = false → phoneTaken d' p = false
  order : ∀ id, .order id ∉ k → d'.orders.get id = d.orders.get id
  orders : ∀ id o, d.orders.get id = some o →
    ∃ o', d'.orders.get id = some o' ∧ o'.placed = o.placed
  numbers : .advisory orderNumberLockKey ∉ k → d'.orderNumbers = d.orderNumbers
  status : serialized = true → ∀ id o, .request id ∉ k → d.orders.get id = some o →
    ∃ o', d'.orders.get id = some o' ∧ o'.status = o.status
  notification : ∀ id, .notification id ∉ k → d'.notifications.get id = d.notifications.get id
  transaction : ∀ id, .transaction id ∉ k → d'.transactions.get id = d.transactions.get id
  provider : ∀ p, .providerTransaction p ∉ k → recorded d p = false → recorded d' p = false
  recorded : ∀ p, recorded d p = true → recorded d' p = true

namespace Change

variable {serialized : Bool} {k k' : Set Key} {d d' d'' : Db}

theorem refl (d : Db) : Change serialized k d d where
  plant _ _ := rfl
  plants _ h := h
  customer _ _ := rfl
  customers _ h := h
  phone _ _ h := h
  order _ _ := rfl
  orders _ o h := ⟨o, h, rfl⟩
  numbers _ := rfl
  status _ _ o _ h := ⟨o, h, rfl⟩
  notification _ _ := rfl
  transaction _ _ := rfl
  provider _ _ h := h
  recorded _ h := h

theorem trans (h₁ : Change serialized k d d') (h₂ : Change serialized k d' d'') :
    Change serialized k d d'' where
  plant id h := (h₂.plant id h).trans (h₁.plant id h)
  plants id h := h₂.plants id (h₁.plants id h)
  customer id h := (h₂.customer id h).trans (h₁.customer id h)
  customers id h := h₂.customers id (h₁.customers id h)
  phone p h hp := h₂.phone p h (h₁.phone p h hp)
  order id h := (h₂.order id h).trans (h₁.order id h)
  orders id o h := by
    obtain ⟨o', ho', hp⟩ := h₁.orders id o h
    obtain ⟨o'', ho'', hp'⟩ := h₂.orders id o' ho'
    exact ⟨o'', ho'', hp'.trans hp⟩
  numbers h := (h₂.numbers h).trans (h₁.numbers h)
  status hs id o h ho := by
    obtain ⟨o', ho', hp⟩ := h₁.status hs id o h ho
    obtain ⟨o'', ho'', hp'⟩ := h₂.status hs id o' h ho'
    exact ⟨o'', ho'', hp'.trans hp⟩
  notification id h := (h₂.notification id h).trans (h₁.notification id h)
  transaction id h := (h₂.transaction id h).trans (h₁.transaction id h)
  provider p h hp := h₂.provider p h (h₁.provider p h hp)
  recorded p h := h₂.recorded p (h₁.recorded p h)

/-- More locks allow more changes. -/
theorem mono (h : Change serialized k d d') (hk : k ⊆ k') : Change serialized k' d d' where
  plant id hid := h.plant id fun hm => hid (hk hm)
  plants := h.plants
  customer id hid := h.customer id fun hm => hid (hk hm)
  customers := h.customers
  phone p hp := h.phone p fun hm => hp (hk hm)
  order id hid := h.order id fun hm => hid (hk hm)
  orders := h.orders
  numbers hn := h.numbers fun hm => hn (hk hm)
  status hs id o hid := h.status hs id o fun hm => hid (hk hm)
  notification id hid := h.notification id fun hm => hid (hk hm)
  transaction id hid := h.transaction id fun hm => hid (hk hm)
  provider p hp := h.provider p fun hm => hp (hk hm)
  recorded := h.recorded

end Change

/-- What a group of requests promises beyond the locks. -/
structure Scope where
  serialized : Bool
  inv : Db → Prop
  rel : Db → Db → Prop
  answers : Outside → Prop
  refl : ∀ d, rel d d
  trans : ∀ {d₁ d₂ d₃}, rel d₁ d₂ → rel d₂ d₃ → rel d₁ d₃
  keeps : ∀ {d d'}, rel d d' → inv d → inv d'

/-- The interference within a scope. -/
def Scope.rely (S : Scope) : Rely Key Db Outside where
  rel h d d' := Change S.serialized hᶜ d d' ∧ S.rel d d'
  answers := S.answers
  refl _ d := ⟨.refl d, S.refl d⟩
  trans h₁ h₂ := ⟨h₁.1.trans h₂.1, S.trans h₁.2 h₂.2⟩
  anti hsub h := ⟨h.1.mono (Set.compl_subset_compl.mpr hsub), h.2⟩

/-- Nobody else does anything to `d`; outside values meet `answers`. -/
def Scope.quiet (answers : Outside → Prop) (d : Db) : Scope where
  serialized := false
  inv db := db = d
  rel d₁ d₂ := d₂ = d₁
  answers := answers
  refl _ := rfl
  trans h₁ h₂ := h₂.trans h₁
  keeps h hd := h.trans hd

/-- Nothing is promised beyond the locks. -/
def lockScope : Scope where
  serialized := false
  inv _ := True
  rel _ _ := True
  answers _ := True
  refl _ := trivial
  trans _ _ := trivial
  keeps _ _ := trivial

/-- `d` comes after `seen`, and `seen` met the condition of the scope. -/
def Scope.Sees (S : Scope) (seen d : Db) : Prop := S.inv seen ∧ S.rely.rel ∅ seen d

namespace Scope

variable {S : Scope} {seen d d' : Db} {h : Set Key}

theorem Sees.refl (hinv : S.inv d) : S.Sees d d := ⟨hinv, S.rely.refl _ _⟩

theorem Sees.inv (hs : S.Sees seen d) : S.inv d := S.keeps hs.2.2 hs.1

theorem Sees.step (hs : S.Sees seen d) (hd : S.rely.rel h d d') : S.Sees seen d' :=
  ⟨hs.1, S.rely.trans hs.2 (S.rely.anti (Set.empty_subset h) hd)⟩

theorem quiet_sees {answers : Outside → Prop} (hs : (quiet answers d).Sees seen d') :
    seen = d ∧ d' = d :=
  ⟨hs.1, (show d' = seen from hs.2.2).trans hs.1⟩

end Scope

end GreenGarden
