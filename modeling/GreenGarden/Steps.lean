/-
GreenGarden/Steps.lean

Rules for the steps that several requests share: generated keys, unique
columns, the row locks on plants and the stock writes.  Each rule says what
the continuation may rely on; the bodies of the steps are not looked at again.
-/
import GreenGarden.Interference

namespace GreenGarden

open Transaction

section Rules

variable {α β : Type} {R : Rely Key Db Outside} {F : Error → Db → Prop} {h : Set Key}
variable {b : List (Db → Db)} {d : Db} {Q : β → Set Key → List (Db → Db) → Db → Prop}

/-- A generated key: unused, and locked so that it stays unused. -/
theorem wp_newId {key : UUID → Key} {used : Db → UUID → Bool} {g : UUID → Session β}
    (hF : ∀ v d', R.answers v → R.rel h d d' → used (flush b d') v.uuid = true →
      F (.integrity .primaryKey) d')
    (hg : ∀ v d', R.answers v → R.rel h d d' → used (flush b d') v.uuid = false →
      wp R F (g v.uuid) Q (insert (key v.uuid) h) b d') :
    wp R F (newId key used >>= g) Q h b d := by
  refine wp_bind (wp_outside fun v hv => wp_acquire fun d₁ h₁ => wp_query fun d₂ h₂ => ?_)
  have h₁₂ := R.trans h₁ (R.anti (Set.subset_insert _ _) h₂)
  refine wp_failIf (hF v d₂ hv h₁₂) fun hno => wp_pure (hg v d₂ hv h₁₂ ?_)
  exact Bool.eq_false_iff.mpr hno

/-- A new entry of a unique index: nobody has it, and it is locked. -/
theorem wp_claimUnique {key : Key} {c : Constraint} {taken : Db → Bool} {g : Unit → Session β}
    (hF : ∀ d', R.rel h d d' → taken (flush b d') = true → F (.integrity c) d')
    (hg : ∀ d', R.rel h d d' → taken (flush b d') = false →
      wp R F (g ()) Q (insert key h) b d') :
    wp R F (claimUnique key c taken >>= g) Q h b d := by
  refine wp_bind (wp_acquire fun d₁ h₁ => wp_query fun d₂ h₂ => ?_)
  have h₁₂ := R.trans h₁ (R.anti (Set.subset_insert _ _) h₂)
  by_cases hc : taken (flush b d₂) = true
  · simp only [raiseIf, Tx.failIf, if_pos hc]
    exact hF d₂ h₁₂ hc
  · simp only [raiseIf, Tx.failIf, if_neg hc]
    exact hg d₂ h₁₂ (Bool.eq_false_iff.mpr hc)

/-! ### Stock writes -/

/-- The plant with `n` more in stock. -/
def Plant.addStock (plant : Plant) (n : ℤ) : Plant := { plant with stock := plant.stock + n }

@[simp] theorem Plant.addStock_stock (plant : Plant) (n : ℤ) :
    (plant.addStock n).stock = plant.stock + n := rfl

@[simp] theorem Plant.addStock_zero (plant : Plant) : plant.addStock 0 = plant := by
  simp [Plant.addStock]

/-- What `moveStock` makes of the plants table. -/
def movePlants (sign : ℤ) (plants : UUID → Option Plant) (amounts : List (UUID × ℤ))
    (t : Table UUID Plant) : Table UUID Plant :=
  amounts.foldl
    (fun t amount =>
      match plants amount.1 with
      | none => t
      | some plant =>
          t.modify amount.1 fun p => { p with stock := plant.stock + sign * amount.2 }) t

theorem wp_moveStock {sign : ℤ} {plants : UUID → Option Plant} {amounts : List (UUID × ℤ)}
    {g : Unit → Session β}
    (hF : ∀ amount ∈ amounts, ∀ plant, plants amount.1 = some plant →
      plant.stock + sign * amount.2 < 0 → F (.integrity .plantsStockNonNegative) d)
    (hg : ∀ b', (∀ db, flush b' db
        = { flush b db with plants := movePlants sign plants amounts (flush b db).plants }) →
      (∀ amount ∈ amounts, ∀ plant, plants amount.1 = some plant →
        0 ≤ plant.stock + sign * amount.2) → wp R F (g ()) Q h b' d) :
    wp R F (moveStock sign plants amounts >>= g) Q h b d := by
  induction amounts generalizing b with
  | nil => exact hg b (fun db => rfl) (by simp)
  | cons amount amounts ih =>
    have hrest : ∀ a ∈ amounts, ∀ plant, plants a.1 = some plant →
        plant.stock + sign * a.2 < 0 → F (.integrity .plantsStockNonNegative) d :=
      fun a ha => hF a (List.mem_cons_of_mem _ ha)
    rcases hp : plants amount.1 with - | plant
    · -- the plant is not there: nothing is staged for it
      have hone : moveOne sign plants amount = pure () := by rw [moveOne, hp]
      rw [moveStock, hone]
      refine ih hrest fun b' hb' hnn => hg b' (fun db => ?_) fun a ha q hq => ?_
      · rw [hb' db, movePlants, movePlants, List.foldl_cons, hp]
      · rcases List.mem_cons.mp ha with rfl | ha
        · rw [hp] at hq; cases hq
        · exact hnn a ha q hq
    · have hone : moveOne sign plants amount
          = writeStock amount.1 (plant.stock + sign * amount.2) := by rw [moveOne, hp]
      rw [moveStock, hone, writeStock, bind_assoc, bind_assoc]
      refine wp_failIf (hF amount List.mem_cons_self plant hp) fun hnn => wp_stage ?_
      refine ih hrest fun b' hb' hnn' => hg b' (fun db => ?_) fun a ha q hq => ?_
      · rw [hb' db, movePlants, movePlants, List.foldl_cons, hp]
        rfl
      · rcases List.mem_cons.mp ha with rfl | ha
        · rw [hp] at hq; cases hq; omega
        · exact hnn' a ha q hq

/-- `moveStock` adds to each plant what the amounts hold for it, when the plant
was found and its row is still the one that was read. -/
theorem get_movePlants {sign : ℤ} {plants : UUID → Option Plant} {amounts : List (UUID × ℤ)}
    {t : Table UUID Plant} (hnd : (amounts.map Prod.fst).Nodup)
    (hagree : ∀ id ∈ amounts.map Prod.fst, plants id = none ∨ plants id = t.get id) (id : UUID) :
    (movePlants sign plants amounts t).get id = (t.get id).map fun p =>
      p.addStock (sign * if (plants id).isSome then Tally.total id amounts else 0) := by
  induction amounts generalizing t with
  | nil => simp [movePlants]
  | cons amount amounts ih =>
    rw [List.map_cons, List.nodup_cons] at hnd
    rcases hp : plants amount.1 with - | plant
    · have hmove : movePlants sign plants (amount :: amounts) t
          = movePlants sign plants amounts t := by
        rw [movePlants, movePlants, List.foldl_cons, hp]
      rw [hmove, ih hnd.2 fun id hid => hagree id (List.mem_cons_of_mem _ hid)]
      rcases eq_or_ne amount.1 id with rfl | hne
      · simp [hp]
      · simp [hne]
    · have hmove : movePlants sign plants (amount :: amounts) t
          = movePlants sign plants amounts (t.modify amount.1 fun p =>
              { p with stock := plant.stock + sign * amount.2 }) := by
        rw [movePlants, movePlants, List.foldl_cons, hp]
      have hne : ∀ id ∈ amounts.map Prod.fst, id ≠ amount.1 := fun id hid he => hnd.1 (he ▸ hid)
      rw [hmove, ih hnd.2 fun id hid => by
        rw [Table.get_modify_of_ne _ (hne id hid)]
        exact hagree id (List.mem_cons_of_mem _ hid)]
      rcases eq_or_ne id amount.1 with rfl | hid
      · -- its own amount is the only one
        have hget : t.get amount.1 = some plant := by
          rcases hagree amount.1 List.mem_cons_self with hnone | hsome
          · rw [hp] at hnone; cases hnone
          · rw [← hsome, hp]
        simp [Table.get_modify_self, hget, hp, Tally.total_eq_zero hnd.1, Plant.addStock]
      · simp [Table.get_modify_of_ne _ hid, hid.symm]

end Rules

/-! ### Row locks on plants -/

section Locks

variable {β : Type} {S : Scope} {F : Error → Db → Prop} {h : Set Key} {b : List (Db → Db)}
variable {d : Db} {Q : β → Set Key → List (Db → Db) → Db → Prop}

/-- What `lockPlants` returns: the plants that `seen` had, as `d` has them. -/
def lockedPlants (ids : List UUID) (seen d : Db) : UUID → Option Plant := fun id =>
  if id ∈ ids ∧ (seen.plants.get id).isSome then d.plants.get id else none

theorem get_of_lockedPlants {ids : List UUID} {seen d : Db} {id : UUID} {plant : Plant}
    (h : lockedPlants ids seen d id = some plant) : d.plants.get id = some plant := by
  unfold lockedPlants at h
  split at h
  · exact h
  · cases h

theorem wp_lockPlants {ids : List UUID} {g : (UUID → Option Plant) → Session β}
    (hinv : S.inv d) (hb : ∀ db, (flush b db).plants = db.plants)
    (hg : ∀ seen d' h', S.Sees seen d' → S.rely.rel h d seen → S.rely.rel h d d' → h ⊆ h' →
      (∀ id ∈ ids, (seen.plants.get id).isSome → Key.plant id ∈ h') →
      (∀ k ∈ h', k ∈ h ∨ ∃ id ∈ ids, k = Key.plant id) →
      wp S.rely F (g (lockedPlants ids seen d')) Q h' b d') :
    wp S.rely F (lockPlants ids >>= g) Q h b d := by
  refine wp_bind (wp_query fun seen h₁ => wp_acquireAll fun d₂ h₂ => ?_)
  refine wp_query (f := _) (g := fun plants => Tx.ret plants) fun d₃ h₃ => ?_
  rw [hb seen, hb d₃]
  have h₃' := S.rely.anti Set.subset_union_left h₃
  have hkey : ∀ k : Key, k ∈ List.map Key.plant ((ids.filter fun id =>
      (seen.plants.get id).isSome).insertionSort (· ≤ ·)) ↔
      ∃ id ∈ ids, (seen.plants.get id).isSome ∧ Key.plant id = k := by
    intro k
    simp only [List.mem_map, List.mem_insertionSort, List.mem_filter, and_assoc]
  have hplants : (fun id => if id ∈ ids.filter fun id => (seen.plants.get id).isSome
      then d₃.plants.get id else none) = lockedPlants ids seen d₃ := by
    funext id
    simp only [lockedPlants, List.mem_filter]
  show wp S.rely F (g _) Q _ b d₃
  rw [hplants]
  refine hg seen d₃ _ ((Scope.Sees.refl (S.keeps h₁.2 hinv)).step (S.rely.trans h₂ h₃'))
    h₁ (S.rely.trans h₁ (S.rely.trans h₂ h₃')) Set.subset_union_left ?_ ?_
  · exact fun id hid hs => .inr ((hkey _).mpr ⟨id, hid, hs, rfl⟩)
  · rintro k (hk | hk)
    · exact .inl hk
    · obtain ⟨id, hid, -, rfl⟩ := (hkey k).mp hk
      exact .inr ⟨id, hid, rfl⟩

end Locks

end GreenGarden
