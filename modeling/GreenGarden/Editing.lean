/-
GreenGarden/Editing.lean

Creating and editing plants and customers, as triples.

None of these requests looks at an order, so all that matters of them here is
which row they write (`PlantWrite`, `CustomerWrite`), under which lock, and
that everything but their own tables stays as it was.
-/
import GreenGarden.Placed

namespace GreenGarden

open Transaction

/-! ### Plants -/

/-- The errors that an edit of the catalogue or of a customer can end with. -/
def EditFailure : Error → Db → Prop
  | .categoryNotFound, _ | .plantNotFound, _ | .slugConflict _, _ | .skuConflict _, _
  | .customerNotFound, _ | .customerPhoneConflict _, _ | .integrity .primaryKey, _
  | .integrity .plantsSlug, _ | .integrity .plantsSku, _
  | .integrity .plantsStockNonNegative, _ | .integrity .slugHistorySlug, _
  | .integrity .customersPhone, _ => True
  | _, _ => False

/-- What an edit does to the plants table; `edit` is the edit of the row. -/
inductive PlantWrite (edit : Plant → Plant) (h : Set Key) (d : Db) :
    (Table UUID Plant → Table UUID Plant) → Prop
  | none : PlantWrite edit h d fun t => t
  | created {id : UUID} (plant : Plant) (hid : Key.plant id ∈ h)
      (hnew : d.plants.get id = none) : PlantWrite edit h d fun t => t.insert id plant
  | edited {id : UUID} (loaded : Plant) (hid : Key.plant id ∈ h) :
      PlantWrite edit h d fun t => t.modify id (Plant.update loaded (edit loaded))

/-- The database went from `d` to `d'` by an edit of the catalogue. -/
structure CatalogueEdit (edit : Plant → Plant) (h : Set Key) (d d' : Db) : Prop where
  plants : ∃ writes, PlantWrite edit h d writes ∧ d'.plants = writes d.plants
  categories : d'.categories = d.categories
  customers : d'.customers = d.customers
  orders : d'.orders = d.orders
  notifications : d'.notifications = d.notifications
  transactions : d'.transactions = d.transactions

/-- A change that leaves the orders and what belongs to them alone. -/
theorem Change.of_orders_eq {serialized : Bool} {k : Set Key} {d d' : Db}
    (horders : d'.orders = d.orders) (hnotifications : d'.notifications = d.notifications)
    (htransactions : d'.transactions = d.transactions)
    (plant : ∀ id, .plant id ∉ k → d'.plants.get id = d.plants.get id)
    (plants : ∀ id, (d.plants.get id).isSome → (d'.plants.get id).isSome)
    (customer : ∀ id, .customer id ∉ k → d'.customers.get id = d.customers.get id)
    (customers : ∀ id, (d.customers.get id).isSome → (d'.customers.get id).isSome)
    (phone : ∀ p, .customerPhone p ∉ k → phoneTaken d p = false → phoneTaken d' p = false) :
    Change serialized k d d' where
  plant := plant
  plants := plants
  customer := customer
  customers := customers
  phone := phone
  order oid _ := by rw [horders]
  orders oid o ho := ⟨o, by rw [horders, ho], rfl⟩
  numbers _ := by rw [Db.orderNumbers, horders, Db.orderNumbers]
  status _ oid o _ ho := ⟨o, by rw [horders, ho], rfl⟩
  notification nid _ := by rw [hnotifications]
  transaction tid _ := by rw [htransactions]
  provider p _ hr := by rwa [GreenGarden.recorded, htransactions]
  recorded p hr := by rwa [GreenGarden.recorded, htransactions]

theorem CatalogueEdit.change {edit : Plant → Plant} {serialized : Bool} {h : Set Key} {d d' : Db}
    (he : CatalogueEdit edit h d d') : Change serialized h d d' := by
  obtain ⟨writes, hwrite, hplants⟩ := he.plants
  refine .of_orders_eq he.orders he.notifications he.transactions (fun pid hpid => ?_)
    (fun pid hs => ?_) (fun cid _ => by rw [he.customers]) (fun cid hs => by rwa [he.customers])
    fun p _ hp => by rwa [phoneTaken, he.customers]
  · rw [hplants]
    cases hwrite with
    | none => rfl
    | @created id plant hid hnew =>
      have hne : pid ≠ id := by rintro rfl; exact hpid hid
      rw [Table.get_insert hnew, if_neg hne]
    | @edited id loaded hid =>
      have hne : pid ≠ id := by rintro rfl; exact hpid hid
      rw [Table.get_modify_of_ne _ hne]
  · rw [hplants]
    cases hwrite with
    | none => exact hs
    | created => exact Table.isSome_get_insert hs _ _
    | edited => exact Table.isSome_get_modify hs _ _

/-- What a request about the catalogue commits. -/
def CataloguePost (S : Scope) (edit : Plant → Plant) (h : Set Key) (b : List (Db → Db))
    (d : Db) : Prop :=
  CatalogueEdit edit h d (flush b d) ∧ Change S.serialized h d (flush b d)

/-- The staged writes do `plants` to the plants table and `slugs` to the slug
history, and touch nothing else. -/
def Stages (plants : Table UUID Plant → Table UUID Plant)
    (slugs : Table UUID PlantSlugHistory → Table UUID PlantSlugHistory)
    (b : List (Db → Db)) : Prop :=
  ∀ db, flush b db
    = { db with plants := plants db.plants, slugHistory := slugs db.slugHistory }

theorem stages_nil : Stages (fun t => t) (fun t => t) [] := fun _ => rfl

/-- The history without a slug. -/
def released (slug : Text) (t : Table UUID PlantSlugHistory) : Table UUID PlantSlugHistory :=
  t.remove fun r => r.slug = slug

/-- What an edit does to the slug history: nothing, or the new slug leaves it
and the old one enters. -/
inductive SlugWrite (S : Scope) (id : UUID) (loaded edited : Plant) (d : Db) :
    (Table UUID PlantSlugHistory → Table UUID PlantSlugHistory) → Prop
  | kept (hsame : edited.slug = loaded.slug) : SlugWrite S id loaded edited d fun t => t
  | renamed {seen seen' : Db} {rowId : UUID} (hne : edited.slug ≠ loaded.slug)
      (hseen : S.Sees seen d) (hseen' : S.Sees seen' d)
      (hnew : (released edited.slug seen.slugHistory).get rowId = none)
      (hold : ∀ r ∈ (released edited.slug seen'.slugHistory).rows, r.slug ≠ loaded.slug) :
      SlugWrite S id loaded edited d fun t =>
        (released edited.slug t).insert rowId ⟨id, loaded.slug⟩

/-- What a flush does to the plants table: nothing, or an UPDATE of the row. -/
inductive RowWrite (S : Scope) (id : UUID) (loaded edited : Plant) (h : Set Key) (d : Db) :
    (Table UUID Plant → Table UUID Plant) → Prop
  | unchanged (hsame : edited = loaded) : RowWrite S id loaded edited h d fun t => t
  | update (hid : Key.plant id ∈ h)
      (hfree : edited.slug ≠ loaded.slug → ∃ seen, S.Sees seen d ∧
        ∀ p ∈ seen.plants.rows, p.slug ≠ edited.slug) :
      RowWrite S id loaded edited h d fun t => t.modify id (Plant.update loaded edited)

/-- A plant has been saved: what is staged for the plants and for the slug
history. -/
inductive Saves (S : Scope) (h : Set Key) (d : Db) : SavedPlant →
    (Table UUID Plant → Table UUID Plant) →
    (Table UUID PlantSlugHistory → Table UUID PlantSlugHistory) → Prop
  | created {seen : Db} {id : UUID} {plant : Plant} (hid : Key.plant id ∈ h)
      (hnew : d.plants.get id = none) (hseen : S.Sees seen d)
      (hfree : ∀ p ∈ seen.plants.rows, p.slug ≠ plant.slug) :
      Saves S h d ⟨id, none, plant⟩ (fun t => t.insert id plant) (released plant.slug)
  | edited {seen : Db} {id : UUID} {loaded copy : Plant}
      {plants : Table UUID Plant → Table UUID Plant}
      {slugs : Table UUID PlantSlugHistory → Table UUID PlantSlugHistory}
      (hseen : S.Sees seen d) (hget : seen.plants.get id = some loaded)
      (hrow : RowWrite S id loaded copy h d plants) (hslug : SlugWrite S id loaded copy d slugs) :
      Saves S h d ⟨id, some loaded, copy⟩ plants slugs

theorem SlugWrite.step {S : Scope} {id : UUID} {loaded edited : Plant} {h : Set Key} {d d' : Db}
    {slugs : Table UUID PlantSlugHistory → Table UUID PlantSlugHistory}
    (hw : SlugWrite S id loaded edited d slugs) (hd : S.rely.rel h d d') :
    SlugWrite S id loaded edited d' slugs := by
  cases hw with
  | kept hsame => exact .kept hsame
  | renamed hne hseen hseen' hnew hold =>
    exact .renamed hne (hseen.step hd) (hseen'.step hd) hnew hold

theorem RowWrite.step {S : Scope} {id : UUID} {loaded edited : Plant} {h h' : Set Key}
    {d d' : Db} {plants : Table UUID Plant → Table UUID Plant}
    (hw : RowWrite S id loaded edited h d plants) (hsub : h ⊆ h') (hd : S.rely.rel h d d') :
    RowWrite S id loaded edited h' d' plants := by
  cases hw with
  | unchanged hsame => exact .unchanged hsame
  | update hid hfree =>
    refine .update (hsub hid) fun hne => ?_
    obtain ⟨seen, hseen, hno⟩ := hfree hne
    exact ⟨seen, hseen.step hd, hno⟩

theorem Saves.step {S : Scope} {h h' : Set Key} {d d' : Db} {saved : SavedPlant}
    {plants : Table UUID Plant → Table UUID Plant}
    {slugs : Table UUID PlantSlugHistory → Table UUID PlantSlugHistory}
    (hs : Saves S h d saved plants slugs) (hsub : h ⊆ h') (hd : S.rely.rel h d d') :
    Saves S h' d' saved plants slugs := by
  cases hs with
  | created hid hnew hseen hfree =>
    exact .created (hsub hid) ((hd.1.plant _ (Set.notMem_compl_iff.mpr hid)).trans hnew)
      (hseen.step hd) hfree
  | edited hseen hget hrow hslug =>
    exact .edited (hseen.step hd) hget (hrow.step hsub hd) (hslug.step hd)

/-- What a saved plant is to the tables: one row created or edited. -/
theorem Saves.catalogueEdit {S : Scope} {h : Set Key} {d : Db} {saved : SavedPlant}
    {plants : Table UUID Plant → Table UUID Plant}
    {slugs : Table UUID PlantSlugHistory → Table UUID PlantSlugHistory} {b : List (Db → Db)}
    {edit : Plant → Plant} (hs : Saves S h d saved plants slugs) (hb : Stages plants slugs b)
    (hedit : ∀ loaded, saved.loaded = some loaded → saved.copy = edit loaded) :
    CatalogueEdit edit h d (flush b d) := by
  rw [hb]
  refine ⟨⟨plants, ?_, rfl⟩, rfl, rfl, rfl, rfl, rfl⟩
  cases hs with
  | created hid hnew => exact .created _ hid hnew
  | @edited seen id loaded copy plants slugs hseen hget hrow hslug =>
    obtain rfl : copy = edit loaded := hedit loaded rfl
    cases hrow with
    | unchanged => exact .none
    | update hid hfree => exact .edited loaded hid

section Plants

variable {β : Type} {S : Scope} {h : Set Key} {b : List (Db → Db)} {d : Db} {id : UUID}
variable {plants : Table UUID Plant → Table UUID Plant}
variable {slugs : Table UUID PlantSlugHistory → Table UUID PlantSlugHistory}
variable {loaded edited : Plant} {edit : Plant → Plant}
variable {Q : β → Set Key → List (Db → Db) → Db → Prop}

theorem wp_check {ok : Db → Bool} {bad : Bool} {e : Error} {g : Unit → Session β}
    (he : ∀ d', EditFailure e d')
    (hg : ∀ d', S.rely.rel h d d' → wp S.rely EditFailure (g ()) Q h b d') :
    wp S.rely EditFailure ((do
      let r ← query ok
      raiseIf (r = bad) e) >>= g) Q h b d := by
  rw [bind_assoc]
  exact wp_query fun d' hd' => wp_failIf (fun _ => he d') fun _ => hg d' hd'

/-- Locking a slug in the history and releasing it. -/
theorem wp_releaseHistoricalSlug {slug : Text} {g : Unit → Session β}
    (hb : Stages (fun t => t) (fun t => t) b)
    (hg : ∀ h' b' d', S.rely.rel h d d' → h ⊆ h' → Stages (fun t => t) (released slug) b' →
      wp S.rely EditFailure (g ()) Q h' b' d') :
    wp S.rely EditFailure (releaseHistoricalSlug slug >>= g) Q h b d := by
  rw [releaseHistoricalSlug, bind_assoc]
  refine wp_acquire fun d' hd' => wp_stage (hg _ _ d' hd' (Set.subset_insert _ _) fun db => ?_)
  rw [flush_cons, hb]
  rfl

/-- A new slug is released in the history before anything is written. -/
theorem wp_releaseSlug {g : Unit → Session β} (hb : Stages (fun t => t) (fun t => t) b)
    (hg : ∀ h' b' d' slugs, S.rely.rel h d d' → h ⊆ h' → Stages (fun t => t) slugs b' →
      (edited.slug = loaded.slug ∧ slugs = (fun t => t) ∨
        edited.slug ≠ loaded.slug ∧ slugs = released edited.slug) →
      wp S.rely EditFailure (g ()) Q h' b' d') :
    wp S.rely EditFailure (releaseSlug id loaded edited >>= g) Q h b d := by
  rw [releaseSlug]
  refine wp_whenElse (fun hne => ?_) fun hsame =>
    hg h b d _ (S.rely.refl h d) subset_rfl hb (.inl ⟨not_not.mp hsame, rfl⟩)
  rw [bind_assoc]
  refine wp_check (fun _ => trivial) fun d₁ hd₁ => ?_
  refine wp_releaseHistoricalSlug hb fun h₂ b₂ d₂ hd₂ hsub₂ hb₂ => ?_
  exact hg h₂ b₂ d₂ _ (S.rely.trans hd₁ hd₂) hsub₂ hb₂ (.inr ⟨hne, rfl⟩)

/-- The old slug of a renamed plant enters the history. -/
theorem wp_insertSlugHistory {g : Unit → Session β} (hinv : S.inv d)
    (hb : Stages plants (released edited.slug) b) (hne : edited.slug ≠ loaded.slug)
    (hg : ∀ h' b' d' slugs, S.rely.rel h d d' → h ⊆ h' → Stages plants slugs b' →
      SlugWrite S id loaded edited d' slugs → wp S.rely EditFailure (g ()) Q h' b' d') :
    wp S.rely EditFailure (insertSlugHistory id loaded.slug >>= g) Q h b d := by
  rw [insertSlugHistory, bind_assoc]
  refine wp_newId (fun _ _ _ _ _ => trivial) fun v d₁ _ hd₁ hused => ?_
  rw [bind_assoc]
  refine wp_claimUnique (fun _ _ _ => trivial) fun d₂ hd₂ htaken => wp_stage ?_
  have hsub := Set.subset_insert (Key.slugHistory v.uuid) h
  have hinv₁ := S.keeps hd₁.2 hinv
  rw [hb] at hused htaken
  refine hg _ _ d₂ (fun t => (released edited.slug t).insert v.uuid ⟨id, loaded.slug⟩)
    (S.rely.trans hd₁ (S.rely.anti hsub hd₂)) (hsub.trans (Set.subset_insert _ _)) ?_ ?_
  · intro db
    rw [flush_cons, hb]
  · refine .renamed hne ((Scope.Sees.refl hinv₁).step hd₂)
      (.refl (S.keeps hd₂.2 hinv₁)) (by simpa using hused) ?_
    rw [Option.isSome_eq_false_iff, Option.isNone_iff_eq_none, Table.find?_eq_none] at htaken
    simpa using htaken

/-- Claiming a slug: no plant has it. -/
theorem wp_claimSlug {slug : Text} {g : Unit → Session β}
    (hb : ∀ db, (flush b db).plants = db.plants)
    (hg : ∀ d', S.rely.rel h d d' → (∀ p ∈ d'.plants.rows, p.slug ≠ slug) →
      wp S.rely EditFailure (g ()) Q (insert (.plantSlug slug) h) b d') :
    wp S.rely EditFailure (claimSlug slug >>= g) Q h b d := by
  refine wp_claimUnique (fun _ _ _ => trivial) fun d₁ hd₁ htaken => hg d₁ hd₁ ?_
  rw [hb, Option.isSome_eq_false_iff, Option.isNone_iff_eq_none, Table.find?_eq_none] at htaken
  simpa using htaken

/-- An UPDATE of a plant row, or none. -/
theorem wp_flushPlant {g : Unit → Session β} (hinv : S.inv d)
    (hb : Stages (fun t => t) slugs b)
    (hg : ∀ h' b' d' plants, S.rely.rel h d d' → h ⊆ h' → Stages plants slugs b' →
      RowWrite S id loaded edited h' d' plants → wp S.rely EditFailure (g ()) Q h' b' d') :
    wp S.rely EditFailure (flushPlant id loaded edited >>= g) Q h b d := by
  -- claiming a new SKU only takes a lock, and the UPDATE is staged behind it
  have finish : ∀ {h₁ : Set Key} {d₁ : Db}, S.rely.rel h d d₁ → h ⊆ h₁ → Key.plant id ∈ h₁ →
      (edited.slug ≠ loaded.slug → ∃ seen, S.Sees seen d₁ ∧
        ∀ p ∈ seen.plants.rows, p.slug ≠ edited.slug) →
      wp S.rely EditFailure (Tx.whenElse (edited.sku ≠ loaded.sku) (claimSku edited.sku) ()
        >>= fun _ => Tx.stage (fun db =>
          { db with plants := db.plants.modify id (Plant.update loaded edited) }) >>= g)
        Q h₁ b d₁ := by
    intro h₁ d₁ hd₁ hsub₁ hid hfree
    have last : ∀ {h₂ : Set Key} {d₂ : Db}, S.rely.rel h₁ d₁ d₂ → h₁ ⊆ h₂ →
        wp S.rely EditFailure (Tx.stage (fun db =>
          { db with plants := db.plants.modify id (Plant.update loaded edited) }) >>= g)
          Q h₂ b d₂ := by
      intro h₂ d₂ hd₂ hsub₂
      refine wp_stage (hg h₂ _ d₂ (fun t => t.modify id (Plant.update loaded edited))
        (S.rely.trans hd₁ (S.rely.anti hsub₁ hd₂)) (hsub₁.trans hsub₂) (fun db => ?_) ?_)
      · rw [flush_cons, hb]
      · exact (RowWrite.update hid hfree).step hsub₂ hd₂
    refine wp_whenElse (fun _ => ?_) fun _ => last (S.rely.refl h₁ d₁) subset_rfl
    exact wp_claimUnique (fun _ _ _ => trivial) fun d₂ hd₂ _ => last hd₂ (Set.subset_insert _ _)
  rw [flushPlant]
  refine wp_whenElse (fun _ => ?_) fun hsame =>
    hg h b d _ (S.rely.refl h d) subset_rfl hb (.unchanged (not_not.mp hsame))
  simp only [bind_assoc]
  refine wp_acquire fun d₁ hd₁ => wp_failIf (fun _ => trivial) fun _ => ?_
  have hinv₁ := S.keeps hd₁.2 hinv
  refine wp_whenElse (fun hne => ?_) fun hsame =>
    finish hd₁ (Set.subset_insert _ _) (.inl rfl) fun hne => absurd hne hsame
  refine wp_claimSlug (fun db => by rw [hb]) fun d₂ hd₂ hfree => ?_
  exact finish (S.rely.trans hd₁ (S.rely.anti (Set.subset_insert _ _) hd₂))
    ((Set.subset_insert _ _).trans (Set.subset_insert _ _)) (.inr (.inl rfl))
    fun _ => ⟨d₂, .refl (S.keeps hd₂.2 hinv₁), hfree⟩

/-- **Saving an edit.** -/
theorem wp_saveEdit {seen : Db} {g : Unit → Session β} (hseen : S.Sees seen d)
    (hget : seen.plants.get id = some loaded)
    (hg : ∀ h' b' d' plants slugs, S.rely.rel h d d' → Stages plants slugs b' →
      Saves S h' d' ⟨id, some loaded, edited⟩ plants slugs →
      wp S.rely EditFailure (g ()) Q h' b' d') :
    wp S.rely EditFailure (saveEdit id loaded edited >>= g) Q h [] d := by
  have rest : ∀ {d₁ : Db}, S.rely.rel h d d₁ →
      wp S.rely EditFailure (releaseSlug id loaded edited >>= fun _ =>
        Tx.whenElse (edited.sku ≠ loaded.sku) (ensureSkuAvailable edited.sku (some id)) ()
          >>= fun _ => flushPlant id loaded edited >>= fun _ =>
            Tx.whenElse (edited.slug ≠ loaded.slug) (insertSlugHistory id loaded.slug) () >>= g)
        Q h [] d₁ := by
    intro d₁ hd₁
    refine wp_releaseSlug stages_nil fun h₂ b₂ d₂ slugs hd₂ hsub₂ hb₂ hslugs => ?_
    have hd₀₂ := S.rely.trans hd₁ hd₂
    -- the flush, and the old slug into the history
    have tail : ∀ {d₃ : Db}, S.rely.rel h₂ d₂ d₃ →
        wp S.rely EditFailure (flushPlant id loaded edited >>= fun _ =>
          Tx.whenElse (edited.slug ≠ loaded.slug) (insertSlugHistory id loaded.slug) () >>= g)
          Q h₂ b₂ d₃ := by
      intro d₃ hd₃
      have hseen₃ := (hseen.step hd₀₂).step hd₃
      have hd₀₃ := S.rely.trans hd₀₂ (S.rely.anti hsub₂ hd₃)
      refine wp_flushPlant hseen₃.inv hb₂ fun h₄ b₄ d₄ plants hd₄ hsub₄ hb₄ hrow => ?_
      have hd₀₄ := S.rely.trans hd₀₃ (S.rely.anti hsub₂ hd₄)
      have hseen₄ := hseen₃.step hd₄
      rcases hslugs with ⟨hsame, rfl⟩ | ⟨hne, rfl⟩
      · refine wp_whenElse (fun hne => absurd hsame hne) fun _ => ?_
        exact hg h₄ b₄ d₄ plants _ hd₀₄ hb₄ (.edited hseen₄ hget hrow (.kept hsame))
      · refine wp_whenElse (fun _ => ?_) fun hsame => absurd hne hsame
        refine wp_insertSlugHistory hseen₄.inv hb₄ hne fun h₅ b₅ d₅ slugs hd₅ hsub₅ hb₅ hw => ?_
        exact hg h₅ b₅ d₅ plants slugs
          (S.rely.trans hd₀₄ (S.rely.anti (hsub₂.trans hsub₄) hd₅)) hb₅
          (.edited (hseen₄.step hd₅) hget (hrow.step hsub₅ hd₅) hw)
    exact wp_whenElse (fun _ => wp_check (fun _ => trivial) fun d₃ hd₃ => tail hd₃)
      fun _ => tail (S.rely.refl h₂ d₂)
  rw [saveEdit]
  simp only [bind_assoc]
  exact wp_whenElse (fun _ => wp_check (fun _ => trivial) fun d₁ hd₁ => rest hd₁)
    fun _ => rest (S.rely.refl h d)

/-- The plant was loaded and its edit saved. -/
def SavedPlant.Edits (edit : Plant → Plant) (saved : SavedPlant) : Prop :=
  ∃ loaded, saved.loaded = some loaded ∧ saved.copy = edit loaded

theorem SavedPlant.Edits.copy_eq {saved : SavedPlant} (h : saved.Edits edit) {loaded : Plant}
    (hloaded : saved.loaded = some loaded) : saved.copy = edit loaded := by
  obtain ⟨loaded', hloaded', hcopy⟩ := h
  rw [hloaded'] at hloaded
  rw [hcopy, Option.some.inj hloaded]

/-- What a request that saves a plant commits. -/
def SavedPost (S : Scope) (saved : SavedPlant) (h : Set Key) (b : List (Db → Db)) (d : Db) :
    Prop :=
  ∃ plants slugs, Stages plants slugs b ∧ Saves S h d saved plants slugs

theorem Saves.stable {saved : SavedPlant} (hs : Saves S h d saved plants slugs)
    (hb : Stages plants slugs b) :
    Stable S.rely (fun saved h b d => SavedPost S saved h b d) saved h b d :=
  fun _ hd' => ⟨plants, slugs, hb, hs.step subset_rfl hd'⟩

theorem wp_editPlant (hinv : S.inv d) :
    wp S.rely EditFailure (editPlant id edit)
      (Stable S.rely fun saved h b d => SavedPost S saved h b d ∧ saved.Edits edit) h [] d := by
  rw [editPlant, getPlant, bind_assoc]
  refine wp_query fun d₁ hd₁ => ?_
  have hinv₁ := S.keeps hd₁.2 hinv
  rw [flush_nil]
  rcases hget : d₁.plants.get id with - | plant
  · trivial
  simp only [pure_bind]
  refine wp_saveEdit (.refl hinv₁) hget fun h₂ b₂ d₂ plants slugs _ hb hs => wp_pure ?_
  intro d' hd'
  exact ⟨hs.stable hb d' hd', plant, rfl, rfl⟩

theorem wp_createPlantSaved (plant : Plant) (hinv : S.inv d) :
    wp S.rely EditFailure (createPlantSaved plant)
      (Stable S.rely fun saved h b d => SavedPost S saved h b d ∧
        saved.loaded = none ∧ saved.copy = plant) h [] d := by
  simp only [createPlantSaved, createPlant, bind_assoc, pure_bind]
  -- category, slug and SKU
  refine wp_check (fun _ => trivial) fun d₁ hd₁ => ?_
  refine wp_check (fun _ => trivial) fun d₂ hd₂ => ?_
  refine wp_check (fun _ => trivial) fun d₃ hd₃ => ?_
  have hinv₃ := S.keeps hd₃.2 (S.keeps hd₂.2 (S.keeps hd₁.2 hinv))
  refine wp_releaseHistoricalSlug stages_nil fun h₄ b₄ d₄ hd₄ _ hb₄ => ?_
  refine wp_newId (fun _ _ _ _ _ => trivial) fun v d₅ _ hd₅ hused => ?_
  have hinv₅ := S.keeps hd₅.2 (S.keeps hd₄.2 hinv₃)
  -- releasing a slug stages nothing on the plants, so the new key is free
  have hnew : d₅.plants.get v.uuid = none := by
    rw [hb₄] at hused
    simpa using hused
  refine wp_failIf (fun _ => trivial) fun _ => ?_
  refine wp_claimSlug (fun db => by rw [hb₄]) fun d₆ hd₆ hfree => ?_
  rw [claimSku]
  refine wp_claimUnique (fun _ _ _ => trivial) fun d₇ hd₇ _ => wp_stage (wp_pure ?_)
  have hkept := (hd₆.1.plant v.uuid (Set.notMem_compl_iff.mpr (.inl rfl))).trans hnew
  have hcreated : Saves S (insert (.plant v.uuid) h₄) d₆ ⟨v.uuid, none, plant⟩ _ _ :=
    .created (.inl rfl) hkept (.refl (S.keeps hd₆.2 hinv₅)) hfree
  have hsub : insert (Key.plant v.uuid) h₄ ⊆ insert (.plantSku plant.sku)
      (insert (.plantSlug plant.slug) (insert (.plant v.uuid) h₄)) :=
    (Set.subset_insert _ _).trans (Set.subset_insert _ _)
  have hs := hcreated.step hsub (S.rely.anti (Set.subset_insert _ _) hd₇)
  have hb : Stages (fun t => t.insert v.uuid plant) (released plant.slug)
      ((fun db => { db with plants := db.plants.insert v.uuid plant }) :: b₄) := fun db => by
    rw [flush_cons, hb₄]
  exact fun d' hd' => ⟨hs.stable hb d' hd', rfl, rfl⟩

/-- What a request saves of a plant. -/
def PlantRequest.Wrote (saved : SavedPlant) : PlantRequest → Prop
  | .createPlant plant => saved.copy = plant
  | .updatePlant _ patch => saved.Edits patch.apply
  | .setPlantStatus _ isActive => saved.Edits (Plant.activated isActive)

/-- **Every request that writes the catalogue saves a plant**, the one it was sent or its edit of
the one it loaded. -/
theorem wp_wrote (request : PlantRequest) (hinv : S.inv d) :
    wp S.rely EditFailure request.saved
      (Stable S.rely fun saved h b d => SavedPost S saved h b d ∧ request.Wrote saved) h [] d := by
  cases request with
  | createPlant plant =>
    refine wp_mono (fun _ _ hf => hf) (fun saved h b d hq d' hd' => ?_)
      (wp_createPlantSaved plant hinv)
    obtain ⟨hpost, -, hcopy⟩ := hq d' hd'
    exact ⟨hpost, hcopy⟩
  | updatePlant id patch => exact wp_editPlant hinv
  | setPlantStatus id isActive => exact wp_editPlant hinv

theorem wp_saved (request : PlantRequest) (hinv : S.inv d) :
    wp S.rely EditFailure request.saved (Stable S.rely (SavedPost S)) h [] d :=
  wp_mono (fun _ _ hf => hf) (fun _ _ _ _ hq d' hd' => (hq d' hd').1) (wp_wrote request hinv)

/-- The same requests, with the row's key as the answer. -/
theorem SavedPost.catalogue {saved : SavedPlant} (hp : SavedPost S saved h b d)
    (hedit : ∀ loaded, saved.loaded = some loaded → saved.copy = edit loaded) :
    CataloguePost S edit h b d := by
  obtain ⟨plants, slugs, hb, hs⟩ := hp
  have he := hs.catalogueEdit hb hedit
  exact ⟨he, he.change⟩

theorem wp_savedId {t : Session SavedPlant} {P : SavedPlant → Set Key → List (Db → Db) → Db → Prop}
    (hP : ∀ saved h b d, P saved h b d → CataloguePost S edit h b d)
    (ht : wp S.rely EditFailure t (Stable S.rely P) h [] d) :
    wp S.rely EditFailure (SavedPlant.id <$> t)
      (Stable S.rely fun _ h b d => CataloguePost S edit h b d) h [] d := by
  rw [map_eq_pure_bind]
  exact wp_bind (wp_mono (fun _ _ hf => hf)
    (fun saved h b d hq => wp_pure fun d' hd' => hP saved h b d' (hq d' hd')) ht)

theorem wp_createPlant (plant : Plant) (hinv : S.inv d) :
    wp S.rely EditFailure (createPlant plant)
      (Stable S.rely fun _ h b d => CataloguePost S edit h b d) h [] d := by
  rw [createPlant_eq]
  refine wp_savedId (fun saved h b d hp => ?_) (wp_createPlantSaved plant hinv)
  exact hp.1.catalogue fun loaded hl => absurd (hp.2.1.symm.trans hl) (by simp)

theorem wp_updatePlant (patch : PlantPatch) (hinv : S.inv d) :
    wp S.rely EditFailure (updatePlant id patch)
      (Stable S.rely fun _ h b d => CataloguePost S patch.apply h b d) h [] d := by
  rw [updatePlant_eq]
  exact wp_savedId (fun saved h b d hp => hp.1.catalogue fun _ => hp.2.copy_eq) (wp_editPlant hinv)

theorem wp_setPlantStatus (isActive : Bool) (hinv : S.inv d) :
    wp S.rely EditFailure (setPlantStatus id isActive)
      (Stable S.rely fun _ h b d =>
        CataloguePost S (Plant.activated isActive) h b d) h [] d := by
  rw [setPlantStatus_eq]
  exact wp_savedId (fun saved h b d hp => hp.1.catalogue fun _ => hp.2.copy_eq) (wp_editPlant hinv)

end Plants

/-! ### Customers -/

/-- What a request is to do to the customers table: a new row, or an edit of a row. -/
inductive CustomerChange where
  | create (customer : Customer)
  | edit (id : UUID) (edit : Customer → Customer)

/-- What a request does to the customers table. -/
inductive CustomerWrite (h : Set Key) (d : Db) :
    CustomerChange → (Table UUID Customer → Table UUID Customer) → Prop
  | none {change : CustomerChange} : CustomerWrite h d change fun t => t
  | created {id : UUID} (customer : Customer) (hid : Key.customer id ∈ h)
      (hphone : Key.customerPhone customer.phone ∈ h) (hnew : d.customers.get id = none)
      (hfree : phoneTaken d customer.phone = false) :
      CustomerWrite h d (.create customer) fun t => t.insert id customer
  | edited {id : UUID} {edit : Customer → Customer} (loaded : Customer)
      (hid : Key.customer id ∈ h)
      (hphone : (edit loaded).phone = loaded.phone ∨
        Key.customerPhone (edit loaded).phone ∈ h ∧
          phoneTaken d (edit loaded).phone = false) :
      CustomerWrite h d (.edit id edit) fun t =>
        t.modify id (Customer.update loaded (edit loaded))

/-- The database went from `d` to `d'` by an edit of the customers. -/
structure CustomerEdit (change : CustomerChange) (h : Set Key) (d d' : Db) : Prop where
  customers : ∃ writes, CustomerWrite h d change writes ∧ d'.customers = writes d.customers
  categories : d'.categories = d.categories
  plants : d'.plants = d.plants
  slugHistory : d'.slugHistory = d.slugHistory
  orders : d'.orders = d.orders
  notifications : d'.notifications = d.notifications
  transactions : d'.transactions = d.transactions

/-- A phone that is free stays free, unless its entry is locked. -/
theorem CustomerWrite.phone {change : CustomerChange} {h : Set Key} {d d' : Db}
    {writes : Table UUID Customer → Table UUID Customer} (hw : CustomerWrite h d change writes)
    (hd : d'.customers = writes d.customers) {p : Text} (hp : Key.customerPhone p ∉ h)
    (hfree : phoneTaken d p = false) : phoneTaken d' p = false := by
  cases hw with
  | none => exact (phoneTaken_congr (by rw [hd]) p).trans hfree
  | @created id customer hid hphone hnew =>
    refine phoneTaken_insert hd ?_ hfree
    rintro rfl
    exact hp hphone
  | @edited id edit loaded hid hphone =>
    rw [Bool.eq_false_iff, ne_eq, phoneTaken_eq_true] at hfree ⊢
    rintro ⟨c, hc, rfl⟩
    obtain ⟨cid, hget⟩ := Table.mem_rows.mp hc
    rw [hd, Table.get_modify] at hget
    split at hget
    · -- the edited row has its old phone, or one whose entry is locked
      obtain ⟨current, hcur, rfl⟩ := Option.map_eq_some_iff.mp hget
      rcases hphone with hsame | hlock
      · refine hfree ⟨current, Table.mem_rows_of_get hcur, ?_⟩
        rw [Customer.update, changed, if_pos hsame]
      · by_cases hsame : (edit loaded).phone = loaded.phone
        · refine hfree ⟨current, Table.mem_rows_of_get hcur, ?_⟩
          rw [Customer.update, changed, if_pos hsame]
        · refine hp ?_
          rw [Customer.update, changed, if_neg hsame]
          exact hlock.1
    · exact hfree ⟨c, Table.mem_rows_of_get hget, rfl⟩

theorem CustomerEdit.change {change : CustomerChange} {serialized : Bool} {h : Set Key}
    {d d' : Db} (he : CustomerEdit change h d d') : Change serialized h d d' := by
  obtain ⟨writes, hwrite, hcustomers⟩ := he.customers
  refine .of_orders_eq he.orders he.notifications he.transactions (fun pid _ => by rw [he.plants])
    (fun pid hs => by rwa [he.plants]) (fun cid hcid => ?_) (fun cid hs => ?_)
    fun p hp hfree => hwrite.phone hcustomers hp hfree
  · rw [hcustomers]
    cases hwrite with
    | none => rfl
    | @created id customer hid hphone hnew =>
      have hne : cid ≠ id := by rintro rfl; exact hcid hid
      rw [Table.get_insert hnew, if_neg hne]
    | @edited id edit loaded hid hphone =>
      have hne : cid ≠ id := by rintro rfl; exact hcid hid
      rw [Table.get_modify_of_ne _ hne]
  · rw [hcustomers]
    cases hwrite with
    | none => exact hs
    | created => exact Table.isSome_get_insert hs _ _
    | edited => exact Table.isSome_get_modify hs _ _

/-- What a request about a customer commits. -/
def CustomerPost (S : Scope) (change : CustomerChange) (h : Set Key) (b : List (Db → Db))
    (d : Db) : Prop :=
  CustomerEdit change h d (flush b d) ∧ Change S.serialized h d (flush b d)

/-- The edit of `set_customer_status`. -/
def Customer.activated (isActive : Bool) (customer : Customer) : Customer :=
  { customer with isActive := isActive }

/-- The edit of `update_customer`. -/
def CustomerPatch.apply (patch : CustomerPatch) (customer : Customer) : Customer :=
  { customer with
    phone := patch.phone.getD customer.phone
    name := patch.name.getD customer.name
    email := patch.email.getD customer.email }

section Customers

variable {β : Type} {S : Scope} {h : Set Key} {b : List (Db → Db)} {d : Db} {id : UUID}
variable {change : CustomerChange} {Q : β → Set Key → List (Db → Db) → Db → Prop}

/-- Committing an edit of the customers. -/
theorem customer_commit {writes : Table UUID Customer → Table UUID Customer}
    (hb : ∀ db, flush b db = { db with customers := writes db.customers })
    (hw : ∀ d', S.rely.rel h d d' → CustomerWrite h d' change writes) :
    Stable S.rely (fun (_ : UUID) h b d => CustomerPost S change h b d) id h b d := by
  intro d' hd'
  have hedit : CustomerEdit change h d' (flush b d') := by
    rw [hb]
    exact ⟨⟨writes, hw d' hd', rfl⟩, rfl, rfl, rfl, rfl, rfl, rfl⟩
  exact ⟨hedit, hedit.change⟩

/-- An UPDATE of a customer row, or none, as the last step. -/
theorem wp_flushCustomer (edit : Customer → Customer) (loaded : Customer) :
    wp S.rely EditFailure (flushCustomer id loaded (edit loaded) >>= fun _ => pure id)
      (Stable S.rely fun _ h b d => CustomerPost S (.edit id edit) h b d) h [] d := by
  rw [flushCustomer]
  refine wp_whenElse (fun _ => ?_) fun _ =>
    wp_pure (customer_commit (fun _ => rfl) fun _ _ => .none)
  rw [bind_assoc]
  refine wp_acquire fun d₁ hd₁ => ?_
  rw [bind_assoc]
  refine wp_whenElse (fun _ => ?_) fun hsame => wp_stage (wp_pure ?_)
  · refine wp_claimUnique (fun _ _ _ => trivial) fun d₂ hd₂ htaken => wp_stage (wp_pure ?_)
    -- the phone was free when it was claimed, and its entry is locked since
    exact customer_commit (fun _ => rfl) fun d' hd' =>
      .edited loaded (.inr (.inl rfl)) (.inr ⟨.inl rfl,
        hd'.1.phone _ (Set.notMem_compl_iff.mpr (.inl rfl)) htaken⟩)
  · exact customer_commit (fun _ => rfl) fun _ _ =>
      .edited loaded (.inl rfl) (.inl (not_not.mp hsame))

theorem wp_setCustomerStatus (isActive : Bool) :
    wp S.rely EditFailure (setCustomerStatus id isActive)
      (Stable S.rely fun _ h b d => CustomerPost S (.edit id (Customer.activated isActive)) h b d)
      h [] d := by
  rw [setCustomerStatus, getCustomer, bind_assoc]
  refine wp_query fun d₁ _ => ?_
  rw [flush_nil]
  rcases d₁.customers.get id with - | customer
  · trivial
  · exact wp_flushCustomer (Customer.activated isActive) customer

theorem wp_updateCustomer (patch : CustomerPatch) :
    wp S.rely EditFailure (updateCustomer id patch)
      (Stable S.rely fun _ h b d => CustomerPost S (.edit id patch.apply) h b d) h [] d := by
  rw [updateCustomer, getCustomer, bind_assoc]
  refine wp_query fun d₁ _ => ?_
  rw [flush_nil]
  rcases d₁.customers.get id with - | customer
  · trivial
  simp only [pure_bind]
  refine wp_whenElse (fun _ => wp_check (fun _ => trivial) fun d₂ _ => ?_) fun _ => ?_
  · exact wp_flushCustomer patch.apply customer
  · exact wp_flushCustomer patch.apply customer

theorem wp_createCustomer (phone name : Text) (email : Option Text) :
    wp S.rely EditFailure (createCustomer phone name email)
      (Stable S.rely fun _ h b d => CustomerPost S (.create ⟨phone, name, email, true⟩) h b d)
      h [] d := by
  rw [createCustomer]
  refine wp_check (fun _ => trivial) fun d₁ _ => ?_
  rw [insertCustomer]
  refine wp_newId (fun _ _ _ _ _ => trivial) fun v d₂ _ hd₂ hused => ?_
  refine wp_claimUnique (fun _ _ _ => trivial) fun d₃ hd₃ htaken => wp_stage (wp_pure ?_)
  have hnew : d₂.customers.get v.uuid = none := by simpa using hused
  have hw : ∀ d', S.rely.rel (insert (Key.customerPhone phone)
      (insert (Key.customer v.uuid) h)) d₃ d' →
      CustomerWrite (insert (Key.customerPhone phone) (insert (Key.customer v.uuid) h)) d'
        (.create ⟨phone, name, email, true⟩)
        fun t => t.insert v.uuid ⟨phone, name, email, true⟩ := by
    intro d' hd'
    have hd₂' : S.rely.rel (insert (Key.customer v.uuid) h) d₂ d' :=
      S.rely.trans hd₃ (S.rely.anti (Set.subset_insert _ _) hd')
    exact .created _ (.inr (.inl rfl)) (.inl rfl)
      ((hd₂'.1.customer _ (Set.notMem_compl_iff.mpr (.inl rfl))).trans hnew)
      (hd'.1.phone _ (Set.notMem_compl_iff.mpr (.inl rfl)) htaken)
  exact customer_commit (fun _ => rfl) hw

end Customers

end GreenGarden
