/-
GreenGarden/Syncing.lean

Requests that save a plant and then mirror it.

A request commits the columns it changed and then hands its own copy of the
row to the mirror (`sync_plant_knowledge_safe`), in one or two calls to the
store that are no part of the transaction.  `SyncState` runs the transactions
of `GreenGarden/Transaction.lean` and these calls side by side.

Two things can go wrong.  The copy may be stale: a column that the request
left as it had loaded it was changed in between (`Unstale`).  And an older
sync may write over a newer one (`InStep`).  `mirror_converges` says that
nothing else can: where every commit and every call avoid both, the collection
follows the table.
-/
import GreenGarden.Mirror
import GreenGarden.Guarantee

namespace GreenGarden

open Transaction Replica

/-! ### The columns that are mirrored -/

/-- The columns that the objects of a plant are built from, and whether there
are any. -/
structure IndexedColumns where
  name : Text
  nameVi : Option Text
  slug : Text
  description : Option Text
  descriptionVi : Option Text
  longDescription : Option Text
  longDescriptionVi : Option Text
  isActive : Bool
  plantType : Option PlantType
  difficulty : Option PlantDifficulty
  growthRate : Option PlantGrowthRate
  sunlight : Option PlantSunlight
  watering : Option PlantWatering
  spaceRequirement : Option PlantSpaceRequirement
  indoorSuitable : Option Bool
  outdoorSuitable : Option Bool
  petSafe : Option Bool
  beginnerFriendly : Option Bool
  deriving DecidableEq

/-- The columns that a plant's objects are made of. -/
def Plant.indexed (plant : Plant) : IndexedColumns where
  name := plant.name
  nameVi := plant.nameVi
  slug := plant.slug
  description := plant.description
  descriptionVi := plant.descriptionVi
  longDescription := plant.longDescription
  longDescriptionVi := plant.longDescriptionVi
  isActive := plant.isActive
  plantType := plant.plantType
  difficulty := plant.difficulty
  growthRate := plant.growthRate
  sunlight := plant.sunlight
  watering := plant.watering
  spaceRequirement := plant.spaceRequirement
  indoorSuitable := plant.indoorSuitable
  outdoorSuitable := plant.outdoorSuitable
  petSafe := plant.petSafe
  beginnerFriendly := plant.beginnerFriendly

section Indexed

variable {indexer : Indexer} {id : UUID} {p q : Plant}

theorem chunkObjects_congr (hname : p.name = q.name) (hnameVi : p.nameVi = q.nameVi)
    (counters : Locale × Text → ℕ) (chunks : List PlantChunk) :
    chunkObjects indexer id p counters chunks = chunkObjects indexer id q counters chunks := by
  induction chunks generalizing counters with
  | nil => rfl
  | cons chunk chunks ih => simp only [chunkObjects, weaviateObject, hname, hnameVi, ih]

/-- Nothing else of a plant is mirrored. -/
theorem objects_congr (h : p.indexed = q.indexed) :
    plantChunksToWeaviateObjects indexer id p = plantChunksToWeaviateObjects indexer id q := by
  simp only [Plant.indexed, IndexedColumns.mk.injEq] at h
  obtain ⟨hname, hnameVi, hslug, hd, hdVi, hl, hlVi, -, hcare⟩ := h
  obtain ⟨h₁, h₂, h₃, h₄, h₅, h₆, h₇, h₈, h₉, h₁₀⟩ := hcare
  have hlines : ∀ locale, careLines locale p = careLines locale q := by
    intro locale
    simp only [careLines, h₁, h₂, h₃, h₄, h₅, h₆, h₇, h₈, h₉, h₁₀]
  have hsections : ∀ locale, plantContentSections locale p = plantContentSections locale q := by
    intro locale
    cases locale <;> simp only [plantContentSections, hlines, hname, hnameVi, hd, hdVi, hl, hlVi]
  have htitle : ∀ locale, plantTitle locale p = plantTitle locale q := by
    intro locale
    cases locale <;> simp only [plantTitle, hname, hnameVi]
  have hlocale : localeChunks indexer id p = localeChunks indexer id q := by
    funext locale
    rw [localeChunks, localeChunks, buildPlantContent, buildPlantContent, hsections, htitle, hslug]
  rw [plantChunksToWeaviateObjects, plantChunksToWeaviateObjects, preparePlantChunks,
    preparePlantChunks, hlocale]
  exact chunkObjects_congr hname hnameVi _ _

theorem isActive_congr (h : p.indexed = q.indexed) : p.isActive = q.isActive :=
  congrArg IndexedColumns.isActive h

end Indexed

/-! ### Transactions and calls side by side -/

section System

variable {ι : Type} [DecidableEq ι]

/-- The committed database and the transactions, the collection, how many calls
the sync of each request has made, and who committed last on each plant. -/
structure SyncState (ι : Type) where
  engine : State ι Db Key Outside Error SavedPlant
  collection : Collection
  made : ι → ℕ
  latest : UUID → Option ι

/-- A move of a transaction, or the next call of a sync. -/
inductive SyncMove (ι : Type) where
  | request (m : Move ι Outside)
  | sync (i : ι)

/-- The transactions of the requests. -/
def catalogueRequests (requests : ι → PlantRequest) :
    Workload ι Db Key Outside Error SavedPlant where
  body i := (requests i).saved
  token _ := []

/-- One move; one that is not possible leaves the state alone. -/
def SyncState.next (indexer : Indexer) (requests : ι → PlantRequest) (s : SyncState ι) :
    SyncMove ι → SyncState ι
  | .request m =>
      match fire (catalogueRequests requests) s.engine m with
      | none => s
      | some engine =>
          { s with
            engine := engine
            latest :=
              match committing s.engine m with
              | some (i, saved) => Function.update s.latest saved.id (some i)
              | none => s.latest }
  | .sync i =>
      match s.engine.result i with
      | none => s
      | some saved =>
          match (syncCalls indexer saved.id saved.copy)[s.made i]? with
          | none => s
          | some call =>
              { s with
                collection := call s.collection
                made := Function.update s.made i (s.made i + 1) }

/-- Nobody has started. -/
def SyncState.initial (d : Db) (collection : Collection) : SyncState ι where
  engine := Transaction.initial d
  collection := collection
  made _ := 0
  latest _ := none

/-- The state after a list of moves. -/
def SyncState.run (indexer : Indexer) (requests : ι → PlantRequest) (s : SyncState ι)
    (ms : List (SyncMove ι)) : SyncState ι :=
  ms.foldl (SyncState.next indexer requests) s

/-- A request has ended, and so has its sync, which has made `made` calls. -/
def SyncEnded (indexer : Indexer) (made : ℕ) : Status Db Key Outside Error SavedPlant → Prop
  | .running _ _ => False
  | .committed saved => (syncCalls indexer saved.id saved.copy).length ≤ made
  | _ => True

/-- Every request that was started has ended, with its sync. -/
def SyncState.Finished (indexer : Indexer) (s : SyncState ι) : Prop :=
  ∀ i, SyncEnded indexer (s.made i) (s.engine.status i)

/-- The objects of a plant are exactly those of its row, if that is active. -/
def PlantMirrored (indexer : Indexer) (db : Db) (collection : Collection) (id : UUID) : Prop :=
  ∀ uuid object, collection uuid = some object ∧ ofPlant id object = true ↔
    ∃ plant, db.plants.get id = some plant ∧ plant.isActive = true ∧
      (uuid, object) ∈ plantChunksToWeaviateObjects indexer id plant

/-- No mirrored column that the request leaves as it loaded it has been
changed since: the row it is about to write agrees with its copy. -/
def Unstale (saved : SavedPlant) (db : Db) : Prop :=
  ∀ loaded ∈ saved.loaded, ∀ current ∈ db.plants.get saved.id,
    (Plant.update loaded saved.copy current).indexed = saved.copy.indexed

/-- What keeps the mirror right: nothing stale is committed, and no call comes
from a request other than the last to commit on its plant once that one has
begun its sync. -/
def SyncState.InStep (s : SyncState ι) : SyncMove ι → Prop
  | .request m => ∀ e ∈ committing s.engine m, Unstale e.2 s.engine.db
  | .sync i => ∀ saved ∈ s.engine.result i, ∀ l ∈ s.latest saved.id, l ≠ i → s.made l = 0

/-- Every move of the run is in step. -/
def SyncState.RunInStep (indexer : Indexer) (requests : ι → PlantRequest) (s : SyncState ι) :
    List (SyncMove ι) → Prop
  | [] => True
  | m :: ms => s.InStep m ∧ (s.next indexer requests m).RunInStep indexer requests ms

end System

/-! ### What commits and calls do -/

/-- The plant, if it is to be mirrored. -/
def Plant.mirrored (plant : Plant) : Option Plant := if plant.isActive then some plant else none

theorem plantMirrored_iff {indexer : Indexer} {db : Db} {collection : Collection} {id : UUID} :
    PlantMirrored indexer db collection id ↔
      (plantLayout indexer).Mirrors collection id ((db.plants.get id).bind Plant.mirrored) := by
  have hrow : ∀ v, v ∈ (db.plants.get id).bind Plant.mirrored ↔
      db.plants.get id = some v ∧ v.isActive = true := by
    intro v
    rcases db.plants.get id with - | plant
    · simp
    · simp only [Option.bind_some, Plant.mirrored, Option.mem_def, Option.ite_none_right_eq_some,
        Option.some.injEq]
      constructor
      · rintro ⟨h, rfl⟩
        exact ⟨rfl, h⟩
      · rintro ⟨rfl, h⟩
        exact ⟨h, rfl⟩
  refine forall₂_congr fun uuid object => ?_
  simp only [hrow, and_assoc]
  rfl

theorem mirrors_congr {indexer : Indexer} {collection : Collection} {id : UUID} {p q : Plant}
    (h : p.indexed = q.indexed) (hm : (plantLayout indexer).Mirrors collection id p.mirrored) :
    (plantLayout indexer).Mirrors collection id q.mirrored := by
  intro uuid object
  have hobject := hm uuid object
  have hactive := isActive_congr h
  rw [Plant.mirrored, hactive] at hobject
  rw [Plant.mirrored]
  cases hq : q.isActive with
  | true =>
    simp only [hq, if_true, Option.mem_def, Option.some.injEq, exists_eq_left', plantLayout]
      at hobject ⊢
    rw [← objects_congr h]
    exact hobject
  | false => simpa [hq] using hobject

/-- An UPDATE of no column. -/
theorem Plant.update_self (loaded current : Plant) :
    Plant.update loaded loaded current = current := by
  simp only [Plant.update, changed, if_true]

section Saved

variable {h : Set Key} {b : List (Db → Db)} {d : Db} {saved : SavedPlant}

/-- A commit writes one row. -/
theorem SavedPost.get_of_ne (hp : SavedPost lockScope saved h b d) {id : UUID}
    (hid : id ≠ saved.id) : (flush b d).plants.get id = d.plants.get id := by
  obtain ⟨plants, slugs, hb, hs⟩ := hp
  rw [hb]
  cases hs with
  | created _ hnew => exact (Table.get_insert hnew _ _).trans (if_neg hid)
  | edited _ _ hrow _ =>
    cases hrow with
    | unchanged => rfl
    | update => exact Table.get_modify_of_ne d.plants hid _

/-- **A commit that is not stale writes its copy**, as far as it is mirrored. -/
theorem SavedPost.get_self (hp : SavedPost lockScope saved h b d) (hfresh : Unstale saved d) :
    ∃ row, (flush b d).plants.get saved.id = some row ∧ row.indexed = saved.copy.indexed := by
  obtain ⟨plants, slugs, hb, hs⟩ := hp
  rw [hb]
  cases hs with
  | @created _ id plant _ hnew => exact ⟨plant, (Table.get_insert hnew _ _).trans (if_pos rfl), rfl⟩
  | @edited seen id loaded copy plants slugs hseen hget hrow =>
    -- rows are never deleted
    obtain ⟨current, hcur⟩ := Option.isSome_iff_exists.mp
      (hseen.2.1.plants id (Option.isSome_iff_exists.mpr ⟨loaded, hget⟩))
    have hindexed := hfresh loaded rfl current hcur
    cases hrow with
    | unchanged hsame =>
      subst hsame
      rw [Plant.update_self] at hindexed
      exact ⟨current, hcur, hindexed⟩
    | update =>
      refine ⟨Plant.update loaded copy current, ?_, hindexed⟩
      show (Table.modify d.plants id (Plant.update loaded copy)).get id = _
      rw [Table.get_modify, if_pos rfl, hcur]
      rfl

end Saved

section Calls

variable {indexer : Indexer} {saved : SavedPlant} {collection : Collection} {k : ℕ}
variable {call : Collection → Collection}

/-- What the collection shows of the plant after `k` calls of its sync. -/
def shownAfter (indexer : Indexer) (saved : SavedPlant) (k : ℕ) : Option Plant :=
  if k < (syncCalls indexer saved.id saved.copy).length then none else saved.copy.mirrored

/-- What a call of a sync is. -/
theorem syncCalls_get (hcall : (syncCalls indexer saved.id saved.copy)[k]? = some call) :
    k = 0 ∧ call = (plantLayout indexer).clear saved.id ∨
    k = 1 ∧ call = (plantLayout indexer).fill saved.id saved.copy ∧
      saved.copy.isActive = true := by
  have single : ∀ {f : Collection → Collection}, [f][k]? = some call → k = 0 ∧ call = f := by
    intro f h
    cases k with
    | zero => exact ⟨rfl, (Option.some.inj h).symm⟩
    | succ k => cases h
  rw [syncCalls] at hcall
  split at hcall
  · exact .inl (single hcall)
  · rename_i hactive
    dsimp only at hcall
    split at hcall
    · exact .inl (single hcall)
    · cases k with
      | zero => exact .inl ⟨rfl, (Option.some.inj hcall).symm⟩
      | succ k =>
        obtain ⟨rfl, rfl⟩ : k = 0 ∧ call = fun c =>
            (upsertPlantKnowledgeObjects
              (plantChunksToWeaviateObjects indexer saved.id saved.copy) c).1 := by
          cases k with
          | zero => exact ⟨rfl, (Option.some.inj hcall).symm⟩
          | succ k => cases hcall
        exact .inr ⟨rfl, funext fun c => upsert_objects, by simpa using hactive⟩

/-- After the only call of a sync nothing is left to be shown. -/
theorem objects_of_length (h : (syncCalls indexer saved.id saved.copy).length ≤ 1) :
    ∀ v ∈ saved.copy.mirrored, plantChunksToWeaviateObjects indexer saved.id v = [] := by
  intro v hv
  rw [Plant.mirrored] at hv
  split at hv
  · rename_i hactive
    obtain rfl := Option.some.inj hv
    rw [syncCalls, if_neg (by simp [hactive])] at h
    dsimp only at h
    split at h
    · rename_i hempty
      exact List.isEmpty_iff.mp hempty
    · exact absurd h (by simp)
  · cases hv

/-- The next call of a sync, for the plant that is synced. -/
theorem mirrors_call_self (hcall : (syncCalls indexer saved.id saved.copy)[k]? = some call)
    (hm : k = 0 ∨ (plantLayout indexer).Mirrors collection saved.id (shownAfter indexer saved k)) :
    (plantLayout indexer).Mirrors (call collection) saved.id
      (shownAfter indexer saved (k + 1)) := by
  obtain ⟨hlt, -⟩ := List.getElem?_eq_some_iff.mp hcall
  rcases syncCalls_get hcall with ⟨rfl, rfl⟩ | ⟨rfl, rfl, hactive⟩
  · -- the deletion: nothing is shown until there is something to write
    intro uuid object
    rw [Layout.mirrors_clear uuid object, shownAfter]
    split
    · rfl
    · rename_i hle
      constructor
      · rintro ⟨v, hv, -⟩
        cases hv
      · rintro ⟨v, hv, hmem⟩
        have hnil := objects_of_length (Nat.le_of_not_lt hle) v hv
        have hmem : (uuid, object) ∈ plantChunksToWeaviateObjects indexer saved.id v := hmem
        rw [hnil] at hmem
        cases hmem
  · rcases hm with h | hm
    · cases h
    rw [shownAfter, if_pos hlt] at hm
    have hlen : ¬ 1 + 1 < (syncCalls indexer saved.id saved.copy).length := by
      rw [syncCalls, if_neg (by simp [hactive])]
      dsimp only
      split <;> simp
    rw [shownAfter, if_neg hlen, Plant.mirrored, if_pos hactive]
    exact hm.fill_self

/-- A call of a sync, for the other plants. -/
theorem mirrors_call_of_ne {id : UUID} {row : Option Plant} (hid : saved.id ≠ id)
    (hcall : (syncCalls indexer saved.id saved.copy)[k]? = some call)
    (hm : (plantLayout indexer).Mirrors collection id row) :
    (plantLayout indexer).Mirrors (call collection) id row := by
  rcases syncCalls_get hcall with ⟨-, rfl⟩ | ⟨-, rfl, -⟩
  · exact hm.clear hid
  · exact hm.fill hid

end Calls

/-! ### Convergence -/

/-- Every transaction saves its plant, whatever the others do. -/
def catalogueContract {ι : Type} (requests : ι → PlantRequest) :
    Contract (catalogueRequests requests) where
  rely := lockScope.rely
  inv _ := True
  post _ := SavedPost lockScope
  error _ := EditFailure
  answers _ := trivial
  triple i _ _ := wp_saved (requests i) trivial
  keeps _ _ _ _ _ _ _ := trivial
  respects _ saved _ _ _ _ hp _ hdisj :=
    ⟨(hp.catalogue (fun _ _ => rfl : ∀ loaded, saved.loaded = some loaded →
        saved.copy = (fun _ => saved.copy) loaded)).2.mono
      (Set.subset_compl_iff_disjoint_right.mpr hdisj), trivial⟩

section Convergence

variable {ι : Type} [DecidableEq ι] {indexer : Indexer} {requests : ι → PlantRequest}
variable {s : SyncState ι}

/-- Where the mirror of a plant stands. -/
inductive Tracked (indexer : Indexer) (s : SyncState ι) (id : UUID) : Prop
  | untouched (hlatest : s.latest id = none)
      (hm : (plantLayout indexer).Mirrors s.collection id
        ((s.engine.db.plants.get id).bind Plant.mirrored))
  | saved {l : ι} {saved : SavedPlant} {row : Plant} (hlatest : s.latest id = some l)
      (hresult : s.engine.result l = some saved) (hid : saved.id = id)
      (hrow : s.engine.db.plants.get id = some row)
      (hindexed : row.indexed = saved.copy.indexed)
      (hm : s.made l = 0 ∨
        (plantLayout indexer).Mirrors s.collection id (shownAfter indexer saved (s.made l)))

/-- What holds in every state of a run that is in step. -/
structure SyncGood (indexer : Indexer) (requests : ι → PlantRequest) (s : SyncState ι) : Prop where
  good : (catalogueContract requests).Good s.engine
  idle : ∀ i, s.engine.result i = none → s.made i = 0
  named : ∀ i saved, s.engine.result i = some saved → s.latest saved.id ≠ none
  tracked : ∀ id, Tracked indexer s id

omit [DecidableEq ι] in
theorem syncGood_initial {d : Db} {collection : Collection}
    (h : ∀ id, PlantMirrored indexer d collection id) :
    SyncGood indexer requests (SyncState.initial d collection) where
  good := (catalogueContract requests).good_initial trivial
  idle _ _ := rfl
  named _ _ h := by cases h
  tracked id := .untouched rfl (plantMirrored_iff.mp (h id))

/-- A call of a sync keeps the mirror where it should be. -/
theorem SyncGood.sync (h : SyncGood indexer requests s) {i : ι} (hstep : s.InStep (.sync i)) :
    SyncGood indexer requests (s.next indexer requests (.sync i)) := by
  rw [SyncState.next]
  rcases hres : s.engine.result i with - | saved
  · exact h
  dsimp only
  rcases hcall : (syncCalls indexer saved.id saved.copy)[s.made i]? with - | call
  · exact h
  refine ⟨h.good, fun j hj => ?_, h.named, fun id => ?_⟩
  · have hne : j ≠ i := by
      rintro rfl
      rw [hres] at hj
      cases hj
    exact (Function.update_of_ne hne _ _).trans (h.idle j hj)
  · rcases h.tracked id with ⟨hlatest, hm⟩ | ⟨hlatest, hresult, hid, hrow, hindexed, hm⟩
    · -- nobody has saved this plant, so the call is about another one
      have hne : saved.id ≠ id := fun heq => h.named i saved hres (heq ▸ hlatest)
      exact .untouched hlatest (mirrors_call_of_ne hne hcall hm)
    · rename_i l saved' row
      refine .saved hlatest hresult hid hrow hindexed ?_
      rcases eq_or_ne l i with rfl | hli
      · -- the last request to save the plant goes on with its sync
        obtain rfl : saved' = saved := Option.some.inj (hresult.symm.trans hres)
        subst hid
        exact .inr (by simpa using mirrors_call_self hcall hm)
      · have hsame : Function.update s.made i (s.made i + 1) l = s.made l :=
          Function.update_of_ne hli _ _
        show Function.update s.made i (s.made i + 1) l = 0 ∨
          (plantLayout indexer).Mirrors (call s.collection) id
            (shownAfter indexer saved' (Function.update s.made i (s.made i + 1) l))
        rw [hsame]
        by_cases hplant : saved.id = id
        · -- an earlier one moves only as long as the last one has not begun
          exact .inl (hstep saved hres l (hplant ▸ hlatest) hli)
        · exact hm.imp (fun hm => hm) fun hm => mirrors_call_of_ne hplant hcall hm

/-- A move of a transaction keeps the mirror where it should be. -/
theorem SyncGood.request (h : SyncGood indexer requests s) {m : Move ι Outside}
    (hstep : s.InStep (.request m)) :
    SyncGood indexer requests (s.next indexer requests (.request m)) := by
  rw [SyncState.next]
  rcases hm : fire (catalogueRequests requests) s.engine m with - | engine
  · exact h
  have good := h.good.fire hm
  rcases fire_committing hm with ⟨i, saved, b, hcommit, hc⟩ | ⟨hcommit, hdb, hres⟩
  · have hpost := h.good.post hc.1
    have hnone : s.engine.result i = none := by simp [State.result, hc.1]
    have hother : ∀ {j}, j ≠ i → engine.result j = s.engine.result j := fun hj => by
      rw [hc.result, Function.update_of_ne hj]
    simp only [hcommit]
    refine ⟨good, fun j hj => ?_, fun j saved' hj => ?_, fun id => ?_⟩
    · refine h.idle j ?_
      rcases eq_or_ne j i with rfl | hne
      · exact hnone
      · exact (hother hne).symm.trans hj
    · show Function.update s.latest saved.id (some i) saved'.id ≠ none
      rcases eq_or_ne saved'.id saved.id with heq | hne
      · rw [heq, Function.update_self]
        simp
      · rw [Function.update_of_ne hne]
        refine h.named j saved' ?_
        rcases eq_or_ne j i with rfl | hji
        · rw [hc.result, Function.update_self] at hj
          exact absurd (congrArg SavedPlant.id (Option.some.inj hj)).symm hne
        · exact (hother hji).symm.trans hj
    · rcases eq_or_ne id saved.id with rfl | hne
      · -- the row that is written, and nothing of its sync yet
        obtain ⟨row, hrow, hindexed⟩ := hpost.get_self (hstep (i, saved) hcommit)
        refine .saved (l := i) (Function.update_self _ _ _) ?_ rfl ?_ hindexed
          (.inl (h.idle i hnone))
        · rw [hc.result, Function.update_self]
        · rw [hc.db, hrow]
      · have hlatest : Function.update s.latest saved.id (some i) id = s.latest id :=
          Function.update_of_ne hne _ _
        have hget : engine.db.plants.get id = s.engine.db.plants.get id := by
          rw [hc.db]
          exact hpost.get_of_ne hne
        rcases h.tracked id with ⟨hl, hmirror⟩ | ⟨hl, hresult, hid, hrow, hindexed, hmirror⟩
        · exact .untouched (hlatest.trans hl) (by rw [hget]; exact hmirror)
        · rename_i l saved' row
          refine .saved (hlatest.trans hl) ((hother ?_).trans hresult) hid (hget.trans hrow)
            hindexed hmirror
          rintro rfl
          rw [hnone] at hresult
          cases hresult
  · simp only [hcommit]
    refine ⟨good, fun j hj => h.idle j (by rw [← hres]; exact hj),
      fun j saved hj => h.named j saved (by rw [← hres]; exact hj), fun id => ?_⟩
    rcases h.tracked id with ⟨hl, hmirror⟩ | ⟨hl, hresult, hid, hrow, hindexed, hmirror⟩
    · exact .untouched hl (by rw [hdb]; exact hmirror)
    · exact .saved hl (by rw [hres]; exact hresult) hid (by rw [hdb]; exact hrow) hindexed hmirror

theorem SyncGood.run (h : SyncGood indexer requests s) (ms : List (SyncMove ι))
    (hrun : s.RunInStep indexer requests ms) :
    SyncGood indexer requests (s.run indexer requests ms) := by
  induction ms generalizing s with
  | nil => exact h
  | cons m ms ih =>
    refine ih ?_ hrun.2
    cases m with
    | request m => exact h.request hrun.1
    | sync i => exact h.sync hrun.1

omit [DecidableEq ι] in
/-- Once everything has finished, every plant is mirrored. -/
theorem SyncGood.plantMirrored (h : SyncGood indexer requests s) (hfin : s.Finished indexer)
    (id : UUID) : PlantMirrored indexer s.engine.db s.collection id := by
  rw [plantMirrored_iff]
  rcases h.tracked id with ⟨-, hm⟩ | ⟨-, hresult, rfl, hrow, hindexed, hm⟩
  · exact hm
  · rename_i l saved row
    have hcommitted : s.engine.status l = .committed saved := by
      rw [State.result] at hresult
      split at hresult
      · rename_i a hst
        rw [hst, Option.some.inj hresult]
      · cases hresult
    have hdone : (syncCalls indexer saved.id saved.copy).length ≤ s.made l := by
      have hl := hfin l
      rwa [hcommitted] at hl
    rcases hm with hzero | hm
    · -- a sync makes at least one call
      rw [hzero, Nat.le_zero, List.length_eq_zero_iff, syncCalls] at hdone
      split at hdone
      · cases hdone
      · dsimp only at hdone
        split at hdone <;> cases hdone
    · rw [hrow]
      rw [shownAfter, if_neg (Nat.not_lt.mpr hdone)] at hm
      exact mirrors_congr hindexed.symm hm

end Convergence

/-- **The mirror converges where syncs stay in step.**  In every run of any
family of requests, from any table that the collection matches: if every
commit and every call is in step, then once every request has finished the
collection matches the table again. -/
theorem mirror_converges {ι : Type} [DecidableEq ι] (indexer : Indexer)
    (requests : ι → PlantRequest) (d : Db) (collection : Collection)
    (hstart : ∀ id, PlantMirrored indexer d collection id) (ms : List (SyncMove ι))
    (hrun : (SyncState.initial d collection).RunInStep indexer requests ms) :
    ((SyncState.initial d collection).run indexer requests ms).Finished indexer →
      ∀ id, PlantMirrored indexer
        ((SyncState.initial d collection).run indexer requests ms).engine.db
        ((SyncState.initial d collection).run indexer requests ms).collection id :=
  fun hfin id => ((syncGood_initial hstart).run ms hrun).plantMirrored hfin id

/-! ### Syncs that overlap -/

/-- A catalogue with one plant, and its mirror. -/
def Db.onePlant : Db := { Db.empty with plants := Table.empty.insert 7 plainFern }

theorem plantMirrored_leftover (id : UUID) :
    PlantMirrored shortTexts Db.onePlant leftover id := by
  have hempty : ∀ id, (plantLayout shortTexts).Mirrors (fun _ => none) id none := by
    intro id uuid object
    simp
  rw [plantMirrored_iff]
  rcases eq_or_ne id 7 with rfl | hid
  · exact (hempty 7).fill_self
  · have hget : Db.onePlant.plants.get id = none :=
      (Table.get_insert (k := 7) rfl plainFern id).trans (if_neg hid)
    rw [hget]
    exact (hempty id).fill hid.symm

instance (indexer : Indexer) (made : ℕ) : DecidablePred (SyncEnded indexer made)
  | .running _ _ => inferInstanceAs (Decidable False)
  | .committed _ => inferInstanceAs (Decidable (_ ≤ _))
  | .idle | .failed _ | .aborted => inferInstanceAs (Decidable True)

instance {ι : Type} [Fintype ι] (indexer : Indexer) (s : SyncState ι) :
    Decidable (s.Finished indexer) :=
  inferInstanceAs (Decidable (∀ i, SyncEnded indexer (s.made i) (s.engine.status i)))

instance {ι : Type} [DecidableEq ι] (s : SyncState ι) : DecidablePred s.InStep
  | .request m => inferInstanceAs (Decidable (∀ e ∈ committing s.engine m,
      ∀ loaded ∈ e.2.loaded, ∀ current ∈ s.engine.db.plants.get e.2.id,
        (Plant.update loaded e.2.copy current).indexed = e.2.copy.indexed))
  | .sync i => inferInstanceAs (Decidable (∀ saved ∈ s.engine.result i,
      ∀ l ∈ s.latest saved.id, l ≠ i → s.made l = 0))

instance decidableRunInStep {ι : Type} [DecidableEq ι] (indexer : Indexer)
    (requests : ι → PlantRequest) (s : SyncState ι) :
    (ms : List (SyncMove ι)) → Decidable (s.RunInStep indexer requests ms)
  | [] => inferInstanceAs (Decidable True)
  | m :: ms =>
      have := decidableRunInStep indexer requests (s.next indexer requests m) ms
      inferInstanceAs (Decidable (s.InStep m ∧
        (s.next indexer requests m).RunInStep indexer requests ms))

/-- A request that is run to its end, and its sync. -/
def wholeRequest {ι : Type} (i : ι) : List (SyncMove ι) :=
  .request (.start i) :: List.replicate 4 (.request (.step i (atNoon 9))) ++ [.sync i, .sync i]

/-- Nothing is changed. -/
def PlantPatch.none : PlantPatch where
  categoryId := .none
  name := .none
  nameVi := .none
  slug := .none
  description := .none
  descriptionVi := .none
  longDescription := .none
  longDescriptionVi := .none
  ogImageUrl := .none
  price := .none
  priceVi := .none
  stock := .none
  sku := .none
  isFeatured := .none
  isActive := .none
  plantType := .none
  difficulty := .none
  growthRate := .none
  sunlight := .none
  watering := .none
  spaceRequirement := .none
  indoorSuitable := .none
  outdoorSuitable := .none
  petSafe := .none
  beginnerFriendly := .none

/-- One administrator counts the stock, another one renames the plant. -/
def countAndRename : Bool → PlantRequest
  | false => .updatePlant 7 { PlantPatch.none with stock := some 50 }
  | true => .updatePlant 7 { PlantPatch.none with name := some "Moss".toList }

/-- The rename has loaded the row before the count is written, and commits
between the two calls of the other sync. -/
def crossed : List (SyncMove Bool) :=
  [.request (.start true), .request (.step true (atNoon 9)), .request (.start false)] ++
    List.replicate 4 (.request (.step false (atNoon 9))) ++ [.sync false] ++
    List.replicate 3 (.request (.step true (atNoon 9))) ++ [.sync false, .sync true, .sync true]

/-- The two overlap in step, both are kept, and the collection matches the table. -/
theorem mirror_converges_overlapping :
    (((SyncState.initial Db.onePlant leftover).run shortTexts countAndRename
      crossed).engine.db.plants.get 7).map (fun plant => (plant.name, plant.stock)) =
        some ("Moss".toList, 50) ∧
    ∀ id, PlantMirrored shortTexts
      ((SyncState.initial Db.onePlant leftover).run shortTexts countAndRename crossed).engine.db
      ((SyncState.initial Db.onePlant leftover).run shortTexts countAndRename crossed).collection
      id :=
  ⟨by decide +kernel, mirror_converges shortTexts countAndRename Db.onePlant leftover
    plantMirrored_leftover crossed (by decide +kernel) (by decide +kernel)⟩

/-- One administrator takes the plant off sale, another one renames it. -/
def twoEdits : Bool → PlantRequest
  | false => .setPlantStatus 7 false
  | true => .updatePlant 7 { PlantPatch.none with name := some "Moss".toList }

/-- The rename has loaded the row before the plant is taken off sale, and
commits and syncs after. -/
def overlapping : List (SyncMove Bool) :=
  [.request (.start true), .request (.step true (atNoon 9))] ++ wholeRequest false ++
    List.replicate 3 (.request (.step true (atNoon 9))) ++ [.sync true, .sync true]

/-- The inactive plant is back in the collection, under its new name. -/
theorem overlapping_edits_diverge :
    ¬ ∀ (indexer : Indexer) (requests : Bool → PlantRequest) (d : Db) (collection : Collection),
      (∀ id, PlantMirrored indexer d collection id) → ∀ ms : List (SyncMove Bool),
        ((SyncState.initial d collection).run indexer requests ms).Finished indexer →
          ∀ id, PlantMirrored indexer
            ((SyncState.initial d collection).run indexer requests ms).engine.db
            ((SyncState.initial d collection).run indexer requests ms).collection id := by
  intro h
  have hmirror := h shortTexts twoEdits Db.onePlant leftover plantMirrored_leftover overlapping
    (by decide +kernel) 7
  have hactive : ∀ p ∈ ((SyncState.initial Db.onePlant leftover).run shortTexts twoEdits
      overlapping).engine.db.plants.rows, p.isActive = false := by decide +kernel
  have hobject : ∃ object ∈ ((SyncState.initial Db.onePlant leftover).run shortTexts twoEdits
      overlapping).collection (knowledgeObjectUuid shortTexts .plant 7 "name:0".toList .en),
      ofPlant 7 object = true := by decide +kernel
  obtain ⟨object, hkept, hseven⟩ := hobject
  obtain ⟨plant, hget, hon, -⟩ := (hmirror _ object).mp ⟨hkept, hseven⟩
  rw [hactive plant (Table.mem_rows_of_get hget)] at hon
  cases hon

end GreenGarden
