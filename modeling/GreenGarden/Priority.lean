/-
GreenGarden/Priority.lean

Which order a transaction is applied to when its text names several.

`candidateReferences` lists the references by priority, SePay's own code
first.  The query that consumes the list only tests membership and takes the
order that was created first, so the priority is lost: a code that names one
order loses to a reference in the text that names an older one
(`older_order_settled`).  The two agree exactly when the order named first is
older than every other order that is named (`candidate_priority_iff`).
-/
import GreenGarden.Delivery

namespace GreenGarden

open Transaction

/-! ### The order that is meant -/

/-- The bank-transfer order named by the first reference that names one. -/
def firstNamed (db : Db) (references : List Text) : Option (UUID × Order) :=
  references.findSome? fun r => db.orders.entries.find? fun e =>
    e.2.paymentMethod = .bankTransfer ∧ e.2.paymentReference = some r

/-- The order named first was created before all others that are named. -/
def FirstIsOldest (db : Db) (references : List Text) : Prop :=
  ∀ e, firstNamed db references = some e →
    ∀ e' ∈ namedOrders db references, e'.1 ≠ e.1 → e.2.createdAt < e'.2.createdAt

/-- The transaction is applied to the order that is meant, and to no other,
whichever of the orders created at one moment the query happens to pick. -/
def SettlesFirstNamed (cm : CaseMap) (payload : SePayWebhookPayload) (d : Db) : Prop :=
  ∀ vs : ℕ → Outside, (∀ n, NewTransaction d (vs n)) → ∀ result d',
    runAlone vs (processSepayWebhook cm payload) d = (result, d') →
    settledOrder d' payload.id
      = (firstNamed d (candidateReferences cm payload)).map Prod.fst ∧
    ∀ oid, (firstNamed d (candidateReferences cm payload)).map Prod.fst ≠ some oid →
      d'.orders.get oid = d.orders.get oid

theorem mem_of_firstNamed {db : Db} {references : List Text} {e : UUID × Order}
    (h : firstNamed db references = some e) : e ∈ namedOrders db references := by
  obtain ⟨r, hr, hfind⟩ := List.exists_of_findSome?_eq_some h
  have hsel := List.find?_some hfind
  rw [decide_eq_true_eq] at hsel
  exact mem_namedOrders.mpr ⟨List.mem_of_find?_eq_some hfind, hsel.1, r, hr, hsel.2⟩

theorem namedOrders_eq_nil {db : Db} {references : List Text}
    (h : firstNamed db references = none) : namedOrders db references = [] := by
  rw [List.eq_nil_iff_forall_not_mem]
  intro e he
  obtain ⟨hmem, hmethod, r, hr, href⟩ := mem_namedOrders.mp he
  have hnone := List.findSome?_eq_none_iff.mp h r hr
  have hnot := List.find?_eq_none.mp hnone e hmem
  rw [decide_eq_true_eq] at hnot
  exact hnot ⟨hmethod, href⟩

/-- Rows of a table are told apart by their keys. -/
theorem eq_of_named {db : Db} {references : List Text} {e e' : UUID × Order}
    (he : e ∈ namedOrders db references) (he' : e' ∈ namedOrders db references)
    (h : e.1 = e'.1) : e = e' := by
  have hget := Table.get_eq_some.mpr (mem_namedOrders.mp he).1
  have hget' := Table.get_eq_some.mpr (mem_namedOrders.mp he').1
  rw [h, hget'] at hget
  exact Prod.ext h (Option.some.inj hget).symm

/-! ### The order that is picked -/

/-- Any order created no later than the others can be the one picked. -/
theorem exists_pick {orders : List (UUID × Order)} {e : UUID × Order} (he : e ∈ orders)
    (hmin : ∀ e' ∈ orders, e.2.createdAt ≤ e'.2.createdAt) :
    ∃ pick, oldest orders pick = some e := by
  set first := orders.filter fun e => ∀ e' ∈ orders, e.2.createdAt ≤ e'.2.createdAt with hfirst
  have hmem : e ∈ first := by
    rw [hfirst, List.mem_filter, decide_eq_true_eq]
    exact ⟨he, hmin⟩
  obtain ⟨i, hi, hget⟩ := List.getElem_of_mem hmem
  refine ⟨i, ?_⟩
  show first[i % first.length]? = some e
  rw [Nat.mod_eq_of_lt hi, List.getElem?_eq_getElem hi, hget]

/-- When the order named first is the oldest one, it is the one picked. -/
theorem FirstIsOldest.oldest {db : Db} {references : List Text}
    (h : FirstIsOldest db references) (pick : ℕ) :
    (GreenGarden.oldest (namedOrders db references) pick).map Prod.fst
      = (firstNamed db references).map Prod.fst := by
  rcases hfirst : firstNamed db references with - | e
  · rw [namedOrders_eq_nil hfirst]
    rfl
  · have he := mem_of_firstNamed hfirst
    obtain ⟨e', hpick⟩ := oldest_isSome (List.ne_nil_of_mem he) pick
    obtain ⟨he', hmin⟩ := mem_of_oldest hpick
    have hkey : e'.1 = e.1 := by
      by_contra hne
      exact absurd (h e hfirst e' he' hne) (not_lt.mpr (hmin e he))
    rw [hpick, Option.map_some, Option.map_some, hkey]

/-- When it is not, the query can pick another one. -/
theorem exists_pick_of_not_firstIsOldest {db : Db} {references : List Text}
    (h : ¬ FirstIsOldest db references) : ∃ pick,
      (GreenGarden.oldest (namedOrders db references) pick).map Prod.fst
        ≠ (firstNamed db references).map Prod.fst := by
  unfold FirstIsOldest at h
  push Not at h
  obtain ⟨e, hfirst, e', he', hne, hle⟩ := h
  have he := mem_of_firstNamed hfirst
  obtain ⟨m, hm, hmin⟩ := exists_oldest (List.ne_nil_of_mem he)
  -- a minimal order that is not `e`: `m` itself, or `e'` when `e` is minimal
  obtain ⟨m', hm', hmin', hother⟩ : ∃ m' ∈ namedOrders db references,
      (∀ e'' ∈ namedOrders db references, m'.2.createdAt ≤ e''.2.createdAt) ∧ m'.1 ≠ e.1 := by
    by_cases hkey : m.1 = e.1
    · rw [eq_of_named hm he hkey] at hmin
      exact ⟨e', he', fun e'' he'' => hle.trans (hmin e'' he''), hne⟩
    · exact ⟨m, hm, hmin, hkey⟩
  obtain ⟨pick, hpick⟩ := exists_pick hm' hmin'
  refine ⟨pick, fun heq => hother ?_⟩
  rw [hpick, hfirst] at heq
  exact Option.some.inj heq

theorem exists_newTransaction (d : Db) (pick : ℕ) :
    ∃ v : Outside, NewTransaction d v ∧ v.pick = pick := by
  obtain ⟨uuid, hnew⟩ := Infinite.exists_notMem_finset d.transactions.keys.toFinset
  rw [List.mem_toFinset, ← Table.get_eq_none] at hnew
  exact ⟨{ atNoon uuid with pick := pick }, hnew, rfl⟩

theorem settledOrder_of_new {d : Db} {providerId : ℤ} (hnew : recorded d providerId = false) :
    settledOrder d providerId = none := by
  have hnone : d.transactions.rows.find? (fun t => t.providerTransactionId = providerId)
      = none := by
    rw [List.find?_eq_none]
    exact fun t ht => List.any_eq_false.mp hnew t ht
  rw [settledOrder, hnone]
  rfl

/-- **Candidate priority.**  An incoming transaction that is new is applied to
the order named by the first candidate that names one, if and only if that
order was created before every other order that a candidate names, and the
payload can be recorded when there is such an order. -/
theorem candidate_priority_iff (cm : CaseMap) (payload : SePayWebhookPayload) (d : Db)
    (hin : payload.transferType = some "in".toList) (hnew : recorded d payload.id = false) :
    SettlesFirstNamed cm payload d ↔ FirstIsOldest d (candidateReferences cm payload) ∧
      (payload.Storable ∨ firstNamed d (candidateReferences cm payload) = none) := by
  by_cases hstorable : payload.Storable
  swap
  · -- nothing is settled, so nothing must have been meant
    constructor
    · intro h
      obtain ⟨v, hv, -⟩ := exists_newTransaction d 0
      obtain ⟨e, hrun⟩ := runAlone_refused cm (fun _ => v) hnew hstorable
      have hsettled := (h (fun _ => v) (fun _ => hv) _ _ hrun).1
      rw [settledOrder_of_new hnew, eq_comm, Option.map_eq_none_iff] at hsettled
      refine ⟨fun e he => ?_, .inr hsettled⟩
      rw [hsettled] at he
      cases he
    · rintro ⟨-, h⟩ vs - result d' hrun
      have hnone := h.resolve_left hstorable
      obtain ⟨e, hfailed⟩ := runAlone_refused cm vs hnew hstorable
      obtain rfl : d = d' := (Prod.mk.inj (hfailed.symm.trans hrun)).2
      rw [hnone, settledOrder_of_new hnew]
      exact ⟨rfl, fun _ _ => rfl⟩
  rw [and_iff_left (.inl hstorable)]
  obtain ⟨row, hstore⟩ := transactionRow_ok_iff.mpr hstorable
  constructor
  · intro h
    by_contra hnot
    -- let the query pick an order that is not the one named first
    obtain ⟨pick, hpick⟩ := exists_pick_of_not_firstIsOldest hnot
    obtain ⟨v, hv, hvpick⟩ := exists_newTransaction d pick
    -- everything the delivery asks for is answered by `v`
    obtain ⟨id, outcome, locks, d', hrun, hs⟩ := runAlone_delivery (A := fun v' => v' = v) cm
      (fun _ => v) hnew hstore (fun v' hv' => hv' ▸ hv) fun _ => rfl
    have hsettled := (h (fun _ => v) (fun _ => hv) _ _ hrun).1
    obtain ⟨v', rfl, hchosen⟩ := hs.chosen hin
    rw [hs.settledOrder, hchosen, hvpick] at hsettled
    exact hpick hsettled
  · intro h vs hvs result d' hrun
    obtain ⟨id, outcome, locks, d'', hrun', hs⟩ :=
      runAlone_delivery cm vs hnew hstore (fun _ hv => hv) hvs
    obtain rfl : d'' = d' := (Prod.mk.inj (hrun'.symm.trans hrun)).2
    obtain ⟨v, -, hchosen⟩ := hs.chosen hin
    rw [h.oldest] at hchosen
    exact ⟨by rw [hs.settledOrder, hchosen], fun oid hoid => hs.untouched (by rwa [hchosen])⟩

/-- Two orders, the older one under 5. -/
def twoTransfers : Db :=
  { Db.ferns with
    orders := (Table.empty.insert 5 (transferOrder "GG-20250501-0001".toList 1)).insert 6
      (transferOrder "GG-20250501-0002".toList 2) }

/-- A payment whose code names the newer order and whose content names both. -/
def codedPayment : SePayWebhookPayload :=
  payment 1 (some "GG202505010002".toList) (some "GG202505010002 re GG202505010001".toList)
    (.cents 20000050)

theorem candidate_priority_iff_coded :
    SettlesFirstNamed .ascii codedPayment twoTransfers ↔
      FirstIsOldest twoTransfers (candidateReferences .ascii codedPayment) ∧
      (codedPayment.Storable ∨
        firstNamed twoTransfers (candidateReferences .ascii codedPayment) = none) :=
  candidate_priority_iff .ascii codedPayment twoTransfers rfl rfl

/-- The payment is applied to the older order, against its own code. -/
theorem older_order_settled : ¬ SettlesFirstNamed .ascii codedPayment twoTransfers := by
  intro h
  have hsettled := (h atNoon (fun _ => rfl) _ _ (Prod.eta _).symm).1
  have hfirst : (firstNamed twoTransfers (candidateReferences .ascii codedPayment)).map Prod.fst
      = some 6 := by decide +kernel
  have hactual : settledOrder (runAlone atNoon (processSepayWebhook .ascii codedPayment)
      twoTransfers).2 1 = some 5 := by decide +kernel
  have hid : codedPayment.id = 1 := rfl
  rw [hfirst, hid, hactual] at hsettled
  cases hsettled

end GreenGarden
