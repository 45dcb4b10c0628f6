/-
GreenGarden/Observing.lean

What a transaction has looked at, as a library over the engine.

A query returns a database of the run, with the transaction's own writes on
top: one that was committed between its start and now.  So whatever a body
computes from databases that meet `H` is what it commits, if every database
between its start and its commit meets `H` (`observed`).  The choice of `H` is
the caller's: "one of the databases of this run so far", or "no older than the
database that was there when it began".

Results stay: a transaction that has committed keeps what it returned, and it
committed at one moment of the run (`exists_commit`, `result_stays`).
-/
import GreenGarden.RelyGuarantee

namespace Transaction

variable {ι D K V E α : Type}

/-- A body that is alone goes on with what it read. -/
theorem alone_query {β : Type} (vs : ℕ → V) (f : D → α) (g : α → Tx D K V E β) (n : ℕ)
    (b : List (D → D)) (d : D) :
    alone vs (Tx.query f >>= g) n b d = alone vs (g (f (flush b d))) n b d := rfl

/-- Every database stays within `H`. -/
def Rely.within (H : D → Prop) : Rely K D V where
  rel _ d d' := H d → H d'
  answers _ := True
  refl _ _ := id
  trans h₁ h₂ h := h₂ (h₁ h)
  anti _ h := h

variable [DecidableEq ι] [DecidableEq K]

/-- If `i` is running, it is where databases within `H` have led it. -/
def Led (H : D → Prop) (Q : α → List (D → D) → Prop) (i : ι) (s : State ι D K V E α) : Prop :=
  ∀ t b, s.status i = .running t b → ∃ h d, H d ∧
    wp (Rely.within (V := V) H) (fun _ _ => True) t (fun a _ b _ => Q a b) h b d

variable {W : Workload ι D K V E α} {d : D} {ms : ℕ → Move ι V} {H : D → Prop}
variable {Q : α → List (D → D) → Prop} {i : ι} {m k n : ℕ} {s s' : State ι D K V E α}

omit [DecidableEq ι] [DecidableEq K] in
theorem Led.of_running {t : Tx D K V E α} {b : List (D → D)} {h : Set K} {d : D} (hd : H d)
    (hst : s.status i = .running t b)
    (ht : wp (Rely.within H) (fun _ _ => True) t (fun a _ b _ => Q a b) h b d) :
    Led H Q i s := by
  intro t' b' ht'
  rw [hst] at ht'
  cases ht'
  exact ⟨h, d, hd, ht⟩

omit [DecidableEq ι] [DecidableEq K] in
theorem Led.of_ended {st : Status D K V E α} (hst : s.status i = st)
    (hrun : ∀ t b, st ≠ .running t b) : Led H Q i s :=
  fun t b ht => absurd (hst.symm.trans ht) (hrun t b)

/-- One move. -/
theorem Led.fire (hbody : ∀ d, H d → wp (Rely.within H) (fun _ _ => True) (W.body i)
      (fun a _ b _ => Q a b) {k | k ∈ W.token i} [] d)
    (hH : H s.db) (h : Led H Q i s) {mv : Move ι V} (hm : fire W s mv = some s') :
    Led H Q i s' := by
  rcases eq_or_ne i mv.actor with rfl | hact
  swap
  · intro t b ht
    rw [fire_status_of_ne hm hact] at ht
    exact h t b ht
  cases mv with
  | start i =>
    obtain ⟨-, -, rfl⟩ := fire_start hm
    exact .of_running hH (Function.update_self _ _ _) (hbody _ hH)
  | abort i =>
    obtain ⟨t, b, -, rfl⟩ := fire_abort hm
    exact .of_ended (Function.update_self _ _ _) (by simp)
  | step i v =>
    obtain ⟨t, b, hst, hadv⟩ := fire_step hm
    obtain ⟨held, d', hd', hwp⟩ := h t b hst
    cases t with
    | ret a =>
      obtain rfl := Option.some.inj hadv
      exact .of_ended (Function.update_self _ _ _) (by simp)
    | fail e =>
      obtain rfl := Option.some.inj hadv
      exact .of_ended (Function.update_self _ _ _) (by simp)
    | ask f =>
      obtain rfl := Option.some.inj hadv
      exact .of_running hd' (Function.update_self _ _ _) (hwp v trivial)
    | read f =>
      obtain rfl := Option.some.inj hadv
      exact .of_running hH (Function.update_self _ _ _) (hwp _ fun _ => hH)
    | lock l t =>
      obtain ⟨-, rfl⟩ := advance_lock hadv
      exact .of_running hH (Function.update_self _ _ _) (hwp _ fun _ => hH)
    | write w t =>
      obtain rfl := Option.some.inj hadv
      exact .of_running hd' (Function.update_self _ _ _) hwp

/-- **What is committed is computed from databases of the run.**  A
transaction that was idle at step `m` and commits at step `k` commits a result
and writes that follow from `H` of every database from `m` to `k`. -/
theorem observed (hidle : (trace W d ms m).status i = .idle) (hmk : m ≤ k)
    (hH : ∀ j, m ≤ j → j ≤ k → H (trace W d ms j).db)
    (hbody : ∀ d', H d' → wp (Rely.within H) (fun _ _ => True) (W.body i)
      (fun a _ b _ => Q a b) {k | k ∈ W.token i} [] d')
    {a : α} {b : List (D → D)} (hc : Commits (trace W d ms k) s i a b) : Q a b := by
  have hled : ∀ j, m ≤ j → j ≤ k → Led H Q i (trace W d ms j) := by
    intro j hmj
    induction j, hmj using Nat.le_induction with
    | base =>
      intro _
      exact .of_ended hidle (by simp)
    | succ j hmj ih =>
      intro hjk
      have hled := ih (Nat.le_of_succ_le hjk)
      rw [trace_succ]
      rcases hm : Transaction.fire W (trace W d ms j) (ms j) with - | s'
      · exact hled
      · exact hled.fire hbody (hH j hmj (Nat.le_of_succ_le hjk)) hm
  obtain ⟨h, d', -, hq⟩ := hled k hmk le_rfl _ _ hc.1
  exact hq

/-- A transaction that nobody overlaps: what it commits is computed from the
database it is committed to. -/
theorem observed_alone (hidle : (trace W d ms m).status i = .idle) (hmk : m ≤ k)
    (hstill : ∀ j, m ≤ j → j ≤ k → (trace W d ms j).db = (trace W d ms k).db)
    (hbody : wp (Rely.within fun d' => d' = (trace W d ms k).db) (fun _ _ => True) (W.body i)
      (fun a _ b _ => Q a b) {k | k ∈ W.token i} [] (trace W d ms k).db)
    {a : α} {b : List (D → D)} (hc : Commits (trace W d ms k) s i a b) : Q a b := by
  refine observed (H := fun d' => d' = (trace W d ms k).db) hidle hmk hstill
    (fun d' hd' => ?_) hc
  rw [hd']
  exact hbody

/-- Who has returned something has committed at one moment of the run. -/
theorem exists_commit {a : α} (ha : (trace W d ms n).result i = some a) :
    ∃ k b, k < n ∧ Commits (trace W d ms k) (trace W d ms (k + 1)) i a b := by
  induction n with
  | zero => cases ha
  | succ n ih =>
    have earlier : (trace W d ms n).result i = some a →
        ∃ k b, k < n + 1 ∧ Commits (trace W d ms k) (trace W d ms (k + 1)) i a b := by
      intro h
      obtain ⟨k, b, hk, hc⟩ := ih h
      exact ⟨k, b, Nat.lt_succ_of_lt hk, hc⟩
    rcases trace_step W d ms n with ⟨-, hres⟩ | ⟨j, a', b, hc⟩
    · exact earlier (by rwa [hres] at ha)
    · rw [hc.result] at ha
      rcases eq_or_ne i j with rfl | hij
      · rw [Function.update_self] at ha
        cases ha
        exact ⟨n, b, Nat.lt_succ_self n, hc⟩
      · rw [Function.update_of_ne hij] at ha
        exact earlier ha

/-- What has been returned stays returned. -/
theorem result_stays (hmn : m ≤ n) {a : α} (ha : (trace W d ms m).result i = some a) :
    (trace W d ms n).result i = some a := by
  induction n, hmn using Nat.le_induction with
  | base => exact ha
  | succ n _ ih =>
    rcases trace_step W d ms n with ⟨-, hres⟩ | ⟨j, a', b, hc⟩
    · rw [hres, ih]
    · rw [hc.result]
      rcases eq_or_ne i j with rfl | hij
      · -- it was still running
        have hnone : (trace W d ms n).result i = none := by simp [State.result, hc.1]
        rw [hnone] at ih
        cases ih
      · rw [Function.update_of_ne hij, ih]

/-- A commit is where the result comes. -/
theorem commit_moment {a : α} {b : List (D → D)}
    (hc : Commits (trace W d ms n) (trace W d ms (n + 1)) i a b)
    (hbefore : (trace W d ms k).result i = none) (hafter : (trace W d ms (k + 1)).result i ≠ none) :
    n = k := by
  rcases lt_trichotomy n k with hlt | heq | hgt
  · have hres : (trace W d ms (n + 1)).result i = some a := by
      rw [hc.result, Function.update_self]
    rw [result_stays hlt hres] at hbefore
    cases hbefore
  · exact heq
  · obtain ⟨a', ha'⟩ := Option.ne_none_iff_exists'.mp hafter
    have hnone : (trace W d ms n).result i = none := by simp [State.result, hc.1]
    rw [result_stays hgt ha'] at hnone
    cases hnone

end Transaction
