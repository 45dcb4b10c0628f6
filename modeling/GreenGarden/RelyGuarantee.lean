/-
GreenGarden/RelyGuarantee.lean

A program logic for transactions (`Transaction.Tx`), again over an arbitrary
database.

`wp R F t Q h b d` speaks about the body `t` about to run with the locks `h`
held, the writes `b` staged and `d` the database it last looked at:

* the *rely* `R h d d'` is what other transactions may do to the database
  between two of its moves, given that it holds `h`;
* `F e d` must hold if it fails with `e` after having looked at `d`;
* `Q a h b d` must hold when it returns `a`.

At the commit the writes `b` reach the committed database, which others may
have changed since `d`: `Stable` closes a commit condition under that.

A `Contract` for a workload is one such triple per transaction, together with
the two side conditions that make them compose: commits keep the global
invariant, and a commit under one set of locks is an allowed interference for
whoever holds a disjoint set.  `Contract.good_trace` is the soundness theorem;
`Contract.invariant` is the rule the rest of the development uses.  A body run
alone meets the same triple (`runAlone_ok`, `runAlone_error`).
-/
import GreenGarden.Transaction

namespace Transaction

variable {ι D K V E α β : Type}

/-- What others may do to the database while one holds a set of locks: nothing,
several such changes in a row, and less the more is locked.  `answers` is what
may be assumed of a value taken from outside. -/
structure Rely (K D V : Type) where
  rel : Set K → D → D → Prop
  answers : V → Prop
  refl : ∀ h d, rel h d d
  trans : ∀ {h d₁ d₂ d₃}, rel h d₁ d₂ → rel h d₂ d₃ → rel h d₁ d₃
  anti : ∀ {h h' d d'}, h ⊆ h' → rel h' d d' → rel h d d'

/-- Nothing is assumed of the others. -/
def Rely.any : Rely K D V where
  rel _ _ _ := True
  answers _ := True
  refl _ _ := trivial
  trans _ _ := trivial
  anti _ _ := trivial

/-- `Q` at whatever the database has become by the time of the commit. -/
def Stable (R : Rely K D V) (Q : α → Set K → List (D → D) → D → Prop) (a : α) (h : Set K)
    (b : List (D → D)) (d : D) : Prop :=
  ∀ d', R.rel h d d' → Q a h b d'

/-- The weakest precondition of a body under interference `R`. -/
def wp (R : Rely K D V) (F : E → D → Prop) :
    Tx D K V E α → (α → Set K → List (D → D) → D → Prop) → Set K → List (D → D) → D → Prop
  | .ret a, Q, h, b, d => Q a h b d
  | .fail e, _, _, _, d => F e d
  | .ask f, Q, h, b, d => ∀ v, R.answers v → wp R F (f v) Q h b d
  | .read f, Q, h, b, d => ∀ d', R.rel h d d' → wp R F (f (flush b d')) Q h b d'
  | .lock k t, Q, h, b, d => ∀ d', R.rel h d d' → wp R F t Q (insert k h) b d'
  | .write w t, Q, h, b, d => wp R F t Q h (w :: b) d

/-! ### The rules -/

section Rules

variable {R : Rely K D V} {F : E → D → Prop} {h : Set K} {b : List (D → D)} {d : D}
variable {Q : β → Set K → List (D → D) → D → Prop}

/-- Sequencing: what `t` returns is handed to `g`. -/
theorem wp_bind {t : Tx D K V E α} {g : α → Tx D K V E β}
    (ht : wp R F t (fun a h b d => wp R F (g a) Q h b d) h b d) :
    wp R F (t >>= g) Q h b d := by
  show wp R F (t.bind g) Q h b d
  induction t generalizing h b d with
  | ret a => exact ht
  | fail e => exact ht
  | ask f ih => exact fun v hv => ih v (ht v hv)
  | read f ih => exact fun d' hd => ih _ (ht d' hd)
  | lock k t ih => exact fun d' hd => ih (ht d' hd)
  | write w t ih => exact ih ht

/-- Consequence: a stronger postcondition and stronger error facts. -/
theorem wp_mono {t : Tx D K V E α} {F' : E → D → Prop}
    {Q Q' : α → Set K → List (D → D) → D → Prop}
    (hF : ∀ e d, F e d → F' e d) (hQ : ∀ a h b d, Q a h b d → Q' a h b d)
    (ht : wp R F t Q h b d) : wp R F' t Q' h b d := by
  induction t generalizing h b d with
  | ret a => exact hQ _ _ _ _ ht
  | fail e => exact hF e d ht
  | ask f ih => exact fun v hv => ih v (ht v hv)
  | read f ih => exact fun d' hd => ih _ (ht d' hd)
  | lock k t ih => exact fun d' hd => ih (ht d' hd)
  | write w t ih => exact ih ht

/-- A postcondition that always holds. -/
theorem wp_always {t : Tx D K V E β} (hF : ∀ e d, F e d) (hQ : ∀ a h b d, Q a h b d) :
    wp R F t Q h b d := by
  induction t generalizing h b d with
  | ret a => exact hQ a h b d
  | fail e => exact hF e d
  | ask f ih => exact fun v _ => ih v
  | read f ih => exact fun d' _ => ih _
  | lock k t ih => exact fun d' _ => ih
  | write w t ih => exact ih

theorem wp_pure {a : β} (hQ : Q a h b d) :
    wp R F (pure a : Tx D K V E β) Q h b d := hQ

theorem wp_query {f : D → α} {g : α → Tx D K V E β}
    (hg : ∀ d', R.rel h d d' → wp R F (g (f (flush b d'))) Q h b d') :
    wp R F (Tx.query f >>= g) Q h b d := hg

theorem wp_outside {f : V → α} {g : α → Tx D K V E β}
    (hg : ∀ v, R.answers v → wp R F (g (f v)) Q h b d) :
    wp R F (Tx.outside f >>= g) Q h b d := hg

theorem wp_acquire {k : K} {g : Unit → Tx D K V E β}
    (hg : ∀ d', R.rel h d d' → wp R F (g ()) Q (insert k h) b d') :
    wp R F (Tx.acquire k >>= g) Q h b d := hg

theorem wp_stage {w : D → D} {g : Unit → Tx D K V E β}
    (hg : wp R F (g ()) Q h (w :: b) d) :
    wp R F (Tx.stage w >>= g) Q h b d := hg

theorem wp_fail {e : E} {g : α → Tx D K V E β} (hF : F e d) :
    wp R F ((Tx.fail e : Tx D K V E α) >>= g) Q h b d := hF

theorem wp_failIf {c : Prop} [Decidable c] {e : E} {g : Unit → Tx D K V E β}
    (hF : c → F e d) (hg : ¬ c → wp R F (g ()) Q h b d) :
    wp R F (Tx.failIf c e >>= g) Q h b d := by
  by_cases hc : c
  · rw [Tx.failIf, if_pos hc]
    exact wp_fail (hF hc)
  · rw [Tx.failIf, if_neg hc]
    exact hg hc

theorem wp_ofExcept {x : Except E α} {g : α → Tx D K V E β}
    (hF : ∀ e, x = .error e → F e d) (hg : ∀ a, x = .ok a → wp R F (g a) Q h b d) :
    wp R F (Tx.ofExcept x >>= g) Q h b d := by
  rcases x with e | a
  · exact wp_fail (hF e rfl)
  · exact hg a rfl

theorem wp_whenElse {c : Prop} [Decidable c] {t : Tx D K V E α} {a : α}
    {g : α → Tx D K V E β}
    (hpos : c → wp R F (t >>= g) Q h b d) (hneg : ¬ c → wp R F (g a) Q h b d) :
    wp R F (Tx.whenElse c t a >>= g) Q h b d := by
  by_cases hc : c
  · rw [Tx.whenElse, if_pos hc]
    exact hpos hc
  · rw [Tx.whenElse, if_neg hc]
    exact hneg hc

/-- Several locks: the interferences while waiting for them add up. -/
theorem wp_acquireAll {ks : List K} {g : Unit → Tx D K V E β}
    (hg : ∀ d', R.rel h d d' → wp R F (g ()) Q (h ∪ {k | k ∈ ks}) b d') :
    wp R F (Tx.acquireAll ks >>= g) Q h b d := by
  induction ks generalizing h d with
  | nil =>
    show wp R F (g ()) Q h b d
    simpa using hg d (R.refl h d)
  | cons k ks ih =>
    -- the database may move while each lock is waited for
    refine wp_acquire (g := fun _ => Tx.acquireAll ks >>= g) fun d₁ h₁ => ih fun d₂ h₂ => ?_
    have h₂' : R.rel h d₁ d₂ := R.anti (Set.subset_insert k h) h₂
    have hset : h ∪ {k' | k' ∈ k :: ks} = insert k h ∪ {k' | k' ∈ ks} := by
      ext k'
      simp only [Set.mem_union, Set.mem_insert_iff, Set.mem_ofPred_eq, List.mem_cons]
      tauto
    simpa only [hset] using hg d₂ (R.trans h₁ h₂')

end Rules

/-! ### Run alone -/

/-- A body meeting its triple, run alone to the end: either it returned and its
commit condition held, or it failed, the error condition held and the database
is untouched. -/
theorem alone_sound {R : Rely K D V} {F : E → D → Prop} {t : Tx D K V E α}
    {Q : α → Set K → List (D → D) → D → Prop} {h : Set K} {b : List (D → D)} {d : D}
    (ht : wp R F t Q h b d) {vs : ℕ → V} (hvs : ∀ n, R.answers (vs n)) (n : ℕ) :
    (∃ a h' b', alone vs t n b d = (.ok a, flush b' d) ∧ Q a h' b' d) ∨
    (∃ e, alone vs t n b d = (.error e, d) ∧ F e d) := by
  induction t generalizing h b n with
  | ret a => exact .inl ⟨a, h, b, rfl, ht⟩
  | fail e => exact .inr ⟨e, rfl, ht⟩
  | ask f ih => exact ih _ (ht (vs n) (hvs n)) _
  | read f ih => exact ih _ (ht d (R.refl h d)) _
  | lock k t ih => exact ih (ht d (R.refl h d)) _
  | write w t ih => exact ih ht _

theorem runAlone_ok {R : Rely K D V} {F : E → D → Prop} {t : Tx D K V E α}
    {Q : α → Set K → List (D → D) → D → Prop} {d d' : D} {a : α} {vs : ℕ → V}
    (ht : wp R F t Q ∅ [] d) (hvs : ∀ n, R.answers (vs n))
    (hrun : runAlone vs t d = (.ok a, d')) :
    ∃ h b, d' = flush b d ∧ Q a h b d := by
  rcases alone_sound ht hvs 0 with ⟨a', h, b, hr, hq⟩ | ⟨e, hr, -⟩
  · rw [runAlone, hr] at hrun
    cases hrun
    exact ⟨h, b, rfl, hq⟩
  · rw [runAlone, hr] at hrun
    cases hrun

theorem runAlone_error {R : Rely K D V} {F : E → D → Prop} {t : Tx D K V E α}
    {Q : α → Set K → List (D → D) → D → Prop} {d d' : D} {e : E} {vs : ℕ → V}
    (ht : wp R F t Q ∅ [] d) (hvs : ∀ n, R.answers (vs n))
    (hrun : runAlone vs t d = (.error e, d')) :
    d' = d ∧ F e d := by
  rcases alone_sound ht hvs 0 with ⟨a, h, b, hr, -⟩ | ⟨e', hr, hf⟩
  · rw [runAlone, hr] at hrun
    cases hrun
  · rw [runAlone, hr] at hrun
    cases hrun
    exact ⟨rfl, hf⟩

/-! ### Soundness for every schedule -/

variable [DecidableEq ι] [DecidableEq K]

/-- A triple for every transaction of a workload, and the conditions under
which the triples may be put side by side. -/
structure Contract (W : Workload ι D K V E α) where
  rely : Rely K D V
  inv : D → Prop
  post : ι → α → Set K → List (D → D) → D → Prop
  error : ι → E → D → Prop
  answers : ∀ v, rely.answers v
  triple : ∀ i d, inv d →
    wp rely (error i) (W.body i) (Stable rely (post i)) {k | k ∈ W.token i} [] d
  keeps : ∀ i a h b d, post i a h b d → inv d → inv (flush b d)
  respects : ∀ i a h h' b d, post i a h b d → inv d → Disjoint h h' → rely.rel h' d (flush b d)

omit [DecidableEq ι] [DecidableEq K] in
/-- The locks of two transactions never overlap. -/
theorem held_disjoint (s : State ι D K V E α) {i j : ι} (hij : i ≠ j) :
    Disjoint (s.held i) (s.held j) := by
  rw [Set.disjoint_left]
  intro k hi hj
  exact hij (Option.some.inj (hi.symm.trans hj))

omit [DecidableEq ι] in
theorem held_take_self (s : State ι D K V E α) (i : ι) (ks : List K) :
    (s.take i ks).held i = s.held i ∪ {k | k ∈ ks} := by
  ext k
  simp only [State.held, State.take, Set.mem_ofPred_eq, Set.mem_union]
  split <;> simp_all

omit [DecidableEq ι] in
/-- Taking locks that are free or one's own leaves everybody else's alone. -/
theorem held_take_of_ne (s : State ι D K V E α) {i j : ι} {ks : List K} (hij : j ≠ i)
    (hfree : ∀ k ∈ ks, s.owner k = none ∨ s.owner k = some i) :
    (s.take i ks).held j = s.held j := by
  ext k
  simp only [State.held, State.take, Set.mem_ofPred_eq]
  split
  · rename_i hk
    rcases hfree k hk with h | h <;> simp [h, hij.symm]
  · rfl

omit [DecidableEq K] in
theorem held_finish_of_ne (s : State ι D K V E α) {i j : ι} (hij : j ≠ i) (d : D)
    (st : Status D K V E α) : (s.finish i d st).held j = s.held j := by
  ext k
  simp only [State.held, State.finish, Set.mem_ofPred_eq]
  split
  · rename_i hk
    simp [hk, hij.symm]
  · rfl

/-- Two consecutive states of a schedule either agree on the database and on
what has been returned so far, or are the two sides of one commit. -/
theorem trace_step (W : Workload ι D K V E α) (d : D) (ms : ℕ → Move ι V) (n : ℕ) :
    ((trace W d ms (n + 1)).db = (trace W d ms n).db ∧
      (trace W d ms (n + 1)).result = (trace W d ms n).result) ∨
    ∃ i a b, Commits (trace W d ms n) (trace W d ms (n + 1)) i a b := by
  rw [trace_succ]
  rcases hm : Transaction.fire W (trace W d ms n) (ms n) with - | s'
  · exact .inl ⟨rfl, rfl⟩
  · rcases fire_committing hm with ⟨i, a, b, -, hc⟩ | ⟨-, hsame⟩
    · exact .inr ⟨i, a, b, hc⟩
    · exact .inl hsame

namespace Contract

variable {W : Workload ι D K V E α}

/-- What the triples guarantee of one transaction in one state. -/
def Local (C : Contract W) (s : State ι D K V E α) (i : ι) : Status D K V E α → Prop
  | .idle => s.held i = ∅
  | .running t b =>
      ∃ d, C.rely.rel (s.held i) d s.db ∧
        wp C.rely (C.error i) t (Stable C.rely (C.post i)) (s.held i) b d
  | .failed e => ∃ d, C.error i e d
  | _ => True

/-- Every transaction is where its triple says, and the invariant holds. -/
structure Good (C : Contract W) (s : State ι D K V E α) : Prop where
  inv : C.inv s.db
  here : ∀ i, C.Local s i (s.status i)

omit [DecidableEq ι] [DecidableEq K] in
/-- A transaction nobody touched is still where it was. -/
theorem Local.frame {C : Contract W} {s s' : State ι D K V E α} {i : ι}
    {st : Status D K V E α} (h : C.Local s i st) (hheld : s'.held i = s.held i)
    (hdb : C.rely.rel (s.held i) s.db s'.db) : C.Local s' i st := by
  cases st with
  | idle => exact hheld.trans h
  | running t b =>
    obtain ⟨d, hd, hwp⟩ := h
    refine ⟨d, ?_, ?_⟩
    · rw [hheld]; exact C.rely.trans hd hdb
    · rw [hheld]; exact hwp
  | failed e => exact h
  | committed a | aborted => trivial

omit [DecidableEq ι] [DecidableEq K] in
/-- If only `i` changed, `Good` needs re-establishing for `i` alone. -/
theorem Good.frame {C : Contract W} {s s' : State ι D K V E α} (h : C.Good s) (i : ι)
    (hinv : C.inv s'.db) (hst : ∀ j, j ≠ i → s'.status j = s.status j)
    (hheld : ∀ j, j ≠ i → s'.held j = s.held j)
    (hdb : ∀ j, j ≠ i → C.rely.rel (s.held j) s.db s'.db)
    (hi : C.Local s' i (s'.status i)) : C.Good s' where
  inv := hinv
  here j := by
    rcases eq_or_ne j i with rfl | hj
    · exact hi
    · rw [hst j hj]
      exact (h.here j).frame (hheld j hj) (hdb j hj)

omit [DecidableEq ι] [DecidableEq K] in
theorem good_initial (C : Contract W) {d : D} (hd : C.inv d) :
    C.Good (initial d : State ι D K V E α) where
  inv := hd
  here i := by
    show {k : K | (none : Option ι) = some i} = ∅
    simp

/-- `i` going on with a body that meets its triple keeps `Good`. -/
theorem Good.resume {C : Contract W} {s : State ι D K V E α} (h : C.Good s) {i : ι}
    {ks : List K} {t : Tx D K V E α} {b : List (D → D)} {d : D}
    (hfree : ∀ k ∈ ks, s.owner k = none ∨ s.owner k = some i)
    (hd : C.rely.rel (s.held i ∪ {k | k ∈ ks}) d s.db)
    (ht : wp C.rely (C.error i) t (Stable C.rely (C.post i)) (s.held i ∪ {k | k ∈ ks}) b d) :
    C.Good ((s.take i ks).resume i t b) := by
  refine h.frame i h.inv (fun j hj => Function.update_of_ne hj _ _)
    (fun j hj => held_take_of_ne s hj hfree) (fun _ _ => C.rely.refl _ _) ?_
  show C.Local _ i (Function.update s.status i _ i)
  rw [Function.update_self]
  have hheld : ((s.take i ks).resume i t b).held i = s.held i ∪ {k | k ∈ ks} :=
    held_take_self s i ks
  refine ⟨d, ?_, ?_⟩
  · rw [hheld]; exact hd
  · rw [hheld]; exact ht

omit [DecidableEq K] in
/-- `i` ending without touching the database keeps `Good`. -/
theorem Good.stop {C : Contract W} {s : State ι D K V E α} (h : C.Good s) {i : ι}
    {st : Status D K V E α} (hst : C.Local (s.finish i s.db st) i st) :
    C.Good (s.finish i s.db st) := by
  refine h.frame i h.inv (fun j hj => Function.update_of_ne hj _ _)
    (fun j hj => held_finish_of_ne s hj _ _) (fun _ _ => C.rely.refl _ _) ?_
  show C.Local _ i (Function.update s.status i _ i)
  rw [Function.update_self]
  exact hst

omit [DecidableEq ι] [DecidableEq K] in
/-- A transaction about to commit meets its commit condition. -/
theorem Good.post {C : Contract W} {s : State ι D K V E α} (h : C.Good s) {i : ι} {a : α}
    {b : List (D → D)} (hst : s.status i = .running (.ret a) b) :
    C.post i a (s.held i) b s.db := by
  have hi := h.here i
  rw [hst] at hi
  obtain ⟨d, hd, hwp⟩ := hi
  exact hwp _ hd

omit [DecidableEq ι] in
/-- Taking no lock changes nothing. -/
theorem take_nil (s : State ι D K V E α) (i : ι) : s.take i [] = s := by
  simp [State.take]

omit [DecidableEq K] in
/-- The locks of one who takes another. -/
theorem held_union_one (h : Set K) (k : K) : h ∪ {k' | k' ∈ [k]} = insert k h := by
  ext k'
  simp [or_comm]

omit [DecidableEq ι] [DecidableEq K] in
/-- Nobody holds a lock before the start. -/
theorem Good.held_of_idle {C : Contract W} {s : State ι D K V E α} (h : C.Good s) {i : ι}
    (hst : s.status i = .idle) : s.held i = ∅ := by
  have hi := h.here i
  rwa [hst] at hi

/-- A move keeps `Good`. -/
theorem Good.fire {C : Contract W} {s s' : State ι D K V E α} {m : Move ι V} (h : C.Good s)
    (hm : fire W s m = some s') : C.Good s' := by
  -- a move that takes no lock
  have go : ∀ {i : ι} {t : Tx D K V E α} {b : List (D → D)} {d : D},
      C.rely.rel (s.held i) d s.db →
      wp C.rely (C.error i) t (Stable C.rely (C.post i)) (s.held i) b d →
      C.Good (s.resume i t b) := by
    intro i t b d hd ht
    have hrest : C.Good ((s.take i []).resume i t b) :=
      h.resume (by simp) (by simpa using hd) (by simpa using ht)
    rwa [take_nil] at hrest
  -- where the body of `i` stands before the move
  have running : ∀ {i : ι} {t : Tx D K V E α} {b : List (D → D)},
      s.status i = .running t b → ∃ d, C.rely.rel (s.held i) d s.db ∧
        wp C.rely (C.error i) t (Stable C.rely (C.post i)) (s.held i) b d := by
    intro i t b hst
    have hi := h.here i
    rwa [hst] at hi
  rcases fire_cases hm with ⟨i, hst, htok, rfl⟩ | ⟨i, b, a, hst, rfl⟩ | ⟨i, b, e, hst, rfl⟩ |
    ⟨i, b, f, v, hst, rfl⟩ | ⟨i, b, f, hst, rfl⟩ | ⟨i, b, k, t, hst, hk, rfl⟩ |
    ⟨i, b, w, t, hst, rfl⟩ | ⟨i, t, b, hst, rfl⟩
  · -- start: the reserved locks are free, and `i` held nothing
    refine h.resume (fun k hk => .inl (htok k hk)) (C.rely.refl _ _) ?_
    rw [h.held_of_idle hst, Set.empty_union]
    exact C.triple i s.db h.inv
  · -- commit: the change is an interference everybody else allows
    have hpost := h.post hst
    refine h.frame i (C.keeps i a _ b _ hpost h.inv) (fun j hj => Function.update_of_ne hj _ _)
      (fun j hj => held_finish_of_ne s hj _ _)
      (fun j hj => C.respects i a _ _ b _ hpost h.inv (held_disjoint s hj.symm)) ?_
    show C.Local _ i (Function.update s.status i _ i)
    rw [Function.update_self]
    trivial
  · -- failure
    obtain ⟨d, -, hf⟩ := running hst
    exact h.stop ⟨d, hf⟩
  · -- ask
    obtain ⟨d, hd, hwp⟩ := running hst
    exact go hd (hwp v (C.answers v))
  · -- query
    obtain ⟨d, hd, hwp⟩ := running hst
    exact go (C.rely.refl _ _) (hwp _ hd)
  · -- lock
    obtain ⟨d, hd, hwp⟩ := running hst
    refine h.resume (d := s.db) (by simpa using hk) (C.rely.refl _ _) ?_
    rw [held_union_one]
    exact hwp _ hd
  · -- write
    obtain ⟨d, hd, hwp⟩ := running hst
    exact go hd hwp
  · -- abort
    exact h.stop trivial

/-- **Soundness.**  Along every schedule every state is good. -/
theorem good_trace (C : Contract W) {d : D} (hd : C.inv d) (ms : ℕ → Move ι V) (n : ℕ) :
    C.Good (trace W d ms n) := by
  induction n with
  | zero => exact C.good_initial hd
  | succ n ih =>
    rw [trace_succ]
    rcases hm : Transaction.fire W (trace W d ms n) (ms n) with - | s'
    · exact ih
    · exact ih.fire hm

/-- A later database is an interference away from an earlier one. -/
theorem rely_trace (C : Contract W) {d : D} (hd : C.inv d) (ms : ℕ → Move ι V) {m n : ℕ}
    (hmn : m ≤ n) : C.rely.rel ∅ (trace W d ms m).db (trace W d ms n).db := by
  induction n, hmn using Nat.le_induction with
  | base => exact C.rely.refl _ _
  | succ n hmn ih =>
    refine C.rely.trans ih ?_
    rcases trace_step W d ms n with ⟨hdb, -⟩ | ⟨i, a, b, hc⟩
    · rw [hdb]
      exact C.rely.refl _ _
    · have good := C.good_trace hd ms n
      rw [hc.db]
      exact C.respects i a _ ∅ b _ (good.post hc.1) good.inv (Set.disjoint_empty _)

/-- **The invariant rule.**  A property of the committed database and of what
has been returned so far holds in every state of every schedule, if it holds
at the start and every commit that meets its condition keeps it. -/
theorem invariant (C : Contract W) {d : D} (hd : C.inv d) (P : D → (ι → Option α) → Prop)
    (h₀ : P d fun _ => none)
    (hstep : ∀ i a h b d ρ, C.inv d → C.post i a h b d → ρ i = none → P d ρ →
      P (flush b d) (Function.update ρ i (some a)))
    (ms : ℕ → Move ι V) (n : ℕ) :
    P (trace W d ms n).db (trace W d ms n).result := by
  induction n with
  | zero => exact h₀
  | succ n ih =>
    -- only a commit changes anything, and its condition holds where it commits
    rcases trace_step W d ms n with ⟨hdb, hres⟩ | ⟨i, a, b, hc⟩
    · rw [hdb, hres]
      exact ih
    · have good := C.good_trace hd ms n
      have hnone : (trace W d ms n).result i = none := by simp [State.result, hc.1]
      rw [hc.db, hc.result]
      exact hstep i a _ b _ _ good.inv (good.post hc.1) hnone ih

/-! ### Runs that are lists of moves -/

/-- Every commit along the moves meets `ok`, in the database just before. -/
def CommitsMeet (W : Workload ι D K V E α) (ok : D → ι → α → Prop) (s : State ι D K V E α) :
    List (Move ι V) → Prop
  | [] => True
  | m :: ms =>
      (∀ e ∈ committing s m, ok s.db e.1 e.2) ∧
        CommitsMeet W ok ((Transaction.fire W s m).getD s) ms

instance decidableCommitsMeet (W : Workload ι D K V E α) (ok : D → ι → α → Prop)
    [∀ d i a, Decidable (ok d i a)] (s : State ι D K V E α) :
    (ms : List (Move ι V)) → Decidable (CommitsMeet W ok s ms)
  | [] => inferInstanceAs (Decidable True)
  | m :: ms =>
      have := decidableCommitsMeet W ok ((Transaction.fire W s m).getD s) ms
      inferInstanceAs (Decidable ((∀ e ∈ committing s m, ok s.db e.1 e.2) ∧
        CommitsMeet W ok ((Transaction.fire W s m).getD s) ms))

/-- **The invariant rule, where commits meet a condition.** -/
theorem invariant_moves (C : Contract W) {P : D → Prop} {ok : D → ι → α → Prop}
    (hstep : ∀ i a h b d, C.inv d → C.post i a h b d → ok d i a → P d → P (flush b d))
    {s : State ι D K V E α} (good : C.Good s) (hs : P s.db) (ms : List (Move ι V))
    (hok : CommitsMeet W ok s ms) : P (moves W s ms).db := by
  induction ms generalizing s with
  | nil => exact hs
  | cons m ms ih =>
    show P (moves W ((Transaction.fire W s m).getD s) ms).db
    obtain ⟨hcommit, hrest⟩ := hok
    rcases hm : Transaction.fire W s m with - | s'
    · rw [hm] at hrest
      exact ih good hs hrest
    · rw [hm] at hrest
      refine ih (good.fire hm) ?_ hrest
      rcases fire_committing hm with ⟨i, a, b, hc, hcommits⟩ | ⟨-, hdb, -⟩
      · show P s'.db
        rw [hcommits.db]
        exact hstep i a _ b _ good.inv (good.post hcommits.1) (hcommit (i, a) hc) hs
      · show P s'.db
        rw [hdb]
        exact hs

end Contract

/-! ### Following one transaction -/

/-- An assertion about a running body, the locks it holds, what it has staged
and the database it last looked at, which every move of the body hands on. -/
structure Stepwise (R : Rely K D V)
    (P : Tx D K V E α → Set K → List (D → D) → D → Prop) : Prop where
  ask : ∀ {f h b d} v, R.answers v → P (.ask f) h b d → P (f v) h b d
  read : ∀ {f h b d d'}, R.rel h d d' → P (.read f) h b d → P (f (flush b d')) h b d'
  lock : ∀ {k t h b d d'}, R.rel h d d' → P (.lock k t) h b d → P t (insert k h) b d'
  write : ∀ {w t h b d}, P (.write w t) h b d → P t h (w :: b) d

omit [DecidableEq ι] [DecidableEq K] in
theorem stepwise_wp (R : Rely K D V) (F : E → D → Prop)
    (Q : α → Set K → List (D → D) → D → Prop) :
    Stepwise R fun t h b d => wp R F t Q h b d where
  ask v hv ht := ht v hv
  read hd ht := ht _ hd
  lock hd ht := ht _ hd
  write ht := ht

namespace Contract

variable {W : Workload ι D K V E α}

/-- Where `i` is running, the assertion holds, up to what others have done
since `i` last looked. -/
def At (C : Contract W) (P : Tx D K V E α → Set K → List (D → D) → D → Prop)
    (s : State ι D K V E α) (i : ι) : Prop :=
  ∀ t b, s.status i = .running t b → ∃ d, C.rely.rel (s.held i) d s.db ∧ P t (s.held i) b d

omit [DecidableEq ι] [DecidableEq K] in
/-- What others do leaves the assertion alone. -/
theorem At.frame {C : Contract W} {P : Tx D K V E α → Set K → List (D → D) → D → Prop}
    {s s' : State ι D K V E α} {i : ι} (hp : C.At P s i) (hst : s'.status i = s.status i)
    (hheld : s'.held i = s.held i) (hdb : C.rely.rel (s.held i) s.db s'.db) : C.At P s' i := by
  intro t b ht
  rw [hst] at ht
  obtain ⟨d, hd, hpd⟩ := hp t b ht
  rw [hheld]
  exact ⟨d, C.rely.trans hd hdb, hpd⟩

omit [DecidableEq K] in
/-- The assertion where `i` goes on. -/
theorem At.resumed {C : Contract W} {P : Tx D K V E α → Set K → List (D → D) → D → Prop}
    {s s' : State ι D K V E α} {i : ι} {t : Tx D K V E α} {b : List (D → D)} {d : D}
    (hst : s'.status = Function.update s.status i (.running t b))
    (hd : C.rely.rel (s'.held i) d s'.db) (hp : P t (s'.held i) b d) : C.At P s' i := by
  intro t' b' ht
  rw [hst, Function.update_self] at ht
  cases ht
  exact ⟨d, hd, hp⟩

/-- **A move keeps an assertion that its body hands on.**  A start has to
establish it. -/
theorem At.fire {C : Contract W} {P : Tx D K V E α → Set K → List (D → D) → D → Prop}
    (hP : Stepwise C.rely P) {s s' : State ι D K V E α} {m : Move ι V} (good : C.Good s)
    (hm : fire W s m = some s') {i : ι}
    (hstart : s.status i = .idle → P (W.body i) {k | k ∈ W.token i} [] s.db)
    (hp : C.At P s i) : C.At P s' i := by
  have ended : ∀ {j : ι} {d : D} {st : Status D K V E α}, (∀ t b, st ≠ .running t b) →
      (j ≠ i → C.rely.rel (s.held i) s.db d) → C.At P (s.finish j d st) i := by
    intro j d st hst hdb
    rcases eq_or_ne i j with rfl | hij
    · intro t b ht
      have hself : (s.finish i d st).status i = st := Function.update_self _ _ _
      exact absurd (hself.symm.trans ht) (hst t b)
    · exact hp.frame (Function.update_of_ne hij _ _) (held_finish_of_ne s hij _ _) (hdb hij.symm)
  have went : ∀ {j : ι} {ks : List K} {t : Tx D K V E α} {b : List (D → D)},
      (∀ k ∈ ks, s.owner k = none ∨ s.owner k = some j) →
      (i = j → ∃ d, C.rely.rel (s.held i ∪ {k | k ∈ ks}) d s.db ∧
        P t (s.held i ∪ {k | k ∈ ks}) b d) →
      C.At P ((s.take j ks).resume j t b) i := by
    intro j ks t b hfree hpj
    rcases eq_or_ne i j with rfl | hij
    · obtain ⟨d, hd, hpd⟩ := hpj rfl
      have hheld : ((s.take i ks).resume i t b).held i = s.held i ∪ {k | k ∈ ks} :=
        held_take_self s i ks
      refine At.resumed (d := d) rfl ?_ ?_
      · rw [hheld]; exact hd
      · rw [hheld]; exact hpd
    · exact hp.frame (Function.update_of_ne hij _ _) (held_take_of_ne s hij hfree)
        (C.rely.refl _ _)
  -- a move that takes no lock
  have go : ∀ {j : ι} {t : Tx D K V E α} {b : List (D → D)},
      (i = j → ∃ d, C.rely.rel (s.held i) d s.db ∧ P t (s.held i) b d) →
      C.At P (s.resume j t b) i := by
    intro j t b hpj
    have hrest : C.At P ((s.take j []).resume j t b) i :=
      went (by simp) (by simpa using hpj)
    rwa [take_nil] at hrest
  rcases fire_cases hm with ⟨j, hst, htok, rfl⟩ | ⟨j, b, a, hst, rfl⟩ | ⟨j, b, e, hst, rfl⟩ |
    ⟨j, b, f, v, hst, rfl⟩ | ⟨j, b, f, hst, rfl⟩ | ⟨j, b, k, t, hst, hk, rfl⟩ |
    ⟨j, b, w, t, hst, rfl⟩ | ⟨j, t, b, hst, rfl⟩
  · refine went (fun k hk => .inl (htok k hk)) ?_
    rintro rfl
    rw [good.held_of_idle hst, Set.empty_union]
    exact ⟨s.db, C.rely.refl _ _, hstart hst⟩
  · refine ended (by simp) fun hij => ?_
    exact C.respects j a _ _ b _ (good.post hst) good.inv (held_disjoint s hij)
  · exact ended (by simp) fun _ => C.rely.refl _ _
  · refine go ?_
    rintro rfl
    obtain ⟨d, hd, hpd⟩ := hp _ _ hst
    exact ⟨d, hd, hP.ask v (C.answers v) hpd⟩
  · refine go ?_
    rintro rfl
    obtain ⟨d, hd, hpd⟩ := hp _ _ hst
    exact ⟨s.db, C.rely.refl _ _, hP.read hd hpd⟩
  · refine went (by simpa using hk) ?_
    rintro rfl
    obtain ⟨d, hd, hpd⟩ := hp _ _ hst
    rw [held_union_one]
    exact ⟨s.db, C.rely.refl _ _, hP.lock hd hpd⟩
  · refine go ?_
    rintro rfl
    obtain ⟨d, hd, hpd⟩ := hp _ _ hst
    exact ⟨d, hd, hP.write hpd⟩
  · exact ended (by simp) fun _ => C.rely.refl _ _

/-- An assertion that every body starts with and hands on holds along every
schedule. -/
theorem at_trace (C : Contract W) {P : ι → Tx D K V E α → Set K → List (D → D) → D → Prop}
    (hP : ∀ i, Stepwise C.rely (P i))
    (hstart : ∀ i d, C.inv d → P i (W.body i) {k | k ∈ W.token i} [] d) {d : D} (hd : C.inv d)
    (ms : ℕ → Move ι V) (n : ℕ) (i : ι) : C.At (P i) (trace W d ms n) i := by
  induction n with
  | zero =>
    intro t b ht
    cases ht
  | succ n ih =>
    have good := C.good_trace hd ms n
    rw [trace_succ]
    rcases hm : Transaction.fire W (trace W d ms n) (ms n) with - | s'
    · exact ih
    · exact ih.fire (hP i) good hm fun _ => hstart i _ good.inv

end Contract

end Transaction
