/-
GreenGarden/Jobs.lean

Jobs that call a shared store, as a library over arbitrary stores, calls and
faults.

A job makes its calls one after the other and ends early when one of them
raises; what a call that raises has done to the store is up to its fault.  The
calls of different jobs come in any order.

`Apart` is what lets jobs be looked at class by class: the store has a part
for each class, and a call changes no part but its own, which it changes by
what is in that part alone.  `agree_run` says that such a part is then what the
jobs of its class make of it, the other jobs left out.  `store_of_finished` is
the other half: a job that is alone and finishes makes its calls, each of them
without a fault.
-/
import Mathlib

namespace Jobs

variable {ι κ φ σ : Type} [DecidableEq ι]

/-- The calls of the jobs, and what a call does, with a fault or without. -/
structure System (ι κ φ σ : Type) where
  calls : ι → List κ
  perform : κ → Option φ → σ → σ

/-- How many calls each job has made, whether one has raised, and the store. -/
structure State (ι σ : Type) where
  made : ι → ℕ
  raised : ι → Bool
  store : σ

/-- The next call of a job, and the fault that it meets. -/
structure Move (ι φ : Type) where
  job : ι
  fault : Option φ

/-- No job has moved. -/
def initial (store : σ) : State ι σ := ⟨fun _ => 0, fun _ => false, store⟩

namespace System

variable (S : System ι κ φ σ)

/-- The call that the job is about to make. -/
def pending (s : State ι σ) (i : ι) : Option κ :=
  if s.raised i then none else (S.calls i)[s.made i]?

/-- One move; a job that has ended does nothing. -/
def next (s : State ι σ) (m : Move ι φ) : State ι σ :=
  match S.pending s m.job with
  | none => s
  | some call =>
      { made := Function.update s.made m.job (s.made m.job + 1)
        raised := Function.update s.raised m.job m.fault.isSome
        store := S.perform call m.fault s.store }

/-- The moves of a list, one after the other. -/
def run (moves : List (Move ι φ)) (s : State ι σ) : State ι σ := moves.foldl S.next s

/-- The job has made its calls, and none has raised. -/
def Finished (s : State ι σ) (i : ι) : Prop :=
  s.made i = (S.calls i).length ∧ s.raised i = false

variable {S} {s : State ι σ} {m : Move ι φ} {i : ι}

@[simp] theorem run_nil : S.run [] s = s := rfl

@[simp] theorem run_cons {moves : List (Move ι φ)} :
    S.run (m :: moves) s = S.run moves (S.next s m) := rfl

theorem run_append (before after : List (Move ι φ)) :
    S.run (before ++ after) s = S.run after (S.run before s) :=
  List.foldl_append

/-- A move is the next call of its job, or nothing. -/
theorem next_cases (s : State ι σ) (m : Move ι φ) :
    S.next s m = s ∨ ∃ call, S.pending s m.job = some call ∧
      S.next s m = ⟨Function.update s.made m.job (s.made m.job + 1),
        Function.update s.raised m.job m.fault.isSome, S.perform call m.fault s.store⟩ := by
  rw [next]
  rcases S.pending s m.job with - | call
  · exact .inl rfl
  · exact .inr ⟨call, rfl, rfl⟩

omit [DecidableEq ι] in
theorem mem_of_pending {call : κ} (h : S.pending s i = some call) : call ∈ S.calls i := by
  rw [pending] at h
  split at h
  · cases h
  · exact List.mem_of_getElem? h

/-- What the calls keep, a run keeps. -/
theorem run_keeps {I : σ → Prop}
    (hcall : ∀ i, ∀ call ∈ S.calls i, ∀ fault store, I store →
      I (S.perform call fault store))
    {moves : List (Move ι φ)} {s : State ι σ} (h : I s.store) : I (S.run moves s).store := by
  induction moves generalizing s with
  | nil => exact h
  | cons m moves ih =>
    rw [run_cons]
    rcases next_cases (S := S) s m with heq | ⟨call, hcalls, heq⟩
    · rw [heq]
      exact ih h
    · rw [heq]
      exact ih (hcall m.job call (mem_of_pending hcalls) m.fault s.store h)

/-- A run of moves of other jobs leaves a job where it is. -/
theorem run_other {moves : List (Move ι φ)} (h : ∀ m ∈ moves, m.job ≠ i) {s : State ι σ} :
    (S.run moves s).made i = s.made i ∧ (S.run moves s).raised i = s.raised i := by
  induction moves generalizing s with
  | nil => exact ⟨rfl, rfl⟩
  | cons m moves ih =>
    have hne : i ≠ m.job := (h m List.mem_cons_self).symm
    have hrest := ih (fun m' hm' => h m' (List.mem_cons_of_mem _ hm')) (s := S.next s m)
    rw [run_cons, hrest.1, hrest.2]
    rcases next_cases (S := S) s m with heq | ⟨call, -, heq⟩
    · rw [heq]
      exact ⟨rfl, rfl⟩
    · rw [heq]
      exact ⟨Function.update_of_ne hne _ _, Function.update_of_ne hne _ _⟩

/-! ### Class by class -/

/-- The store has a part for each class of jobs, which only they change. -/
structure Apart {χ τ : Type} (S : System ι κ φ σ) (kind : ι → χ) (part : χ → σ → τ)
    (I : σ → Prop) : Prop where
  keeps : ∀ i, ∀ call ∈ S.calls i, ∀ fault store, I store → I (S.perform call fault store)
  frame : ∀ i, ∀ call ∈ S.calls i, ∀ fault store c, I store → kind i ≠ c →
    part c (S.perform call fault store) = part c store
  within : ∀ i, ∀ call ∈ S.calls i, ∀ fault store store', I store → I store' →
    part (kind i) store = part (kind i) store' →
    part (kind i) (S.perform call fault store) = part (kind i) (S.perform call fault store')

variable {χ τ : Type} [DecidableEq χ] {kind : ι → χ} {part : χ → σ → τ} {I : σ → Prop}

/-- The jobs of the class are where they are, and so is their part of the store. -/
structure Agree (kind : ι → χ) (part : χ → σ → τ) (I : σ → Prop) (c : χ) (s s' : State ι σ) :
    Prop where
  made : ∀ i, kind i = c → s.made i = s'.made i
  raised : ∀ i, kind i = c → s.raised i = s'.raised i
  kept : I s.store
  kept' : I s'.store
  part : part c s.store = part c s'.store

omit [DecidableEq χ] in
/-- A move of another class is not noticed. -/
theorem Agree.other (ha : S.Apart kind part I) {c : χ} {s s' : State ι σ}
    (h : Agree kind part I c s s') (hne : kind m.job ≠ c) :
    Agree kind part I c (S.next s m) s' := by
  rcases next_cases (S := S) s m with heq | ⟨call, hcall, heq⟩
  · rw [heq]
    exact h
  · have hmem := mem_of_pending hcall
    have hjob : ∀ i, kind i = c → i ≠ m.job := by
      rintro i hi rfl
      exact hne hi
    rw [heq]
    exact
      { made := fun i hi => (Function.update_of_ne (hjob i hi) _ _).trans (h.made i hi)
        raised := fun i hi => (Function.update_of_ne (hjob i hi) _ _).trans (h.raised i hi)
        kept := ha.keeps _ call hmem _ _ h.kept
        kept' := h.kept'
        part := (ha.frame _ call hmem _ _ c h.kept hne).trans h.part }

omit [DecidableEq χ] in
/-- A move of the class itself is made in both. -/
theorem Agree.same (ha : S.Apart kind part I) {s s' : State ι σ}
    (h : Agree kind part I (kind m.job) s s') :
    Agree kind part I (kind m.job) (S.next s m) (S.next s' m) := by
  have hpending : S.pending s m.job = S.pending s' m.job := by
    rw [pending, pending, h.made _ rfl, h.raised _ rfl]
  rw [next, next, ← hpending]
  rcases hcall : S.pending s m.job with - | call
  · exact h
  · have hmem := mem_of_pending hcall
    refine ⟨fun i hi => ?_, fun i hi => ?_, ha.keeps _ call hmem _ _ h.kept,
      ha.keeps _ call hmem _ _ h.kept', ha.within _ call hmem _ _ _ h.kept h.kept' h.part⟩
    · show Function.update s.made m.job _ i = Function.update s'.made m.job _ i
      rcases eq_or_ne i m.job with rfl | hne
      · rw [Function.update_self, Function.update_self, h.made _ rfl]
      · rw [Function.update_of_ne hne, Function.update_of_ne hne, h.made i hi]
    · show Function.update s.raised m.job _ i = Function.update s'.raised m.job _ i
      rcases eq_or_ne i m.job with rfl | hne
      · rw [Function.update_self, Function.update_self]
      · rw [Function.update_of_ne hne, Function.update_of_ne hne, h.raised i hi]

theorem Agree.run (ha : S.Apart kind part I) {c : χ} {moves : List (Move ι φ)}
    {s s' : State ι σ} (h : Agree kind part I c s s') :
    Agree kind part I c (S.run moves s)
      (S.run (moves.filter fun m => kind m.job = c) s') := by
  induction moves generalizing s s' with
  | nil => exact h
  | cons m moves ih =>
    by_cases hc : kind m.job = c
    · rw [List.filter_cons_of_pos (by simpa using hc), run_cons, run_cons]
      subst hc
      exact ih (h.same ha)
    · rw [List.filter_cons_of_neg (by simpa using hc), run_cons]
      exact ih (h.other ha hc)

/-- **Other classes do not matter**: the part of a class, and how far its jobs
are, is the same when only its own jobs run. -/
theorem agree_run (ha : S.Apart kind part I) (c : χ) (moves : List (Move ι φ)) {s : State ι σ}
    (h : I s.store) : Agree kind part I c (S.run moves s)
      (S.run (moves.filter fun m => kind m.job = c) s) :=
  Agree.run ha ⟨fun _ _ => rfl, fun _ _ => rfl, h, h, rfl⟩

/-! ### A job that finishes alone -/

/-- What calls without a fault make of the store. -/
def performAll (S : System ι κ φ σ) (calls : List κ) (store : σ) : σ :=
  calls.foldl (fun store call => S.perform call none store) store

omit [DecidableEq ι] in
theorem performAll_append (first second : List κ) (store : σ) :
    S.performAll (first ++ second) store = S.performAll second (S.performAll first store) :=
  List.foldl_append

theorem run_of_ended (h : S.pending s i = none) {moves : List (Move ι φ)}
    (hmoves : ∀ m ∈ moves, m.job = i) : S.run moves s = s := by
  induction moves with
  | nil => rfl
  | cons m moves ih =>
    have hnext : S.next s m = s := by
      rw [next, hmoves m List.mem_cons_self, h]
    rw [run_cons, hnext]
    exact ih fun m' hm' => hmoves m' (List.mem_cons_of_mem _ hm')

/-- **A job that finishes** has made the calls that it had left, and nothing
else has happened, when all the moves were its own. -/
theorem store_of_finished {moves : List (Move ι φ)} (hmoves : ∀ m ∈ moves, m.job = i)
    {s : State ι σ} (hraised : s.raised i = false) (hend : S.Finished (S.run moves s) i) :
    (S.run moves s).store = S.performAll ((S.calls i).drop (s.made i)) s.store := by
  induction moves generalizing s with
  | nil =>
    obtain ⟨hmade, -⟩ := hend
    rw [run_nil] at hmade ⊢
    rw [hmade, List.drop_length]
    rfl
  | cons m moves ih =>
    have hjob : m.job = i := hmoves m List.mem_cons_self
    have hrest : ∀ m ∈ moves, m.job = i := fun m' hm' => hmoves m' (List.mem_cons_of_mem _ hm')
    rw [run_cons] at hend ⊢
    rcases hcall : (S.calls i)[s.made i]? with - | call
    · -- no call was left
      have hnone : S.pending s i = none := by rw [pending, hraised, hcall]; rfl
      have hsame : S.next s m = s := by rw [next, hjob, hnone]
      rw [hsame] at hend ⊢
      exact ih hrest hraised hend
    · have hsome : S.pending s i = some call := by rw [pending, hraised, hcall]; rfl
      have hnext : S.next s m = ⟨Function.update s.made i (s.made i + 1),
          Function.update s.raised i m.fault.isSome, S.perform call m.fault s.store⟩ := by
        rw [next, hjob, hsome]
      have hdrop : (S.calls i).drop (s.made i)
          = call :: (S.calls i).drop (s.made i + 1) := by
        obtain ⟨hlt, rfl⟩ := List.getElem?_eq_some_iff.mp hcall
        exact List.drop_eq_getElem_cons hlt
      rcases hfault : m.fault with - | fault
      · have hgood : (S.next s m).raised i = false := by
          rw [hnext, hfault]
          exact Function.update_self _ _ _
        rw [ih hrest hgood hend, hnext, hfault, hdrop]
        show S.performAll ((S.calls i).drop (Function.update s.made i (s.made i + 1) i)) _ = _
        rw [Function.update_self]
        rfl
      · -- it would have raised
        have hbad : (S.next s m).raised i = true := by
          rw [hnext, hfault]
          exact Function.update_self _ _ _
        have hnone : S.pending (S.next s m) i = none := by rw [pending, hbad]; rfl
        rw [run_of_ended hnone hrest] at hend
        rw [hend.2] at hbad
        cases hbad

end System

end Jobs
