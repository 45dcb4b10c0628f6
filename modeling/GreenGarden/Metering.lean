/-
GreenGarden/Metering.lean

The metrics of many requests at once (`core/metrics.py`).

Requests run side by side on the same series, and each of them may end in any
way: it returns, it raises, its client goes away, it is cancelled.  The
`finally` block is what makes the series right all the same: `requests_metered`
reads them off what the requests have done so far, in every state of every run.
-/
import GreenGarden.Middleware

namespace GreenGarden

open Asgi

variable {ρ : Type}

/-- A request, and what answers it inside the metrics. -/
structure Served (ρ : Type) where
  scope : HttpScope
  app : Process AppMark ρ

/-! ### One request -/

/-- What the acts of a request come to. -/
def summary (acts : List (Act Mark ρ)) : Watched :=
  acts.foldl (fun w a =>
    match a with
    | .sent m _ => w.see m
    | .marked (.app (.route template)) => { w with route := some template }
    | _ => w) .initial

/-- What the marks among the acts add to a series. -/
def score (acts : List (Act Mark ρ)) (series : Series) : ℤ :=
  ((marks acts).map (Mark.adds · series)).sum

/-- The series that only the middleware adds to. -/
def Series.ofRequests : Series → Bool
  | .exceptions _ _ => false
  | _ => true

theorem score_append (acts acts' : List (Act Mark ρ)) (series : Series) :
    score (acts ++ acts') series = score acts series + score acts' series := by
  rw [score, marks_append, List.map_append, List.sum_append]
  rfl

/-- No route adds to them. -/
theorem score_lift (acts : List (Act AppMark ρ)) {series : Series}
    (h : series.ofRequests = true) : score (acts.map liftAct) series = 0 := by
  have hzero : ∀ e : AppMark, (Mark.app e).adds series = 0 := by
    intro e
    cases e with
    | route template => rfl
    | exception typeName handler =>
      cases series with
      | exceptions typeName' handler' => cases h
      | inProgress method => rfl
      | requests method route status => rfl
      | durations method route => rfl
  rw [score, marks_lift, List.map_map]
  refine List.sum_eq_zero fun x hx => ?_
  obtain ⟨e, -, rfl⟩ := List.mem_map.mp hx
  exact hzero e

theorem summary_lift (acts : List (Act AppMark ρ)) :
    summary (acts.map liftAct) = Watched.initial.afterAll acts := by
  rw [summary, List.foldl_map, Watched.afterAll]
  congr 1
  funext w a
  cases a with
  | sent m failure => rfl
  | received x => rfl
  | marked e => cases e <;> rfl

theorem ended_watch (method : Raw) (w : Watched) (p : Process AppMark ρ) :
    (watch method w p).ended = false := by
  cases p with
  | ret => rfl
  | raise e => rfl
  | send m next => rfl
  | receive next => rfl
  | mark e next => cases e <;> rfl

/-- How far a counted request is. -/
theorem counted_cases {scope : HttpScope} (hcounted : scope.counted = true)
    (app : Process AppMark ρ) (rs : List (Reply ρ)) :
    let done := (prometheus scope app).run rs
    done.1 = [] ∧ done.2.ended = false ∨
    ∃ acts : List (Act AppMark ρ),
      done.1 = .marked (.begin (methodLabel scope)) :: acts.map liftAct ∧ done.2.ended = false ∨
      done.1 = .marked (.begin (methodLabel scope)) :: (acts.map liftAct ++
        [.marked ((Watched.initial.afterAll acts).settle (methodLabel scope))]) ∧
        done.2.ended = true := by
  intro done
  have hstack : prometheus scope app = .mark (.begin (methodLabel scope))
      (watch (methodLabel scope) .initial app) := by
    rw [prometheus, if_pos hcounted]
  cases rs with
  | nil =>
    refine .inl ?_
    rw [show done = _ from Process.run_nil _, hstack]
    exact ⟨rfl, rfl⟩
  | cons r rs =>
    have hdone : done = (.marked (.begin (methodLabel scope)) ::
        ((watch (methodLabel scope) .initial app).run rs).1,
        ((watch (methodLabel scope) .initial app).run rs).2) := by
      show (prometheus scope app).run (r :: rs) = _
      rw [hstack, Process.run_cons_some rfl]
    refine .inr ⟨(app.run rs).1, ?_⟩
    rcases run_watch (methodLabel scope) .initial app rs with heq | ⟨hended, heq⟩
    · rw [hdone, heq]
      exact .inl ⟨rfl, ended_watch _ _ _⟩
    · rw [hdone, heq]
      refine .inr ⟨rfl, ?_⟩
      rw [ended_mapMark, hended]

theorem score_of_not_counted {scope : HttpScope} (hcounted : scope.counted = false)
    (app : Process AppMark ρ) (rs : List (Reply ρ)) {series : Series}
    (h : series.ofRequests = true) : score ((prometheus scope app).run rs).1 series = 0 := by
  rw [prometheus, hcounted, if_neg (by simp), run_mapMark]
  exact score_lift _ h

/-- The request is counted, and it has begun. -/
def Served.begun (served : Served ρ) (acts : List (Act Mark ρ)) : Bool :=
  served.scope.counted && !acts.isEmpty

section Scores

theorem score_one (mark : Mark) (series : Series) :
    score (ρ := ρ) [.marked mark] series = mark.adds series := by
  show ([mark.adds series]).sum = _
  rw [List.sum_cons, List.sum_nil, add_zero]

theorem summary_settled (method : Raw) (w : Watched) (acts : List (Act AppMark ρ)) :
    summary (.marked (.begin method) :: (acts.map liftAct ++ [.marked (w.settle method)]))
      = Watched.initial.afterAll acts := by
  rw [← summary_lift acts]
  show summary (acts.map liftAct ++ [.marked (w.settle method)]) = _
  rw [summary, List.foldl_append]
  rfl

theorem begun_cons {served : Served ρ} (hcounted : served.scope.counted = true) (a : Act Mark ρ)
    (acts : List (Act Mark ρ)) : served.begun (a :: acts) = true := by
  rw [Served.begun, hcounted]
  rfl

/-- **What one request adds**, whatever it has been through: its begin, and once
it has ended what settles it. -/
theorem score_eq (served : Served ρ) (rs : List (Reply ρ)) {series : Series}
    (h : series.ofRequests = true) :
    score ((prometheus served.scope served.app).run rs).1 series
      = if served.begun ((prometheus served.scope served.app).run rs).1 then
          (Mark.begin (methodLabel served.scope)).adds series +
            if ((prometheus served.scope served.app).run rs).2.ended = true then
              ((summary ((prometheus served.scope served.app).run rs).1).settle
                (methodLabel served.scope)).adds series
            else 0
        else 0 := by
  rcases hcounted : served.scope.counted with - | -
  · rw [score_of_not_counted hcounted _ _ h, Served.begun, hcounted]
    rfl
  · rcases counted_cases hcounted served.app rs with
      ⟨hnil, -⟩ | ⟨acts, ⟨hacts, hended⟩ | ⟨hacts, hended⟩⟩
    · rw [hnil, Served.begun, hcounted]
      rfl
    · rw [hacts, hended, if_pos (begun_cons hcounted _ _), if_neg (by simp)]
      show score ([_] ++ acts.map liftAct) series = _
      rw [score_append, score_one, score_lift acts h]
    · rw [hacts, hended, if_pos (begun_cons hcounted _ _), if_pos rfl, summary_settled]
      show score ([_] ++ (acts.map liftAct ++ [_])) series = _
      rw [score_append, score_append, score_one, score_one, score_lift acts h, zero_add]

end Scores

/-! ### Many requests -/

section Many

variable {ι : Type} [Fintype ι] [DecidableEq ι]

/-- The requests, side by side. -/
def serving (served : ι → Served ρ) (moves : List (ι × Reply ρ)) : Pool ι Mark ρ Series :=
  Pool.run Mark.adds moves (.initial fun i => prometheus (served i).scope (served i).app)

/-- The series say what the requests have done. -/
structure Metered (served : ι → Served ρ) (s : Pool ι Mark ρ Series) : Prop where
  inProgress : ∀ method, s.value (.inProgress method)
    = (Finset.univ.filter fun i => (served i).begun (s.acts i) ∧ (s.procs i).ended = false ∧
        methodLabel (served i).scope = method).card
  requests : ∀ method route status, s.value (.requests method route status)
    = (Finset.univ.filter fun i => (served i).begun (s.acts i) ∧ (s.procs i).ended = true ∧
        methodLabel (served i).scope = method ∧ (summary (s.acts i)).routeLabel = route ∧
        (summary (s.acts i)).statusCode = status).card
  durations : ∀ method route, s.value (.durations method route)
    = (Finset.univ.filter fun i => (served i).begun (s.acts i) ∧ (s.procs i).ended = true ∧
        methodLabel (served i).scope = method ∧ (summary (s.acts i)).routeLabel = route ∧
        (summary (s.acts i)).streaming = false).card
  idle : (∀ i, (s.procs i).ended = true) → ∀ method, s.value (.inProgress method) = 0

theorem value_serving (served : ι → Served ρ) (moves : List (ι × Reply ρ)) (series : Series)
    (h : series.ofRequests = true) {p : ι → Prop} [DecidablePred p]
    (hone : ∀ i, (if (served i).begun ((serving served moves).acts i) then
        (Mark.begin (methodLabel (served i).scope)).adds series +
          if ((serving served moves).procs i).ended = true then
            ((summary ((serving served moves).acts i)).settle
              (methodLabel (served i).scope)).adds series
          else 0
      else 0) = if p i then 1 else 0) :
    (serving served moves).value series = (Finset.univ.filter p).card := by
  rw [serving, Pool.value_eq, Finset.card_filter, Nat.cast_sum]
  refine Finset.sum_congr rfl fun i _ => ?_
  have hone := hone i
  obtain ⟨hacts, hprocs⟩ := Pool.alone Mark.adds
    (fun i => prometheus (served i).scope (served i).app) moves i
  rw [serving, hacts, hprocs, ← score_eq (served i) _ h] at hone
  rw [hacts]
  show score _ series = _
  rw [hone]
  split
  · rfl
  · rfl

/-- **The metrics are right**, in every state of every run: a method has as many
requests in progress as have begun and not ended, and none once all have ended;
each request that has ended is counted once, under the route it was dispatched
to and the status that its client was last sent, or 500; and it is timed unless
it streamed. -/
theorem requests_metered (served : ι → Served ρ) (moves : List (ι × Reply ρ)) :
    Metered served (serving served moves) := by
  have hprogress : ∀ method, (serving served moves).value (.inProgress method)
      = (Finset.univ.filter fun i => (served i).begun ((serving served moves).acts i) ∧
          ((serving served moves).procs i).ended = false ∧
          methodLabel (served i).scope = method).card := by
    intro method
    refine value_serving served moves (.inProgress method) rfl fun i => ?_
    by_cases hbegun : (served i).begun ((serving served moves).acts i)
    · by_cases hmethod : methodLabel (served i).scope = method
      · cases ((serving served moves).procs i).ended <;>
          simp [hbegun, hmethod, Mark.adds, Watched.settle]
      · cases ((serving served moves).procs i).ended <;>
          simp [hbegun, hmethod, Ne.symm hmethod, Mark.adds, Watched.settle]
    · simp [hbegun]
  refine ⟨hprogress, fun method route status => ?_, fun method route => ?_, fun hidle method => ?_⟩
  · refine value_serving served moves (.requests method route status) rfl fun i => ?_
    by_cases hbegun : (served i).begun ((serving served moves).acts i)
    · rcases hended : ((serving served moves).procs i).ended with - | -
      · simp [hbegun, Mark.adds]
      · simp only [hbegun, Mark.adds, Watched.settle, if_true, true_and, reduceCtorEq, if_false,
          Series.requests.injEq, zero_add, false_and]
        refine if_congr ?_ rfl rfl
        rw [eq_comm, @eq_comm _ route, @eq_comm _ status]
    · simp [hbegun]
  · refine value_serving served moves (.durations method route) rfl fun i => ?_
    by_cases hbegun : (served i).begun ((serving served moves).acts i)
    · rcases hended : ((serving served moves).procs i).ended with - | -
      · simp [hbegun, Mark.adds]
      · simp only [hbegun, Mark.adds, Watched.settle, if_true, true_and, reduceCtorEq, if_false,
          Series.durations.injEq, zero_add]
        refine if_congr ?_ rfl rfl
        rw [@eq_comm _ method, @eq_comm _ route, and_assoc]
    · simp [hbegun]
  · rw [hprogress, Nat.cast_eq_zero, Finset.card_eq_zero, Finset.filter_eq_empty_iff]
    rintro i - ⟨-, hgoing, -⟩
    rw [hidle i] at hgoing
    cases hgoing

end Many

end GreenGarden
