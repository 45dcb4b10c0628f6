/-
GreenGarden/Transaction.lean

Transactions at READ COMMITTED, as a library over an arbitrary database.

A transaction body is a tree of database effects (`Tx`): it may take a value
from its surroundings (a clock, a generated identifier), run a query, take a
lock, or stage a write.  Returning commits; failing rolls back.

The engine (`State`, `fire`) interleaves any family of bodies:

* a query sees the last committed database with the transaction's own staged
  writes on top, so two queries of one transaction may see different states;
* a lock is exclusive and is held to the end of the transaction, and a body
  that asks for a lock somebody else holds cannot move;
* staged writes reach the database all at once, at the commit;
* any running transaction may be aborted at any moment, which loses its
  staged writes and frees its locks.

`trace` runs a schedule (an infinite list of attempted moves; a move that is
not possible leaves the state alone), so "in every reachable state" is "for
every schedule and every `n`".  `alone` is the same body run with nobody else
around; `trace_alone` says the engine can do exactly that.
-/
import Mathlib

namespace Transaction

/-- A transaction body over databases `D`, lock keys `K`, outside values `V`
and errors `E`, returning an `α`. -/
inductive Tx (D K V E α : Type) where
  | ret (a : α)
  | fail (e : E)
  | ask (f : V → Tx D K V E α)
  | read (f : D → Tx D K V E α)
  | lock (k : K) (t : Tx D K V E α)
  | write (w : D → D) (t : Tx D K V E α)

variable {ι D K V E α β : Type}

namespace Tx

/-- Run `t`, then `g` on what it returns, in the same transaction. -/
def bind : Tx D K V E α → (α → Tx D K V E β) → Tx D K V E β
  | ret a, g => g a
  | fail e, _ => fail e
  | ask f, g => ask fun v => (f v).bind g
  | read f, g => read fun d => (f d).bind g
  | lock k t, g => lock k (t.bind g)
  | write w t, g => write w (t.bind g)

instance : Monad (Tx D K V E) where
  pure := ret
  bind := bind

theorem bind_ret (t : Tx D K V E α) : t.bind ret = t := by
  induction t with
  | ret a => rfl
  | fail e => rfl
  | ask f ih => exact congrArg ask (funext ih)
  | read f ih => exact congrArg read (funext ih)
  | lock k t ih => exact congrArg (lock k) ih
  | write w t ih => exact congrArg (write w) ih

theorem bind_bind {γ : Type} (t : Tx D K V E α) (g : α → Tx D K V E β)
    (g' : β → Tx D K V E γ) : (t.bind g).bind g' = t.bind fun a => (g a).bind g' := by
  induction t with
  | ret a => rfl
  | fail e => rfl
  | ask f ih => exact congrArg ask (funext ih)
  | read f ih => exact congrArg read (funext ih)
  | lock k t ih => exact congrArg (lock k) ih
  | write w t ih => exact congrArg (write w) ih

instance : LawfulMonad (Tx D K V E) :=
  LawfulMonad.mk' _ bind_ret (fun _ _ => rfl) bind_bind

/-- A query: read the database once and keep `f` of it. -/
def query (f : D → α) : Tx D K V E α := read fun d => ret (f d)

/-- A value taken from outside the database. -/
def outside (f : V → α) : Tx D K V E α := ask fun v => ret (f v)

/-- Take one lock. -/
def acquire (k : K) : Tx D K V E Unit := lock k (ret ())

/-- Take a list of locks, in the order of the list. -/
def acquireAll : List K → Tx D K V E Unit
  | [] => ret ()
  | k :: ks => lock k (acquireAll ks)

/-- Stage one write. -/
def stage (w : D → D) : Tx D K V E Unit := write w (ret ())

/-- Fail with `e` when `c` holds. -/
def failIf (c : Prop) [Decidable c] (e : E) : Tx D K V E Unit := if c then fail e else ret ()

/-- Run `t` when `c` holds, otherwise return `a` at once. -/
def whenElse (c : Prop) [Decidable c] (t : Tx D K V E α) (a : α) : Tx D K V E α :=
  if c then t else ret a

/-- Return the value of a check, or fail with its error. -/
def ofExcept : Except E α → Tx D K V E α
  | .ok a => ret a
  | .error e => fail e

end Tx

/-- A database with staged writes on top, the newest write first in the list. -/
def flush (b : List (D → D)) (d : D) : D := b.foldr (fun w d => w d) d

@[simp] theorem flush_nil (d : D) : flush [] d = d := rfl

@[simp] theorem flush_cons (w : D → D) (b : List (D → D)) (d : D) :
    flush (w :: b) d = w (flush b d) := rfl

/-! ### The engine -/

/-- Where one transaction stands.  A running one carries the rest of its body
and its staged writes. -/
inductive Status (D K V E α : Type) where
  | idle
  | running (t : Tx D K V E α) (b : List (D → D))
  | committed (a : α)
  | failed (e : E)
  | aborted

/-- The committed database, who holds which lock, and every transaction. -/
structure State (ι D K V E α : Type) where
  db : D
  owner : K → Option ι
  status : ι → Status D K V E α

/-- A family of transactions to run.  `token i` lists what the caller of `i`
reserves from before its first statement to its end; it is empty when callers
do not coordinate. -/
structure Workload (ι D K V E α : Type) where
  body : ι → Tx D K V E α
  token : ι → List K

/-- An attempted move of one transaction; `v` answers the body if it asks. -/
inductive Move (ι V : Type) where
  | start (i : ι)
  | step (i : ι) (v : V)
  | abort (i : ι)

namespace State

variable [DecidableEq ι] [DecidableEq K]

/-- The locks `i` holds. -/
def held (s : State ι D K V E α) (i : ι) : Set K := {k | s.owner k = some i}

/-- `i` goes on with the rest of its body. -/
def resume (s : State ι D K V E α) (i : ι) (t : Tx D K V E α) (b : List (D → D)) :
    State ι D K V E α :=
  { s with status := Function.update s.status i (.running t b) }

/-- `i` takes the locks in `ks`. -/
def take (s : State ι D K V E α) (i : ι) (ks : List K) : State ι D K V E α :=
  { s with owner := fun k => if k ∈ ks then some i else s.owner k }

/-- `i` ends as `st`, the database becomes `d` and the locks of `i` are free. -/
def finish (s : State ι D K V E α) (i : ι) (d : D) (st : Status D K V E α) :
    State ι D K V E α where
  db := d
  owner := fun k => if s.owner k = some i then none else s.owner k
  status := Function.update s.status i st

/-- What `i` returned, once it has committed. -/
def result (s : State ι D K V E α) (i : ι) : Option α :=
  match s.status i with
  | .committed a => some a
  | _ => none

end State

variable [DecidableEq ι] [DecidableEq K]

/-- One move of the running body `t` of transaction `i`, with `b` staged. -/
def advance (s : State ι D K V E α) (i : ι) (v : V) (b : List (D → D)) :
    Tx D K V E α → Option (State ι D K V E α)
  | .ret a => some (s.finish i (flush b s.db) (.committed a))
  | .fail e => some (s.finish i s.db (.failed e))
  | .ask f => some (s.resume i (f v) b)
  | .read f => some (s.resume i (f (flush b s.db)) b)
  | .lock k t =>
      if s.owner k = none ∨ s.owner k = some i then some ((s.take i [k]).resume i t b) else none
  | .write w t => some (s.resume i t (w :: b))

/-- One move of the engine, `none` when it is not possible. -/
def fire (W : Workload ι D K V E α) (s : State ι D K V E α) :
    Move ι V → Option (State ι D K V E α)
  | .start i =>
      match s.status i with
      | .idle =>
          if ∀ k ∈ W.token i, s.owner k = none then
            some ((s.take i (W.token i)).resume i (W.body i) [])
          else none
      | _ => none
  | .step i v =>
      match s.status i with
      | .running t b => advance s i v b t
      | _ => none
  | .abort i =>
      match s.status i with
      | .running _ _ => some (s.finish i s.db .aborted)
      | _ => none

/-- Nothing has started and nothing is locked. -/
def initial (d : D) : State ι D K V E α := ⟨d, fun _ => none, fun _ => .idle⟩

/-- The state after the first `n` moves of the schedule `ms`. -/
def trace (W : Workload ι D K V E α) (d : D) (ms : ℕ → Move ι V) : ℕ → State ι D K V E α
  | 0 => initial d
  | n + 1 => (fire W (trace W d ms n) (ms n)).getD (trace W d ms n)

theorem trace_succ (W : Workload ι D K V E α) (d : D) (ms : ℕ → Move ι V) (n : ℕ) :
    trace W d ms (n + 1) = (fire W (trace W d ms n) (ms n)).getD (trace W d ms n) := rfl

/-! ### What one move can do -/

/-- Transaction `i` commits from `s`: its body has returned `a` with the
writes `b` staged, and `s'` is the state after. -/
def Commits (s s' : State ι D K V E α) (i : ι) (a : α) (b : List (D → D)) : Prop :=
  s.status i = .running (.ret a) b ∧ s' = s.finish i (flush b s.db) (.committed a)

omit [DecidableEq K] in
/-- A commit puts the staged writes into the database. -/
theorem Commits.db {s s' : State ι D K V E α} {i : ι} {a : α} {b : List (D → D)}
    (h : Commits s s' i a b) : s'.db = flush b s.db := by
  rw [h.2]
  rfl

omit [DecidableEq K] in
/-- A commit returns to its own caller and to nobody else. -/
theorem Commits.result {s s' : State ι D K V E α} {i : ι} {a : α} {b : List (D → D)}
    (h : Commits s s' i a b) : s'.result = Function.update s.result i (some a) := by
  rw [h.2]
  funext j
  rcases eq_or_ne j i with rfl | hj
  · simp [State.result, State.finish]
  · simp [State.result, State.finish, Function.update_of_ne hj]

omit [DecidableEq K] in
/-- Only a commit adds to what has been returned. -/
theorem result_of_update {s s' : State ι D K V E α} {i : ι} {st : Status D K V E α}
    (hs : ∀ a, s.status i ≠ .committed a) (hst : ∀ a, st ≠ .committed a)
    (hs' : s'.status = Function.update s.status i st) : s'.result = s.result := by
  funext j
  rcases eq_or_ne j i with rfl | hj
  · simp only [State.result, hs', Function.update_self]
  · simp only [State.result, hs', Function.update_of_ne hj]

/-- The transaction that a move commits, with what it returns. -/
def committing (s : State ι D K V E α) : Move ι V → Option (ι × α)
  | .step i _ =>
      match s.status i with
      | .running (.ret a) _ => some (i, a)
      | _ => none
  | _ => none

theorem fire_start {W : Workload ι D K V E α} {s s' : State ι D K V E α} {i : ι}
    (h : fire W s (.start i) = some s') :
    s.status i = .idle ∧ (∀ k ∈ W.token i, s.owner k = none) ∧
      s' = (s.take i (W.token i)).resume i (W.body i) [] := by
  simp only [fire] at h
  split at h
  · rename_i hst
    split at h
    · rename_i htok
      exact ⟨hst, htok, (Option.some.inj h).symm⟩
    · cases h
  · cases h

theorem fire_step {W : Workload ι D K V E α} {s s' : State ι D K V E α} {i : ι} {v : V}
    (h : fire W s (.step i v) = some s') :
    ∃ t b, s.status i = .running t b ∧ advance s i v b t = some s' := by
  simp only [fire] at h
  split at h
  · rename_i t b hst
    exact ⟨t, b, hst, h⟩
  · cases h

theorem fire_abort {W : Workload ι D K V E α} {s s' : State ι D K V E α} {i : ι}
    (h : fire W s (.abort i) = some s') :
    ∃ t b, s.status i = .running t b ∧ s' = s.finish i s.db .aborted := by
  simp only [fire] at h
  split at h
  · rename_i t b hst
    exact ⟨t, b, hst, (Option.some.inj h).symm⟩
  · cases h

/-- A lock is taken when it is free, or taken again. -/
theorem advance_lock {s s' : State ι D K V E α} {i : ι} {v : V} {b : List (D → D)} {k : K}
    {t : Tx D K V E α} (h : advance s i v b (.lock k t) = some s') :
    (s.owner k = none ∨ s.owner k = some i) ∧ s' = (s.take i [k]).resume i t b := by
  simp only [advance] at h
  split at h
  · rename_i hk
    exact ⟨hk, (Option.some.inj h).symm⟩
  · cases h

/-- Everything a move can do.  Only a commit touches the database. -/
theorem fire_cases {W : Workload ι D K V E α} {s s' : State ι D K V E α} {m : Move ι V}
    (h : fire W s m = some s') :
    (∃ i, s.status i = .idle ∧ (∀ k ∈ W.token i, s.owner k = none) ∧
      s' = (s.take i (W.token i)).resume i (W.body i) []) ∨
    (∃ i b a, Commits s s' i a b) ∨
    (∃ i b e, s.status i = .running (.fail e) b ∧ s' = s.finish i s.db (.failed e)) ∨
    (∃ i b f v, s.status i = .running (.ask f) b ∧ s' = s.resume i (f v) b) ∨
    (∃ i b f, s.status i = .running (.read f) b ∧ s' = s.resume i (f (flush b s.db)) b) ∨
    (∃ i b k t, s.status i = .running (.lock k t) b ∧
      (s.owner k = none ∨ s.owner k = some i) ∧ s' = (s.take i [k]).resume i t b) ∨
    (∃ i b w t, s.status i = .running (.write w t) b ∧ s' = s.resume i t (w :: b)) ∨
    (∃ i t b, s.status i = .running t b ∧ s' = s.finish i s.db .aborted) := by
  cases m with
  | start i => exact .inl ⟨i, fire_start h⟩
  | step i v =>
    obtain ⟨t, b, hst, h⟩ := fire_step h
    cases t with
    | ret a => exact .inr (.inl ⟨i, b, a, hst, (Option.some.inj h).symm⟩)
    | fail e => exact .inr (.inr (.inl ⟨i, b, e, hst, (Option.some.inj h).symm⟩))
    | ask f => exact .inr (.inr (.inr (.inl ⟨i, b, f, v, hst, (Option.some.inj h).symm⟩)))
    | read f => exact .inr (.inr (.inr (.inr (.inl ⟨i, b, f, hst, (Option.some.inj h).symm⟩))))
    | lock k t =>
      exact .inr (.inr (.inr (.inr (.inr (.inl ⟨i, b, k, t, hst, advance_lock h⟩)))))
    | write w t =>
      exact .inr (.inr (.inr (.inr (.inr (.inr (.inl
        ⟨i, b, w, t, hst, (Option.some.inj h).symm⟩))))))
  | abort i =>
    obtain ⟨t, b, hst, rfl⟩ := fire_abort h
    exact .inr (.inr (.inr (.inr (.inr (.inr (.inr ⟨i, t, b, hst, rfl⟩))))))

/-- The transaction that a move is about. -/
def Move.actor : Move ι V → ι
  | .start i | .step i _ | .abort i => i

/-- A move changes the status of its transaction. -/
theorem fire_status {W : Workload ι D K V E α} {s s' : State ι D K V E α} {m : Move ι V}
    (h : fire W s m = some s') : ∃ st, s'.status = Function.update s.status m.actor st := by
  cases m with
  | start i =>
    obtain ⟨-, -, rfl⟩ := fire_start h
    exact ⟨_, rfl⟩
  | step i v =>
    obtain ⟨t, b, -, h⟩ := fire_step h
    cases t with
    | ret | fail | ask | read | write =>
      obtain rfl := Option.some.inj h
      exact ⟨_, rfl⟩
    | lock k t =>
      obtain ⟨-, rfl⟩ := advance_lock h
      exact ⟨_, rfl⟩
  | abort i =>
    obtain ⟨-, -, -, rfl⟩ := fire_abort h
    exact ⟨_, rfl⟩

/-- Nobody else's status changes. -/
theorem fire_status_of_ne {W : Workload ι D K V E α} {s s' : State ι D K V E α} {m : Move ι V}
    (h : fire W s m = some s') {j : ι} (hj : j ≠ m.actor) : s'.status j = s.status j := by
  obtain ⟨st, hst⟩ := fire_status h
  rw [hst, Function.update_of_ne hj]

/-- Who has failed had failed before, or was about to. -/
theorem fire_failed {W : Workload ι D K V E α} {s s' : State ι D K V E α} {m : Move ι V}
    (h : fire W s m = some s') {j : ι} {e : E} (hf : s'.status j = .failed e) :
    s.status j = .failed e ∨ ∃ b, s.status j = .running (.fail e) b := by
  -- the one whose status changes
  have changed : ∀ {i : ι} {st : Status D K V E α}, s'.status = Function.update s.status i st →
      st = .failed e ∧ j = i ∨ s.status j = .failed e := by
    intro i st hs'
    rw [hs'] at hf
    rcases eq_or_ne j i with rfl | hj
    · rw [Function.update_self] at hf
      exact .inl ⟨hf, rfl⟩
    · rw [Function.update_of_ne hj] at hf
      exact .inr hf
  rcases fire_cases h with ⟨i, hst, -, rfl⟩ | ⟨i, b, a, hst, rfl⟩ | ⟨i, b, e', hst, rfl⟩ |
    ⟨i, b, f, v, hst, rfl⟩ | ⟨i, b, f, hst, rfl⟩ | ⟨i, b, k, t, hst, -, rfl⟩ |
    ⟨i, b, w, t, hst, rfl⟩ | ⟨i, t, b, hst, rfl⟩ <;>
    rcases changed rfl with ⟨heq, rfl⟩ | hbefore <;>
    first
      | exact .inl hbefore
      | cases heq
  exact .inr ⟨b, hst⟩

/-- A move commits what `committing` says, or leaves the database and what has
been returned alone. -/
theorem fire_committing {W : Workload ι D K V E α} {s s' : State ι D K V E α} {m : Move ι V}
    (h : fire W s m = some s') :
    (∃ i a b, committing s m = some (i, a) ∧ Commits s s' i a b) ∨
    (committing s m = none ∧ s'.db = s.db ∧ s'.result = s.result) := by
  cases m with
  | start i =>
    obtain ⟨hst, -, rfl⟩ := fire_start h
    exact .inr ⟨rfl, rfl, result_of_update (i := i) (by simp [hst]) (by simp) rfl⟩
  | abort i =>
    obtain ⟨t, b, hst, rfl⟩ := fire_abort h
    exact .inr ⟨rfl, rfl, result_of_update (i := i) (by simp [hst]) (by simp) rfl⟩
  | step i v =>
    obtain ⟨t, b, hst, h⟩ := fire_step h
    have hnot : ∀ a, s.status i ≠ .committed a := by simp [hst]
    cases t with
    | ret a => exact .inl ⟨i, a, b, by simp [committing, hst], hst, (Option.some.inj h).symm⟩
    | lock k t =>
      obtain ⟨-, rfl⟩ := advance_lock h
      exact .inr ⟨by simp [committing, hst], rfl, result_of_update hnot (by simp) rfl⟩
    | _ =>
      obtain rfl := Option.some.inj h
      exact .inr ⟨by simp [committing, hst], rfl, result_of_update hnot (by simp) rfl⟩

/-! ### A body run alone -/

/-- Run a body with nobody else around: `vs` answers what it asks for, in
order.  A failure leaves the database as it was. -/
def alone (vs : ℕ → V) : Tx D K V E α → ℕ → List (D → D) → D → Except E α × D
  | .ret a, _, b, d => (.ok a, flush b d)
  | .fail e, _, _, d => (.error e, d)
  | .ask f, n, b, d => alone vs (f (vs n)) (n + 1) b d
  | .read f, n, b, d => alone vs (f (flush b d)) n b d
  | .lock _ t, n, b, d => alone vs t n b d
  | .write w t, n, b, d => alone vs t n (w :: b) d

/-- The outcome of a whole transaction run alone on `d`. -/
def runAlone (vs : ℕ → V) (t : Tx D K V E α) (d : D) : Except E α × D := alone vs t 0 [] d

/-- How a transaction stands once it has ended with `r`. -/
def Status.ended : Except E α → Status D K V E α
  | .ok a => .committed a
  | .error e => .failed e

/-- The state after the moves of a list, those that are possible. -/
def moves (W : Workload ι D K V E α) (s : State ι D K V E α) (ms : List (Move ι V)) :
    State ι D K V E α :=
  ms.foldl (fun s m => (fire W s m).getD s) s

/-- A list of moves is the beginning of a schedule. -/
theorem exists_trace (W : Workload ι D K V E α) (d : D) (ms : List (Move ι V)) (i : ι) :
    ∃ sched, trace W d sched ms.length = moves W (initial d) ms := by
  refine ⟨fun n => ms.getD n (.abort i), ?_⟩
  have htake : ∀ n ≤ ms.length,
      trace W d (fun n => ms.getD n (.abort i)) n = moves W (initial d) (ms.take n) := by
    intro n
    induction n with
    | zero =>
      intro _
      rfl
    | succ n ih =>
      intro hn
      have hget : ms.getD n (.abort i) = ms[n] := by
        rw [List.getD_eq_getElem?_getD, List.getElem?_eq_getElem hn, Option.getD_some]
      rw [trace_succ, ih (Nat.le_of_succ_le hn), hget, List.take_succ_eq_append_getElem hn, moves,
        moves, List.foldl_append]
      rfl
  rw [htake _ le_rfl, List.take_length]

/-- One step of a running body, then the moves after it. -/
theorem moves_step {W : Workload ι D K V E α} {s s' : State ι D K V E α} {i : ι}
    {t : Tx D K V E α} {b : List (D → D)} (v : V) (hst : s.status i = .running t b)
    (hs' : advance s i v b t = some s') (ms : List (Move ι V)) :
    moves W s (.step i v :: ms) = moves W s' ms := by
  have hfire : fire W s (.step i v) = some s' := by
    rw [fire, hst]
    exact hs'
  rw [moves, List.foldl_cons, hfire]
  rfl

/-- With every lock free or its own, a running body can be taken to the end
that `alone` says. -/
theorem exists_moves_alone (W : Workload ι D K V E α) (vs : ℕ → V) {i : ι}
    {t : Tx D K V E α} {n : ℕ} {b : List (D → D)} {s : State ι D K V E α}
    (hst : s.status i = .running t b) (hown : ∀ k, s.owner k = none ∨ s.owner k = some i) :
    ∃ ms, (moves W s ms).db = (alone vs t n b s.db).2 ∧
      (moves W s ms).status i = .ended (alone vs t n b s.db).1 := by
  -- Only `ask` looks at the answer a step carries; the others are given any.
  induction t generalizing n b s with
  | ret a =>
    refine ⟨[.step i (vs n)], ?_⟩
    rw [moves_step (vs n) hst rfl]
    exact ⟨rfl, Function.update_self _ _ _⟩
  | fail e =>
    refine ⟨[.step i (vs n)], ?_⟩
    rw [moves_step (vs n) hst rfl]
    exact ⟨rfl, Function.update_self _ _ _⟩
  | ask f ih =>
    obtain ⟨ms, hms⟩ := ih (vs n) (n := n + 1) (s := s.resume i (f (vs n)) b)
      (Function.update_self _ _ _) hown
    exact ⟨.step i (vs n) :: ms, by rw [moves_step (vs n) hst rfl]; exact hms⟩
  | read f ih =>
    obtain ⟨ms, hms⟩ := ih (flush b s.db) (n := n) (s := s.resume i (f (flush b s.db)) b)
      (Function.update_self _ _ _) hown
    exact ⟨.step i (vs n) :: ms, by rw [moves_step (vs n) hst rfl]; exact hms⟩
  | lock k t ih =>
    have htake : ∀ k', ((s.take i [k]).resume i t b).owner k' = none ∨
        ((s.take i [k]).resume i t b).owner k' = some i := by
      intro k'
      by_cases hk : k' ∈ [k]
      · exact .inr (if_pos hk)
      · have hsame : ((s.take i [k]).resume i t b).owner k' = s.owner k' := if_neg hk
        rw [hsame]
        exact hown k'
    obtain ⟨ms, hms⟩ := ih (n := n) (s := (s.take i [k]).resume i t b)
      (Function.update_self _ _ _) htake
    refine ⟨.step i (vs n) :: ms, ?_⟩
    rw [moves_step (vs n) hst (if_pos (hown k))]
    exact hms
  | write w t ih =>
    obtain ⟨ms, hms⟩ := ih (n := n) (s := s.resume i t (w :: b)) (Function.update_self _ _ _) hown
    exact ⟨.step i (vs n) :: ms, by rw [moves_step (vs n) hst rfl]; exact hms⟩

/-- **A body run alone is a run of the engine**: some schedule takes
transaction `i` to the outcome and the database that `runAlone` computes. -/
theorem trace_alone (W : Workload ι D K V E α) (d : D) (vs : ℕ → V) (i : ι) :
    ∃ ms n, (trace W d ms n).db = (runAlone vs (W.body i) d).2 ∧
      (trace W d ms n).status i = .ended (runAlone vs (W.body i) d).1 := by
  have hstart : fire W (initial d) (.start i) =
      some (((initial d).take i (W.token i)).resume i (W.body i) []) :=
    if_pos fun _ _ => rfl
  have hown : ∀ k, (((initial d).take i (W.token i)).resume i (W.body i) []).owner k = none ∨
      (((initial d).take i (W.token i)).resume i (W.body i) []).owner k = some i := by
    intro k
    by_cases hk : k ∈ W.token i
    · exact .inr (if_pos hk)
    · exact .inl (if_neg hk)
  obtain ⟨ms, hms⟩ := exists_moves_alone W vs (n := 0) (Function.update_self _ _ _) hown
  obtain ⟨sched, hsched⟩ := exists_trace W d (.start i :: ms) i
  refine ⟨sched, (Move.start i :: ms).length, ?_⟩
  rw [hsched, moves, List.foldl_cons, hstart]
  exact hms

end Transaction
