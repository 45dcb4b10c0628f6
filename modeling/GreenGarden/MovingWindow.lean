/-
GreenGarden/MovingWindow.lean

Moving-window rate limits, over an arbitrary storage.

A limit of `amount` hits a window is kept per key.  `test` asks whether there
is room, `hit` takes a place if there is one, and both look at the hits of the
last window, its ends included.  `MovingWindow` is an implementation together
with what it has to do; `MovingWindow.log`, which remembers every hit, is one.

Time is in microseconds.
-/
import Mathlib

namespace RateLimit

/-- `amount` hits per `multiples` times `granularity` seconds. -/
structure RateLimitItem where
  amount : ℕ
  multiples : ℕ
  granularity : ℕ
  deriving DecidableEq

/-- The length of the window. -/
def RateLimitItem.expiry (item : RateLimitItem) : ℕ :=
  item.multiples * item.granularity * 1000000

/-- A moving window with storages `σ` and keys `κ`.  `recent s item key t` is
the number of hits that the storage remembers since `t`; older than a window it
may forget them. -/
structure MovingWindow (σ κ : Type) where
  recent : σ → RateLimitItem → κ → ℕ → ℕ
  test : σ → RateLimitItem → κ → ℕ → Bool
  hit : σ → RateLimitItem → κ → ℕ → σ
  resetTime : σ → RateLimitItem → κ → ℕ → ℕ
  recent_anti : ∀ s item key {t t'}, t ≤ t' → recent s item key t' ≤ recent s item key t
  test_iff : ∀ s item key now,
    test s item key now = true ↔ recent s item key (now - item.expiry) < item.amount
  recent_hit : ∀ s item key now t, now - item.expiry ≤ t →
    recent (hit s item key now) item key t = recent s item key t +
      if recent s item key (now - item.expiry) < item.amount ∧ t ≤ now then 1 else 0
  recent_hit_of_ne : ∀ s item key now item' key' t, (item', key') ≠ (item, key) →
    recent (hit s item key now) item' key' t = recent s item' key' t

namespace MovingWindow

variable {σ κ : Type} (w : MovingWindow σ κ) (s : σ) (item : RateLimitItem) (key : κ)

/-- The hits of the window that ends now. -/
def recorded (now : ℕ) : ℕ := w.recent s item key (now - item.expiry)

variable {w s item key}

/-- As time passes, hits leave the window. -/
theorem recorded_anti {now now' : ℕ} (h : now ≤ now') :
    w.recorded s item key now' ≤ w.recorded s item key now :=
  w.recent_anti s item key (Nat.sub_le_sub_right h _)

/-- A hit with room is remembered, in every window it falls into. -/
theorem recent_hit_room {now t : ℕ} (hroom : w.recorded s item key now < item.amount)
    (hwindow : now - item.expiry ≤ t) (ht : t ≤ now) :
    w.recent (w.hit s item key now) item key t = w.recent s item key t + 1 := by
  rw [w.recent_hit s item key now t hwindow, if_pos ⟨hroom, ht⟩]

/-- A hit without room leaves no trace. -/
theorem recent_hit_full {now t : ℕ} (hfull : item.amount ≤ w.recorded s item key now)
    (hwindow : now - item.expiry ≤ t) :
    w.recent (w.hit s item key now) item key t = w.recent s item key t := by
  rw [w.recent_hit s item key now t hwindow, if_neg fun h => absurd h.1 (not_lt.mpr hfull),
    Nat.add_zero]

/-- Each hit adds at most one. -/
theorem recorded_hit_le (now : ℕ) :
    w.recorded (w.hit s item key now) item key now ≤ w.recorded s item key now + 1 := by
  rw [recorded, w.recent_hit s item key now _ le_rfl]
  exact Nat.add_le_add_left (by split <;> simp) _

end MovingWindow

/-! ### A window that forgets nothing -/

section Log

variable {κ : Type} [DecidableEq κ]

/-- The hits of a key, latest first. -/
abbrev HitLog (κ : Type) := List (RateLimitItem × κ × ℕ)

namespace HitLog

/-- Hits of the key since `t`. -/
def recent (log : HitLog κ) (item : RateLimitItem) (key : κ) (t : ℕ) : ℕ :=
  log.countP fun e => e.1 = item ∧ e.2.1 = key ∧ t ≤ e.2.2

/-- A hit is recorded while there is room for it. -/
def hit (log : HitLog κ) (item : RateLimitItem) (key : κ) (now : ℕ) : HitLog κ :=
  if log.recent item key (now - item.expiry) < item.amount then (item, key, now) :: log else log

/-- When the oldest hit of the window leaves it. -/
def resetTime (log : HitLog κ) (item : RateLimitItem) (key : κ) (now : ℕ) : ℕ :=
  let hits := log.filter fun e => e.1 = item ∧ e.2.1 = key ∧ now - item.expiry ≤ e.2.2
  (hits.getLast?.map fun e => e.2.2).getD now + item.expiry

theorem recent_hit (log : HitLog κ) (item : RateLimitItem) (key : κ) (now : ℕ)
    (item' : RateLimitItem) (key' : κ) (t : ℕ) :
    (log.hit item key now).recent item' key' t = log.recent item' key' t +
      if log.recent item key (now - item.expiry) < item.amount ∧
        (item' = item ∧ key' = key ∧ t ≤ now) then 1 else 0 := by
  rw [hit]
  by_cases hroom : log.recent item key (now - item.expiry) < item.amount
  · rw [if_pos hroom, recent, List.countP_cons]
    simp only [hroom, true_and, decide_eq_true_eq, eq_comm (a := item'), eq_comm (a := key')]
    rfl
  · rw [if_neg hroom, if_neg fun h => hroom h.1, Nat.add_zero]

end HitLog

/-- The window that remembers every hit. -/
def MovingWindow.log : MovingWindow (HitLog κ) κ where
  recent := HitLog.recent
  test s item key now := s.recent item key (now - item.expiry) < item.amount
  hit := HitLog.hit
  resetTime := HitLog.resetTime
  recent_anti s item key {t t'} h := by
    refine List.countP_mono_left fun e _ he => ?_
    simp only [decide_eq_true_eq] at he ⊢
    exact ⟨he.1, he.2.1, h.trans he.2.2⟩
  test_iff s item key now := decide_eq_true_iff
  recent_hit s item key now t _ := by
    rw [HitLog.recent_hit]
    simp
  recent_hit_of_ne s item key now item' key' t hne := by
    rw [HitLog.recent_hit, if_neg, Nat.add_zero]
    rintro ⟨-, rfl, rfl, -⟩
    exact hne rfl

end Log

end RateLimit
