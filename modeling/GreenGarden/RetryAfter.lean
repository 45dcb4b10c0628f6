/-
GreenGarden/RetryAfter.lean

What a rejected checkout is told.  The limit goes by one time alone, when the
third newest order of the phone was created (`runAlone_check`), and
`retry_after` counts whole seconds until that order leaves the window.  The
window includes its edge, so an order that is exactly that many seconds away
from leaving has not left when they are over: the promise holds for all other
times (`retry_after_honest_iff`).
-/
import GreenGarden.System

namespace GreenGarden

open Transaction

/-- Seconds as the clock counts them. -/
def secondsOf (n : ℤ) : ℤ := n * 1000000

/-- Creation times of all orders of a phone. -/
def creationTimes (db : Db) (phone : Text) : List Instant :=
  (db.orders.rows.filter fun o => filedUnder db phone o).map Order.createdAt

/-- Creation time of the third newest order of a phone. -/
def thirdNewest (db : Db) (phone : Text) : Option Instant :=
  ((creationTimes db phone).insertionSort (· ≥ ·))[checkoutPhoneLimit - 1]?

/-! ### The rows the check looks at -/

/-- Sorting what passes a filter is filtering what is sorted. -/
theorem insertionSort_filter (times : List Instant) (p : Instant → Bool) :
    (times.filter p).insertionSort (· ≥ ·) = (times.insertionSort (· ≥ ·)).filter p := by
  have hperm : List.Perm ((times.filter p).insertionSort (· ≥ ·))
      ((times.insertionSort (· ≥ ·)).filter p) :=
    (List.perm_insertionSort _ _).trans ((List.perm_insertionSort _ _).symm.filter p)
  refine hperm.eq_of_pairwise (fun a b _ _ hab hba => le_antisymm hba hab)
    (List.pairwise_insertionSort _ _) ((List.pairwise_insertionSort _ _).filter p)

theorem ordersSince_eq (db : Db) (phone : Text) (since : Instant) :
    ordersSince db phone since =
      ((creationTimes db phone).insertionSort (· ≥ ·)).filter fun t => since ≤ t := by
  rw [ordersSince, creationTimes, ← insertionSort_filter, List.filter_map, List.filter_filter]
  congr 2
  exact List.filter_congr fun o _ => Bool.and_comm _ _

/-- Of times sorted newest first, those since a moment are three or more when the third is. -/
theorem take_three_since {times : List Instant} (hsorted : times.Pairwise (· ≥ ·))
    (since : Instant) :
    match times[2]? with
    | some third =>
      if since ≤ third then
        ∃ first second, (times.filter fun t => since ≤ t).take 3 = [first, second, third]
      else ((times.filter fun t => since ≤ t).take 3).length < 3
    | none => ((times.filter fun t => since ≤ t).take 3).length < 3 := by
  match times, hsorted with
  | [], _ => exact Nat.zero_lt_succ 2
  | [a], _ =>
    have hle := List.length_filter_le (fun t => decide (since ≤ t)) [a]
    simp only [List.length_take, List.getElem?_cons_succ, List.getElem?_nil]
    simp only [List.length_singleton] at hle
    omega
  | [a, b], _ =>
    have hle := List.length_filter_le (fun t => decide (since ≤ t)) [a, b]
    simp only [List.length_take, List.getElem?_cons_succ, List.getElem?_nil]
    simp only [List.length_cons, List.length_nil] at hle
    omega
  | a :: b :: third :: rest, hsorted =>
    simp only [List.getElem?_cons_succ, List.getElem?_cons_zero]
    simp only [List.pairwise_cons, List.mem_cons, forall_eq_or_imp] at hsorted
    obtain ⟨⟨hab, hac, -⟩, ⟨hbc, -⟩, hc, -⟩ := hsorted
    split
    · rename_i hsince
      refine ⟨a, b, ?_⟩
      rw [List.filter_cons_of_pos (by simpa using hsince.trans hac),
        List.filter_cons_of_pos (by simpa using hsince.trans hbc),
        List.filter_cons_of_pos (by simpa using hsince)]
      rfl
    · rename_i hsince
      -- neither the third nor any older one is since the moment
      have hnone : (third :: rest).filter (fun t => decide (since ≤ t)) = [] := by
        rw [List.filter_eq_nil_iff]
        intro t ht
        have hle : t ≤ third := by
          rcases List.mem_cons.mp ht with rfl | ht
          · exact le_rfl
          · exact hc t ht
        rw [decide_eq_true_eq]
        exact fun hle' => hsince (hle'.trans hle)
      have hfilter : (a :: b :: third :: rest).filter (fun t => decide (since ≤ t)) =
          [a, b].filter fun t => decide (since ≤ t) := by
        show ([a, b] ++ third :: rest).filter _ = _
        rw [List.filter_append, hnone, List.append_nil]
      have hle := List.length_filter_le (fun t => decide (since ≤ t)) [a, b]
      rw [hfilter, List.length_take]
      simp only [List.length_cons, List.length_nil] at hle
      omega

/-- The check goes by the third newest order alone. -/
theorem runAlone_check (vs : ℕ → Outside) (now : Instant) (phone : Text) (db : Db) :
    (runAlone vs (checkCheckoutPhoneLimit now phone) db).1 =
      match thirdNewest db (normalizeVnPhone phone) with
      | some third =>
        if now - checkoutPhoneWindow ≤ third then
          .error (.checkoutRateLimited (retryAfter third now))
        else .ok ()
      | none => .ok () := by
  have hrun : runAlone vs (checkCheckoutPhoneLimit now phone) db =
      alone vs (raiseIf (¬ ((ordersSince db (normalizeVnPhone phone)
          (now - checkoutPhoneWindow)).take checkoutPhoneLimit).length < checkoutPhoneLimit)
        (.checkoutRateLimited (retryAfter (((ordersSince db (normalizeVnPhone phone)
          (now - checkoutPhoneWindow)).take checkoutPhoneLimit).getLastD now) now))) 0 [] db := rfl
  have hthree := take_three_since (List.pairwise_insertionSort (· ≥ ·)
    (creationTimes db (normalizeVnPhone phone))) (now - checkoutPhoneWindow)
  rw [← ordersSince_eq, ← show checkoutPhoneLimit = 3 from rfl] at hthree
  rw [hrun]
  show _ = match ((creationTimes db (normalizeVnPhone phone)).insertionSort (· ≥ ·))[2]? with
    | some third => _
    | none => _
  cases hthird : ((creationTimes db (normalizeVnPhone phone)).insertionSort (· ≥ ·))[2]? with
  | none =>
    rw [hthird] at hthree
    dsimp only at hthree
    rw [raiseIf, Tx.failIf, if_neg (not_not.mpr hthree)]
    rfl
  | some third =>
    rw [hthird] at hthree
    dsimp only at hthree ⊢
    split at hthree
    · rename_i hsince
      obtain ⟨first, second, htake⟩ := hthree
      rw [if_pos hsince, htake]
      rfl
    · rename_i hsince
      rw [if_neg hsince, raiseIf, Tx.failIf, if_neg (not_not.mpr hthree)]
      rfl

/-! ### The promise -/

/-- The third newest order is known from the creation times in any order. -/
theorem thirdNewest_congr {db db' : Db} {phone : Text}
    (h : (creationTimes db' phone).Perm (creationTimes db phone)) :
    thirdNewest db' phone = thirdNewest db phone := by
  have hperm : List.Perm ((creationTimes db' phone).insertionSort (· ≥ ·))
      ((creationTimes db phone).insertionSort (· ≥ ·)) :=
    (List.perm_insertionSort _ _).trans (h.trans (List.perm_insertionSort _ _).symm)
  rw [thirdNewest, thirdNewest, hperm.eq_of_pairwise
    (fun a b _ _ hab hba => le_antisymm hba hab) (List.pairwise_insertionSort _ _)
    (List.pairwise_insertionSort _ _)]

/-- A check is rejected while the third newest order is in the window. -/
theorem rejected_iff {vs : ℕ → Outside} {now : Instant} {phone : Text} {db : Db} {r : ℤ} :
    (runAlone vs (checkCheckoutPhoneLimit now phone) db).1 = .error (.checkoutRateLimited r) ↔
      ∃ third, thirdNewest db (normalizeVnPhone phone) = some third ∧
        now - checkoutPhoneWindow ≤ third ∧ r = retryAfter third now := by
  rw [runAlone_check]
  cases thirdNewest db (normalizeVnPhone phone) with
  | none => simp
  | some third =>
    dsimp only
    split
    · rename_i hsince
      constructor
      · intro h
        cases h
        exact ⟨third, rfl, hsince, rfl⟩
      · rintro ⟨third', hthird', -, rfl⟩
        cases hthird'
        rfl
    · rename_i hsince
      refine iff_of_false (by simp) ?_
      rintro ⟨third', hthird', hsince', -⟩
      cases hthird'
      exact hsince hsince'

theorem passes_iff {vs : ℕ → Outside} {now : Instant} {phone : Text} {db : Db} {third : Instant}
    (h : thirdNewest db (normalizeVnPhone phone) = some third) :
    (runAlone vs (checkCheckoutPhoneLimit now phone) db).1 = .ok () ↔
      third < now - checkoutPhoneWindow := by
  rw [runAlone_check, h]
  dsimp only
  split
  · rename_i hsince
    exact iff_of_false (by simp) (not_lt.mpr hsince)
  · rename_i hsince
    exact iff_of_true rfl (not_le.mp hsince)

/-- When the time is over the order has left, unless it is a whole number of seconds away. -/
theorem left_after_iff {third now : ℤ} :
    third < now + secondsOf (retryAfter third now) - checkoutPhoneWindow ↔
      ¬ ∃ n : ℤ, 0 < n ∧ third + checkoutPhoneWindow - now = secondsOf n := by
  simp only [secondsOf, retryAfter]
  constructor
  · rintro hleft ⟨n, hn, hwhole⟩
    omega
  · intro hwhole
    by_contra hlate
    exact hwhole ⟨(third + checkoutPhoneWindow - now) / 1000000, by omega, by omega⟩

/-- A second before that the order is in the window still. -/
theorem within_before {third now t : ℤ} (h : now - checkoutPhoneWindow ≤ third)
    (ht : t < now + secondsOf (retryAfter third now - 1)) : t - checkoutPhoneWindow ≤ third := by
  simp only [secondsOf, retryAfter] at ht
  omega

/-- A rejected check with `retry_after` r passes r seconds later, and is rejected until a second
before that, exactly when the third newest order is not a whole positive number of seconds away
from leaving the window. -/
theorem retry_after_honest_iff (vs : ℕ → Outside) (t : Instant) (phone : Text) (db : Db) (r : ℤ)
    (h : (runAlone vs (checkCheckoutPhoneLimit t phone) db).1 =
      .error (.checkoutRateLimited r)) :
    (∀ db' : Db, (creationTimes db' (normalizeVnPhone phone)).Perm
        (creationTimes db (normalizeVnPhone phone)) →
      (runAlone vs (checkCheckoutPhoneLimit (t + secondsOf r) phone) db').1 = .ok () ∧
        ∀ t' < t + secondsOf (r - 1), ∃ r',
          (runAlone vs (checkCheckoutPhoneLimit t' phone) db').1 =
            .error (.checkoutRateLimited r')) ↔
      ∀ third, thirdNewest db (normalizeVnPhone phone) = some third →
        ¬ ∃ n : ℤ, 0 < n ∧ third + checkoutPhoneWindow - t = secondsOf n := by
  obtain ⟨third, hthird, hsince, rfl⟩ := rejected_iff.mp h
  constructor
  · intro hhonest third' hthird'
    cases hthird.symm.trans hthird'
    exact left_after_iff.mp ((passes_iff hthird).mp (hhonest db (List.Perm.refl _)).1)
  · intro hwhole db' hsame
    have hthird' := (thirdNewest_congr hsame).trans hthird
    refine ⟨(passes_iff hthird').mpr (left_after_iff.mpr (hwhole third hthird)), ?_⟩
    intro t' ht'
    exact ⟨_, rejected_iff.mpr ⟨third, hthird', within_before hsince ht', rfl⟩⟩

/-! ### On the edge -/

/-- Three orders of one phone, created at the given times. -/
def threeOrders (first second third : Instant) : Db :=
  { Db.oneOrder with
    orders := ((Table.empty.insert 5 { fernOrder with createdAt := first }).insert 6
      { fernOrder with createdAt := second }).insert 8 { fernOrder with createdAt := third } }

/-- Half a second into the window, the oldest order of three has 3599.5 seconds to go. -/
theorem retry_after_honest_half :
    (runAlone atNoon (checkCheckoutPhoneLimit 500000 "0901234567".toList)
        (threeOrders 0 1 2)).1 = .error (.checkoutRateLimited 3600) ∧
      ∀ db' : Db, (creationTimes db' (normalizeVnPhone "0901234567".toList)).Perm
          (creationTimes (threeOrders 0 1 2) (normalizeVnPhone "0901234567".toList)) →
        (runAlone atNoon (checkCheckoutPhoneLimit (500000 + secondsOf 3600) "0901234567".toList)
            db').1 = .ok () ∧
          ∀ t' < 500000 + secondsOf (3600 - 1), ∃ r',
            (runAlone atNoon (checkCheckoutPhoneLimit t' "0901234567".toList) db').1 =
              .error (.checkoutRateLimited r') := by
  have hrejected : (runAlone atNoon (checkCheckoutPhoneLimit 500000 "0901234567".toList)
      (threeOrders 0 1 2)).1 = .error (.checkoutRateLimited 3600) := by
    rfl
  refine ⟨hrejected, ?_⟩
  refine (retry_after_honest_iff atNoon 500000 "0901234567".toList (threeOrders 0 1 2) 3600
    hrejected).mpr ?_
  rintro third hthird ⟨n, -, hwhole⟩
  have hzero : thirdNewest (threeOrders 0 1 2) (normalizeVnPhone "0901234567".toList) = some 0 := by
    rfl
  cases hzero.symm.trans hthird
  have hodd : (0 : ℤ) + checkoutPhoneWindow - 500000 = n * 1000000 := hwhole
  rw [checkoutPhoneWindow] at hodd
  omega

/-- An order that is exactly an hour less a minute old is in the window a minute later. -/
theorem retry_after_too_early :
    ¬ ∀ (vs : ℕ → Outside) (t : Instant) (phone : Text) (db : Db) (r : ℤ),
      (runAlone vs (checkCheckoutPhoneLimit t phone) db).1 = .error (.checkoutRateLimited r) →
      ∀ db' : Db, (creationTimes db' (normalizeVnPhone phone)).Perm
          (creationTimes db (normalizeVnPhone phone)) →
        (runAlone vs (checkCheckoutPhoneLimit (t + secondsOf r) phone) db').1 = .ok () ∧
          ∀ t' < t + secondsOf (r - 1), ∃ r',
            (runAlone vs (checkCheckoutPhoneLimit t' phone) db').1 =
              .error (.checkoutRateLimited r') := by
  intro h
  have hpass := (h atNoon (secondsOf 3540) "0901234567".toList (threeOrders 0 1 2) 60 (by rfl)
    (threeOrders 0 1 2) (List.Perm.refl _)).1
  have hfail : (runAlone atNoon (checkCheckoutPhoneLimit (secondsOf 3540 + secondsOf 60)
      "0901234567".toList) (threeOrders 0 1 2)).1 = .error (.checkoutRateLimited 1) := by
    rfl
  rw [hfail] at hpass
  cases hpass

end GreenGarden
