/-
GreenGarden/Decimal.lean

Decimal arithmetic as Python's `decimal` does it under the default context
(28 significant digits, `ROUND_HALF_EVEN`), for finite numbers, and the SQL
`NUMERIC(p, 2)` columns such numbers are stored in.

A `Decimal` is a coefficient and an exponent, `coeff * 10 ^ exp`.  Products and
sums are exact and then rounded to 28 digits (`fix`); `quantize` moves to a
given exponent and signals (here: `none`) when the result needs more than 28
digits.  Comparison is by value.

Amounts of money are decimals with exponent `-2`.  The facts the rest of the
development uses are about those: where 28 digits suffice, every operation is
exact, and where they do not, a later `quantize` signals.  A rounded amount is
therefore never mistaken for an exact one (`Tracks`, `Tracks.quantize`).
-/
import Mathlib

/-- The number `coeff * 10 ^ exp`. -/
structure Decimal where
  coeff : ℤ
  exp : ℤ
  deriving DecidableEq

namespace Decimal

/-- Significant digits of the default context. -/
def prec : ℕ := 28

/-- An integer as a decimal. -/
def ofInt (n : ℤ) : Decimal := ⟨n, 0⟩

/-- An amount given in hundredths. -/
def cents (n : ℤ) : Decimal := ⟨n, -2⟩

/-- `n / q` to the nearest integer, ties to the even one. -/
def roundHalfEven (n : ℤ) (q : ℤ) : ℤ :=
  if 2 * (n % q) < q then n / q
  else if q < 2 * (n % q) then n / q + 1
  else if n / q % 2 = 0 then n / q else n / q + 1

/-- Round to the digits of the context. -/
def fix (d : Decimal) : Decimal :=
  if d.coeff.natAbs < 10 ^ prec then d
  else
    let drop := (Nat.digits 10 d.coeff.natAbs).length - prec
    let c := roundHalfEven d.coeff (10 ^ drop)
    if c.natAbs < 10 ^ prec then ⟨c, d.exp + drop⟩ else ⟨c / 10, d.exp + drop + 1⟩

/-- The coefficient of `d` at exponent `e`. -/
def rescale (d : Decimal) (e : ℤ) : ℤ :=
  if e ≤ d.exp then d.coeff * 10 ^ (d.exp - e).toNat
  else roundHalfEven d.coeff (10 ^ (e - d.exp).toNat)

/-- `a * b`. -/
def mul (a b : Decimal) : Decimal := fix ⟨a.coeff * b.coeff, a.exp + b.exp⟩

/-- `a + b`. -/
def add (a b : Decimal) : Decimal :=
  fix ⟨a.rescale (min a.exp b.exp) + b.rescale (min a.exp b.exp), min a.exp b.exp⟩

/-- `d.quantize(Decimal("1e<e>"))`; `none` is `decimal.InvalidOperation`. -/
def quantize (d : Decimal) (e : ℤ) : Option Decimal :=
  if (d.rescale e).natAbs < 10 ^ prec then some ⟨d.rescale e, e⟩ else none

/-- `a <= b`, by value. -/
def le (a b : Decimal) : Prop :=
  a.rescale (min a.exp b.exp) ≤ b.rescale (min a.exp b.exp)

/-- `a == b`, by value. -/
def eqv (a b : Decimal) : Prop :=
  a.rescale (min a.exp b.exp) = b.rescale (min a.exp b.exp)

instance (a b : Decimal) : Decidable (le a b) := by unfold le; infer_instance
instance (a b : Decimal) : Decidable (eqv a b) := by unfold eqv; infer_instance

/-! ### Amounts in hundredths -/

/-- Fitting the context, for a non-negative coefficient. -/
theorem natAbs_lt_prec {c : ℤ} (hc : 0 ≤ c) : c.natAbs < 10 ^ prec ↔ c < 10 ^ prec := by
  zify
  rw [abs_of_nonneg hc]

theorem rescale_self (c e : ℤ) : rescale ⟨c, e⟩ e = c := by
  simp [rescale]

theorem fix_of_lt {d : Decimal} (h : d.coeff.natAbs < 10 ^ prec) : fix d = d := by
  rw [fix, if_pos h]

@[simp] theorem le_cents (a b : ℤ) : le (cents a) (cents b) ↔ a ≤ b := by
  simp [le, cents, rescale_self]

theorem eqv_cents_ofInt (a n : ℤ) : eqv (ofInt n) (cents a) ↔ n * 100 = a := by
  simp [eqv, cents, ofInt, rescale]

/-- The number a decimal stands for. -/
def toRat (d : Decimal) : ℚ := d.coeff * 10 ^ d.exp

/-- Moving to a smaller exponent keeps the number. -/
theorem rescale_toRat {d : Decimal} {e : ℤ} (h : e ≤ d.exp) :
    (d.rescale e : ℚ) * 10 ^ e = d.toRat := by
  have hten : (10 : ℚ) ≠ 0 := by norm_num
  have hexp : ((d.exp - e).toNat : ℤ) = d.exp - e := Int.toNat_of_nonneg (by omega)
  rw [rescale, if_pos h, toRat, Int.cast_mul, Int.cast_pow, Int.cast_ofNat, mul_assoc,
    ← zpow_natCast, hexp, ← zpow_add₀ hten, sub_add_cancel]

/-- Comparison is by value. -/
theorem eqv_iff {a b : Decimal} : eqv a b ↔ a.toRat = b.toRat := by
  have hpos : (10 : ℚ) ^ min a.exp b.exp ≠ 0 := zpow_ne_zero _ (by norm_num)
  rw [← rescale_toRat (min_le_left a.exp b.exp), ← rescale_toRat (min_le_right a.exp b.exp),
    mul_left_inj' hpos, Int.cast_inj, eqv]

theorem quantize_cents {c : ℤ} (h : c.natAbs < 10 ^ prec) :
    quantize (cents c) (-2) = some (cents c) := by
  rw [quantize, cents, rescale_self, if_pos h]

theorem add_cents {a b : ℤ} (h : (a + b).natAbs < 10 ^ prec) :
    add (cents a) (cents b) = cents (a + b) := by
  rw [add, cents, cents]
  simp only [min_self, rescale_self]
  exact fix_of_lt h

/-- Dropping the hundredths is lossless exactly on whole amounts. -/
theorem roundHalfEven_mul_iff (c q : ℤ) (hq : 0 < q) :
    roundHalfEven c q * q = c ↔ c % q = 0 := by
  have hdiv : q * (c / q) + c % q = c := Int.mul_ediv_add_emod c q
  have hlo : 0 ≤ c % q := Int.emod_nonneg c hq.ne'
  have hhi : c % q < q := Int.emod_lt_of_pos c hq
  have hmul : (c / q) * q = q * (c / q) := mul_comm _ _
  have hmul' : (c / q + 1) * q = q * (c / q) + q := by ring
  unfold roundHalfEven
  split_ifs <;> constructor <;> intro h <;> omega

/-- Rounding is off by half at most. -/
theorem abs_roundHalfEven_sub_le (n : ℤ) {q : ℤ} (hq : 0 < q) :
    2 * |roundHalfEven n q * q - n| ≤ q := by
  have hdiv : q * (n / q) + n % q = n := Int.mul_ediv_add_emod n q
  have hlo : 0 ≤ n % q := Int.emod_nonneg n hq.ne'
  have hhi : n % q < q := Int.emod_lt_of_pos n hq
  have hmul : (n / q) * q = q * (n / q) := mul_comm _ _
  have hmul' : (n / q + 1) * q = q * (n / q) + q := by ring
  have hbound : -q ≤ 2 * (roundHalfEven n q * q - n) ∧
      2 * (roundHalfEven n q * q - n) ≤ q := by
    unfold roundHalfEven
    split_ifs <;> constructor <;> omega
  have habs : |2 * (roundHalfEven n q * q - n)| ≤ q := abs_le.mpr hbound
  rwa [abs_mul, abs_two] at habs

/-! ### Numbers too large for the context stay visible

`Big d` says that `d`, counted in hundredths, needs more than 28 digits.  Sums
keep a big number big and `quantize` refuses it, so a subtotal that was rounded
on the way never comes out as an amount. -/

/-- At least `10 ^ 28` hundredths, with no more than two decimals. -/
def Big (d : Decimal) : Prop := -2 ≤ d.exp ∧ 10 ^ prec ≤ d.rescale (-2)

theorem Big.quantize {d : Decimal} (h : Big d) : quantize d (-2) = none := by
  have hnn : 0 ≤ d.rescale (-2) := le_trans (by positivity) h.2
  rw [Decimal.quantize, if_neg ((natAbs_lt_prec hnn).not.mpr (not_lt.mpr h.2))]

theorem le_roundHalfEven {m n q : ℤ} (hq : 0 < q) (h : m * q ≤ n) : m ≤ roundHalfEven n q := by
  have hm : m ≤ n / q := (Int.le_ediv_iff_mul_le hq).mpr h
  unfold roundHalfEven
  split_ifs <;> omega

theorem roundHalfEven_le {m n q : ℤ} (hq : 0 < q) (h : n ≤ m * q) : roundHalfEven n q ≤ m := by
  have hdiv : q * (n / q) + n % q = n := Int.mul_ediv_add_emod n q
  have hlo : 0 ≤ n % q := Int.emod_nonneg n hq.ne'
  have hm : n / q ≤ m := Int.ediv_le_of_le_mul hq h
  -- at `m` itself nothing is left over
  have hrest : n / q = m → n % q = 0 := by
    intro heq
    rw [heq, mul_comm] at hdiv
    omega
  unfold roundHalfEven
  split_ifs <;> omega

/-- A coefficient of more than 28 digits is at least `10 ^ 27` times what is
rounded away. -/
theorem pow_mul_le {c : ℤ} {len : ℕ} (hpos : 0 < c)
    (hlen : len = (Nat.digits 10 c.natAbs).length) (hlt : prec < len) :
    (10 : ℤ) ^ (prec - 1) * 10 ^ (len - prec) ≤ c := by
  have hnat : (c.natAbs : ℤ) = c := Int.natAbs_of_nonneg hpos.le
  have hne : c.natAbs ≠ 0 := by omega
  have hdigits := Nat.base_pow_length_digits_le 10 c.natAbs (by norm_num) hne
  rw [← hlen] at hdigits
  have hsplit : (10 : ℤ) ^ len = 10 * (10 ^ (prec - 1) * 10 ^ (len - prec)) := by
    rw [← pow_add, ← pow_succ']
    congr 1
    unfold prec at *
    omega
  have hcast : (10 : ℤ) ^ len ≤ 10 * c := by
    rw [← hnat]
    exact_mod_cast hdigits
  omega

/-- Rounding a coefficient of `10 ^ 28` or more leaves a big number. -/
theorem big_fix {c : ℤ} (h : 10 ^ prec ≤ c) : Big (fix (cents c)) := by
  have hpos : 0 < c := lt_of_lt_of_le (by positivity) h
  have hlt : ¬ c.natAbs < 10 ^ prec := (natAbs_lt_prec hpos.le).not.mpr (not_lt.mpr h)
  set len := (Nat.digits 10 c.natAbs).length with hlen
  have hlen_lt : prec < len := by
    rw [hlen, Nat.lt_digits_length_iff (by norm_num)]
    exact not_lt.mp hlt
  have hbase : (10 : ℤ) ^ (prec - 1) * 10 ^ (len - prec) ≤ c := pow_mul_le hpos hlen hlen_lt
  have hround := le_roundHalfEven (q := 10 ^ (len - prec)) (by positivity) hbase
  have hdrop : 1 ≤ len - prec := by omega
  have h10 : (10 : ℤ) ≤ 10 ^ (len - prec) := by
    calc (10 : ℤ) = 10 ^ 1 := (pow_one _).symm
      _ ≤ 10 ^ (len - prec) := pow_le_pow_right₀ (by norm_num) hdrop
  have hprec : (10 : ℤ) ^ prec = 10 ^ (prec - 1) * 10 := by
    rw [← pow_succ]; rfl
  simp only [fix, cents, if_neg hlt, ← hlen]
  split
  · -- the rounded coefficient still has 28 digits
    refine ⟨by simp, ?_⟩
    have hexp : (-2 : ℤ) ≤ -2 + ((len - prec : ℕ) : ℤ) := by omega
    have htoNat : (-2 + ((len - prec : ℕ) : ℤ) - -2).toNat = len - prec := by omega
    rw [rescale, if_pos hexp, htoNat, hprec]
    exact mul_le_mul hround h10 (by norm_num) (le_trans (by positivity) hround)
  · -- it was rounded up to `10 ^ 28`, which loses one more digit
    rename_i hbig
    have hc : (10 : ℤ) ^ prec ≤ roundHalfEven c (10 ^ (len - prec)) := by
      have hnn : 0 ≤ roundHalfEven c (10 ^ (len - prec)) := le_trans (by positivity) hround
      exact not_lt.mp ((natAbs_lt_prec hnn).not.mp hbig)
    have hten : (10 : ℤ) ^ (prec - 1) ≤ roundHalfEven c (10 ^ (len - prec)) / 10 := by
      rw [Int.le_ediv_iff_mul_le (by norm_num), ← hprec]
      exact hc
    refine ⟨by simp only; omega, ?_⟩
    have hexp : (-2 : ℤ) ≤ -2 + ((len - prec : ℕ) : ℤ) + 1 := by omega
    have htoNat : (-2 + ((len - prec : ℕ) : ℤ) + 1 - -2).toNat = len - prec + 1 := by omega
    rw [rescale, if_pos hexp, htoNat, hprec, pow_succ]
    have h10' : (10 : ℤ) ≤ 10 ^ (len - prec) * 10 := by linarith
    exact mul_le_mul hten h10' (by norm_num) (le_trans (by positivity) hten)

/-- `d` is a running total of `n` hundredths: exact while it fits the context,
and big from the moment it does not. -/
def Tracks (d : Decimal) (n : ℤ) : Prop :=
  (n < 10 ^ prec ∧ d = cents n) ∨ (10 ^ prec ≤ n ∧ Big d)

theorem Tracks.quantize {d : Decimal} {n : ℤ} (h : Tracks d n) (hn : 0 ≤ n) :
    quantize d (-2) = if n < 10 ^ prec then some (cents n) else none := by
  rcases h with ⟨hlt, rfl⟩ | ⟨hge, hbig⟩
  · rw [if_pos hlt, quantize_cents ((natAbs_lt_prec hn).mpr hlt)]
  · rw [if_neg (not_lt.mpr hge), hbig.quantize]

theorem tracks_fix {n : ℤ} (hn : 0 ≤ n) : Tracks (fix (cents n)) n := by
  rcases lt_or_ge n (10 ^ prec) with hlt | hge
  · exact .inl ⟨hlt, fix_of_lt ((natAbs_lt_prec hn).mpr hlt)⟩
  · exact .inr ⟨hge, big_fix hge⟩

theorem Tracks.add {d : Decimal} {n m : ℤ} (h : Tracks d n) (hn : 0 ≤ n) (hm : 0 ≤ m) :
    Tracks (add d (cents m)) (n + m) := by
  rcases h with ⟨-, rfl⟩ | ⟨hge, hexp, hbig⟩
  · have : Decimal.add (cents n) (cents m) = fix (cents (n + m)) := by
      rw [Decimal.add, cents, cents]
      simp only [min_self, rescale_self]
      rfl
    rw [this]
    exact tracks_fix (add_nonneg hn hm)
  · refine .inr ⟨by omega, ?_⟩
    have hmin : min d.exp (cents m).exp = -2 := min_eq_right hexp
    rw [Decimal.add, hmin]
    refine big_fix (c := d.rescale (-2) + (cents m).rescale (-2)) ?_
    rw [show (cents m).rescale (-2) = m from rescale_self m (-2)]
    omega

/-- A price times a quantity, rounded back to hundredths: exact or refused. -/
theorem quantize_mul_cents {u q : ℤ} (h : 0 ≤ u * q) :
    quantize (mul (cents u) (ofInt q)) (-2)
      = if u * q < 10 ^ prec then some (cents (u * q)) else none :=
  (tracks_fix h).quantize h

end Decimal

/-! ### `NUMERIC(p, 2)` columns -/

/-- A non-negative `NUMERIC(p, 2)` value, in hundredths. -/
structure Numeric (p : ℕ) where
  units : ℕ
  lt : units < 10 ^ p
  deriving DecidableEq

namespace Numeric

variable {p : ℕ}

/-- The column value as Python reads it. -/
def toDecimal (n : Numeric p) : Decimal := Decimal.cents n.units

/-- Hundredths, half a hundredth rounded up. -/
def roundUnits (d : Decimal) : ℕ :=
  if -2 ≤ d.exp then (d.coeff * 10 ^ (d.exp + 2).toNat).toNat
  else ((2 * d.coeff + 10 ^ (-2 - d.exp).toNat) / (2 * 10 ^ (-2 - d.exp).toNat)).toNat

/-- Store a number: it is rounded to two decimals; a negative one or one with
too many digits is refused. -/
def store (p : ℕ) (d : Decimal) : Option (Numeric p) :=
  if h : 0 ≤ d.coeff ∧ roundUnits d < 10 ^ p then some ⟨roundUnits d, h.2⟩ else none

theorem store_cents {n : ℕ} (h : n < 10 ^ p) : store p (Decimal.cents n) = some ⟨n, h⟩ := by
  have hunits : roundUnits (Decimal.cents n) = n := by simp [roundUnits, Decimal.cents]
  have hnn : 0 ≤ (Decimal.cents n).coeff := Int.natCast_nonneg n
  simp only [store, hunits, hnn, h, and_self, dite_true]

/-- A number that equals an amount is stored as that amount. -/
theorem store_of_eqv {d : Decimal} {n : ℕ} (hd : d.eqv (.cents n)) (h : n < 10 ^ p) :
    store p d = some ⟨n, h⟩ := by
  have hunits : 0 ≤ d.coeff ∧ roundUnits d = n := by
    unfold Decimal.eqv Decimal.cents at hd
    by_cases he : -2 ≤ d.exp
    · simp only [min_eq_right he, Decimal.rescale, if_pos he, le_refl, if_true, sub_neg_eq_add,
        neg_add_cancel, Int.toNat_zero, pow_zero, mul_one] at hd
      rw [roundUnits, if_pos he, hd]
      refine ⟨?_, by simp⟩
      have hpow : (0 : ℤ) < 10 ^ (d.exp + 2).toNat := by positivity
      exact nonneg_of_mul_nonneg_left (hd ▸ Int.natCast_nonneg n) hpow
    · have hlt : d.exp ≤ -2 := by omega
      simp only [min_eq_left hlt, Decimal.rescale, if_pos hlt, le_refl, if_true, sub_self,
        Int.toNat_zero, pow_zero, mul_one] at hd
      have hq : (0 : ℤ) < 10 ^ (-2 - d.exp).toNat := by positivity
      rw [roundUnits, if_neg he, hd]
      refine ⟨by positivity, ?_⟩
      set q : ℤ := 10 ^ (-2 - d.exp).toNat with hqdef
      have hdiv : (2 * ((n : ℤ) * q) + q) / (2 * q) = n := by
        rw [show 2 * ((n : ℤ) * q) + q = q + n * (2 * q) by ring,
          Int.add_mul_ediv_right _ _ (by omega), Int.ediv_eq_zero_of_lt hq.le (by omega), zero_add]
      rw [hdiv, Int.toNat_natCast]
  have hcond : 0 ≤ d.coeff ∧ roundUnits d < 10 ^ p := ⟨hunits.1, hunits.2 ▸ h⟩
  rw [store, dif_pos hcond]
  simp only [hunits.2]

theorem store_eq_some_cents {c : ℤ} {n : Numeric p} (h : store p (Decimal.cents c) = some n) :
    (n.units : ℤ) = c := by
  unfold store at h
  split at h
  · rename_i hc
    have hc' : 0 ≤ c := hc.1
    rw [← Option.some.inj h]
    simp [roundUnits, Decimal.cents, hc']
  · cases h

end Numeric
