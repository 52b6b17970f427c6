import Mathlib.Data.Int.Log
import Mathlib.Tactic

/-!
# Rounding to binary digits

The nearest number with a given count of binary digits, ties to even, without a bound on the
exponent.

* `nearestEven`: the nearest integer;
* `nearest`: the nearest number with `q` digits after the leading one;
* `nearest_mono`, `nearest_natCast`: rounding is monotone, and exact on the integers that have
  that many digits.
-/

namespace Rounding

variable {K : Type*} [Field K] [LinearOrder K] [IsStrictOrderedRing K] [FloorRing K]

/-! ### Integers -/

/-- The nearest integer; of two, the even one. -/
def nearestEven (x : K) : ℤ :=
  if Int.fract x < 1 / 2 then ⌊x⌋
  else if 1 / 2 < Int.fract x then ⌊x⌋ + 1
  else if ⌊x⌋ % 2 = 0 then ⌊x⌋ else ⌊x⌋ + 1

omit [IsStrictOrderedRing K] in
theorem floor_le_nearestEven (x : K) : ⌊x⌋ ≤ nearestEven x := by
  unfold nearestEven
  split_ifs <;> omega

omit [IsStrictOrderedRing K] in
theorem nearestEven_le (x : K) : nearestEven x ≤ ⌊x⌋ + 1 := by
  unfold nearestEven
  split_ifs <;> omega

@[simp] theorem nearestEven_intCast (n : ℤ) : nearestEven (n : K) = n := by
  rw [nearestEven, Int.fract_intCast, if_pos (by norm_num), Int.floor_intCast]

theorem nearestEven_mono {x y : K} (h : x ≤ y) : nearestEven x ≤ nearestEven y := by
  rcases (Int.floor_mono h).lt_or_eq with hlt | heq
  · calc nearestEven x ≤ ⌊x⌋ + 1 := nearestEven_le x
      _ ≤ ⌊y⌋ := hlt
      _ ≤ nearestEven y := floor_le_nearestEven y
  · have hfract : Int.fract x ≤ Int.fract y := by
      rw [Int.fract, Int.fract, heq]
      exact sub_le_sub_right h _
    unfold nearestEven
    rw [heq]
    split_ifs with hx hy hy' hodd hx' hy hy' <;> first | omega | linarith

/-! ### Binary digits -/

/-- The unit of the last of `q` digits after the leading one. -/
def ulp (q : ℕ) (x : K) : K := 2 ^ (Int.log 2 x - q)

/-- The nearest number with `q` digits after the leading one, of a magnitude. -/
def nearestMag (q : ℕ) (x : K) : K := nearestEven (x / ulp q x) * ulp q x

/-- The nearest number with `q` binary digits after the leading one. -/
def nearest (q : ℕ) (x : K) : K := if x < 0 then -nearestMag q (-x) else nearestMag q x

variable {q : ℕ} {x y : K}

theorem ulp_pos (q : ℕ) (x : K) : 0 < ulp q x := zpow_pos two_pos _

omit [IsStrictOrderedRing K] in
theorem two_pow_mul_ulp (q : ℕ) (x : K) : 2 ^ q * ulp q x = 2 ^ Int.log 2 x := by
  rw [ulp, ← zpow_natCast, ← zpow_add₀ two_ne_zero]
  congr 1
  omega

/-- A magnitude, in units of its last digit. -/
theorem scaled_bounds (q : ℕ) (hx : 0 < x) : 2 ^ q ≤ x / ulp q x ∧ x / ulp q x < 2 ^ (q + 1) := by
  have hlow : (2 : K) ^ Int.log 2 x ≤ x := by
    simpa using Int.zpow_log_le_self (R := K) (b := 2) one_lt_two hx
  have hhigh : x < (2 : K) ^ (Int.log 2 x + 1) := by
    simpa using Int.lt_zpow_succ_log_self (R := K) (b := 2) one_lt_two x
  rw [le_div_iff₀ (ulp_pos q x), div_lt_iff₀ (ulp_pos q x), pow_succ', mul_assoc,
    two_pow_mul_ulp]
  rw [zpow_add_one₀ two_ne_zero, mul_comm] at hhigh
  exact ⟨hlow, hhigh⟩

theorem nearestMag_bounds (q : ℕ) (hx : 0 < x) :
    2 ^ Int.log 2 x ≤ nearestMag q x ∧ nearestMag q x ≤ 2 ^ (Int.log 2 x + 1) := by
  obtain ⟨hlow, hhigh⟩ := scaled_bounds q hx
  have hlow' : ((2 ^ q : ℤ) : K) ≤ x / ulp q x := by exact_mod_cast hlow
  have hhigh' : x / ulp q x ≤ ((2 ^ (q + 1) : ℤ) : K) := by exact_mod_cast hhigh.le
  have hfloor := nearestEven_mono hlow'
  have hceil := nearestEven_mono hhigh'
  rw [nearestEven_intCast] at hfloor hceil
  have hupper : (2 : K) ^ (Int.log 2 x + 1) = 2 ^ (q + 1) * ulp q x := by
    rw [pow_succ', mul_assoc, two_pow_mul_ulp, zpow_add_one₀ two_ne_zero, mul_comm]
  rw [nearestMag, ← two_pow_mul_ulp q x, hupper]
  constructor
  · exact mul_le_mul_of_nonneg_right (by exact_mod_cast hfloor) (ulp_pos q x).le
  · exact mul_le_mul_of_nonneg_right (by exact_mod_cast hceil) (ulp_pos q x).le

@[simp] theorem nearestMag_zero (q : ℕ) : nearestMag q (0 : K) = 0 := by
  have hzero : nearestEven (0 : K) = 0 := by exact_mod_cast nearestEven_intCast (K := K) 0
  rw [nearestMag, zero_div, hzero, Int.cast_zero, zero_mul]

theorem nearestMag_nonneg (q : ℕ) (hx : 0 ≤ x) : 0 ≤ nearestMag q x := by
  rcases hx.eq_or_lt with rfl | hpos
  · exact (nearestMag_zero q).ge
  · exact (zpow_pos two_pos _).le.trans (nearestMag_bounds q hpos).1

theorem nearestMag_mono (q : ℕ) (hx : 0 ≤ x) (h : x ≤ y) : nearestMag q x ≤ nearestMag q y := by
  rcases hx.eq_or_lt with rfl | hpos
  · rw [nearestMag_zero]
    exact nearestMag_nonneg q h
  rcases (Int.log_mono_right (b := 2) hpos h).lt_or_eq with hlt | heq
  · calc nearestMag q x ≤ 2 ^ (Int.log 2 x + 1) := (nearestMag_bounds q hpos).2
      _ ≤ 2 ^ Int.log 2 y := zpow_le_zpow_right₀ one_le_two hlt
      _ ≤ nearestMag q y := (nearestMag_bounds q (hpos.trans_le h)).1
  · have hulp : ulp q x = ulp q y := by rw [ulp, ulp, heq]
    rw [nearestMag, nearestMag, hulp]
    have hscaled := nearestEven_mono (div_le_div_of_nonneg_right h (ulp_pos q y).le)
    exact mul_le_mul_of_nonneg_right (Int.cast_le.2 hscaled) (ulp_pos q y).le

/-- Rounding is monotone. -/
theorem nearest_mono (q : ℕ) (h : x ≤ y) : nearest q x ≤ nearest q y := by
  unfold nearest
  split_ifs with hx hy hy
  · exact neg_le_neg (nearestMag_mono q (neg_nonneg.2 hy.le) (neg_le_neg h))
  · have hneg : -nearestMag q (-x) ≤ 0 := neg_nonpos.2 (nearestMag_nonneg q (neg_nonneg.2 hx.le))
    exact hneg.trans (nearestMag_nonneg q (not_lt.1 hy))
  · exact absurd (h.trans_lt hy) hx
  · exact nearestMag_mono q (not_lt.1 hx) h

/-- An integer with that many digits is exact. -/
theorem nearest_natCast {n : ℕ} (hn : n < 2 ^ (q + 1)) : nearest q (n : K) = n := by
  have hlog : Nat.log 2 n ≤ q := by
    rcases Nat.eq_zero_or_pos n with rfl | hpos
    · simp
    · exact Nat.lt_succ_iff.1 (Nat.log_lt_of_lt_pow hpos.ne' hn)
  obtain ⟨d, rfl⟩ := Nat.exists_eq_add_of_le hlog
  -- in units of the last digit it is an integer
  have hscaled : (n : K) / ulp (Nat.log 2 n + d) (n : K) = ((n * 2 ^ d : ℕ) : ℤ) := by
    have hulp : ulp (Nat.log 2 n + d) (n : K) = ((2 : K) ^ d)⁻¹ := by
      rw [ulp, Int.log_natCast, ← zpow_natCast, ← zpow_neg]
      congr 1
      push_cast
      ring
    rw [hulp, div_inv_eq_mul]
    push_cast
    rfl
  rw [nearest, if_neg (not_lt.2 (Nat.cast_nonneg n)), nearestMag, hscaled, nearestEven_intCast,
    ← hscaled, div_mul_cancel₀ _ (ulp_pos _ _).ne']

end Rounding
