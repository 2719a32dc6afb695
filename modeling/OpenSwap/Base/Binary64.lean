import Mathlib

/-!
# Rounding to doubles

A nonnegative rational is rounded to the nearest number of 53 binary places, ties to
even.  Exponents are not bounded: overflow and underflow are not part of the format.

* `Within n x y` — `x` is as far from `y` as `n` roundings can take it; products, sums
  and one more rounding keep the relation, so that the error of a formula is read off
  its shape.
-/

namespace Binary64

/-! ## The rounding -/

variable (x : ℚ)

def nearestEven : ℤ :=
  let below := ⌊x⌋
  if 2 * (x - below) < 1 ∨ (2 * (x - below) = 1 ∧ below % 2 = 0) then below else below + 1

/-- The unit in the last of 53 places. -/
def ulp : ℚ := 2 ^ (Int.log 2 x - 52)

/-- The nearest double, ties to even. -/
def double : ℚ := if x ≤ 0 then 0 else nearestEven (x / ulp x) * ulp x

theorem ulp_pos : 0 < ulp x := zpow_pos (by norm_num) _

theorem ulp_le {x} (hx : 0 < x) : ulp x ≤ x / 2 ^ 52 := by
  have hlog : (2 : ℚ) ^ Int.log 2 x ≤ x := Int.zpow_log_le_self (by norm_num) hx
  have hsplit : ulp x = 2 ^ Int.log 2 x / 2 ^ 52 := by
    rw [ulp, zpow_sub₀ (by norm_num)]
    norm_num
  rw [hsplit]
  gcongr

theorem abs_nearestEven_sub_le : |(nearestEven x : ℚ) - x| ≤ 1 / 2 := by
  have hle := Int.floor_le x
  have hlt := Int.lt_floor_add_one x
  simp only [nearestEven]
  split
  · rename_i h
    have : 2 * (x - ⌊x⌋) ≤ 1 := h.elim le_of_lt fun h => h.1.le
    rw [abs_le]
    constructor <;> linarith
  · rename_i h
    have : 1 ≤ 2 * (x - ⌊x⌋) := not_lt.mp fun hlt => h (.inl hlt)
    rw [abs_le]
    push_cast
    constructor <;> linarith

theorem abs_double_sub_le {x} (hx : 0 ≤ x) : |double x - x| ≤ x / 2 ^ 53 := by
  rcases hx.eq_or_lt with rfl | hx
  · simp [double]
  · have hpos := ulp_pos x
    have hquot : x = x / ulp x * ulp x := (div_mul_cancel₀ x hpos.ne').symm
    rw [double, if_neg hx.not_ge]
    calc |(nearestEven (x / ulp x) : ℚ) * ulp x - x|
        = |((nearestEven (x / ulp x) : ℚ) - x / ulp x) * ulp x| := by
          rw [sub_mul, ← hquot]
      _ = |(nearestEven (x / ulp x) : ℚ) - x / ulp x| * ulp x := by
          rw [abs_mul, abs_of_pos hpos]
      _ ≤ 1 / 2 * (x / 2 ^ 52) :=
          mul_le_mul (abs_nearestEven_sub_le _) (ulp_le hx) hpos.le (by norm_num)
      _ = x / 2 ^ 53 := by ring

/-! ## The error of a formula -/

def roundoff : ℚ := 1 / 2 ^ 53

/-- `x` is as far from a nonnegative `y` as `n` roundings can take it. -/
structure Within (n : Nat) (x y : ℚ) : Prop where
  nonneg : 0 ≤ y
  lower : y * (1 - roundoff) ^ n ≤ x
  upper : x ≤ y * (1 + roundoff) ^ n

namespace Within

variable {m n : Nat} {x y z x' y' : ℚ}

theorem refl (h : 0 ≤ x) : Within 0 x x := ⟨h, by simp, by simp⟩

theorem left_nonneg (h : Within n x y) : 0 ≤ x := by
  refine le_trans (mul_nonneg h.nonneg (pow_nonneg ?_ n)) h.lower
  norm_num [roundoff]

theorem mono (h : Within m x y) (hmn : m ≤ n) : Within n x y := by
  refine ⟨h.nonneg, le_trans ?_ h.lower, h.upper.trans ?_⟩
  · have hpow : (1 - roundoff) ^ n ≤ (1 - roundoff) ^ m :=
      pow_le_pow_of_le_one (by norm_num [roundoff]) (by norm_num [roundoff]) hmn
    exact mul_le_mul_of_nonneg_left hpow h.nonneg
  · have hpow : (1 + roundoff) ^ m ≤ (1 + roundoff) ^ n :=
      pow_le_pow_right₀ (by norm_num [roundoff]) hmn
    exact mul_le_mul_of_nonneg_left hpow h.nonneg

theorem mul (h : Within m x y) (h' : Within n x' y') : Within (m + n) (x * x') (y * y') := by
  refine ⟨mul_nonneg h.nonneg h'.nonneg, ?_, ?_⟩
  · have hle := mul_le_mul h.lower h'.lower
      (mul_nonneg h'.nonneg (pow_nonneg (by norm_num [roundoff]) n)) h.left_nonneg
    calc y * y' * (1 - roundoff) ^ (m + n)
        = y * (1 - roundoff) ^ m * (y' * (1 - roundoff) ^ n) := by ring
      _ ≤ x * x' := hle
  · have hle := mul_le_mul h.upper h'.upper h'.left_nonneg
      (mul_nonneg h.nonneg (pow_nonneg (by norm_num [roundoff]) m))
    calc x * x' ≤ y * (1 + roundoff) ^ m * (y' * (1 + roundoff) ^ n) := hle
      _ = y * y' * (1 + roundoff) ^ (m + n) := by ring

theorem add (h : Within n x y) (h' : Within n x' y') : Within n (x + x') (y + y') := by
  refine ⟨add_nonneg h.nonneg h'.nonneg, ?_, ?_⟩
  · rw [add_mul]
    exact add_le_add h.lower h'.lower
  · rw [add_mul]
    exact add_le_add h.upper h'.upper

theorem div_const (h : Within n x y) {c} (hc : 0 ≤ c) : Within n (x / c) (y / c) := by
  have hmul : Within (n + 0) (x * c⁻¹) (y * c⁻¹) := h.mul (refl (inv_nonneg.mpr hc))
  simpa only [Nat.add_zero, ← div_eq_mul_inv] using hmul

theorem rounded (h : Within n x y) : Within (n + 1) (double x) y := by
  obtain ⟨hlower, hupper⟩ := abs_le.mp (abs_double_sub_le h.left_nonneg)
  refine ⟨h.nonneg, ?_, ?_⟩
  · calc y * (1 - roundoff) ^ (n + 1) = y * (1 - roundoff) ^ n * (1 - roundoff) := by ring
      _ ≤ x * (1 - roundoff) :=
        mul_le_mul_of_nonneg_right h.lower (by norm_num [roundoff])
      _ ≤ double x := by rw [roundoff]; linarith
  · calc double x ≤ x * (1 + roundoff) := by rw [roundoff]; linarith
      _ ≤ y * (1 + roundoff) ^ n * (1 + roundoff) :=
        mul_le_mul_of_nonneg_right h.upper (by norm_num [roundoff])
      _ = y * (1 + roundoff) ^ (n + 1) := by ring

theorem of_double (h : 0 ≤ x) : Within 1 (double x) x := (refl h).rounded

end Within

end Binary64
