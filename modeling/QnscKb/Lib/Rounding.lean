import Mathlib.Algebra.Order.Field.Power
import Mathlib.Data.Int.Log
import Mathlib.Data.Rat.Floor
import Mathlib.Tactic.Linarith
import Mathlib.Tactic.NormNum
import Mathlib.Tactic.Positivity

/-!
# Rounding — to the nearest, half to even

A number rounded to the nearest integer, and to a number of significant digits in a base.  The
exponent has no bound, so nothing overflows and nothing is subnormal.
-/

namespace QnscKb.Rounding

/-- The nearest integer; of two, the even one. -/
def halfEven (q : ℚ) : ℤ :=
  if Int.fract q < 1 / 2 then ⌊q⌋
  else if 1 / 2 < Int.fract q then ⌊q⌋ + 1
  else if ⌊q⌋ % 2 = 0 then ⌊q⌋
  else ⌊q⌋ + 1

@[simp] theorem halfEven_intCast (n : ℤ) : halfEven n = n := by
  rw [halfEven, Int.fract_intCast, if_pos (by norm_num), Int.floor_intCast]

/-- The nearest integer is a half away at most. -/
theorem abs_halfEven_sub_le (q : ℚ) : |(halfEven q : ℚ) - q| ≤ 1 / 2 := by
  have hfloor : (⌊q⌋ : ℚ) = q - Int.fract q := (Int.self_sub_fract q).symm
  have hpos := Int.fract_nonneg q
  have hlt := Int.fract_lt_one q
  rw [halfEven, abs_le]
  split_ifs with hdown hup
  · rw [hfloor]
    exact ⟨by linarith, by linarith⟩
  · rw [Int.cast_add]
    exact ⟨by linarith, by linarith⟩
  · rw [hfloor]
    exact ⟨by linarith, by linarith⟩
  · rw [Int.cast_add]
    exact ⟨by linarith, by linarith⟩

/-! ### Significant digits -/

variable {b : ℕ}

def unit (b digits : ℕ) (q : ℚ) : ℚ := (b : ℚ) ^ (Int.log b |q| + 1 - digits)

/-- The nearest number of so many digits. -/
def significant (b digits : ℕ) (q : ℚ) : ℚ :=
  halfEven (q / unit b digits q) * unit b digits q

theorem unit_pos (hb : 1 < b) (digits : ℕ) (q : ℚ) : 0 < unit b digits q :=
  zpow_pos (by exact_mod_cast hb.pos) _

variable {digits : ℕ}

theorem log_lt (hb : 1 < b) {q : ℚ} (hne : q ≠ 0) (h : |q| < (b : ℚ) ^ digits) :
    Int.log b |q| + 1 ≤ digits := by
  rw [← zpow_natCast, Int.lt_zpow_iff_log_lt hb (abs_pos.mpr hne)] at h
  exact h

theorem abs_significant_sub_unit (hb : 1 < b) (digits : ℕ) (q : ℚ) :
    |significant b digits q - q| ≤ unit b digits q / 2 := by
  have hpos := unit_pos hb digits q
  have hscale : significant b digits q - q =
      (halfEven (q / unit b digits q) - q / unit b digits q) * unit b digits q := by
    rw [significant, sub_mul, div_mul_cancel₀ _ hpos.ne']
  rw [hscale, abs_mul, abs_of_pos hpos]
  calc _ ≤ 1 / 2 * unit b digits q :=
        mul_le_mul_of_nonneg_right (abs_halfEven_sub_le _) hpos.le
    _ = unit b digits q / 2 := by rw [div_mul_eq_mul_div, one_mul]

@[simp] theorem significant_zero (b digits : ℕ) : significant b digits 0 = 0 := by
  rw [significant, zero_div, ← Int.cast_zero, halfEven_intCast, Int.cast_zero, zero_mul]

/-- Below `b ^ digits` nothing moves by more than a half. -/
theorem abs_significant_sub_le (hb : 1 < b) {q : ℚ} (h : |q| < (b : ℚ) ^ digits) :
    |significant b digits q - q| ≤ 1 / 2 := by
  rcases eq_or_ne q 0 with rfl | hne
  · rw [significant_zero]
    norm_num
  · have hunit : unit b digits q ≤ 1 :=
      zpow_le_one_of_nonpos₀ (by exact_mod_cast hb.le) (by have := log_lt hb hne h; omega)
    exact (abs_significant_sub_unit hb digits q).trans (by linarith)

theorem significant_intCast (hb : 1 < b) {n : ℤ} (h : |(n : ℚ)| < (b : ℚ) ^ digits) :
    significant b digits n = n := by
  rcases eq_or_ne n 0 with rfl | hne
  · rw [Int.cast_zero, significant_zero]
  · have hlog := log_lt hb (Int.cast_ne_zero.mpr hne) h
    obtain ⟨k, hk⟩ := Int.le.dest hlog
    have hexp : Int.log b |(n : ℚ)| + 1 - digits = -(k : ℤ) := by omega
    have hscale : (n : ℚ) / unit b digits n = ((n * (b : ℤ) ^ k : ℤ) : ℚ) := by
      rw [unit, hexp, zpow_neg, div_inv_eq_mul, zpow_natCast, Int.cast_mul, Int.cast_pow,
        Int.cast_natCast]
    rw [significant, hscale, halfEven_intCast, ← hscale,
      div_mul_cancel₀ _ (unit_pos hb digits n).ne']

/-! ### Numbers of so many digits -/

/-- So many digits at most, and zeros, write the number. -/
def Short (b digits : ℕ) (q : ℚ) : Prop :=
  ∃ n e : ℤ, |(n : ℚ)| < (b : ℚ) ^ digits ∧ q = n * (b : ℚ) ^ e

variable {q : ℚ}

end QnscKb.Rounding
