import Mathlib.Data.Int.Log
import Mathlib.Data.Rat.Floor

/-! Floating-point arithmetic on rational numbers. An operation is computed exactly and
rounded to the nearest number of the format, a tie to the even one, so it is exact where
its result is a number of the format. Formats have a least exponent and no greatest one:
what would overflow to infinity is left out. -/
namespace NodeConnect.Lib

structure FloatFormat where
  precision : Nat
  minExponent : Int

namespace FloatFormat

def binary64 : FloatFormat := ⟨53,-1074⟩

def Representable (F : FloatFormat) (x : ℚ) : Prop :=
  ∃ significand exponent : ℤ, |significand| < 2 ^ F.precision ∧ F.minExponent ≤ exponent ∧
    x = significand * 2 ^ exponent

def nearestEven (x : ℚ) : ℤ :=
  let below := ⌊x⌋
  if x - below < 1 / 2 then below
  else if 1 / 2 < x - below then below + 1
  else if below % 2 = 0 then below
  else below + 1

/-- The exponent of the unit in the last place of a number as large as `x`. -/
def ulpExponent (F : FloatFormat) (x : ℚ) : ℤ := max (Int.log 2 |x| + 1 - F.precision) F.minExponent

def round (F : FloatFormat) (x : ℚ) : ℚ := nearestEven (x / 2 ^ F.ulpExponent x) * 2 ^ F.ulpExponent x

def ofInt (F : FloatFormat) (n : ℤ) : ℚ := F.round n

def add (F : FloatFormat) (x y : ℚ) : ℚ := F.round (x + y)

def mul (F : FloatFormat) (x y : ℚ) : ℚ := F.round (x * y)

/-- A product and a sum with one rounding. -/
def fma (F : FloatFormat) (x y z : ℚ) : ℚ := F.round (x * y + z)

/-- Cuts off the fraction. -/
def truncate (x : ℚ) : ℤ := x.num.tdiv x.den

variable {F : FloatFormat}

theorem truncate_of_nonneg {x : ℚ} (nonneg : 0 ≤ x) : truncate x = ⌊x⌋ := by
  rw [truncate,Rat.floor_def']
  exact Int.tdiv_eq_ediv_of_nonneg (Rat.num_nonneg.mpr nonneg)

theorem nearestEven_intCast (n : ℤ) : nearestEven n = n := by
  simp [nearestEven]

theorem ulpExponent_le {significand exponent : ℤ} (nonzero : significand ≠ 0)
    (small : |significand| < 2 ^ F.precision) (low : F.minExponent ≤ exponent) :
    F.ulpExponent (significand * 2 ^ exponent) ≤ exponent := by
  apply max_le _ low
  have positive : (0 : ℚ) < |(significand : ℚ) * 2 ^ exponent| := by
    apply abs_pos.mpr
    exact mul_ne_zero (Int.cast_ne_zero.mpr nonzero) (zpow_ne_zero _ two_ne_zero)
  have small : |(significand : ℚ)| < 2 ^ F.precision := by exact_mod_cast small
  have bound : |(significand : ℚ) * 2 ^ exponent| < ((2 : ℕ) : ℚ) ^ ((F.precision : ℤ) + exponent) := by
    have scale : (0 : ℚ) < 2 ^ exponent := zpow_pos two_pos exponent
    rw [abs_mul,abs_of_pos scale,Nat.cast_ofNat,zpow_add₀ two_ne_zero,zpow_natCast]
    exact mul_lt_mul_of_pos_right small scale
  have log := (Int.lt_zpow_iff_log_lt one_lt_two positive).mp bound
  omega

/-- Rounding keeps the numbers of the format. -/
theorem round_eq_self {x : ℚ} (representable : F.Representable x) : F.round x = x := by
  obtain ⟨significand,exponent,small,low,rfl⟩ := representable
  by_cases zero : significand = 0
  · simp [zero,round,nearestEven]
  · have lower := ulpExponent_le zero small low
    rw [round]
    generalize F.ulpExponent (significand * 2 ^ exponent) = unit at lower
    obtain ⟨shift,rfl⟩ := Int.le.dest lower
    have unit_ne : (2 : ℚ) ^ unit ≠ 0 := zpow_ne_zero unit two_ne_zero
    have scaled : (significand : ℚ) * 2 ^ (unit + shift) = (significand * 2 ^ shift : ℤ) * 2 ^ unit := by
      push_cast
      rw [zpow_add₀ two_ne_zero,zpow_natCast]
      ring
    rw [scaled,mul_div_cancel_right₀ _ unit_ne,nearestEven_intCast]

end FloatFormat

end NodeConnect.Lib
