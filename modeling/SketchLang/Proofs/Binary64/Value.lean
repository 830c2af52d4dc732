import Mathlib.Algebra.Order.Field.Power
import Mathlib.Data.Rat.Cast.Order
import Mathlib.Tactic.NormNum
import Mathlib.Tactic.Positivity
import SketchLang.Proofs.Binary64.Nearest

/-!
This module contains the rational numbers that words stand for, read off their fields. The fields
tell which words are finite and which are NaNs (`Binary64.isFinite_iff`, `Binary64.isNaN_iff`), and
a rank counts the magnitudes: the number of the given rank without sign is `units rank * 2 ^ -1074`
(`Binary64.abs_toRat`).
-/

namespace SketchLang.Binary64

def exponent (x : Binary64) : Nat := x.bits.toNat / 2 ^ 52 % 2 ^ 11

def fraction (x : Binary64) : Nat := x.bits.toNat % 2 ^ 52

/--
The fraction with the hidden bit in front of it. There is none if the exponent field is zero.
-/
def significand (x : Binary64) : Nat :=
  if x.exponent = 0 then x.fraction else 2 ^ 52 + x.fraction

def toRat (x : Binary64) : ℚ :=
  (if x.isNegative then -1 else 1) * x.significand * 2 ^ (((max x.exponent 1 : ℕ) : ℤ) - 1075)

variable {x y : Binary64}

theorem exponent_eq (x : Binary64) : x.exponent = x.rank / binade := by
  unfold exponent rank signBit binade
  omega

theorem fraction_eq (x : Binary64) : x.fraction = x.rank % binade := by
  unfold fraction rank signBit binade
  omega

theorem isFinite_iff (x : Binary64) : x.isFinite ↔ x.exponent ≠ 2 ^ 11 - 1 := by
  have hrank : x.rank < signBit := Nat.mod_lt _ (by decide)
  rw [exponent_eq]
  unfold isFinite infinityRank binade
  unfold signBit at hrank
  rw [decide_eq_true_eq]
  omega

theorem isNaN_iff (x : Binary64) : x.isNaN ↔ x.exponent = 2 ^ 11 - 1 ∧ x.fraction ≠ 0 := by
  have hrank : x.rank < signBit := Nat.mod_lt _ (by decide)
  rw [exponent_eq, fraction_eq]
  unfold isNaN infinityRank binade
  unfold signBit at hrank
  rw [decide_eq_true_eq]
  omega

theorem significand_mod_two (x : Binary64) : x.significand % 2 = x.rank % 2 := by
  unfold significand
  rw [fraction_eq]
  unfold binade
  split
  all_goals omega

theorem units_rank (x : Binary64) :
    units x.rank = x.significand * 2 ^ (max x.exponent 1 - 1) := by
  have hbinade : binade = 2 ^ 52 := by decide
  unfold units significand
  rw [exponent_eq, fraction_eq, Nat.shiftLeft_eq]
  by_cases hlt : x.rank < binade
  . rw [if_pos hlt, if_pos (Nat.div_eq_of_lt hlt), Nat.div_eq_of_lt hlt, Nat.mod_eq_of_lt hlt]
    simp
  . have hpos : 0 < x.rank / binade := Nat.div_pos (Nat.le_of_not_lt hlt) (by decide)
    rw [if_neg hlt, if_neg (Nat.ne_of_gt hpos), Nat.max_eq_left hpos, hbinade]

def unit : ℚ := 2 ^ (-1074 : ℤ)

theorem unit_pos : 0 < unit := by
  unfold unit
  positivity

theorem pow_eq_mul_unit {exponent : Nat} (h : 1 ≤ exponent) :
    (2 : ℚ) ^ ((exponent : ℤ) - 1075) = 2 ^ (exponent - 1) * unit := by
  have hsplit : (exponent : ℤ) - 1075 = (exponent - 1 : ℕ) + (-1074 : ℤ) := by omega
  rw [hsplit, zpow_add₀ (by norm_num), zpow_natCast, unit]

theorem toRat_eq (x : Binary64) :
    x.toRat = (if x.isNegative then -1 else 1) * (units x.rank * unit) := by
  have hpow := pow_eq_mul_unit (Nat.le_max_right x.exponent 1)
  unfold toRat
  rw [hpow, units_rank]
  push_cast
  ring

theorem abs_toRat (x : Binary64) : |x.toRat| = units x.rank * unit := by
  have hpos : 0 ≤ units x.rank * unit := by
    have := unit_pos
    positivity
  rw [toRat_eq, abs_mul, abs_of_nonneg hpos]
  split
  all_goals simp

theorem toRat_of_not_isNegative (h : x.isNegative = false) : x.toRat = units x.rank * unit := by
  rw [toRat_eq, h]
  simp

end SketchLang.Binary64
