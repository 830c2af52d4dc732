import Mathlib.Algebra.Order.Group.Unbundled.Abs
import SketchLang.Proofs.Binary64.Shortest
import SketchLang.Proofs.Binary64.Value

/-!
This module contains that decimal numbers are rounded to the nearest floating-point number, to the
one with an even significand if two are equally near (`Binary64.roundsToNearest_ofDecimal`). There
is one such number only (`Binary64.RoundsToNearest.unique`), because nothing larger is rounded to a
smaller number (`Binary64.RoundsToNearest.rank_le`).
-/

namespace SketchLang

namespace Decimal

def toRat (d : Decimal) : ℚ := d.digits / 10 ^ d.places

theorem toRat_nonneg (d : Decimal) : 0 ≤ d.toRat := by
  unfold toRat
  positivity

theorem toRat_mul_pow (d : Decimal) : d.toRat * 10 ^ d.places = d.digits := by
  unfold toRat
  apply div_mul_cancel₀
  positivity

end Decimal

namespace Binary64

/--
The number that `q`, which is not negative, is rounded to. From halfway between the largest finite
magnitude and the next power of two on it is infinity.
-/
structure RoundsToNearest (q : ℚ) (x : Binary64) : Prop where
  not_nan : x.isNaN = false
  positive : x.isNegative = false
  infinite : x.isFinite = false ↔ 2 ^ 1024 - 2 ^ 970 ≤ q
  zero : x.bits = 0 ↔ q ≤ 2 ^ (-1075 : ℤ)
  nearest : x.isFinite → ∀ y : Binary64, y.isFinite → |x.toRat - q| ≤ |y.toRat - q|
  even : x.isFinite → ∀ y : Binary64, y.isFinite → |y.toRat - q| = |x.toRat - q| →
    y.toRat ≠ x.toRat → x.significand % 2 = 0

namespace Rounds

variable {rank rank' bound num den : Nat}

/--
The midpoint below a rank tells whether the rank is reached, where a midpoint goes to the even one
of the two ranks.
-/
theorem le_iff (hden : 0 < den) (h : Rounds rank num den) (hbound : 0 < bound) :
    bound ≤ rank ↔ if bound % 2 = 0 then (units (bound - 1) + units bound) * den ≤ 2 * num
      else (units (bound - 1) + units bound) * den < 2 * num := by
  constructor
  . intro hle
    have hbelow := h.below (show bound - 1 < rank by omega)
    have hlast : units bound ≤ units rank := units_strictMono.monotone hle
    have hmid : (units (bound - 1) + units bound) * den ≤ (units (bound - 1) + units rank) * den :=
      Nat.mul_le_mul_right den (by omega)
    split
    . omega
    . next hodd =>
      rcases Nat.eq_or_lt_of_le hle with rfl | hlt
      . omega
      . have hless : units bound < units rank := units_strictMono hlt
        have hmid : (units (bound - 1) + units bound) * den <
            (units (bound - 1) + units rank) * den :=
          Nat.mul_lt_mul_of_pos_right (by omega) hden
        omega
  . intro hmid
    by_contra hnot
    have habove := h.above (show rank < bound by omega)
    have hlast : units rank ≤ units (bound - 1) := units_strictMono.monotone (by omega)
    have hle : (units rank + units bound) * den ≤ (units (bound - 1) + units bound) * den :=
      Nat.mul_le_mul_right den (by omega)
    split at hmid
    . next heven =>
      -- The quotient is the midpoint, which does not go to the odd rank below it.
      have hsum : units rank + units bound = units (bound - 1) + units bound :=
        Nat.eq_of_mul_eq_mul_right hden (by omega)
      have hsame : rank = bound - 1 := units_strictMono.injective (by omega)
      omega
    . omega

theorem even_of_tie (h : Rounds rank num den) (hne : rank' ≠ rank)
    (htie : (units rank' + units rank) * den = 2 * num) : rank % 2 = 0 := by
  by_contra hnot
  have hodd : rank % 2 = 1 := by omega
  rcases Nat.lt_or_gt_of_ne hne with hlt | hgt
  . exact (h.below hlt).2 hodd htie
  . have habove := (h.above hgt).2 hodd
    rw [Nat.add_comm] at habove
    exact habove htie.symm

end Rounds

theorem unit_mul_pow : unit * 2 ^ 1074 = 1 := by
  unfold unit
  rw [zpow_neg, zpow_ofNat]
  apply inv_mul_cancel₀
  positivity

theorem cast_shiftLeft (n shift : Nat) : ((n <<< shift : ℕ) : ℚ) = n * 2 ^ shift := by
  rw [Nat.shiftLeft_eq, Nat.cast_mul, Nat.cast_pow, Nat.cast_ofNat]

section Midpoint

variable {d : Decimal} {sum : Nat}

theorem cast_sum : ((sum * d.scale : ℕ) : ℚ) = sum * unit * (2 ^ 1074 * 10 ^ d.places) := by
  have hunit := unit_mul_pow
  have hscale : ((d.scale : ℕ) : ℚ) = 10 ^ d.places := by
    unfold Decimal.scale
    rw [Nat.pow_eq, Nat.cast_pow, Nat.cast_ofNat]
  rw [Nat.cast_mul, hscale, ← mul_assoc, mul_assoc (sum : ℚ), hunit, mul_one]

theorem cast_twice :
    ((2 * (d.digits <<< 1074) : ℕ) : ℚ) = 2 * d.toRat * (2 ^ 1074 * 10 ^ d.places) := by
  have hdigits := d.toRat_mul_pow
  rw [Nat.cast_mul, Nat.cast_ofNat, cast_shiftLeft, ← hdigits]
  generalize (2 : ℚ) ^ 1074 = width
  ring

theorem sum_le_iff : sum * d.scale ≤ 2 * (d.digits <<< 1074) ↔ sum * unit ≤ 2 * d.toRat := by
  have hpos : (0 : ℚ) < 2 ^ 1074 * 10 ^ d.places := by positivity
  rw [← @Nat.cast_le ℚ, cast_sum, cast_twice, mul_le_mul_iff_left₀ hpos]

theorem le_sum_iff : 2 * (d.digits <<< 1074) ≤ sum * d.scale ↔ 2 * d.toRat ≤ sum * unit := by
  have hpos : (0 : ℚ) < 2 ^ 1074 * 10 ^ d.places := by positivity
  rw [← @Nat.cast_le ℚ, cast_sum, cast_twice, mul_le_mul_iff_left₀ hpos]

end Midpoint

section Distance

variable {a b q : ℚ}

theorem abs_sub_le_abs_sub_iff_add_le (hab : a < b) : |b - q| ≤ |a - q| ↔ a + b ≤ 2 * q := by
  have hsq : (a - q) ^ 2 - (b - q) ^ 2 = (b - a) * (2 * q - (a + b)) := by ring
  rw [← sq_le_sq, ← sub_nonneg, hsq, mul_nonneg_iff_of_pos_left (sub_pos.mpr hab), sub_nonneg]

theorem abs_sub_le_abs_sub_iff_le_add (hab : a < b) : |a - q| ≤ |b - q| ↔ 2 * q ≤ a + b := by
  have hsq : (b - q) ^ 2 - (a - q) ^ 2 = (b - a) * (a + b - 2 * q) := by ring
  rw [← sq_le_sq, ← sub_nonneg, hsq, mul_nonneg_iff_of_pos_left (sub_pos.mpr hab), sub_nonneg]

end Distance

theorem units_mul_unit_lt {rank rank' : Nat} (h : rank < rank') :
    units rank * unit < units rank' * unit := by
  have hunits : ((units rank : ℕ) : ℚ) < units rank' := by
    exact_mod_cast units_strictMono h
  exact mul_lt_mul_of_pos_right hunits unit_pos

namespace RoundsDecimal

variable {rank rank' bound : Nat} {d : Decimal}

theorem below (h : RoundsDecimal rank d) (hlt : rank' < rank) :
    units rank' * unit + units rank * unit ≤ 2 * d.toRat := by
  have hbelow := sum_le_iff.mp (Rounds.below h hlt).1
  rw [← add_mul]
  exact_mod_cast hbelow

theorem above (h : RoundsDecimal rank d) (hlt : rank < rank') :
    2 * d.toRat ≤ units rank * unit + units rank' * unit := by
  have habove := le_sum_iff.mp (Rounds.above h hlt).1
  rw [← add_mul]
  exact_mod_cast habove

theorem le_iff (h : RoundsDecimal rank d) (hbound : 0 < bound) :
    bound ≤ rank ↔ if bound % 2 = 0
      then ((units (bound - 1) + units bound : ℕ) : ℚ) * unit ≤ 2 * d.toRat
      else ((units (bound - 1) + units bound : ℕ) : ℚ) * unit < 2 * d.toRat := by
  rw [Rounds.le_iff d.scale_pos h hbound, sum_le_iff, ← not_le, le_sum_iff, not_le]

theorem nearest (h : RoundsDecimal rank d) (rank' : Nat) :
    |units rank * unit - d.toRat| ≤ |units rank' * unit - d.toRat| := by
  rcases Nat.lt_trichotomy rank' rank with hlt | rfl | hgt
  . rw [abs_sub_le_abs_sub_iff_add_le (units_mul_unit_lt hlt)]
    exact h.below hlt
  . exact le_refl _
  . rw [abs_sub_le_abs_sub_iff_le_add (units_mul_unit_lt hgt)]
    exact h.above hgt

theorem le_twice (h : RoundsDecimal rank d) : units rank * unit ≤ 2 * d.toRat := by
  have hlow := sum_le_iff.mp (Rounds.low h)
  have hprev : 0 ≤ units (rank - 1) * unit := mul_nonneg (Nat.cast_nonneg _) (le_of_lt unit_pos)
  rw [Nat.cast_add, add_mul] at hlow
  linarith

theorem even_of_tie (h : RoundsDecimal rank d) (hne : rank' ≠ rank)
    (htie : units rank' * unit + units rank * unit = 2 * d.toRat) : rank % 2 = 0 := by
  have hsum : ((units rank' + units rank : ℕ) : ℚ) * unit = 2 * d.toRat := by
    rw [← htie]
    push_cast
    ring
  apply Rounds.even_of_tie h hne
  apply Nat.le_antisymm
  . exact sum_le_iff.mpr (le_of_eq hsum)
  . exact le_sum_iff.mpr (ge_of_eq hsum)

end RoundsDecimal

theorem exists_roundsDecimal (d : Decimal) :
    ∃ rank, RoundsDecimal rank d ∧ (ofDecimal d).rank = min infinityRank rank := by
  rw [rank_ofDecimal]
  exact exists_rounds (d.digits <<< 1074) d.scale_pos

theorem isFinite_eq_false_iff (x : Binary64) : x.isFinite = false ↔ infinityRank ≤ x.rank := by
  unfold isFinite
  rw [decide_eq_false_iff_not, Nat.not_lt]

theorem bits_eq_zero_iff {x : Binary64} (h : x.isNegative = false) :
    x.bits = 0 ↔ x.rank = 0 := by
  have hbits := toNat_bits x
  rw [h, if_neg Bool.false_ne_true, Nat.zero_add] at hbits
  rw [← UInt64.toNat_inj, hbits, UInt64.toNat_zero]

theorem cast_pow_sub_pow {e e' : Nat} (h : e' ≤ e) (shift : Nat) :
    ((2 * (2 ^ e - 2 ^ e') * 2 ^ shift : ℕ) : ℚ) = 2 * (2 ^ e - 2 ^ e') * 2 ^ shift := by
  have hle : 2 ^ e' ≤ 2 ^ e := Nat.pow_le_pow_right (by decide) h
  push_cast [hle]
  rfl

/--
Infinity begins halfway between the largest finite magnitude and the next power of two.
-/
theorem sum_infinityRank :
    ((units (infinityRank - 1) + units infinityRank : ℕ) : ℚ) * unit =
      2 * (2 ^ 1024 - 2 ^ 970) := by
  have hsum : units (infinityRank - 1) + units infinityRank =
      2 * (2 ^ 1024 - 2 ^ 970) * 2 ^ 1074 := by
    decide +kernel
  rw [hsum, cast_pow_sub_pow (by decide), mul_assoc, mul_comm _ unit, unit_mul_pow, mul_one]

theorem zpow_unit : (2 : ℚ) ^ (-1075 : ℤ) = unit / 2 := by
  unfold unit
  rw [show (-1075 : ℤ) = -1074 - 1 by rfl, zpow_sub_one₀ two_ne_zero, div_eq_mul_inv]

section Thresholds

variable {rank : Nat} {d : Decimal}

theorem infinityRank_le_iff (h : RoundsDecimal rank d) :
    infinityRank ≤ rank ↔ 2 ^ 1024 - 2 ^ 970 ≤ d.toRat := by
  rw [h.le_iff (by decide), if_pos (by decide), sum_infinityRank]
  exact mul_le_mul_iff_right₀ two_pos

theorem eq_zero_iff (h : RoundsDecimal rank d) : rank = 0 ↔ d.toRat ≤ 2 ^ (-1075 : ℤ) := by
  have hpos := h.le_iff Nat.one_pos
  have hsum : units (1 - 1) + units 1 = 1 := by decide
  rw [if_neg (by decide), hsum, Nat.cast_one, one_mul] at hpos
  rw [← not_iff_not, ← ne_eq, ← Nat.one_le_iff_ne_zero, hpos, zpow_unit, not_le]
  rw [div_lt_iff₀ two_pos, mul_comm]

end Thresholds

theorem roundsToNearest_ofDecimal (d : Decimal) : RoundsToNearest d.toRat (ofDecimal d) := by
  have hsign := isNegative_ofDecimal d
  have hvalue := toRat_of_not_isNegative hsign
  have hpos := d.toRat_nonneg
  rcases exists_roundsDecimal d with ⟨rank, hrounds, hrank⟩
  have hfinite : (ofDecimal d).isFinite → (ofDecimal d).rank = rank := by
    unfold isFinite
    rw [decide_eq_true_eq]
    omega
  constructor
  . exact isNaN_ofDecimal d
  . exact hsign
  . rw [isFinite_eq_false_iff, hrank, ← infinityRank_le_iff hrounds]
    omega
  . have hlt : 0 < infinityRank := by decide
    rw [bits_eq_zero_iff hsign, hrank, ← eq_zero_iff hrounds]
    omega
  . intro h y _
    calc
      |(ofDecimal d).toRat - d.toRat| ≤ |units y.rank * unit - d.toRat| := by
        rw [hvalue, hfinite h]
        exact hrounds.nearest y.rank
      _ = |(|y.toRat| - |d.toRat|)| := by rw [abs_toRat, abs_of_nonneg hpos]
      _ ≤ |y.toRat - d.toRat| := abs_abs_sub_abs_le_abs_sub ..
  . intro h y _ hsame hne
    rw [significand_mod_two, hfinite h]
    rw [hfinite h] at hvalue
    have htie : y.toRat + (ofDecimal d).toRat = 2 * d.toRat := by
      rcases abs_eq_abs.mp hsame with heq | heq
      . exact absurd (sub_left_injective heq) hne
      . linarith
    -- A negative number is farther away than any that the decimal number rounds to.
    have hnonneg : 0 ≤ y.toRat := by
      have hle := hrounds.le_twice
      linarith
    have hvalue' : y.toRat = units y.rank * unit := by rw [← abs_toRat, abs_of_nonneg hnonneg]
    have hother : y.rank ≠ rank := by
      intro hrank
      rw [hvalue, hvalue', hrank] at hne
      contradiction
    apply hrounds.even_of_tie hother
    rw [← hvalue, ← hvalue', htie]

theorem toRat_lt_of_rank_lt {x y : Binary64} (hx : x.isNegative = false)
    (hy : y.isNegative = false) (h : x.rank < y.rank) : x.toRat < y.toRat := by
  rw [toRat_of_not_isNegative hx, toRat_of_not_isNegative hy]
  exact units_mul_unit_lt h

theorem exists_rank_eq {rank : Nat} (h : rank < infinityRank) :
    ∃ x : Binary64, x.isFinite ∧ x.isNegative = false ∧ x.rank = rank := by
  have hlt : infinityRank < signBit := by decide
  have hrank : (ofRank rank).rank = rank := rank_ofRank (by omega)
  refine ⟨ofRank rank, ?_, isNegative_ofRank (by omega), hrank⟩
  unfold isFinite
  rw [hrank]
  exact decide_eq_true h

namespace RoundsToNearest

variable {q q' : ℚ} {x y : Binary64}

theorem isFinite_of_le (h : RoundsToNearest q x) (h' : RoundsToNearest q' y) (hle : q ≤ q')
    (hfinite : y.isFinite) : x.isFinite := by
  by_contra hnot
  have hinfinite := h.infinite.mp (Bool.eq_false_of_not_eq_true hnot)
  rw [h'.infinite.mpr (le_trans hinfinite hle)] at hfinite
  contradiction

theorem rank_le (h : RoundsToNearest q x) (h' : RoundsToNearest q' y) (hle : q ≤ q') :
    x.rank ≤ y.rank := by
  by_contra hnot
  have hmax : x.rank ≤ infinityRank := by simpa [isNaN] using h.not_nan
  have hlt : y.rank < infinityRank := by omega
  have hfinite' : y.isFinite := decide_eq_true hlt
  have hfinite := h.isFinite_of_le h' hle hfinite'
  have hless : y.toRat < x.toRat := toRat_lt_of_rank_lt h'.positive h.positive (by omega)
  have hnear := h.nearest hfinite y hfinite'
  have hnear' := h'.nearest hfinite' x hfinite
  have hlow : y.toRat + x.toRat ≤ 2 * q := (abs_sub_le_abs_sub_iff_add_le hless).mp hnear
  have hhigh : 2 * q' ≤ y.toRat + x.toRat := (abs_sub_le_abs_sub_iff_le_add hless).mp hnear'
  -- Both lie halfway between the two numbers, so that both numbers are even.
  have hsame : q' = q := by linarith
  subst hsame
  have htie := le_antisymm hnear' hnear
  have heven := h.even hfinite y hfinite' htie hless.ne
  have heven' := h'.even hfinite' x hfinite htie.symm hless.ne'
  rw [significand_mod_two] at heven heven'
  -- So there is one between them, and the larger one is not nearest.
  have hnext : y.rank + 1 < infinityRank := by omega
  rcases exists_rank_eq hnext with ⟨z, hz, hsign, hrank⟩
  have hbelow : y.toRat < z.toRat := toRat_lt_of_rank_lt h'.positive hsign (by omega)
  have habove : z.toRat < x.toRat := toRat_lt_of_rank_lt hsign h.positive (by omega)
  have hbetween := (abs_sub_le_abs_sub_iff_add_le habove).mp (h.nearest hfinite z hz)
  linarith

theorem unique (h : RoundsToNearest q x) (h' : RoundsToNearest q y) : x = y := by
  apply eq_of_rank_eq
  . rw [h.positive, h'.positive]
  . exact Nat.le_antisymm (h.rank_le h' (le_refl q)) (h'.rank_le h (le_refl q))

theorem mono (h : RoundsToNearest q x) (h' : RoundsToNearest q' y) (hle : q ≤ q')
    (hfinite : y.isFinite) : x.isFinite ∧ x.toRat ≤ y.toRat := by
  refine ⟨h.isFinite_of_le h' hle hfinite, ?_⟩
  rcases Nat.eq_or_lt_of_le (h.rank_le h' hle) with heq | hlt
  . rw [toRat_of_not_isNegative h.positive, toRat_of_not_isNegative h'.positive, heq]
  . exact le_of_lt (toRat_lt_of_rank_lt h.positive h'.positive hlt)

theorem eq_ofDecimal {d : Decimal} (h : RoundsToNearest d.toRat x) : x = ofDecimal d :=
  h.unique (roundsToNearest_ofDecimal d)

end RoundsToNearest

end Binary64

end SketchLang
