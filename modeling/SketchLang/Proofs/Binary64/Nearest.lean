import Mathlib.Order.Monotone.Basic
import Mathlib.Tactic.Linarith
import Mathlib.Tactic.Ring
import SketchLang.Proofs.Binary64.Rounding

/-!
This module contains which quotients round to a magnitude: those between the midpoints to its
neighbours (`Binary64.Rounds`). Every quotient rounds to one magnitude only
(`Binary64.Rounds.unique`), which is the one that `nearestRank` finds
(`Binary64.nearestRank_eq_of_rounds`).
-/

namespace SketchLang.Binary64

theorem units_of_significand {shift k : Nat} (hmin : shift = 0 ∨ binade ≤ k)
    (hmax : k ≤ 2 * binade) : units (shift * binade + k) = k <<< shift := by
  unfold units
  simp only [Nat.shiftLeft_eq]
  by_cases hlt : shift * binade + k < binade
  . have hshift : shift = 0 := by
      rcases hmin with hmin | hmin
      . exact hmin
      . omega
    rw [if_pos hlt, hshift]
    simp
  have hge : binade ≤ k := by
    rcases hmin with rfl | hmin
    . omega
    . exact hmin
  rw [if_neg hlt]
  rcases Nat.eq_or_lt_of_le hmax with rfl | hmax
  . have hrank : shift * binade + 2 * binade = binade * (shift + 2) := by ring
    rw [hrank, Nat.mul_mod_right, Nat.mul_div_cancel_left _ (show 0 < binade by decide)]
    rw [show shift + 2 - 1 = shift + 1 from rfl, pow_succ]
    ring
  . obtain ⟨m, rfl⟩ : ∃ m, k = binade + m := ⟨k - binade, by omega⟩
    have hm : m < binade := by omega
    have hrank : shift * binade + (binade + m) = binade * (shift + 1) + m := by ring
    rw [hrank, Nat.mul_add_mod, Nat.mod_eq_of_lt hm, Nat.mul_add_div (by decide),
      Nat.div_eq_of_lt hm, Nat.add_zero, Nat.add_sub_cancel]

theorem exists_significand (rank : Nat) :
    ∃ shift k, rank = shift * binade + k ∧ (shift = 0 ∨ binade ≤ k) ∧ k < 2 * binade := by
  by_cases hlt : rank < binade
  . exact ⟨0, rank, by omega, .inl rfl, by omega⟩
  . refine ⟨rank / binade - 1, binade + rank % binade, ?_, .inr (Nat.le_add_right ..), ?_⟩
    all_goals
      simp only [binade] at *
      omega

theorem lt_units_add_one {shift k : Nat} (hmin : shift = 0 ∨ binade ≤ k) (hmax : k ≤ 2 * binade) :
    (k + 1) <<< shift ≤ units (shift * binade + k + 1) := by
  rcases Nat.eq_or_lt_of_le hmax with rfl | hmax
  . have hrank : shift * binade + 2 * binade + 1 = (shift + 1) * binade + (binade + 1) := by ring
    rw [hrank, units_of_significand (.inr (Nat.le_add_right ..)) (by decide)]
    simp only [Nat.shiftLeft_eq, pow_succ]
    nlinarith [Nat.zero_le (2 ^ shift)]
  . rw [Nat.add_assoc, units_of_significand _ hmax]
    omega

theorem units_strictMono : StrictMono units := by
  apply strictMono_nat_of_lt_succ
  intro rank
  rcases exists_significand rank with ⟨shift, k, rfl, hmin, hmax⟩
  rw [units_of_significand hmin (Nat.le_of_lt hmax)]
  apply Nat.lt_of_lt_of_le _ (lt_units_add_one hmin (Nat.le_of_lt hmax))
  simp only [Nat.shiftLeft_eq]
  apply Nat.mul_lt_mul_of_pos_right (Nat.lt_add_one k)
  positivity

/--
The quotient `num / den`, which counts multiples of `2 ^ -1074`, rounds to the magnitude of
`rank`: it lies between the midpoints to the two neighbours, which belong to an even rank.
-/
structure Rounds (rank num den : Nat) : Prop where
  low : (units (rank - 1) + units rank) * den ≤ 2 * num
  high : 2 * num ≤ (units rank + units (rank + 1)) * den
  tie : rank % 2 = 1 → (units (rank - 1) + units rank) * den ≠ 2 * num ∧
    2 * num ≠ (units rank + units (rank + 1)) * den

namespace Rounds

variable {rank rank' num den num' den' : Nat}

theorem below (h : Rounds rank num den) (hlt : rank' < rank) :
    (units rank' + units rank) * den ≤ 2 * num ∧
      (rank % 2 = 1 → (units rank' + units rank) * den ≠ 2 * num) := by
  have hprev : units rank' ≤ units (rank - 1) := units_strictMono.monotone (by omega)
  have hmid : (units rank' + units rank) * den ≤ (units (rank - 1) + units rank) * den :=
    Nat.mul_le_mul_right den (by omega)
  have hlow := h.low
  have htie := h.tie
  omega

theorem above (h : Rounds rank num den) (hlt : rank < rank') :
    2 * num ≤ (units rank + units rank') * den ∧
      (rank % 2 = 1 → 2 * num ≠ (units rank + units rank') * den) := by
  have hnext : units (rank + 1) ≤ units rank' := units_strictMono.monotone hlt
  have hmid : (units rank + units (rank + 1)) * den ≤ (units rank + units rank') * den :=
    Nat.mul_le_mul_right den (by omega)
  have hhigh := h.high
  have htie := h.tie
  omega

theorem not_lt (hden : 0 < den) (h : Rounds rank num den) (h' : Rounds rank' num den) :
    ¬ rank < rank' := by
  intro hlt
  have habove := h.above hlt
  have hbelow := h'.below hlt
  -- Both ranks are even, so there is another magnitude between them.
  have hnext : units (rank + 1) < units rank' := units_strictMono (by omega)
  have hmid : (units rank + units (rank + 1)) * den < (units rank + units rank') * den :=
    Nat.mul_lt_mul_of_pos_right (by omega) hden
  have hhigh := h.high
  omega

theorem unique (hden : 0 < den) (h : Rounds rank num den) (h' : Rounds rank' num den) :
    rank = rank' := by
  have hlt := not_lt hden h h'
  have hgt := not_lt hden h' h
  omega

theorem congr (hden : 0 < den) (hden' : 0 < den') (hvalue : num * den' = num' * den)
    (h : Rounds rank num den) : Rounds rank num' den' := by
  have hscale : ∀ sum, sum * den' * den = sum * den * den' := fun sum => Nat.mul_right_comm ..
  have hnum : 2 * num' * den = 2 * num * den' := by
    rw [Nat.mul_assoc, ← hvalue, Nat.mul_assoc]
  constructor
  . apply Nat.le_of_mul_le_mul_right _ hden
    rw [hscale, hnum]
    exact Nat.mul_le_mul_right den' h.low
  . apply Nat.le_of_mul_le_mul_right _ hden
    rw [hscale, hnum]
    exact Nat.mul_le_mul_right den' h.high
  . intro hodd
    have htie := h.tie hodd
    constructor
    . intro heq
      apply htie.1
      apply Nat.eq_of_mul_eq_mul_right hden'
      rw [← hscale, heq, hnum]
    . intro heq
      apply htie.2
      apply Nat.eq_of_mul_eq_mul_right hden'
      rw [← hscale, ← heq, hnum]

end Rounds

theorem rounds_units (rank : Nat) : Rounds rank (units rank) 1 := by
  have hnext : units rank < units (rank + 1) := units_strictMono (Nat.lt_add_one rank)
  have hprev : units (rank - 1) ≤ units rank := units_strictMono.monotone (by omega)
  constructor
  . omega
  . omega
  . intro hodd
    have hless : units (rank - 1) < units rank := units_strictMono (by omega)
    omega

structure NearestWhole (k num den : Nat) : Prop where
  low : 2 * k * den ≤ 2 * num + den
  high : 2 * num ≤ 2 * k * den + den
  tie : k % 2 = 1 → 2 * k * den ≠ 2 * num + den ∧ 2 * num ≠ 2 * k * den + den

theorem nearestWhole_roundHalfEven (num : Nat) {den : Nat} (hden : 0 < den) :
    NearestWhole (roundHalfEven num den) num den := by
  have hdivision := Nat.div_add_mod num den
  have hremainder := Nat.mod_lt num hden
  have hnext : 2 * (num / den + 1) * den = 2 * (den * (num / den)) + 2 * den := by ring
  have hsame : 2 * (num / den) * den = 2 * (den * (num / den)) := by ring
  unfold roundHalfEven
  dsimp only
  split
  . constructor <;> omega
  . split
    . constructor <;> omega
    . rcases Nat.mod_two_eq_zero_or_one (num / den) with heven | hodd
      . rw [heven, Nat.add_zero]
        constructor <;> omega
      . rw [hodd]
        constructor <;> omega

section Significand

variable {num den shift k : Nat} (hden : 0 < den) (hshift : shift = (num / den).log2 - 52)

include hden hshift

theorem le_num_of_shift (hne : shift ≠ 0) : binade * (den <<< shift) ≤ num := by
  have hpos : num / den ≠ 0 := by
    intro hzero
    rw [hzero, Nat.log2_zero] at hshift
    omega
  have hself : 2 ^ (shift + 52) ≤ num / den := by
    rw [show shift + 52 = (num / den).log2 by omega]
    exact Nat.log2_self_le hpos
  rw [Nat.le_div_iff_mul_le hden, pow_add] at hself
  rw [Nat.shiftLeft_eq]
  simp only [binade]
  linarith

theorem num_lt_of_shift : num < 2 * binade * (den <<< shift) := by
  have hself : num / den < 2 ^ (shift + 53) := by
    apply Nat.lt_of_lt_of_le Nat.lt_log2_self
    apply Nat.pow_le_pow_right (by decide)
    omega
  rw [Nat.div_lt_iff_lt_mul hden, pow_add] at hself
  rw [Nat.shiftLeft_eq]
  simp only [binade]
  linarith

theorem significand_of_nearestWhole (h : NearestWhole k num (den <<< shift)) :
    (shift = 0 ∨ binade ≤ k) ∧ k ≤ 2 * binade := by
  have hpos : 0 < den <<< shift := by
    rw [Nat.shiftLeft_eq]
    positivity
  have hlow := h.low
  have hhigh := h.high
  constructor
  . by_cases hzero : shift = 0
    . exact .inl hzero
    . have hnum := le_num_of_shift hden hshift hzero
      have hbound : 2 * binade * (den <<< shift) ≤ (2 * k + 1) * (den <<< shift) := by linarith
      have := Nat.le_of_mul_le_mul_right hbound hpos
      exact .inr (by omega)
  . have hnum := num_lt_of_shift hden hshift
    have hbound : 2 * k * (den <<< shift) < (4 * binade + 1) * (den <<< shift) := by linarith
    have := Nat.lt_of_mul_lt_mul_right hbound
    omega

omit hden hshift in
theorem shiftLeft_mul (j : Nat) : j <<< shift * den = j * (den <<< shift) := by
  simp only [Nat.shiftLeft_eq]
  ring

theorem low_of_nearestWhole (h : NearestWhole k num (den <<< shift)) :
    (units (shift * binade + k - 1) + units (shift * binade + k)) * den ≤ 2 * num ∧
      (k % 2 = 1 →
        (units (shift * binade + k - 1) + units (shift * binade + k)) * den ≠ 2 * num) := by
  rcases significand_of_nearestWhole hden hshift h with ⟨hmin, hmax⟩
  rw [Nat.add_mul, units_of_significand hmin hmax, shiftLeft_mul]
  have hlow := h.low
  have htie := h.tie
  cases k with
  | zero =>
    have hzero : shift = 0 := by simpa [binade] using hmin
    simp [hzero, units, binade]
  | succ j =>
    by_cases hfirst : shift = 0 ∨ binade ≤ j
    . have hprev : shift * binade + (j + 1) - 1 = shift * binade + j := by omega
      rw [hprev, units_of_significand hfirst (Nat.le_of_succ_le hmax), shiftLeft_mul]
      have hmid : 2 * (j + 1) * (den <<< shift) =
          j * (den <<< shift) + (j + 1) * (den <<< shift) + den <<< shift := by
        ring
      omega
    -- Below the least significand of an exponent the magnitudes are closer together.
    . have hleast : j + 1 = binade := by omega
      have hnum := le_num_of_shift hden hshift (by omega)
      have hprev : units (shift * binade + (j + 1) - 1) ≤ units (shift * binade + (j + 1)) :=
        units_strictMono.monotone (Nat.sub_le ..)
      have hprev := Nat.mul_le_mul_right den hprev
      rw [units_of_significand hmin hmax, shiftLeft_mul, hleast] at hprev
      rw [hleast]
      constructor
      . omega
      . intro hodd
        exact absurd hodd (by decide)

theorem high_of_nearestWhole (h : NearestWhole k num (den <<< shift)) :
    2 * num ≤ (units (shift * binade + k) + units (shift * binade + k + 1)) * den ∧
      (k % 2 = 1 →
        2 * num ≠ (units (shift * binade + k) + units (shift * binade + k + 1)) * den) := by
  rcases significand_of_nearestWhole hden hshift h with ⟨hmin, hmax⟩
  have hnext := Nat.mul_le_mul_right den (lt_units_add_one hmin hmax)
  rw [shiftLeft_mul] at hnext
  rw [Nat.add_mul, units_of_significand hmin hmax, shiftLeft_mul]
  have hmid : k * (den <<< shift) + (k + 1) * (den <<< shift) =
      2 * k * (den <<< shift) + den <<< shift := by
    ring
  have hhigh := h.high
  have htie := h.tie
  omega

theorem rounds_of_nearestWhole (h : NearestWhole k num (den <<< shift)) :
    Rounds (shift * binade + k) num den := by
  have hlow := low_of_nearestWhole hden hshift h
  have hhigh := high_of_nearestWhole hden hshift h
  have hodd : (shift * binade + k) % 2 = 1 → k % 2 = 1 := by
    simp only [binade]
    omega
  exact ⟨hlow.1, hhigh.1, fun h => ⟨hlow.2 (hodd h), hhigh.2 (hodd h)⟩⟩

end Significand

theorem exists_rounds (num : Nat) {den : Nat} (hden : 0 < den) :
    ∃ rank, Rounds rank num den ∧ nearestRank num den = min infinityRank rank := by
  have hpos : 0 < den <<< ((num / den).log2 - 52) := by
    rw [Nat.shiftLeft_eq]
    positivity
  have hnearest := nearestWhole_roundHalfEven num hpos
  exact ⟨_, rounds_of_nearestWhole hden rfl hnearest, rfl⟩

theorem nearestRank_eq_of_rounds {rank num den : Nat} (hden : 0 < den)
    (h : Rounds rank num den) : nearestRank num den = min infinityRank rank := by
  rcases exists_rounds num hden with ⟨rank', hrounds, hrank⟩
  rw [hrank, hrounds.unique hden h]

end SketchLang.Binary64
