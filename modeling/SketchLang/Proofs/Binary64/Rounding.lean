import SketchLang.Binary64.Rounding

namespace SketchLang.Binary64

theorem rank_ofRank {rank : Nat} (h : rank < signBit) : (ofRank rank).rank = rank := by
  have hword : rank < 2 ^ 64 := by
    simp only [signBit] at h
    omega
  simp only [ofRank, Binary64.rank]
  rw [UInt64.toNat_ofNat', Nat.mod_eq_of_lt hword]
  exact Nat.mod_eq_of_lt h

theorem nearestRank_le (num den : Nat) : nearestRank num den ≤ infinityRank := by
  unfold nearestRank
  apply Nat.min_le_left

theorem nearestRank_lt (num den : Nat) : nearestRank num den < signBit := by
  have hle := nearestRank_le num den
  have hlt : infinityRank < signBit := by decide
  omega

theorem rank_ofDecimal (d : Decimal) :
    (ofDecimal d).rank = nearestRank (d.digits <<< 1074) d.scale := by
  unfold ofDecimal
  rw [rank_ofRank]
  apply nearestRank_lt

theorem rank_ofDecimal_le (d : Decimal) : (ofDecimal d).rank ≤ infinityRank := by
  rw [rank_ofDecimal]
  apply nearestRank_le

theorem isNegative_ofRank {rank : Nat} (h : rank < signBit) :
    (ofRank rank).isNegative = false := by
  have hword : signBit < 2 ^ 64 := by decide
  unfold isNegative ofRank
  rw [UInt64.toNat_ofNat', Nat.mod_eq_of_lt (by omega)]
  rw [decide_eq_false_iff_not]
  omega

theorem isNegative_ofDecimal (d : Decimal) : (ofDecimal d).isNegative = false := by
  unfold ofDecimal
  apply isNegative_ofRank
  apply nearestRank_lt

theorem isNaN_of_isFinite {x : Binary64} (h : x.isFinite) : x.isNaN = false := by
  unfold isFinite at h
  unfold isNaN
  rw [decide_eq_true_eq] at h
  rw [decide_eq_false_iff_not]
  omega

theorem isNaN_ofDecimal (d : Decimal) : (ofDecimal d).isNaN = false := by
  have hle := rank_ofDecimal_le d
  simp only [isNaN, decide_eq_false_iff_not]
  omega

theorem beq_self (x : Binary64) : (x == x) = !x.isNaN := by
  have hbeq : (x == x) = Binary64.beq x x := rfl
  rw [hbeq]
  unfold Binary64.beq
  simp

end SketchLang.Binary64
