import SketchLang.Binary64.Shortest
import SketchLang.Proofs.Binary64.Nearest
import SketchLang.Proofs.Decimal

/-!
This module contains that the text of a number tells which number it is (`Binary64.text_inj`). The
shortest decimal number is between the midpoints around its magnitude
(`Binary64.roundsDecimal_shortest`), so that it rounds back to it (`Binary64.ofDecimal_shortest`).
-/

namespace SketchLang.Binary64

def RoundsDecimal (rank : Nat) (d : Decimal) : Prop := Rounds rank (d.digits <<< 1074) d.scale

theorem shiftLeft_mul_pow (n e : Nat) : n <<< e * Nat.pow 5 e = n * Nat.pow 10 e := by
  have hpow : Nat.pow 2 e * Nat.pow 5 e = Nat.pow 10 e := (Nat.mul_pow 2 5 e).symm
  rw [← hpow, ← Nat.mul_assoc]
  exact congrArg (· * Nat.pow 5 e) (Nat.shiftLeft_eq n e)

theorem gridPoint_value (n k : Nat) {e : Nat} (he : 1074 = e) :
    (gridPoint n k).digits <<< e * Nat.pow 5 e = n * Nat.pow 10 k * (gridPoint n k).scale := by
  rw [shiftLeft_mul_pow]
  unfold gridPoint Decimal.scale
  rw [he]
  split
  . next hlt =>
    have hsplit : Nat.pow 10 k * Nat.pow 10 (e - k) = Nat.pow 10 e := by
      rw [Nat.pow_eq, Nat.pow_eq, Nat.pow_eq, ← Nat.pow_add, Nat.add_sub_cancel' (Nat.le_of_lt hlt)]
    dsimp only
    rw [Nat.mul_assoc, hsplit]
  . next hge =>
    have hone : Nat.pow 10 0 = 1 := rfl
    have hsplit : Nat.pow 10 (k - e) * Nat.pow 10 e = Nat.pow 10 k := by
      rw [Nat.pow_eq, Nat.pow_eq, Nat.pow_eq, ← Nat.pow_add, Nat.sub_add_cancel (by omega)]
    dsimp only
    rw [hone, Nat.mul_one, Nat.mul_assoc, hsplit]

theorem roundsDecimal_gridPoint {rank n k : Nat}
    (h : Rounds rank (n * Nat.pow 10 k) (Nat.pow 5 1074)) : RoundsDecimal rank (gridPoint n k) := by
  unfold RoundsDecimal
  generalize he : 1074 = e at h ⊢
  apply h.congr
  . apply Nat.pow_pos
    decide
  . apply Decimal.scale_pos
  . rw [gridPoint_value n k he]

theorem rounds_of_roundsTo {rank n : Nat} (h : roundsTo rank n) :
    Rounds rank n (Nat.pow 5 1074) := by
  unfold roundsTo scaled at h
  simp only [← Nat.add_mul] at h
  generalize Nat.pow 5 1074 = den at h
  split at h
  . next heven =>
    simp only [Bool.and_eq_true, decide_eq_true_eq] at h
    exact ⟨h.1, h.2, fun hodd => by omega⟩
  . simp only [Bool.and_eq_true, decide_eq_true_eq] at h
    exact ⟨Nat.le_of_lt h.1, Nat.le_of_lt h.2, fun _ => ⟨Nat.ne_of_lt h.1, Nat.ne_of_lt h.2⟩⟩

theorem roundsTo_of_onGrid? {rank n k : Nat} (h : onGrid? rank k = some n) :
    roundsTo rank (n * Nat.pow 10 k) := by
  unfold onGrid? at h
  generalize Nat.pow 10 k = spacing at h ⊢
  generalize scaled rank = magnitude at h
  dsimp only at h
  split at h
  . next hbelow habove =>
    split at h
    . have hsame := Option.some.inj h
      subst hsame
      exact hbelow
    . have hsame := Option.some.inj h
      subst hsame
      exact habove
  . next hbelow _ =>
    have hsame := Option.some.inj h
    subst hsame
    exact hbelow
  . next _ habove =>
    have hsame := Option.some.inj h
    subst hsame
    exact habove
  . contradiction

theorem roundsDecimal_firstHit (rank k : Nat) : RoundsDecimal rank (firstHit rank k) := by
  induction k with
  | zero =>
    apply roundsDecimal_gridPoint
    apply (rounds_units rank).congr (by decide)
    . apply Nat.pow_pos
      decide
    . have hone : Nat.pow 10 0 = 1 := rfl
      rw [hone, Nat.mul_one, Nat.mul_one, scaled]
  | succ k ih =>
    unfold firstHit
    split
    . next n hn =>
      apply roundsDecimal_gridPoint
      apply rounds_of_roundsTo
      exact roundsTo_of_onGrid? hn
    . exact ih

theorem roundsDecimal_shortest (rank : Nat) : RoundsDecimal rank (shortest rank) := by
  unfold shortest
  split
  . next hzero =>
    rw [hzero]
    apply (rounds_units 0).congr (by decide)
    . apply Decimal.scale_pos
    . rfl
  . apply roundsDecimal_firstHit

theorem shortest_inj {rank rank' : Nat} (h : shortest rank = shortest rank') : rank = rank' := by
  have hrounds := roundsDecimal_shortest rank
  rw [h] at hrounds
  exact hrounds.unique (Decimal.scale_pos _) (roundsDecimal_shortest rank')

theorem ofDecimal_shortest {rank : Nat} (h : rank ≤ infinityRank) :
    ofDecimal (shortest rank) = ofRank rank := by
  unfold ofDecimal
  rw [nearestRank_eq_of_rounds (Decimal.scale_pos _) (roundsDecimal_shortest rank)]
  rw [Nat.min_eq_right h]

theorem isNegative_iff (x : Binary64) : x.isNegative = true ↔ signBit ≤ x.bits.toNat := by
  unfold isNegative
  rw [decide_eq_true_eq]

theorem toNat_bits (x : Binary64) :
    x.bits.toNat = (if x.isNegative then signBit else 0) + x.rank := by
  have hword := x.bits.toNat_lt
  unfold rank
  simp only [isNegative_iff, signBit]
  split
  all_goals omega

theorem eq_of_rank_eq {x y : Binary64} (hsign : x.isNegative = y.isNegative)
    (hrank : x.rank = y.rank) : x = y := by
  have hword : x.bits.toNat = y.bits.toNat := by
    rw [toNat_bits x, toNat_bits y, hsign, hrank]
  have hbits : x.bits = y.bits := UInt64.toNat_inj.mp hword
  cases x
  cases y
  exact congrArg mk hbits

theorem ofRank_rank {x : Binary64} (h : x.isNegative = false) : ofRank x.rank = x := by
  have hbits := toNat_bits x
  rw [h] at hbits
  have hword : x.rank = x.bits.toNat := by simpa using hbits.symm
  cases x
  unfold ofRank
  rw [hword, UInt64.ofNat_toNat]

theorem ofDecimal_shortest_rank {x : Binary64} (hnan : x.isNaN = false)
    (hsign : x.isNegative = false) : ofDecimal (shortest x.rank) = x := by
  have hle : x.rank ≤ infinityRank := by simpa [isNaN] using hnan
  rw [ofDecimal_shortest hle, ofRank_rank hsign]

def magnitudeText (x : Binary64) : List Char :=
  if x.isFinite then (shortest x.rank).text else "inf".toList

theorem toList_text {x : Binary64} (h : x.isNaN = false) :
    x.text.toList = if x.isNegative then '-' :: x.magnitudeText else x.magnitudeText := by
  unfold text magnitudeText
  rw [if_neg (by simp [h])]
  dsimp only
  split
  all_goals
    split
    all_goals simp

theorem head?_magnitudeText (x : Binary64) :
    ∃ c rest, x.magnitudeText = c :: rest ∧
      (x.isFinite ∧ Lexeme.IsDigit c ∨ ¬ x.isFinite ∧ c = 'i') := by
  unfold magnitudeText
  split
  . next hfinite =>
    rcases Lexeme.exists_cons_of_numeral (shortest x.rank).numeral_text with ⟨c, rest, hc, hdigit⟩
    exact ⟨c, rest, hc, .inl ⟨hfinite, hdigit⟩⟩
  . next hfinite => exact ⟨'i', "nf".toList, rfl, .inr ⟨hfinite, rfl⟩⟩

theorem magnitudeText_ne_minus (x : Binary64) (rest : List Char) :
    x.magnitudeText ≠ '-' :: rest := by
  rcases head?_magnitudeText x with ⟨c, tail, hc, hhead⟩
  rw [hc]
  intro h
  injection h with h
  rw [h] at hhead
  rcases hhead with hhead | hhead
  . exact absurd hhead.2 (by decide)
  . exact absurd hhead.2 (by decide)

theorem rank_of_not_isFinite {x : Binary64} (hnan : x.isNaN = false) (h : ¬ x.isFinite) :
    x.rank = infinityRank := by
  simp only [isNaN, isFinite, decide_eq_false_iff_not, decide_eq_true_eq] at hnan h
  omega

theorem isFinite_iff_of_magnitudeText_eq {x y : Binary64}
    (h : x.magnitudeText = y.magnitudeText) : x.isFinite ↔ y.isFinite := by
  have hletter : ¬ Lexeme.IsDigit 'i' := by decide
  rcases head?_magnitudeText x with ⟨c, rest, hc, hhead⟩
  rcases head?_magnitudeText y with ⟨d, rest', hd, hhead'⟩
  rw [hc, hd] at h
  injection h with h
  rw [← h] at hhead'
  rcases hhead with ⟨hfinite, hdigit⟩ | ⟨hfinite, rfl⟩
  . rcases hhead' with ⟨hfinite', -⟩ | ⟨-, rfl⟩
    . simp [hfinite, hfinite']
    . contradiction
  . rcases hhead' with ⟨-, hdigit⟩ | ⟨hfinite', -⟩
    . contradiction
    . simp [hfinite, hfinite']

theorem magnitudeText_inj {x y : Binary64} (hx : x.isNaN = false) (hy : y.isNaN = false)
    (h : x.magnitudeText = y.magnitudeText) : x.rank = y.rank := by
  have hsame := isFinite_iff_of_magnitudeText_eq h
  by_cases hfinite : x.isFinite
  . unfold magnitudeText at h
    rw [if_pos hfinite, if_pos (hsame.mp hfinite)] at h
    apply shortest_inj
    exact Decimal.text_inj h
  . rw [rank_of_not_isFinite hx hfinite]
    rw [rank_of_not_isFinite hy fun hfinite' => hfinite (hsame.mpr hfinite')]

theorem text_inj {x y : Binary64} (hx : x.isNaN = false) (hy : y.isNaN = false)
    (h : x.text = y.text) : x = y := by
  have htext : x.text.toList = y.text.toList := by rw [h]
  rw [toList_text hx, toList_text hy] at htext
  cases hsign : x.isNegative
  all_goals
    cases hsign' : y.isNegative
    all_goals simp only [hsign, hsign', Bool.false_eq_true, ↓reduceIte] at htext
  . apply eq_of_rank_eq
    . rw [hsign, hsign']
    . exact magnitudeText_inj hx hy htext
  . exact absurd htext (magnitudeText_ne_minus x _)
  . exact absurd htext.symm (magnitudeText_ne_minus y _)
  . injection htext with _ htext
    apply eq_of_rank_eq
    . rw [hsign, hsign']
    . exact magnitudeText_inj hx hy htext

end SketchLang.Binary64
