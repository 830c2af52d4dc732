import SketchLang.Proofs.Binary64.Correct
import SketchLang.Proofs.Lexeme.Reading

namespace SketchLang

namespace Decimal

theorem toRat_ofDigits (whole fraction : List Char) :
    (ofDigits whole fraction).toRat =
      Nat.ofDigitChars 10 (whole ++ fraction) 0 / 10 ^ fraction.length := rfl

theorem toRat_leading (zeros : Nat) (whole fraction : List Char) :
    (ofDigits (List.replicate zeros '0' ++ whole) fraction).toRat =
      (ofDigits whole fraction).toRat := by
  rw [toRat_ofDigits, toRat_ofDigits, List.append_assoc, Nat.ofDigitChars_append]
  rw [Nat.ofDigitChars_replicate_zero, Nat.mul_zero]

theorem toRat_trailing (zeros : Nat) (whole fraction : List Char) :
    (ofDigits whole (fraction ++ List.replicate zeros '0')).toRat =
      (ofDigits whole fraction).toRat := by
  have hpow : (10 : ℚ) ^ zeros ≠ 0 := by positivity
  rw [toRat_ofDigits, toRat_ofDigits, ← List.append_assoc, Nat.ofDigitChars_append]
  rw [Nat.ofDigitChars_replicate_zero, List.length_append, List.length_replicate, pow_add]
  rw [Nat.cast_mul, Nat.cast_pow, Nat.cast_ofNat, mul_comm (10 ^ zeros : ℚ)]
  apply mul_div_mul_right
  exact hpow

end Decimal

namespace Lexeme

/--
`Respelled text text'`: the numeral `text'` has more zeros than `text` in front or behind the point,
or a bare point at its end.
-/
inductive Respelled (text : List Char) : List Char → Prop
  | leading (zeros : Nat) : Respelled text (List.replicate zeros '0' ++ text)
  | trailing (zeros : Nat) (hpoint : '.' ∈ text) :
    Respelled text (text ++ List.replicate zeros '0')
  | point (hpoint : '.' ∉ text) : Respelled text (text ++ ['.'])

variable {text text' : List Char} {d d' : Decimal}

theorem Numeral.unique (h : Numeral text d) (h' : Numeral text d') : d = d' := by
  apply Option.some_inj.mp
  rw [← ofText?_of_numeral h, ofText?_of_numeral h']

theorem isDigit_of_mem_zeros {zeros : Nat} {c : Char} (hc : c ∈ List.replicate zeros '0') :
    IsDigit c := by
  rw [List.eq_of_mem_replicate hc]
  decide

theorem isDigit_of_mem_append {x y : List Char} (hx : ∀ c ∈ x, IsDigit c)
    (hy : ∀ c ∈ y, IsDigit c) : ∀ c ∈ x ++ y, IsDigit c := by
  intro c hc
  rw [List.mem_append] at hc
  cases hc with
  | inl hc => exact hx c hc
  | inr hc => exact hy c hc

theorem point_not_mem (h : ∀ c ∈ text, IsDigit c) : '.' ∉ text := by
  intro hmem
  have hdigit := h '.' hmem
  revert hdigit
  decide

theorem Respelled.exists_numeral (h : Respelled text text') (hnumeral : Numeral text d) :
    ∃ d', Numeral text' d' ∧ d'.toRat = d.toRat := by
  cases h with
  | leading zeros =>
    cases hnumeral with
    | whole hne hwhole =>
      refine ⟨_, .whole ?_ (isDigit_of_mem_append (fun _ => isDigit_of_mem_zeros) hwhole),
        Decimal.toRat_leading ..⟩
      exact List.append_ne_nil_of_right_ne_nil _ hne
    | point hne hwhole hfraction =>
      rw [← List.append_assoc]
      refine ⟨_, .point ?_ (isDigit_of_mem_append (fun _ => isDigit_of_mem_zeros) hwhole) hfraction,
        Decimal.toRat_leading ..⟩
      exact List.append_ne_nil_of_right_ne_nil _ hne
  | trailing zeros hpoint =>
    cases hnumeral with
    | whole hne hwhole => exact absurd hpoint (point_not_mem hwhole)
    | point hne hwhole hfraction =>
      rw [List.append_assoc, List.cons_append]
      have hzeros := isDigit_of_mem_append hfraction fun _ => @isDigit_of_mem_zeros zeros _
      exact ⟨_, .point hne hwhole hzeros, Decimal.toRat_trailing ..⟩
  | point hpoint =>
    cases hnumeral with
    | whole hne hwhole => exact ⟨_, .point hne hwhole (by simp), rfl⟩
    | point hne hwhole hfraction => simp at hpoint

theorem Reads.exists_numeral {lexeme : String} {value : Token.Value}
    (h : Reads text .number lexeme value) :
    ∃ d x, Numeral lexeme.toList d ∧ value = .number x ∧ Binary64.RoundsToNearest d.toRat x := by
  cases h with
  | number h hrounds =>
    rw [String.toList_ofList]
    exact ⟨_, _, h, rfl, hrounds⟩
  | operator h =>
    have htable : ∀ entry ∈ Token.operators, entry.2 ≠ .number := by decide +kernel
    exact absurd rfl (htable _ h)

theorem reads_text {x : Binary64} (hfinite : x.isFinite) (hsign : x.isNegative = false) :
    Reads x.text.toList .number x.text (.number x) := by
  have hnan := Binary64.isNaN_of_isFinite hfinite
  have htext : x.text.toList = (Binary64.shortest x.rank).text := by
    rw [Binary64.toList_text hnan, Binary64.magnitudeText]
    simp [hsign, hfinite]
  have hrounds := Binary64.roundsToNearest_ofDecimal (Binary64.shortest x.rank)
  rw [Binary64.ofDecimal_shortest_rank hnan hsign] at hrounds
  have hreads := Reads.number (Binary64.shortest x.rank).numeral_text hrounds
  rwa [← htext, String.ofList_toList] at hreads

end Lexeme

end SketchLang
