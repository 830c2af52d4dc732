import SketchLang.Proofs.Lexeme.Recognition

namespace SketchLang.Decimal

open Lexeme (IsDigit Numeral)

def fraction (d : Decimal) : List Char :=
  (Nat.toDigits 10 (d.digits % d.scale)).leftpad d.places '0'

theorem scale_pos (d : Decimal) : 0 < d.scale := Nat.pow_pos (by decide)

theorem text_of_places_eq_zero {d : Decimal} (h : d.places = 0) :
    d.text = Nat.toDigits 10 d.digits := by
  have hscale : d.scale = 1 := by simp [scale, h]
  simp [text, h, hscale]

theorem text_of_places_ne_zero {d : Decimal} (h : d.places ≠ 0) :
    d.text = Nat.toDigits 10 (d.digits / d.scale) ++ '.' :: d.fraction := by
  simp [text, h, fraction]

theorem isDigit_of_mem_toDigits {c : Char} {n : Nat} (h : c ∈ Nat.toDigits 10 n) : IsDigit c := by
  rw [← Lexeme.isDigit_iff]
  exact Nat.isDigit_of_mem_toDigits (by decide) (by decide) h

theorem isDigit_of_mem_fraction {c : Char} {d : Decimal} (h : c ∈ d.fraction) : IsDigit c := by
  unfold fraction List.leftpad at h
  rw [List.mem_append] at h
  rcases h with h | h
  . rw [List.eq_of_mem_replicate h]
    decide
  . exact isDigit_of_mem_toDigits h

theorem length_fraction {d : Decimal} (h : d.places ≠ 0) : d.fraction.length = d.places := by
  have hle : (Nat.toDigits 10 (d.digits % d.scale)).length ≤ d.places := by
    rw [Nat.length_toDigits_le_iff (by decide) (by omega)]
    exact Nat.mod_lt _ d.scale_pos
  unfold fraction
  rw [List.length_leftpad]
  omega

theorem ofDigitChars_fraction (d : Decimal) :
    Nat.ofDigitChars 10 d.fraction 0 = d.digits % d.scale := by
  unfold fraction List.leftpad
  rw [Nat.ofDigitChars_append, Nat.ofDigitChars_replicate_zero, Nat.mul_zero,
    Nat.ofDigitChars_ten_toDigits]

theorem ofDigits_fraction {d : Decimal} (h : d.places ≠ 0) :
    ofDigits (Nat.toDigits 10 (d.digits / d.scale)) d.fraction = d := by
  have hdigits : Nat.ofDigitChars 10 (Nat.toDigits 10 (d.digits / d.scale) ++ d.fraction) 0 =
      d.digits := by
    rw [Nat.ofDigitChars_append, Nat.ofDigitChars_ten_toDigits,
      Nat.ofDigitChars_eq_ofDigitChars_zero, ofDigitChars_fraction, length_fraction h]
    exact Nat.div_add_mod d.digits d.scale
  unfold ofDigits
  rw [hdigits, length_fraction h]

theorem numeral_text (d : Decimal) : Numeral d.text d := by
  by_cases h : d.places = 0
  . have hwhole : ofDigits (Nat.toDigits 10 d.digits) [] = d := by
      unfold ofDigits
      rw [List.append_nil, Nat.ofDigitChars_ten_toDigits, List.length_nil, ← h]
    rw [text_of_places_eq_zero h]
    conv => rhs; rw [← hwhole]
    exact .whole Nat.toDigits_ne_nil fun _ => isDigit_of_mem_toDigits
  . rw [text_of_places_ne_zero h]
    conv => rhs; rw [← ofDigits_fraction h]
    exact .point Nat.toDigits_ne_nil (fun _ => isDigit_of_mem_toDigits)
      fun _ => isDigit_of_mem_fraction

theorem ofText?_text (d : Decimal) : ofText? d.text = some d :=
  Lexeme.ofText?_of_numeral d.numeral_text

theorem text_inj {d d' : Decimal} (h : d.text = d'.text) : d = d' := by
  apply Option.some_inj.mp
  rw [← ofText?_text d, h, ofText?_text d']

end SketchLang.Decimal
