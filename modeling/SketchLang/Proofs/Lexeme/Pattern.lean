import Mathlib.Computability.RegularExpressions
import SketchLang.Proofs.Lexeme.Grammar

/-!
This module contains the patterns that words and numbers are found with, as regular expressions. A
search finds the longest text that matches (`Pattern.find?_eq_some_iff`). The patterns are those of
the grammar (`Pattern.mem_word_iff`, `Pattern.mem_number_iff`), and what matches the one of numbers
is in the syntax of floating-point numbers (`Pattern.mem_float_of_mem_number`).
-/

namespace SketchLang

open Lexeme (IsDigit IsLetter IsNumber IsWord Numeral)

abbrev Pattern := RegularExpression Char

namespace Pattern

def range (first last : Char) : List Char :=
  (List.range' first.toNat (last.toNat + 1 - first.toNat)).map Char.ofNat

def oneOf (chars : List Char) : Pattern := (chars.map .char).sum

def digits : List Char := range '0' '9'

def letters : List Char := range 'A' 'Z' ++ range 'a' 'z' ++ ['_']

/--
The pattern `[A-Za-z_][A-Za-z0-9_]*`.
-/
def word : Pattern := oneOf letters * (oneOf (letters ++ digits)).star

def someDigits : Pattern := oneOf digits * (oneOf digits).star

/--
The pattern `[0-9]+(?:[.][0-9]*)?`.
-/
def number : Pattern := someDigits * (1 + .char '.' * (oneOf digits).star)

def sign : Pattern := 1 + oneOf ['+', '-']

def exponent : Pattern := oneOf ['e', 'E'] * sign * someDigits

def decimal : Pattern :=
  someDigits + someDigits * (.char '.' * (oneOf digits).star) +
    (oneOf digits).star * (.char '.' * someDigits)

def anyCase (text : String) : Pattern := (text.toList.map fun c => oneOf [c, c.toUpper]).prod

def float : Pattern :=
  sign * (anyCase "inf" + anyCase "infinity" + anyCase "nan" + decimal * (1 + exponent))

def find? (pattern : Pattern) : List Char → Option (List Char)
  | [] => if pattern.matchEpsilon then some [] else none
  | c :: rest =>
    match find? (pattern.deriv c) rest with
    | some found => some (c :: found)
    | none => if pattern.matchEpsilon then some [] else none

structure Finds (pattern : Pattern) (text whole : List Char) : Prop where
  isPrefix : text <+: whole
  mem : text ∈ pattern.matches'
  longest : ∀ other, other <+: whole → other ∈ pattern.matches' → other.length ≤ text.length

section Membership

variable {c : Char} {text : List Char}

theorem mem_range_iff {first last : Char} (hlast : last.toNat < 0xD800) (c : Char) :
    c ∈ range first last ↔ first ≤ c ∧ c ≤ last := by
  have hle : ∀ c d : Char, c ≤ d ↔ c.toNat ≤ d.toNat := by
    intro c d
    rw [Char.le_def, UInt32.le_iff_toNat_le]
    rfl
  unfold range
  rw [List.mem_map, hle, hle]
  simp only [List.mem_range'_1]
  constructor
  . rintro ⟨n, hn, rfl⟩
    have hvalid : n.isValidChar := .inl (by omega)
    have hsame : (Char.ofNat n).toNat = n := by
      rw [Char.ofNat, dif_pos hvalid]
      rfl
    rw [hsame]
    omega
  . intro h
    exact ⟨c.toNat, by omega, Char.ofNat_toNat c⟩

theorem mem_digits_iff (c : Char) : c ∈ digits ↔ IsDigit c := mem_range_iff (by decide) c

theorem mem_letters_iff (c : Char) : c ∈ letters ↔ IsLetter c := by
  unfold letters
  rw [List.mem_append, List.mem_append, mem_range_iff (by decide), mem_range_iff (by decide),
    List.mem_singleton, or_assoc]
  rfl

theorem mem_char_iff (c : Char) (text : List Char) :
    text ∈ (RegularExpression.char c).matches' ↔ text = [c] := Iff.rfl

theorem mem_oneOf_iff (chars : List Char) (text : List Char) :
    text ∈ (oneOf chars).matches' ↔ ∃ c ∈ chars, text = [c] := by
  induction chars with
  | nil => simp [oneOf]
  | cons c chars ih =>
    unfold oneOf at ih ⊢
    rw [List.map_cons, List.sum_cons, RegularExpression.matches'_add, Language.mem_add, ih,
      mem_char_iff]
    simp

theorem mem_star_oneOf_iff (chars : List Char) (text : List Char) :
    text ∈ (oneOf chars).star.matches' ↔ ∀ c ∈ text, c ∈ chars := by
  simp only [RegularExpression.matches'_star, Language.mem_kstar, mem_oneOf_iff]
  constructor
  . rintro ⟨texts, rfl, htexts⟩ c hc
    rw [List.mem_flatten] at hc
    rcases hc with ⟨text, htext, hc⟩
    rcases htexts text htext with ⟨d, hd, rfl⟩
    rw [List.mem_singleton] at hc
    rwa [hc]
  . intro h
    refine ⟨text.map ([·]), ?_, ?_⟩
    . rw [← List.flatMap_def, List.flatMap_singleton']
    . intro part hpart
      rcases List.mem_map.mp hpart with ⟨c, hc, rfl⟩
      exact ⟨c, h c hc, rfl⟩

theorem mem_oneOf_mul_star_iff (first more : List Char) (text : List Char) :
    text ∈ (oneOf first * (oneOf more).star).matches' ↔
      ∃ c rest, text = c :: rest ∧ c ∈ first ∧ ∀ d ∈ rest, d ∈ more := by
  rw [RegularExpression.matches'_mul, Language.mem_mul]
  simp only [mem_oneOf_iff, mem_star_oneOf_iff]
  constructor
  . rintro ⟨_, ⟨c, hc, rfl⟩, rest, hrest, rfl⟩
    exact ⟨c, rest, rfl, hc, hrest⟩
  . rintro ⟨c, rest, rfl, hc, hrest⟩
    exact ⟨[c], ⟨c, hc, rfl⟩, rest, hrest, rfl⟩

theorem mem_word_iff (text : List Char) : text ∈ word.matches' ↔ IsWord text := by
  unfold word IsWord
  simp only [mem_oneOf_mul_star_iff, List.mem_append, mem_letters_iff, mem_digits_iff]

theorem mem_someDigits_iff (text : List Char) :
    text ∈ someDigits.matches' ↔ text ≠ [] ∧ ∀ c ∈ text, IsDigit c := by
  unfold someDigits
  rw [mem_oneOf_mul_star_iff]
  simp only [mem_digits_iff]
  cases text with
  | nil => simp
  | cons c rest => simp

theorem mem_number_iff (text : List Char) : text ∈ number.matches' ↔ IsNumber text := by
  unfold number IsNumber
  simp only [RegularExpression.matches'_mul, RegularExpression.matches'_add,
    RegularExpression.matches'_epsilon, Language.mem_mul, Language.mem_add, Language.mem_one,
    mem_char_iff, mem_someDigits_iff, mem_star_oneOf_iff, mem_digits_iff]
  constructor
  . rintro ⟨whole, ⟨hne, hwhole⟩, _, rfl | ⟨_, rfl, fraction, hfraction, rfl⟩, rfl⟩
    . rw [List.append_nil]
      exact ⟨_, .whole hne hwhole⟩
    . exact ⟨_, .point hne hwhole hfraction⟩
  . rintro ⟨d, h⟩
    cases h with
    | whole hne hwhole => exact ⟨text, ⟨hne, hwhole⟩, [], .inl rfl, List.append_nil text⟩
    | @point whole fraction hne hwhole hfraction =>
      exact ⟨whole, ⟨hne, hwhole⟩, _, .inr ⟨['.'], rfl, fraction, hfraction, rfl⟩, rfl⟩

theorem mem_decimal_of_mem_number (h : text ∈ number.matches') : text ∈ decimal.matches' := by
  simp only [number, RegularExpression.matches'_mul, RegularExpression.matches'_add,
    RegularExpression.matches'_epsilon, Language.mem_mul, Language.mem_add, Language.mem_one] at h
  rcases h with ⟨digits, hdigits, _, rfl | ⟨point, hpoint, fraction, hfraction, rfl⟩, rfl⟩
  . rw [List.append_nil]
    exact .inl (.inl hdigits)
  . exact .inl (.inr ⟨digits, hdigits, _, ⟨point, hpoint, fraction, hfraction, rfl⟩, rfl⟩)

theorem mem_float_of_mem_number (h : text ∈ number.matches') : text ∈ float.matches' := by
  -- A numeral has neither a sign nor an exponent.
  have hsign : [] ∈ sign.matches' := .inl rfl
  have hexponent : [] ∈ (1 + exponent).matches' := .inl rfl
  refine ⟨[], hsign, text, .inr ?_, rfl⟩
  exact ⟨text, mem_decimal_of_mem_number h, [], hexponent, List.append_nil text⟩

end Membership

section Search

variable {pattern : Pattern} {text other whole : List Char}

theorem Finds.unique (h : Finds pattern text whole) (h' : Finds pattern other whole) :
    text = other := by
  have hle := h.longest other h'.isPrefix h'.mem
  have hge := h'.longest text h.isPrefix h.mem
  exact (List.prefix_of_prefix_length_le h.isPrefix h'.isPrefix hge).eq_of_length (by omega)

theorem nil_mem_iff (pattern : Pattern) : [] ∈ pattern.matches' ↔ pattern.matchEpsilon := by
  rw [← RegularExpression.rmatch_iff_matches']
  rfl

theorem cons_mem_iff (pattern : Pattern) (c : Char) (text : List Char) :
    c :: text ∈ pattern.matches' ↔ text ∈ (pattern.deriv c).matches' := by
  rw [← RegularExpression.rmatch_iff_matches', ← RegularExpression.rmatch_iff_matches']
  rfl

theorem Finds.cons {c : Char} (h : Finds (pattern.deriv c) text whole) :
    Finds pattern (c :: text) (c :: whole) := by
  refine ⟨?_, ?_, ?_⟩
  . exact (List.prefix_cons_inj c).mpr h.isPrefix
  . rw [cons_mem_iff]
    exact h.mem
  . intro other hother hmem
    cases other with
    | nil => exact Nat.zero_le _
    | cons d other =>
      rw [List.cons_prefix_cons] at hother
      rcases hother with ⟨rfl, hother⟩
      rw [cons_mem_iff] at hmem
      exact Nat.succ_le_succ (h.longest other hother hmem)

theorem finds_or_none (pattern : Pattern) (whole : List Char) :
    (∃ text, pattern.find? whole = some text ∧ Finds pattern text whole) ∨
      pattern.find? whole = none ∧ ∀ text, text <+: whole → text ∉ pattern.matches' := by
  induction whole generalizing pattern with
  | nil =>
    simp only [find?, List.prefix_nil, forall_eq, nil_mem_iff]
    split
    . next h =>
      refine .inl ⟨[], rfl, List.nil_prefix, (nil_mem_iff pattern).mpr h, ?_⟩
      intro other hother _
      exact hother.length_le
    . next h => exact .inr ⟨rfl, h⟩
  | cons c whole ih =>
    rw [find?]
    rcases ih (pattern.deriv c) with ⟨text, hfound, hfinds⟩ | ⟨hfound, hnone⟩
    . rw [hfound]
      exact .inl ⟨c :: text, rfl, hfinds.cons⟩
    -- Nothing that begins with `c` matches, so that the empty text is left.
    . have hempty : ∀ text, text <+: c :: whole → text ∈ pattern.matches' → text = [] := by
        intro text htext hmem
        cases text with
        | nil => rfl
        | cons d text =>
          rw [List.cons_prefix_cons] at htext
          rcases htext with ⟨rfl, htext⟩
          rw [cons_mem_iff] at hmem
          exact absurd hmem (hnone text htext)
      rw [hfound]
      dsimp only
      split
      . next h =>
        refine .inl ⟨[], rfl, List.nil_prefix, (nil_mem_iff pattern).mpr h, ?_⟩
        intro other hother hmem
        rw [hempty other hother hmem]
      . next h =>
        refine .inr ⟨rfl, ?_⟩
        intro text htext hmem
        rw [hempty text htext hmem, nil_mem_iff] at hmem
        exact h hmem

theorem find?_eq_some_iff : pattern.find? whole = some text ↔ Finds pattern text whole := by
  constructor
  . intro h
    rcases finds_or_none pattern whole with ⟨found, hfound, hfinds⟩ | ⟨hfound, -⟩
    . rw [h] at hfound
      injection hfound with hfound
      rwa [hfound]
    . rw [h] at hfound
      contradiction
  . intro h
    rcases finds_or_none pattern whole with ⟨found, hfound, hfinds⟩ | ⟨-, hnone⟩
    . rw [hfound, hfinds.unique h]
    . exact absurd h.mem (hnone text h.isPrefix)

end Search

end Pattern

end SketchLang
