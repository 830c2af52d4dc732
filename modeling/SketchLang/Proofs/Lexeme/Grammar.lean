import SketchLang.Lexeme

namespace SketchLang.Lexeme

def IsDigit (c : Char) : Prop := '0' ≤ c ∧ c ≤ '9'

def IsLetter (c : Char) : Prop := 'A' ≤ c ∧ c ≤ 'Z' ∨ 'a' ≤ c ∧ c ≤ 'z' ∨ c = '_'

instance : DecidablePred IsDigit := fun c => inferInstanceAs (Decidable ('0' ≤ c ∧ c ≤ '9'))

instance : DecidablePred IsLetter :=
  fun c => inferInstanceAs (Decidable ('A' ≤ c ∧ c ≤ 'Z' ∨ 'a' ≤ c ∧ c ≤ 'z' ∨ c = '_'))

/--
`Numeral text d`: the digits of `text`, which may have one point between or after them, are the
number `d`.
-/
inductive Numeral : List Char → Decimal → Prop
  | whole {whole : List Char} (hne : whole ≠ []) (hwhole : ∀ c ∈ whole, IsDigit c) :
    Numeral whole (.ofDigits whole [])
  | point {whole fraction : List Char} (hne : whole ≠ []) (hwhole : ∀ c ∈ whole, IsDigit c)
    (hfraction : ∀ c ∈ fraction, IsDigit c) :
    Numeral (whole ++ '.' :: fraction) (.ofDigits whole fraction)

def IsWord (text : List Char) : Prop :=
  ∃ c rest, text = c :: rest ∧ IsLetter c ∧ ∀ d ∈ rest, IsLetter d ∨ IsDigit d

theorem isWord_cons (c : Char) (rest : List Char) :
    IsWord (c :: rest) ↔ IsLetter c ∧ ∀ d ∈ rest, IsLetter d ∨ IsDigit d := by
  constructor
  . intro h
    rcases h with ⟨d, inner, heq, hd, hinner⟩
    injection heq with hhead htail
    subst hhead htail
    exact ⟨hd, hinner⟩
  . intro h
    exact ⟨c, rest, rfl, h.1, h.2⟩

instance : DecidablePred IsWord
  | [] => .isFalse (by simp [IsWord])
  | c :: rest =>
    decidable_of_iff (IsLetter c ∧ rest.all fun d => IsLetter d ∨ IsDigit d)
      (by simp [isWord_cons])

def IsNumber (text : List Char) : Prop := ∃ d, Numeral text d

def IsQuoted (text : List Char) : Prop :=
  ∃ mark inner, text = mark :: inner ++ [mark] ∧ isQuote mark ∧ mark ∉ inner

def IsOperator (text : List Char) : Prop := ∃ kind, (String.ofList text, kind) ∈ Token.operators

def IsTokenText (text : List Char) : Prop :=
  IsWord text ∨ IsNumber text ∨ IsQuoted text ∨ IsOperator text

inductive Lawful : Lexeme → Prop
  | word {text : List Char} (h : IsWord text) : Lawful (word text)
  | number {text : List Char} {d : Decimal} (h : Numeral text d) :
    Lawful (number text (.ofDecimal d))
  | quoted {mark : Char} {text : List Char} (hmark : isQuote mark) (htext : mark ∉ text) :
    Lawful (quoted mark text)
  | operator {text : List Char} {kind : Token.Kind}
    (h : (String.ofList text, kind) ∈ Token.operators) : Lawful (operator text kind)

theorem isTokenText_iff (text : List Char) :
    IsTokenText text ↔ ∃ lexeme, Lawful lexeme ∧ lexeme.raw = text := by
  constructor
  . intro h
    rcases h with h | ⟨d, h⟩ | ⟨mark, inner, rfl, hmark, hinner⟩ | ⟨kind, h⟩
    . exact ⟨_, .word h, rfl⟩
    . exact ⟨_, .number h, rfl⟩
    . exact ⟨_, .quoted hmark hinner, rfl⟩
    . exact ⟨_, .operator h, rfl⟩
  . rintro ⟨lexeme, h, rfl⟩
    cases h with
    | word h => exact .inl h
    | number h => exact .inr (.inl ⟨_, h⟩)
    | quoted hmark htext => exact .inr (.inr (.inl ⟨_, _, rfl, hmark, htext⟩))
    | operator h => exact .inr (.inr (.inr ⟨_, h⟩))

theorem isDigit_iff (c : Char) : c.isDigit = true ↔ IsDigit c := by
  have hdigit : c.isDigit = (decide ('0' ≤ c) && decide (c ≤ '9')) := rfl
  rw [hdigit, Bool.and_eq_true, decide_eq_true_eq, decide_eq_true_eq]
  rfl

theorem isWordStart_iff (c : Char) : isWordStart c = true ↔ IsLetter c := by
  have hletter : isWordStart c = (decide ('A'.val ≤ c.val ∧ c.val ≤ 'Z'.val) ||
      decide ('a'.val ≤ c.val) && decide (c.val ≤ 'z'.val) || c == '_') := rfl
  rw [hletter]
  simp only [Bool.or_eq_true, Bool.and_eq_true, decide_eq_true_eq, beq_iff_eq, or_assoc]
  rfl

theorem isWordRest_iff (c : Char) : isWordRest c = true ↔ IsLetter c ∨ IsDigit c := by
  have hrest : isWordRest c = (c.isAlpha || c.isDigit || c == '_') := rfl
  have hstart : isWordStart c = (c.isAlpha || c == '_') := rfl
  rw [← isWordStart_iff, ← isDigit_iff, hrest, hstart]
  simp only [Bool.or_eq_true]
  apply or_right_comm

theorem isQuote_iff (c : Char) : isQuote c = true ↔ c = '"' ∨ c = '\'' := by
  simp [isQuote]

theorem not_isLetter_of_isDigit {c : Char} (h : IsDigit c) : ¬ IsLetter c := by
  unfold IsLetter
  rintro (hupper | hlower | rfl)
  . have : 'A' ≤ '9' := Char.le_trans hupper.1 h.2
    contradiction
  . have : 'a' ≤ '9' := Char.le_trans hlower.1 h.2
    contradiction
  . revert h
    decide

theorem not_class_of_isQuote {c : Char} (h : isQuote c) : ¬ IsLetter c ∧ ¬ IsDigit c := by
  rw [isQuote_iff] at h
  cases h with
  | inl h =>
    rw [h]
    decide
  | inr h =>
    rw [h]
    decide

theorem not_isQuote_of_isDigit {c : Char} (h : IsDigit c) : isQuote c = false := by
  rw [Bool.eq_false_iff]
  intro hquote
  exact (not_class_of_isQuote hquote).2 h

theorem not_isQuote_of_isLetter {c : Char} (h : IsLetter c) : isQuote c = false := by
  rw [Bool.eq_false_iff]
  intro hquote
  exact (not_class_of_isQuote hquote).1 h

theorem operatorKind?_eq_some_iff (lexeme : String) (kind : Token.Kind) :
    Token.operatorKind? lexeme = some kind ↔ (lexeme, kind) ∈ Token.operators := by
  constructor
  . intro h
    unfold Token.operatorKind? at h
    rw [List.lookup_eq_some_iff] at h
    rcases h with ⟨before, after, heq, -⟩
    rw [heq]
    simp
  . have htable : ∀ entry ∈ Token.operators, Token.operatorKind? entry.1 = some entry.2 := by
      decide +kernel
    exact htable (lexeme, kind)

theorem isOperator_iff_isSome (text : List Char) :
    IsOperator text ↔ (Token.operatorKind? (String.ofList text)).isSome := by
  unfold IsOperator
  rw [Option.isSome_iff_exists]
  simp only [operatorKind?_eq_some_iff]

theorem operatorKind?_of_not {text : List Char} (h : ¬ IsOperator text) :
    Token.operatorKind? (String.ofList text) = none := by
  rwa [isOperator_iff_isSome, Option.not_isSome_iff_eq_none] at h

def marks : List Char :=
  ['(', ')', '\x7b', '\x7d', '[', ']', '.', ',', ':', '+', '-', '*', '/', '=', '!', '>', '<']

def compound : List Char := ['=', '!', '>', '<']

theorem isOperator_iff (text : List Char) :
    IsOperator text ↔ (∃ c ∈ marks, text = [c]) ∨ (∃ c ∈ compound, text = [c, '=']) ∨
      text = ['&', '&'] ∨ text = ['|', '|'] := by
  constructor
  -- Both tables are finite, so each side is a check of all their entries.
  . have htable : Token.operators.all (fun entry =>
        marks.any (fun c => entry.1 == String.ofList [c]) ||
          compound.any (fun c => entry.1 == String.ofList [c, '=']) ||
          entry.1 == String.ofList ['&', '&'] || entry.1 == String.ofList ['|', '|']) := by
      decide +kernel
    intro h
    rcases h with ⟨kind, h⟩
    have := List.all_eq_true.mp htable _ h
    simpa only [Bool.or_eq_true, List.any_eq_true, beq_iff_eq, String.ofList_inj, or_assoc]
      using this
  . have hmarks : marks.all (fun c => (Token.operatorKind? (String.ofList [c])).isSome) := by
      decide +kernel
    have hcompound : compound.all (fun c =>
        (Token.operatorKind? (String.ofList [c, '='])).isSome) := by
      decide +kernel
    intro h
    rw [isOperator_iff_isSome]
    rcases h with ⟨c, hc, rfl⟩ | ⟨c, hc, rfl⟩ | rfl | rfl
    . exact List.all_eq_true.mp hmarks c hc
    . exact List.all_eq_true.mp hcompound c hc
    . decide +kernel
    . decide +kernel

theorem isOperator_singleton (c : Char) : IsOperator [c] ↔ c ∈ marks := by
  rw [isOperator_iff]
  simp

theorem isOperator_pair (c d : Char) :
    IsOperator [c, d] ↔ c ∈ compound ∧ d = '=' ∨ c = d ∧ (c = '&' ∨ c = '|') := by
  rw [isOperator_iff]
  simp only [List.cons.injEq, List.cons_ne_nil, and_false, exists_const, false_or, and_true]
  constructor
  . rintro (⟨e, he, rfl, rfl⟩ | ⟨rfl, rfl⟩ | ⟨rfl, rfl⟩)
    . exact .inl ⟨he, rfl⟩
    all_goals simp
  . rintro (⟨hc, rfl⟩ | ⟨rfl, rfl | rfl⟩)
    . exact .inl ⟨c, hc, rfl, rfl⟩
    all_goals simp

theorem length_le_two_of_isOperator {text : List Char} (h : IsOperator text) :
    text.length ≤ 2 := by
  rw [isOperator_iff] at h
  rcases h with ⟨c, -, rfl⟩ | ⟨c, -, rfl⟩ | rfl | rfl
  all_goals simp

theorem exists_cons_of_isOperator {text : List Char} (h : IsOperator text) :
    ∃ c inner, text = c :: inner := by
  cases text with
  | nil =>
    rw [isOperator_iff] at h
    simp at h
  | cons c inner => exact ⟨c, inner, rfl⟩

theorem isOperator_append_singleton {text : List Char} (h : IsOperator text) (c : Char) :
    IsOperator (text ++ [c]) ↔ (∃ d ∈ compound, text = [d]) ∧ c = '=' := by
  constructor
  . intro hmore
    have hlength := length_le_two_of_isOperator hmore
    rcases exists_cons_of_isOperator h with ⟨d, inner, rfl⟩
    simp only [List.cons_append, List.length_cons, List.length_append, List.length_nil] at hlength
    have hinner : inner = [] := List.eq_nil_of_length_eq_zero (by omega)
    subst hinner
    have hpair : IsOperator [d, c] := hmore
    rw [isOperator_pair] at hpair
    cases hpair with
    | inl hpair => exact ⟨⟨d, hpair.1, rfl⟩, hpair.2⟩
    | inr hpair =>
      rw [isOperator_singleton] at h
      rcases hpair with ⟨-, rfl | rfl⟩
      all_goals exact absurd h (by decide)
  . intro hmore
    rcases hmore with ⟨⟨d, hd, rfl⟩, rfl⟩
    rw [List.singleton_append]
    rw [isOperator_pair]
    exact .inl ⟨hd, rfl⟩

theorem mem_marks_of_mem_compound {c : Char} (h : c ∈ compound) : c ∈ marks := by
  have hall : compound.all (· ∈ marks) := by decide
  simpa using List.all_eq_true.mp hall c h

theorem not_class_of_mem_marks {c : Char} (h : c ∈ marks) :
    ¬ IsLetter c ∧ ¬ IsDigit c ∧ isQuote c = false := by
  have hall : marks.all (fun c => ¬ IsLetter c ∧ ¬ IsDigit c ∧ isQuote c = false) := by decide
  simpa using List.all_eq_true.mp hall c h

-- The characters that the token texts of one class are made of.

theorem isLetter_or_isDigit_of_mem {c : Char} {text : List Char} (h : IsWord text) (hc : c ∈ text) :
    IsLetter c ∨ IsDigit c := by
  rcases h with ⟨d, rest, rfl, hd, hrest⟩
  rw [List.mem_cons] at hc
  rcases hc with rfl | hc
  . exact .inl hd
  . exact hrest c hc

theorem isDigit_or_eq_point_of_mem {c : Char} {text : List Char} {d : Decimal} (h : Numeral text d)
    (hc : c ∈ text) : IsDigit c ∨ c = '.' := by
  cases h with
  | whole _ hwhole => exact .inl (hwhole c hc)
  | point _ hwhole hfraction =>
    rw [List.mem_append, List.mem_cons] at hc
    rcases hc with hc | hc | hc
    . exact .inl (hwhole c hc)
    . exact .inr hc
    . exact .inl (hfraction c hc)

theorem mem_marks_or_doubled_of_mem {c : Char} {text : List Char} (h : IsOperator text)
    (hc : c ∈ text) : c ∈ marks ∨ c = '&' ∨ c = '|' := by
  rw [isOperator_iff] at h
  rcases h with ⟨d, hd, rfl⟩ | ⟨d, hd, rfl⟩ | rfl | rfl
  . rw [List.mem_singleton] at hc
    rw [hc]
    exact .inl hd
  . rw [List.mem_cons, List.mem_singleton] at hc
    rcases hc with rfl | rfl
    . exact .inl (mem_marks_of_mem_compound hd)
    . exact .inl (by decide)
  all_goals
    simp only [List.mem_cons, List.not_mem_nil, or_false, or_self] at hc
    rw [hc]
    simp

end SketchLang.Lexeme
