import SketchLang.Proofs.Lexeme.Recognition

namespace SketchLang.Lexeme

/--
`Clashes x y`: the token text `y` right after the token text `x` is read as part of it.
-/
def Clashes (x y : List Char) : Prop :=
  IsWord x ∧ (IsWord y ∨ IsNumber y) ∨ IsNumber x ∧ IsNumber y ∨
    IsNumber x ∧ '.' ∉ x ∧ y = ['.'] ∨ (∃ c ∈ compound, x = [c]) ∧ (y = ['='] ∨ y = ['=', '='])

variable {c : Char} {text y rest : List Char} {lexeme : Lexeme}

theorem head_isWord (h : IsWord (c :: text)) : IsLetter c := by
  rw [isWord_cons] at h
  exact h.1

theorem head_isNumber (h : IsNumber (c :: text)) : IsDigit c := by
  rcases h with ⟨d, h⟩
  rcases exists_cons_of_numeral h with ⟨e, inner, heq, he⟩
  injection heq with hhead
  rw [hhead]
  exact he

theorem head_isQuoted (h : IsQuoted (c :: text)) : isQuote c := by
  rcases h with ⟨mark, inner, heq, hmark, -⟩
  injection heq with hhead
  rw [hhead]
  exact hmark

theorem exists_cons_of_isTokenText (h : IsTokenText text) : ∃ c inner, text = c :: inner := by
  rcases h with h | h | h | h
  . rcases h with ⟨c, inner, heq, -⟩
    exact ⟨c, inner, heq⟩
  . rcases h with ⟨d, h⟩
    rcases exists_cons_of_numeral h with ⟨c, inner, heq, -⟩
    exact ⟨c, inner, heq⟩
  . rcases h with ⟨mark, inner, heq, -⟩
    exact ⟨mark, inner ++ [mark], heq⟩
  . exact exists_cons_of_isOperator h

-- The class of a token text can be told from its first character.

theorem isWord_iff_isLetter (h : IsTokenText (c :: text)) : IsWord (c :: text) ↔ IsLetter c := by
  constructor
  . exact head_isWord
  . intro hc
    rcases h with h | h | h | h
    . exact h
    . exact absurd hc (not_isLetter_of_isDigit (head_isNumber h))
    . exact absurd hc (not_class_of_isQuote (head_isQuoted h)).1
    . exact absurd hc (head_isOperator h).1

theorem isNumber_iff_isDigit (h : IsTokenText (c :: text)) : IsNumber (c :: text) ↔ IsDigit c := by
  constructor
  . exact head_isNumber
  . intro hc
    rcases h with h | h | h | h
    . exact absurd (head_isWord h) (not_isLetter_of_isDigit hc)
    . exact h
    . exact absurd hc (not_class_of_isQuote (head_isQuoted h)).2
    . exact absurd hc (head_isOperator h).2.1

theorem isOperator_of_mem_marks (h : IsTokenText (c :: text)) (hc : c ∈ marks) :
    IsOperator (c :: text) := by
  rcases h with h | h | h | h
  . exact absurd (head_isWord h) ((not_class_of_mem_marks hc).1)
  . exact absurd (head_isNumber h) ((not_class_of_mem_marks hc).2.1)
  . have hquote := head_isQuoted h
    rw [(not_class_of_mem_marks hc).2.2] at hquote
    contradiction
  . exact h

theorem eq_point_iff (h : IsTokenText (c :: text)) : c :: text = ['.'] ↔ c = '.' := by
  constructor
  . intro heq
    injection heq
  . rintro rfl
    have hoperator := isOperator_of_mem_marks h (by decide)
    rw [isOperator_iff] at hoperator
    simpa [compound, marks] using hoperator

theorem eq_equals_iff (h : IsTokenText (c :: text)) :
    c :: text = ['='] ∨ c :: text = ['=', '='] ↔ c = '=' := by
  constructor
  . intro heq
    cases heq with
    | inl heq => injection heq
    | inr heq => injection heq
  . rintro rfl
    have hoperator := isOperator_of_mem_marks h (by decide)
    rw [isOperator_iff] at hoperator
    simpa [marks, compound] using hoperator

theorem continuedBy_iff_clashes (h : lexeme.Lawful) (hy : IsTokenText (c :: text)) :
    lexeme.ContinuedBy c ↔ Clashes lexeme.raw (c :: text) := by
  unfold Clashes
  rw [isWord_iff_isLetter hy]
  rw [isNumber_iff_isDigit hy]
  rw [eq_point_iff hy]
  rw [eq_equals_iff hy]
  cases h with
  | @word x hword =>
    rcases id hword with ⟨d, inner, rfl, hd, -⟩
    have hnumber : ¬ IsNumber (d :: inner) :=
      fun h => not_isLetter_of_isDigit (head_isNumber h) hd
    have hmark : ¬ ∃ e ∈ compound, d :: inner = [e] := by
      rintro ⟨e, he, heq⟩
      injection heq with hhead
      rw [hhead] at hd
      exact (not_class_of_mem_marks (mem_marks_of_mem_compound he)).1 hd
    simp only [ContinuedBy, raw, hword, hnumber, hmark, true_and, false_and, or_false]
  | @number x d hnumeral =>
    have hnumber : IsNumber x := ⟨d, hnumeral⟩
    rcases exists_cons_of_numeral hnumeral with ⟨d, inner, rfl, hd⟩
    have hword : ¬ IsWord (d :: inner) :=
      fun h => not_isLetter_of_isDigit hd (head_isWord h)
    have hmark : ¬ ∃ e ∈ compound, d :: inner = [e] := by
      rintro ⟨e, he, heq⟩
      injection heq with hhead
      rw [hhead] at hd
      exact (not_class_of_mem_marks (mem_marks_of_mem_compound he)).2.1 hd
    simp only [ContinuedBy, raw, hword, hnumber, hmark, true_and, false_and, false_or, or_false]
    rw [and_comm (b := c = '.')]
  | @quoted mark inner hquote hinner =>
    rcases not_class_of_isQuote hquote with ⟨hletter, hdigit⟩
    have hword : ¬ IsWord (mark :: inner ++ [mark]) := fun h => hletter (head_isWord h)
    have hnumber : ¬ IsNumber (mark :: inner ++ [mark]) := fun h => hdigit (head_isNumber h)
    simp only [ContinuedBy, raw, hword, hnumber, false_and, false_or, false_iff]
    simp
  | @operator x kind hmem =>
    have hoperator : IsOperator x := ⟨kind, hmem⟩
    rcases exists_cons_of_isOperator hoperator with ⟨d, inner, rfl⟩
    rcases head_isOperator hoperator with ⟨hletter, hdigit, -⟩
    have hword : ¬ IsWord (d :: inner) := fun h => hletter (head_isWord h)
    have hnumber : ¬ IsNumber (d :: inner) := fun h => hdigit (head_isNumber h)
    simp only [ContinuedBy, raw, hword, hnumber, false_and, false_or]
    exact isOperator_append_singleton hoperator c

theorem closed_append_iff (h : lexeme.Lawful) (hy : IsTokenText y) :
    lexeme.Closed (y ++ rest) ↔ ¬ Clashes lexeme.raw y := by
  rcases exists_cons_of_isTokenText hy with ⟨c, text, rfl⟩
  rw [← continuedBy_iff_clashes h hy]
  constructor
  . intro hclosed
    exact hclosed c rfl
  . intro hnot d hd
    injection hd with hd
    rw [← hd]
    exact hnot

end SketchLang.Lexeme
