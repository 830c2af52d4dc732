import SketchLang.Proofs.Lexeme.Grammar
import SketchLang.Proofs.Text.Run

/-!
This module contains what the recognisers find, in terms of the grammar. The lexeme at the start of
a text is a lawful one that the character after it does not continue, and there is never a second
one (`Lexeme.first?_eq_some_iff`). No lexeme is found only where a quotation mark does not come
again or a character stands that begins no token text (`Lexeme.first?_eq_none_iff`).
-/

namespace SketchLang.Lexeme

open Text

def ContinuedBy : Lexeme → Char → Prop
  | word _, c => IsLetter c ∨ IsDigit c
  | number text _, c => IsDigit c ∨ c = '.' ∧ '.' ∉ text
  | quoted _ _, _ => False
  | operator text _, c => IsOperator (text ++ [c])

/--
Whether a lexeme is over where `rest` follows it. One character is enough to tell.
-/
def Closed (lexeme : Lexeme) (rest : List Char) : Prop :=
  ∀ c, rest.head? = some c → ¬ lexeme.ContinuedBy c

variable {c : Char} {text rest : List Char} {lexeme : Lexeme}

section Complete

theorem isDigit_false_of_not {c : Char} (h : ¬ IsDigit c) : c.isDigit = false := by
  rw [Bool.eq_false_iff, ne_eq, isDigit_iff]
  assumption

theorem word?_of_closed (hword : IsWord text) (hclosed : (word text).Closed rest) :
    word? (text ++ rest) = some (word text) := by
  rcases hword with ⟨c, inner, rfl, hc, hinner⟩
  have hrun : (inner ++ rest).takeWhile isWordRest = inner := by
    apply takeWhile_run
    . intro d hd
      rw [isWordRest_iff]
      apply hinner
      assumption
    . intro d hd
      rw [Bool.eq_false_iff, ne_eq, isWordRest_iff]
      apply hclosed
      assumption
  rw [← isWordStart_iff] at hc
  simp [word?, hc, hrun]

theorem ofText?_of_numeral {d : Decimal} (h : Numeral text d) : Decimal.ofText? text = some d := by
  cases h with
  | whole hne hwhole =>
    have hall : ∀ c ∈ text, c.isDigit := by simpa only [isDigit_iff] using hwhole
    have htake : (text ++ []).takeWhile Char.isDigit = text := takeWhile_run hall (by simp)
    have hdrop : (text ++ []).dropWhile Char.isDigit = [] := dropWhile_run hall (by simp)
    rw [List.append_nil] at htake hdrop
    simp [Decimal.ofText?, htake, hdrop, hne]
  | @point whole fraction hne hwhole hfraction =>
    have hall : ∀ c ∈ whole, c.isDigit := by simpa only [isDigit_iff] using hwhole
    have hpoint : ∀ c, ('.' :: fraction).head? = some c → c.isDigit = false := by simp
    have hrest : ∀ c ∈ fraction, c.isDigit := by simpa only [isDigit_iff] using hfraction
    have htake := takeWhile_run hall hpoint
    have hdrop := dropWhile_run hall hpoint
    simp only [Decimal.ofText?, htake, hdrop]
    simpa [hne] using hrest

theorem numeral_of_ofText? {d : Decimal} (h : Decimal.ofText? text = some d) : Numeral text d := by
  have hsplit := List.takeWhile_append_dropWhile (p := Char.isDigit) (l := text)
  have hwhole : ∀ c ∈ text.takeWhile Char.isDigit, IsDigit c := by
    intro c hc
    rw [← isDigit_iff]
    exact List.all_eq_true.mp List.all_takeWhile c hc
  unfold Decimal.ofText? at h
  dsimp only at h
  split at h
  . contradiction
  . next hne =>
    rw [List.isEmpty_iff] at hne
    split at h
    . next hrest =>
      injection h with h
      rw [hrest, List.append_nil] at hsplit
      rw [hsplit] at h hne hwhole
      rw [← h]
      exact .whole hne hwhole
    . next fraction hrest =>
      split at h
      . next hall =>
        injection h with h
        rw [hrest] at hsplit
        have hfraction : ∀ c ∈ fraction, IsDigit c := by
          intro c hc
          rw [← isDigit_iff]
          exact List.all_eq_true.mp hall c hc
        rw [← hsplit, ← h]
        exact .point hne hwhole hfraction
      . contradiction
    . contradiction

theorem numeral_of_closed {d : Decimal} {value : Binary64} (h : Numeral text d)
    (hclosed : (number text value).Closed rest) : numeral (text ++ rest) = text := by
  have hdigit : ∀ c, rest.head? = some c → c.isDigit = false := by
    intro c hc
    apply isDigit_false_of_not
    intro hdigit
    exact hclosed c hc (.inl hdigit)
  cases h with
  | whole hne hwhole =>
    have hall : ∀ c ∈ text, c.isDigit := by simpa only [isDigit_iff] using hwhole
    have hpoint : '.' ∉ text := by
      intro hmem
      have := hwhole _ hmem
      revert this
      decide
    unfold numeral
    rw [takeWhile_run hall hdigit]
    rw [dropWhile_run hall hdigit]
    split
    -- A point would continue a number that has none.
    . next after => exact absurd (.inr ⟨rfl, hpoint⟩) (hclosed '.' rfl)
    . rfl
  | @point whole fraction hne hwhole hfraction =>
    have hall : ∀ c ∈ whole, c.isDigit := by simpa only [isDigit_iff] using hwhole
    have hpoint : ∀ c, ('.' :: (fraction ++ rest)).head? = some c → c.isDigit = false := by simp
    have hrest : ∀ c ∈ fraction, c.isDigit := by simpa only [isDigit_iff] using hfraction
    rw [List.append_assoc]
    rw [List.cons_append]
    unfold numeral
    rw [takeWhile_run hall hpoint]
    rw [dropWhile_run hall hpoint]
    simp [takeWhile_run hrest hdigit]

theorem number?_of_closed {d : Decimal} (h : Numeral text d)
    (hclosed : (number text (.ofDecimal d)).Closed rest) :
    number? (text ++ rest) = some (number text (.ofDecimal d)) := by
  unfold number?
  rw [numeral_of_closed h hclosed]
  rw [ofText?_of_numeral h]

theorem quoted?_of_not_mem {mark : Char} (hmark : isQuote mark) (htext : mark ∉ text) :
    quoted? ((quoted mark text).raw ++ rest) = some (quoted mark text) := by
  have hrun : (text ++ mark :: rest).takeWhile (· != mark) = text := by
    apply takeWhile_run
    . intro c hc
      rw [bne_iff_ne]
      rintro rfl
      contradiction
    . simp
  simp [raw, quoted?, hmark, hrun]

theorem exactOperator?_of_mem {kind : Token.Kind}
    (h : (String.ofList text, kind) ∈ Token.operators) :
    exactOperator? text = some (operator text kind) := by
  rw [← operatorKind?_eq_some_iff] at h
  unfold exactOperator?
  rw [h]
  rfl

theorem exactOperator?_of_not (h : ¬ IsOperator text) : exactOperator? text = none := by
  unfold exactOperator?
  rw [operatorKind?_of_not h]
  rfl

theorem operator?_of_closed {kind : Token.Kind} (h : (String.ofList text, kind) ∈ Token.operators)
    (hclosed : (operator text kind).Closed rest) :
    operator? (text ++ rest) = some (operator text kind) := by
  have hfound := exactOperator?_of_mem h
  have hcases := (isOperator_iff text).mp ⟨kind, h⟩
  have hlength : (∃ c, text = [c]) ∨ ∃ c d, text = [c, d] := by
    rcases hcases with ⟨c, -, rfl⟩ | ⟨c, -, rfl⟩ | rfl | rfl
    . exact .inl ⟨c, rfl⟩
    all_goals
      exact .inr ⟨_, _, rfl⟩
  unfold operator?
  rcases hlength with ⟨c, rfl⟩ | ⟨c, d, rfl⟩
  -- Two characters are tried first, and they are no operator because the lexeme is closed.
  . cases rest with
    | nil => simp [hfound]
    | cons d rest =>
      have hpair : exactOperator? [c, d] = none := by
        apply exactOperator?_of_not
        exact hclosed d rfl
      simp [hfound, hpair]
  . simp [hfound]

end Complete

section Dispatch

theorem quoted?_of_not_isQuote (hc : isQuote c = false) : quoted? (c :: rest) = none := by
  simp [quoted?, hc]

theorem number?_of_not_isDigit (hc : ¬ IsDigit c) : number? (c :: rest) = none := by
  have hdigit := isDigit_false_of_not hc
  have hempty : (numeral (c :: rest)).takeWhile Char.isDigit = [] := by
    simp only [numeral, List.takeWhile_cons, List.dropWhile_cons, hdigit]
    split
    all_goals simp
  simp [number?, Decimal.ofText?, hempty]

theorem word?_of_not_isLetter (hc : ¬ IsLetter c) : word? (c :: rest) = none := by
  rw [← isWordStart_iff] at hc
  simp [word?, hc]

theorem head_isOperator (h : IsOperator (c :: text)) :
    ¬ IsLetter c ∧ ¬ IsDigit c ∧ isQuote c = false := by
  have hmarks : c ∈ marks ∨ c = '&' ∨ c = '|' := by
    rw [isOperator_iff] at h
    rcases h with ⟨d, hd, heq⟩ | ⟨d, hd, heq⟩ | heq | heq
    all_goals
      injection heq with hhead
      rw [hhead]
    . exact .inl hd
    . exact .inl (mem_marks_of_mem_compound hd)
    all_goals simp
  rcases hmarks with hc | rfl | rfl
  . exact not_class_of_mem_marks hc
  all_goals decide

theorem operator?_of_not (h : ∀ text, ¬ IsOperator (c :: text)) : operator? (c :: rest) = none := by
  unfold operator?
  rw [List.take_succ_cons, List.take_succ_cons]
  rw [exactOperator?_of_not (h _)]
  rw [exactOperator?_of_not (h _)]
  rfl

theorem first?_of_isQuote (hc : isQuote c) : first? (c :: rest) = quoted? (c :: rest) := by
  rcases not_class_of_isQuote hc with ⟨hletter, hdigit⟩
  have hoperator : ∀ text, ¬ IsOperator (c :: text) := by
    intro text h
    rw [(head_isOperator h).2.2] at hc
    contradiction
  unfold first?
  rw [number?_of_not_isDigit hdigit]
  rw [word?_of_not_isLetter hletter]
  rw [operator?_of_not hoperator]
  simp

theorem first?_of_isDigit (hc : IsDigit c) : first? (c :: rest) = number? (c :: rest) := by
  have hoperator : ∀ text, ¬ IsOperator (c :: text) := fun text h => (head_isOperator h).2.1 hc
  unfold first?
  rw [quoted?_of_not_isQuote (not_isQuote_of_isDigit hc)]
  rw [word?_of_not_isLetter (not_isLetter_of_isDigit hc)]
  rw [operator?_of_not hoperator]
  simp

theorem first?_of_isLetter (hc : IsLetter c) : first? (c :: rest) = word? (c :: rest) := by
  have hdigit : ¬ IsDigit c := fun h => not_isLetter_of_isDigit h hc
  have hoperator : ∀ text, ¬ IsOperator (c :: text) := fun text h => (head_isOperator h).1 hc
  unfold first?
  rw [quoted?_of_not_isQuote (not_isQuote_of_isLetter hc)]
  rw [number?_of_not_isDigit hdigit]
  rw [operator?_of_not hoperator]
  simp

theorem first?_of_not (hquote : isQuote c = false) (hdigit : ¬ IsDigit c) (hletter : ¬ IsLetter c) :
    first? (c :: rest) = operator? (c :: rest) := by
  unfold first?
  rw [quoted?_of_not_isQuote hquote]
  rw [number?_of_not_isDigit hdigit]
  rw [word?_of_not_isLetter hletter]
  simp

end Dispatch

theorem exists_cons_of_numeral {d : Decimal} (h : Numeral text d) :
    ∃ c inner, text = c :: inner ∧ IsDigit c := by
  cases h with
  | whole hne hwhole =>
    cases text with
    | nil => contradiction
    | cons c inner => exact ⟨c, inner, rfl, hwhole c (by simp)⟩
  | @point whole fraction hne hwhole hfraction =>
    cases whole with
    | nil => contradiction
    | cons c inner => exact ⟨c, inner ++ '.' :: fraction, rfl, hwhole c (by simp)⟩

theorem first?_of_closed (h : lexeme.Lawful) (hclosed : lexeme.Closed rest) :
    first? (lexeme.raw ++ rest) = some lexeme := by
  cases h with
  | word hword =>
    rcases id hword with ⟨c, inner, rfl, hc, -⟩
    rw [← word?_of_closed hword hclosed]
    exact first?_of_isLetter hc
  | number hnumeral =>
    rcases exists_cons_of_numeral hnumeral with ⟨c, inner, rfl, hc⟩
    rw [← number?_of_closed hnumeral hclosed]
    exact first?_of_isDigit hc
  | quoted hmark htext =>
    rw [← quoted?_of_not_mem hmark htext]
    exact first?_of_isQuote hmark
  | @operator text kind hmem =>
    have hoperator : IsOperator text := ⟨kind, hmem⟩
    rcases exists_cons_of_isOperator hoperator with ⟨c, inner, rfl⟩
    rcases head_isOperator hoperator with ⟨hletter, hdigit, hquote⟩
    rw [← operator?_of_closed hmem hclosed]
    exact first?_of_not hquote hdigit hletter

theorem closed_nil (lexeme : Lexeme) : lexeme.Closed [] := by
  intro c hc
  contradiction

theorem first?_raw (h : lexeme.Lawful) : first? lexeme.raw = some lexeme := by
  have hfound := first?_of_closed h lexeme.closed_nil
  rwa [List.append_nil] at hfound

def Starts (text : List Char) : Prop :=
  ∃ lexeme rest, text = raw lexeme ++ rest ∧ lexeme.Lawful ∧ lexeme.Closed rest

inductive Stuck : List Char → Prop
  | quote {c : Char} {rest : List Char} (hc : isQuote c) (hrest : c ∉ rest) : Stuck (c :: rest)
  | mark {c : Char} {rest : List Char} (hquote : isQuote c = false) (hletter : ¬ IsLetter c)
    (hdigit : ¬ IsDigit c) (hmark : c ∉ marks)
    (hdouble : c = '&' ∨ c = '|' → rest.head? ≠ some c) : Stuck (c :: rest)

section Total

theorem starts_of_isLetter (rest : List Char) (hc : IsLetter c) : Starts (c :: rest) := by
  rcases exists_run isWordRest rest with ⟨run, after, rfl, hrun, hafter⟩
  refine ⟨word (c :: run), after, rfl, .word ⟨c, run, rfl, hc, ?_⟩, ?_⟩
  . intro d hd
    rw [← isWordRest_iff]
    apply hrun
    assumption
  . intro d hd
    simp only [ContinuedBy]
    rw [← isWordRest_iff]
    rw [hafter d hd]
    simp

theorem starts_of_isDigit (rest : List Char) (hc : IsDigit c) : Starts (c :: rest) := by
  rcases exists_run Char.isDigit rest with ⟨whole, after, rfl, hwhole, hafter⟩
  have hdigits : ∀ d ∈ c :: whole, IsDigit d := by
    intro d hd
    rw [List.mem_cons] at hd
    rcases hd with rfl | hd
    . exact hc
    . rw [← isDigit_iff]
      apply hwhole
      assumption
  have hnot : ∀ d, after.head? = some d → ¬ IsDigit d := by
    intro d hd
    rw [← isDigit_iff]
    rw [hafter d hd]
    simp
  by_cases hpoint : ∃ fraction, after = '.' :: fraction
  . rcases hpoint with ⟨fraction, rfl⟩
    rcases exists_run Char.isDigit fraction with ⟨run, after, rfl, hrun, hend⟩
    simp only [isDigit_iff] at hrun
    refine ⟨_, after, ?_, .number (.point (by simp) hdigits hrun), ?_⟩
    . simp [raw]
    . intro d hd hcontinued
      simp only [ContinuedBy] at hcontinued
      rcases hcontinued with hdigit | ⟨-, hmem⟩
      . rw [← isDigit_iff] at hdigit
        rw [hend d hd] at hdigit
        contradiction
      . simp at hmem
  . refine ⟨_, after, ?_, .number (.whole (by simp) hdigits), ?_⟩
    . rfl
    . intro d hd hcontinued
      simp only [ContinuedBy] at hcontinued
      rcases hcontinued with hdigit | ⟨rfl, -⟩
      . exact hnot d hd hdigit
      . cases after with
        | nil => simp at hd
        | cons e fraction =>
          injection hd with hd
          exact hpoint ⟨fraction, by rw [hd]⟩

theorem starts_of_isQuote (hc : isQuote c) (hrest : c ∈ rest) : Starts (c :: rest) := by
  rcases List.eq_append_cons_of_mem hrest with ⟨inner, after, rfl, hinner⟩
  refine ⟨quoted c inner, after, ?_, .quoted hc hinner, ?_⟩
  . simp [raw]
  . intro d _ h
    exact h

theorem starts_of_isOperator_pair {d : Char} (rest : List Char) (h : IsOperator [c, d]) :
    Starts (c :: d :: rest) := by
  rcases id h with ⟨kind, hmem⟩
  refine ⟨operator [c, d] kind, rest, rfl, .operator hmem, ?_⟩
  intro e _ hcontinued
  have := length_le_two_of_isOperator hcontinued
  simp at this

theorem starts_of_isOperator_singleton (h : IsOperator [c])
    (hpair : ∀ d, rest.head? = some d → ¬ IsOperator [c, d]) : Starts (c :: rest) := by
  rcases id h with ⟨kind, hmem⟩
  exact ⟨operator [c] kind, rest, rfl, .operator hmem, hpair⟩

theorem starts_or_stuck (c : Char) (rest : List Char) : Starts (c :: rest) ∨ Stuck (c :: rest) := by
  by_cases hquote : isQuote c
  . by_cases hrest : c ∈ rest
    . exact .inl (starts_of_isQuote hquote hrest)
    . exact .inr (.quote hquote hrest)
  by_cases hdigit : IsDigit c
  . exact .inl (starts_of_isDigit rest hdigit)
  by_cases hletter : IsLetter c
  . exact .inl (starts_of_isLetter rest hletter)
  by_cases hpair : ∃ d, rest.head? = some d ∧ IsOperator [c, d]
  . rcases hpair with ⟨d, hd, hoperator⟩
    rcases List.head?_eq_some_iff.mp hd with ⟨after, rfl⟩
    exact .inl (starts_of_isOperator_pair after hoperator)
  by_cases hsingle : IsOperator [c]
  . refine .inl (starts_of_isOperator_singleton hsingle ?_)
    intro d hd hoperator
    exact hpair ⟨d, hd, hoperator⟩
  . rw [isOperator_singleton] at hsingle
    refine .inr (.mark (by simpa using hquote) hletter hdigit hsingle ?_)
    intro hdouble hd
    apply hpair
    refine ⟨c, hd, ?_⟩
    rw [isOperator_pair]
    exact .inr ⟨rfl, hdouble⟩

end Total

theorem first?_of_stuck (h : Stuck text) : first? text = none := by
  cases h with
  | quote hc hrest =>
    rw [first?_of_isQuote hc]
    simp [quoted?, hrest]
  | @mark c rest hquote hletter hdigit hmark hdouble =>
    have hsingle : ¬ IsOperator [c] := by
      rw [isOperator_singleton]
      exact hmark
    have hpair : ¬ IsOperator ((c :: rest).take 2) := by
      cases rest with
      | nil => exact hsingle
      | cons d rest =>
        simp only [List.take_succ_cons, List.take_zero]
        rw [isOperator_pair]
        rintro (⟨hc, -⟩ | ⟨rfl, hc⟩)
        . exact hmark (mem_marks_of_mem_compound hc)
        . exact hdouble hc rfl
    rw [first?_of_not hquote hdigit hletter]
    unfold operator?
    rw [exactOperator?_of_not hpair]
    rw [List.take_succ_cons, List.take_zero]
    rw [exactOperator?_of_not hsingle]
    rfl

theorem first?_eq_none_iff : first? text = none ↔ text = [] ∨ Stuck text := by
  constructor
  . intro h
    cases text with
    | nil => exact .inl rfl
    | cons c rest =>
      rcases starts_or_stuck c rest with ⟨lexeme, after, heq, hlawful, hclosed⟩ | hstuck
      . rw [heq, first?_of_closed hlawful hclosed] at h
        contradiction
      . exact .inr hstuck
  . rintro (rfl | h)
    . decide
    . exact first?_of_stuck h

theorem first?_eq_some_iff :
    first? text = some lexeme ↔
      ∃ rest, text = lexeme.raw ++ rest ∧ lexeme.Lawful ∧ lexeme.Closed rest := by
  constructor
  . intro h
    cases text with
    | nil =>
      have hnone : first? [] = none := first?_eq_none_iff.mpr (.inl rfl)
      rw [hnone] at h
      contradiction
    | cons c rest =>
      rcases starts_or_stuck c rest with ⟨found, after, heq, hlawful, hclosed⟩ | hstuck
      . rw [heq, first?_of_closed hlawful hclosed] at h
        injection h with h
        subst h
        exact ⟨after, heq, hlawful, hclosed⟩
      . rw [first?_of_stuck hstuck] at h
        contradiction
  . rintro ⟨rest, rfl, hlawful, hclosed⟩
    exact first?_of_closed hlawful hclosed

end SketchLang.Lexeme
