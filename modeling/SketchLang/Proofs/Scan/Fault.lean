import SketchLang.Proofs.Scan.Run

/-!
This module contains where and how a scan fails. Up to some place the source is accepted, and there
either a character stands that begins no token text, or a quotation mark that does not come again.
The place is unique, and the error tells the character and how far was read
(`Scan.tokenize_cases`).
-/

namespace SketchLang.Scan

structure HaltsAt (mode : LineMode) (source : String) (before : List Char) (c : Char)
    (rest : List Char) : Prop where
  source_eq : source.toList = before ++ c :: rest
  accepted : Accepts mode (String.ofList before)
  halted : Halted (c :: rest)

structure StopsAt (mode : LineMode) (source : String) (before : List Char) (c : Char)
    (rest : List Char) : Prop where
  source_eq : source.toList = before ++ c :: rest
  accepted : Accepts mode (String.ofList before)
  not_blank : isBlank c = false
  not_quote : Lexeme.isQuote c = false
  not_letter : ¬ Lexeme.IsLetter c
  not_digit : ¬ Lexeme.IsDigit c
  not_operator : Token.operatorKind? (String.singleton c) = none
  not_doubled : c = '&' ∨ c = '|' → rest.head? ≠ some c

structure LeavesOpen (mode : LineMode) (source : String) (before : List Char) (mark : Char)
    (rest : List Char) : Prop where
  source_eq : source.toList = before ++ mark :: rest
  accepted : Accepts mode (String.ofList before)
  quote : Lexeme.isQuote mark
  not_mem : mark ∉ rest

variable {mode : LineMode} {source : String} {before rest : List Char} {c mark : Char}
  {pieces : List Piece}

theorem operatorKind?_singleton_eq_none_iff (c : Char) :
    Token.operatorKind? (String.singleton c) = none ↔ c ∉ Lexeme.marks := by
  rw [← Lexeme.isOperator_singleton]
  rw [Lexeme.isOperator_iff_isSome]
  rw [String.singleton_eq_ofList]
  simp

theorem StopsAt.haltsAt (h : StopsAt mode source before c rest) :
    HaltsAt mode source before c rest := by
  refine ⟨h.source_eq, h.accepted, ?_⟩
  apply Halted.cons
  . exact h.not_blank
  . apply Lexeme.Stuck.mark
    . exact h.not_quote
    . exact h.not_letter
    . exact h.not_digit
    . rw [← operatorKind?_singleton_eq_none_iff]
      exact h.not_operator
    . exact h.not_doubled

theorem LeavesOpen.haltsAt (h : LeavesOpen mode source before mark rest) :
    HaltsAt mode source before mark rest := by
  refine ⟨h.source_eq, h.accepted, ?_⟩
  apply Halted.cons
  . apply isBlank_eq_false_of_isQuote
    exact h.quote
  . apply Lexeme.Stuck.quote
    . exact h.quote
    . exact h.not_mem

theorem haltsAt_of_cuts (mode : LineMode) (h : Cuts source.toList pieces (c :: rest)) :
    HaltsAt mode source (textOf pieces) c rest := by
  refine ⟨h.text_eq, ?_, h.halted⟩
  rw [accepts_ofList_iff]
  exact ⟨pieces, h.cuts_textOf⟩

theorem HaltsAt.stopsAt_or_leavesOpen (h : HaltsAt mode source before c rest) :
    StopsAt mode source before c rest ∨ LeavesOpen mode source before c rest := by
  cases h.halted with
  | cons hblank hstuck =>
    cases hstuck with
    | quote hquote hrest => exact .inr ⟨h.source_eq, h.accepted, hquote, hrest⟩
    | mark hquote hletter hdigit hmark hdouble =>
      rw [← operatorKind?_singleton_eq_none_iff] at hmark
      exact .inl ⟨h.source_eq, h.accepted, hblank, hquote, hletter, hdigit, hmark, hdouble⟩

theorem HaltsAt.exists_cuts (h : HaltsAt mode source before c rest) :
    ∃ pieces, textOf pieces = before ∧ Cuts source.toList pieces (c :: rest) := by
  have haccepted := h.accepted
  have hhalted := h.halted
  rw [accepts_ofList_iff] at haccepted
  rcases haccepted with ⟨pieces, hcuts⟩
  -- No lexeme goes on with `c`, so what was cut before it is not cut in another way now.
  have hseparates : Separates c := by
    cases hhalted with
    | cons _ hstuck => exact separates_of_stuck hstuck
  have happend := hcuts.append (.halt hhalted) fun _ => separates_of_head? hseparates
  refine ⟨pieces, ?_, ?_⟩
  . rw [hcuts.text_eq]
    simp
  . rw [h.source_eq]
    simpa using happend

theorem HaltsAt.unique {before' rest' : List Char} {c' : Char}
    (h : HaltsAt mode source before c rest) (h' : HaltsAt mode source before' c' rest') :
    before' = before := by
  rcases h.exists_cuts with ⟨pieces, htext, hcuts⟩
  rcases h'.exists_cuts with ⟨pieces', htext', hcuts'⟩
  rw [← htext, ← htext', (hcuts.unique hcuts').1]

theorem HaltsAt.tokenize_eq (h : HaltsAt mode source before c rest) :
    tokenize mode source = .error (errorFrom mode (.reached mode before) c rest) := by
  rcases h.exists_cuts with ⟨pieces, htext, hcuts⟩
  rw [tokenize_of_cuts_cons hcuts]
  rw [htext]

theorem StopsAt.tokenize_eq (h : StopsAt mode source before c rest) :
    tokenize mode source =
      .error ⟨.unrecognizedCharacter c, .reached mode (before ++ [c])⟩ := by
  rw [h.haltsAt.tokenize_eq]
  unfold errorFrom
  rw [h.not_quote]
  rw [Position.after_reached, Position.after_reached]
  rfl

theorem LeavesOpen.tokenize_eq (h : LeavesOpen mode source before mark rest) :
    tokenize mode source =
      .error ⟨.unterminatedString mark, .reached mode source.toList⟩ := by
  rw [h.haltsAt.tokenize_eq]
  unfold errorFrom
  rw [h.quote]
  rw [Position.after_reached]
  rw [h.source_eq]
  rfl

theorem exists_stopsAt_of_tokenize {position : Position}
    (h : tokenize mode source = .error ⟨.unrecognizedCharacter c, position⟩) :
    ∃ before rest, StopsAt mode source before c rest := by
  rcases exists_cuts source.toList with ⟨pieces, rest, hcuts⟩
  cases rest with
  | nil =>
    rw [tokenize_of_cuts_nil hcuts] at h
    contradiction
  | cons d rest =>
    cases (haltsAt_of_cuts mode hcuts).stopsAt_or_leavesOpen with
    | inl hstops =>
      rw [hstops.tokenize_eq] at h
      injection h with h
      injection h with hfault
      injection hfault with hc
      rw [hc] at hstops
      exact ⟨_, _, hstops⟩
    | inr hopen =>
      rw [hopen.tokenize_eq] at h
      injection h with h
      injection h with hfault
      contradiction

theorem StopsAt.replace {rest' : List Char} (h : StopsAt mode source before c rest)
    (hhead : rest'.head? = rest.head?) :
    StopsAt mode (String.ofList (before ++ c :: rest')) before c rest' := by
  refine { h with source_eq := ?_, not_doubled := ?_ }
  . rw [String.toList_ofList]
  . rw [hhead]
    exact h.not_doubled

theorem StopsAt.push_append {d : Char} (h : StopsAt mode source before c rest) (hd : isBlank d)
    (more : String) :
    StopsAt mode (source.push d ++ more) before c (rest ++ d :: more.toList) := by
  refine { h with source_eq := ?_, not_doubled := ?_ }
  . rw [String.toList_append, String.toList_push]
    rw [h.source_eq]
    simp
  . intro hc
    cases rest with
    | nil =>
      intro hhead
      injection hhead with hhead
      rw [hhead, h.not_blank] at hd
      contradiction
    | cons e rest => exact h.not_doubled hc

theorem LeavesOpen.append {more : String} (h : LeavesOpen mode source before mark rest)
    (hmore : mark ∉ more.toList) :
    LeavesOpen mode (source ++ more) before mark (rest ++ more.toList) := by
  refine { h with source_eq := ?_, not_mem := ?_ }
  . rw [String.toList_append]
    rw [h.source_eq]
    simp
  . rw [List.mem_append]
    intro hmem
    exact hmem.elim h.not_mem hmore

theorem LeavesOpen.accepted_push (h : LeavesOpen mode source before mark rest) :
    Accepts mode (source.push mark) := by
  have haccepted := h.accepted
  rw [accepts_ofList_iff] at haccepted
  rcases haccepted with ⟨pieces, hcuts⟩
  let piece : Piece := .lexeme (.quoted mark rest)
  have hlawful : piece.Lawful := .quoted h.quote h.not_mem
  have hclosed : piece.Closed [] := by
    intro d hd
    contradiction
  have hseparates : Separates mark := separates_of_isQuote h.quote
  have happend := hcuts.append (.cons hlawful hclosed (.halt .nil)) fun _ =>
    separates_of_head? hseparates
  have htext : (source.push mark).toList = before ++ (piece.raw ++ []) := by
    rw [String.toList_push]
    rw [h.source_eq]
    simp [piece, Piece.raw, Lexeme.raw]
  rw [accepts_iff, htext]
  exact ⟨_, happend⟩

theorem not_accepts_of_haltsAt (h : HaltsAt mode source before c rest) : ¬ Accepts mode source := by
  intro haccepts
  rcases haccepts with ⟨tokens, htokens⟩
  rw [h.tokenize_eq] at htokens
  contradiction

theorem not_leavesOpen_of_stopsAt {before' rest' : List Char}
    (h : StopsAt mode source before c rest) : ¬ LeavesOpen mode source before' mark rest' := by
  intro h'
  have heq := h.tokenize_eq
  rw [h'.tokenize_eq] at heq
  injection heq with heq
  injection heq with hfault
  contradiction

theorem tokenize_cases (mode : LineMode) (source : String) :
    (Accepts mode source ∧ (¬ ∃ before c rest, StopsAt mode source before c rest) ∧
        (¬ ∃ before mark rest, LeavesOpen mode source before mark rest) ∨
      ¬ Accepts mode source ∧ (∃ before c rest, StopsAt mode source before c rest) ∧
        (¬ ∃ before mark rest, LeavesOpen mode source before mark rest) ∨
      ¬ Accepts mode source ∧ (¬ ∃ before c rest, StopsAt mode source before c rest) ∧
        ∃ before mark rest, LeavesOpen mode source before mark rest) ∧
    (∀ before c rest, StopsAt mode source before c rest →
      tokenize mode source = .error ⟨.unrecognizedCharacter c, .reached mode (before ++ [c])⟩ ∧
      (∀ before' c' rest', StopsAt mode source before' c' rest' → before' = before) ∧
      ∀ rest', rest'.head? = rest.head? →
        tokenize mode (String.ofList (before ++ c :: rest')) = tokenize mode source) ∧
    (∀ before mark rest, LeavesOpen mode source before mark rest →
      tokenize mode source = .error ⟨.unterminatedString mark, .reached mode source.toList⟩ ∧
      (∀ before' mark' rest', LeavesOpen mode source before' mark' rest' → before' = before) ∧
      Accepts mode (source.push mark) ∧
      ∀ more : String, mark ∉ more.toList → tokenize mode (source ++ more) =
        .error ⟨.unterminatedString mark, .reached mode (source ++ more).toList⟩) := by
  refine ⟨?_, ?_, ?_⟩
  . rcases exists_cuts source.toList with ⟨pieces, rest, hcuts⟩
    cases rest with
    | nil =>
      have haccepts : Accepts mode source := (accepts_iff mode source).mpr ⟨pieces, hcuts⟩
      refine .inl ⟨haccepts, ?_, ?_⟩
      . rintro ⟨before, c, rest, h⟩
        exact not_accepts_of_haltsAt h.haltsAt haccepts
      . rintro ⟨before, mark, rest, h⟩
        exact not_accepts_of_haltsAt h.haltsAt haccepts
    | cons c rest =>
      have hhalts := haltsAt_of_cuts mode hcuts
      have hnot := not_accepts_of_haltsAt hhalts
      cases hhalts.stopsAt_or_leavesOpen with
      | inl hstops =>
        refine .inr (.inl ⟨hnot, ⟨_, _, _, hstops⟩, ?_⟩)
        rintro ⟨before', mark, rest', h⟩
        exact not_leavesOpen_of_stopsAt hstops h
      | inr hopen =>
        refine .inr (.inr ⟨hnot, ?_, ⟨_, _, _, hopen⟩⟩)
        rintro ⟨before', d, rest', h⟩
        exact not_leavesOpen_of_stopsAt h hopen
  . intro before c rest h
    refine ⟨h.tokenize_eq, ?_, ?_⟩
    . intro before' c' rest' h'
      exact h.haltsAt.unique h'.haltsAt
    . intro rest' hhead
      rw [(h.replace hhead).tokenize_eq]
      rw [h.tokenize_eq]
  . intro before mark rest h
    refine ⟨h.tokenize_eq, ?_, h.accepted_push, ?_⟩
    . intro before' mark' rest' h'
      exact h.haltsAt.unique h'.haltsAt
    . intro more hmore
      exact (h.append hmore).tokenize_eq

end SketchLang.Scan
