import SketchLang.Proofs.Scan.Checked

namespace SketchLang.Scan.Checked

open Cursor (between next?_between ofString_eq_between)
open Lexeme (IsDigit IsLetter)

variable {source : String} {c : Char} {done text rest : List Char}

theorem step_cons (mode : LineMode) (h : source.toList = done ++ c :: rest) :
    let first := (between mode done (c :: rest)).offset
    let next := between mode (done ++ [c]) rest
    step source (between mode done (c :: rest)) =
      if isBlank c then .ok (.ok none, next)
      else if Lexeme.isQuote c then string source c next
      else if IsDigit c then number source first next
      else if IsLetter c then word source first next
      else operator source c next := by
  unfold step
  rw [advance_cons mode h]
  rfl

theorem step_word (mode : LineMode) (h : source.toList = done ++ (text ++ rest))
    (hword : Lexeme.IsWord text) (hclosed : (Lexeme.word text).Closed rest) :
    step source (between mode done (text ++ rest)) =
      .ok (.ok (some ((Lexeme.word text).token (.reached mode (done ++ text)))),
        between mode (done ++ text) rest) := by
  rcases not_isBlank_of_lawful (.word hword) with ⟨c, inner, hraw, hblank⟩
  rw [Lexeme.raw] at hraw
  subst hraw
  have hletter := ((Lexeme.isWord_cons c inner).mp hword).1
  have hdigit : ¬ IsDigit c := fun hdigit => Lexeme.not_isLetter_of_isDigit hdigit hletter
  have hquote := Lexeme.not_isQuote_of_isLetter hletter
  rw [← word_of_isWord mode h hword hclosed]
  rw [List.cons_append] at h ⊢
  rw [step_cons mode h]
  simp [hblank, hquote, hdigit, hletter]

theorem step_number (mode : LineMode) {d : Decimal} (h : source.toList = done ++ (text ++ rest))
    (hnumeral : Lexeme.Numeral text d) (hclosed : (Lexeme.number text (.ofDecimal d)).Closed rest) :
    step source (between mode done (text ++ rest)) =
      .ok (.ok (some ((Lexeme.number text (.ofDecimal d)).token (.reached mode (done ++ text)))),
        between mode (done ++ text) rest) := by
  rcases not_isBlank_of_lawful (.number hnumeral) with ⟨c, inner, hraw, hblank⟩
  rw [Lexeme.raw] at hraw
  subst hraw
  rcases Lexeme.exists_cons_of_numeral hnumeral with ⟨_, _, heq, hdigit⟩
  injection heq with heq
  subst heq
  have hquote := Lexeme.not_isQuote_of_isDigit hdigit
  rw [← number_of_numeral mode h hnumeral hclosed]
  rw [List.cons_append] at h ⊢
  rw [step_cons mode h]
  simp [hblank, hquote, hdigit]

theorem step_quoted (mode : LineMode) {mark : Char}
    (h : source.toList = done ++ mark :: (text ++ mark :: rest)) (hmark : Lexeme.isQuote mark)
    (htext : mark ∉ text) :
    step source (between mode done (mark :: (text ++ mark :: rest))) =
      .ok (.ok (some (.plain .string (String.ofList text)
        (.reached mode (done ++ [mark] ++ text ++ [mark])))),
          between mode (done ++ [mark] ++ text ++ [mark]) rest) := by
  have hblank := isBlank_eq_false_of_isQuote hmark
  have hinner : source.toList = done ++ [mark] ++ (text ++ mark :: rest) := by simp [h]
  rw [step_cons mode h, hblank, if_neg Bool.false_ne_true, if_pos hmark,
    string_of_mem mode htext hinner]

theorem step_operator (mode : LineMode) {kind : Token.Kind}
    (h : source.toList = done ++ (text ++ rest))
    (hmem : (String.ofList text, kind) ∈ Token.operators)
    (hclosed : (Lexeme.operator text kind).Closed rest) :
    step source (between mode done (text ++ rest)) =
      .ok (.ok (some ((Lexeme.operator text kind).token (.reached mode (done ++ text)))),
        between mode (done ++ text) rest) := by
  rcases not_isBlank_of_lawful (.operator hmem) with ⟨c, inner, hraw, hblank⟩
  rw [Lexeme.raw] at hraw
  subst hraw
  rcases Lexeme.head_isOperator ⟨kind, hmem⟩ with ⟨hletter, hdigit, hquote⟩
  rw [List.cons_append] at h ⊢
  rw [step_cons mode h]
  simp only [hblank, hquote, hdigit, hletter, Bool.false_eq_true, ↓reduceIte]
  cases inner with
  | nil =>
    rw [List.nil_append, operator_of_not_pair mode source _ hclosed, single_of_mem hmem]
    rfl
  | cons d inner =>
    have hlength := Lexeme.length_le_two_of_isOperator ⟨kind, hmem⟩
    have hinner : inner = [] := by
      apply List.eq_nil_of_length_eq_zero
      simpa using hlength
    subst hinner
    have hsecond : source.toList = done ++ [c] ++ d :: rest := by simp [h]
    have hpair := operator_of_pair mode hsecond hmem
    rw [List.append_assoc] at hpair
    exact hpair

theorem step_lexeme (mode : LineMode) {l : Lexeme} (h : source.toList = done ++ (l.raw ++ rest))
    (hlawful : l.Lawful) (hclosed : l.Closed rest) :
    step source (between mode done (l.raw ++ rest)) =
      .ok (.ok (some (l.token (.reached mode (done ++ l.raw)))),
        between mode (done ++ l.raw) rest) := by
  cases hlawful with
  | word hword => exact step_word mode h hword hclosed
  | number hnumeral => exact step_number mode h hnumeral hclosed
  | @quoted mark text hmark htext =>
    simp only [Lexeme.raw, List.cons_append, List.append_assoc, List.nil_append] at h ⊢
    rw [step_quoted mode h hmark htext]
    simp [Lexeme.token]
  | operator hmem => exact step_operator mode h hmem hclosed

theorem step_quote (mode : LineMode) (h : source.toList = done ++ c :: rest)
    (hquote : Lexeme.isQuote c) (hmem : c ∉ rest) :
    step source (between mode done (c :: rest)) =
      .ok (.error ⟨.unterminatedString c, .reached mode (done ++ c :: rest)⟩,
        between mode (done ++ c :: rest) []) := by
  have hblank := isBlank_eq_false_of_isQuote hquote
  have hrest : source.toList = done ++ [c] ++ rest := by simp [h]
  rw [step_cons mode h]
  simp [hblank, hquote, string_of_not_mem mode hmem hrest]

theorem step_stuck_mark (mode : LineMode) (h : source.toList = done ++ c :: rest)
    (hblank : isBlank c = false) (hquote : Lexeme.isQuote c = false) (hletter : ¬ IsLetter c)
    (hdigit : ¬ IsDigit c) (hmark : c ∉ Lexeme.marks)
    (hdouble : c = '&' ∨ c = '|' → rest.head? ≠ some c) :
    step source (between mode done (c :: rest)) =
      .ok (.error ⟨.unrecognizedCharacter c, .reached mode (done ++ [c])⟩,
        between mode (done ++ [c]) rest) := by
  have hsingle : ¬ Lexeme.IsOperator [c] := by rwa [Lexeme.isOperator_singleton]
  have hpair : ∀ d, rest.head? = some d → ¬ Lexeme.IsOperator [c, d] := by
    intro d hd
    rw [Lexeme.isOperator_pair]
    rintro (⟨hc, -⟩ | ⟨rfl, hc⟩)
    . exact hmark (Lexeme.mem_marks_of_mem_compound hc)
    . exact hdouble hc hd
  rw [step_cons mode h]
  simp only [hblank, hquote, hdigit, hletter, Bool.false_eq_true, ↓reduceIte]
  rw [operator_of_not_pair mode source _ hpair, single_of_not hsingle]
  rfl

theorem step_stuck (mode : LineMode) (h : source.toList = done ++ c :: rest)
    (hblank : isBlank c = false) (hstuck : Lexeme.Stuck (c :: rest)) :
    ∃ taken left, c :: rest = taken ++ left ∧ taken ≠ [] ∧
      step source (between mode done (c :: rest)) =
        .ok (.error (errorFrom mode (.reached mode done) c rest),
          between mode (done ++ taken) left) := by
  unfold errorFrom
  rw [Position.after_reached, Position.after_reached]
  cases hstuck with
  | quote hquote hmem =>
    rw [if_pos hquote]
    refine ⟨c :: rest, [], ?_, by simp, step_quote mode h hquote hmem⟩
    rw [List.append_nil]
  | mark hquote hletter hdigit hmark hdouble =>
    rw [if_neg (by simp [hquote])]
    exact ⟨[c], rest, rfl, by simp,
      step_stuck_mark mode h hblank hquote hletter hdigit hmark hdouble⟩

theorem step_piece (mode : LineMode) {piece : Piece}
    (h : source.toList = done ++ (piece.raw ++ rest)) (hlawful : piece.Lawful)
    (hclosed : piece.Closed rest) :
    step source (between mode done (piece.raw ++ rest)) =
      .ok (.ok (piece.token? (.reached mode (done ++ piece.raw))),
        between mode (done ++ piece.raw) rest) := by
  cases piece with
  | blank c =>
    have hblank : isBlank c := hlawful
    simp only [Piece.raw, List.singleton_append] at h ⊢
    rw [step_cons mode h]
    simp [hblank, Piece.token?]
  | lexeme l => exact step_lexeme mode h hlawful hclosed

theorem skip_append (mode : LineMode) (done text rest : List Char) :
    (between mode done (text ++ rest)).skip text.length = between mode (done ++ text) rest := by
  induction text generalizing done with
  | nil => simp [Cursor.skip]
  | cons c text ih =>
    rw [List.length_cons, Cursor.skip, List.cons_append, Cursor.advance, next?_between]
    dsimp only
    rw [ih, List.append_assoc, List.singleton_append]

theorem step_between (mode : LineMode) (h : source.toList = done ++ rest) (hne : rest ≠ []) :
    ∃ outcome taken left, rest = taken ++ left ∧ taken ≠ [] ∧
      step source (between mode done rest) = .ok (outcome, between mode (done ++ taken) left) ∧
      Scan.step (between mode done rest) =
        outcome.map (·, between mode (done ++ taken) left) := by
  rcases halted_or_piece rest with hhalted | ⟨piece, left, rfl, hlawful, hclosed⟩
  . cases hhalted with
    | nil => contradiction
    | @cons c rest hblank hstuck =>
      rcases step_stuck mode h hblank hstuck with ⟨taken, left, htaken, hne, hstep⟩
      refine ⟨_, taken, left, htaken, hne, hstep, ?_⟩
      exact step_of_halted rfl (.cons hblank hstuck)
  . have hchecked := step_piece mode h hlawful hclosed
    have hstep := step_of_piece (rest_between mode done _) hlawful hclosed
    rw [skip_append] at hstep
    exact ⟨_, piece.raw, left, rfl, Piece.raw_ne_nil hlawful, hchecked, hstep⟩

structure Safe (source : String) (cursor : Cursor) : Prop where
  line : cursor.position.line ≤ source.length + 1
  column : cursor.position.column ≤ source.length
  boundary : String.Pos.Raw.IsValid source ⟨cursor.offset⟩
  step : cursor.rest ≠ [] → ∃ outcome after, step source cursor = .ok (outcome, after) ∧
    after.rest.length < cursor.rest.length ∧ Scan.step cursor = outcome.map (·, after)

theorem safe_between (mode : LineMode) (h : source.toList = done ++ rest) :
    Safe source (between mode done rest) := by
  have hbounded := bounded_between mode h
  refine ⟨hbounded.1, hbounded.2.1, (Cursor.law_between mode h).boundary, ?_⟩
  intro hne
  rcases step_between mode h hne with ⟨outcome, taken, left, hrest, htaken, hchecked, hstep⟩
  refine ⟨outcome, _, hchecked, ?_, hstep⟩
  have hpos := List.length_pos_iff.mpr htaken
  simp only [between, hrest, List.length_append]
  omega

theorem exists_between_of_reaches {scan last : Scan} (hreaches : Reaches scan last)
    (hscan : scan.cursor = between mode done rest) (h : source.toList = done ++ rest) :
    ∃ done rest, source.toList = done ++ rest ∧ last.cursor = between mode done rest := by
  induction hreaches generalizing done rest with
  | refl => exact ⟨done, rest, h, hscan⟩
  | @step scan last token? cursor hne hfound _ ih =>
    rw [hscan] at hne hfound
    rcases step_between mode h hne with ⟨outcome, taken, left, rfl, -, -, hstep⟩
    cases outcome with
    | error error =>
      rw [hfound] at hstep
      contradiction
    | ok token =>
      rw [hfound] at hstep
      injection hstep with hstep
      injection hstep with _ hcursor
      have hafter : source.toList = done ++ taken ++ left := by rw [h, List.append_assoc]
      apply ih _ hafter
      rw [cursor_moveTo, hcursor]

theorem run_of_rest_nil {steps : Nat} {scan : Scan} (hrest : scan.cursor.rest = []) :
    run source steps scan = .ok scan.run := by
  have hpeek : scan.cursor.peek = none := by
    unfold Cursor.peek
    rw [hrest]
    rfl
  unfold run
  rw [run_of_nil hrest, hpeek]
  rfl

theorem run_eq {steps : Nat} {scan : Scan} (hscan : scan.cursor = between mode done rest)
    (h : source.toList = done ++ rest) (hsteps : rest.length ≤ steps) :
    run source steps scan = .ok scan.run := by
  induction steps generalizing scan done rest with
  | zero =>
    have hrest : rest = [] := List.eq_nil_of_length_eq_zero (Nat.le_zero.mp hsteps)
    subst hrest
    exact run_of_rest_nil (by rw [hscan, rest_between])
  | succ steps ih =>
    cases rest with
    | nil => exact run_of_rest_nil (by rw [hscan, rest_between])
    | cons c rest =>
      have hne : scan.cursor.rest ≠ [] := by simp [hscan, rest_between]
      have hpeek : scan.cursor.peek = some c := by rw [hscan, peek_between]
      rcases step_between mode h (List.cons_ne_nil c rest) with
        ⟨outcome, taken, left, hrest, htaken, hchecked, hstep⟩
      rw [← hscan] at hchecked hstep
      unfold run
      rw [hpeek]
      dsimp only
      rw [hchecked, ok_bind]
      cases outcome with
      | error error =>
        rw [run_of_step_error hne hstep]
        rfl
      | ok token? =>
        rw [run_of_step_ok hne hstep]
        have hafter : source.toList = done ++ taken ++ left := by
          rw [h, hrest, List.append_assoc]
        apply ih (cursor_moveTo ..) hafter
        -- A step takes a character at least, so that the steps that are left are enough.
        have hpos := List.length_pos_iff.mpr htaken
        rw [hrest, List.length_append] at hsteps
        omega

theorem run_performAll (mode : LineMode) (source : String) (calls : List Cursor.Call) :
    let cursor := (Cursor.ofString mode source).performAll calls
    run source cursor.rest.length (start cursor) = .ok (start cursor).run ∧
      ∀ scan, Reaches (start cursor) scan → Safe source scan.cursor := by
  rcases Cursor.exists_between_of_performAll mode [] source.toList calls with
    ⟨done, rest, htext, hcursor⟩
  rw [ofString_eq_between, hcursor]
  refine ⟨run_eq rfl htext.symm (Nat.le_refl _), ?_⟩
  intro scan hreaches
  rcases exists_between_of_reaches hreaches rfl htext.symm with ⟨done, rest, h, hscan⟩
  rw [hscan]
  exact safe_between mode h

theorem run_performAll_two_bytes :
    let source := "é\"ü\" 12."
    let cursor := (Cursor.ofString .track source).performAll [.advance]
    let scan := (start cursor).moveTo (cursor.skip 3) (some (.plain .string "ü" ⟨1, 4⟩))
    run source cursor.rest.length (start cursor) = .ok (start cursor).run ∧
      Reaches (start cursor) scan ∧ Safe source scan.cursor := by
  intro source cursor scan
  have hreaches : Reaches (start cursor) scan := by
    apply Reaches.step _ _ (.refl scan)
    . decide
    . simp only [cursor, source]
      rfl
  have hsafe := run_performAll .track source [.advance]
  exact ⟨hsafe.1, hreaches, hsafe.2 scan hreaches⟩

end SketchLang.Scan.Checked
