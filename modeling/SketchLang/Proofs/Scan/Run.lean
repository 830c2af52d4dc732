import SketchLang.Proofs.Position
import SketchLang.Proofs.Scan.Cuts
import SketchLang.Scan.Basic

namespace SketchLang.Scan

def Piece.token? (piece : Piece) (position : Position) : Option Token :=
  match piece with
  | blank _ => none
  | lexeme l => some (l.token position)

def tokensFrom (mode : LineMode) (position : Position) : List Piece → List Token
  | [] => []
  | piece :: pieces =>
    let position := position.after mode piece.raw
    (piece.token? position).toList ++ tokensFrom mode position pieces

def errorFrom (mode : LineMode) (position : Position) (c : Char) (rest : List Char) : Error :=
  if Lexeme.isQuote c then
    ⟨.unterminatedString c, position.after mode (c :: rest)⟩
  else
    ⟨.unrecognizedCharacter c, position.after mode [c]⟩

def reportFrom (mode : LineMode) (position : Position) (tokens : List Token) (log : List Event) :
    List Char → Report
  | [] =>
    ⟨.ok (tokens ++ [.eof position]),
      log ++ [.token (.eof position), .finished (tokens.length + 1)]⟩
  | c :: rest =>
    ⟨.error (errorFrom mode position c rest),
      log ++ [.failed tokens.length (errorFrom mode position c rest)]⟩

variable {text rest : List Char} {piece : Piece} {pieces : List Piece}

theorem tokensFrom_append (mode : LineMode) (position : Position) (pieces pieces' : List Piece) :
    tokensFrom mode position (pieces ++ pieces') = tokensFrom mode position pieces ++
      tokensFrom mode (position.after mode (textOf pieces)) pieces' := by
  induction pieces generalizing position with
  | nil => rfl
  | cons piece pieces ih =>
    simp only [List.cons_append, tokensFrom]
    rw [ih, textOf_cons, Position.after_append, List.append_assoc]

theorem step_of_piece {cursor : Cursor} (hrest : cursor.rest = piece.raw ++ rest)
    (hlawful : piece.Lawful) (hclosed : piece.Closed rest) :
    let next := cursor.skip piece.raw.length
    step cursor = .ok (piece.token? next.position, next) := by
  unfold step
  cases piece with
  | blank c =>
    have hblank : isBlank c := hlawful
    rw [hrest]
    simp only [Piece.raw, List.cons_append, hblank, ↓reduceIte]
    rfl
  | lexeme l =>
    have hfound := Lexeme.first?_of_closed hlawful hclosed
    rcases not_isBlank_of_lawful hlawful with ⟨c, inner, hraw, hblank⟩
    rw [hrest]
    simp only [Piece.raw]
    rw [hraw, List.cons_append] at hfound ⊢
    simp only [hblank, hfound, Bool.false_eq_true, ↓reduceIte]
    rw [hraw]
    rfl

theorem step_of_halted {cursor : Cursor} {c : Char} (hrest : cursor.rest = c :: rest)
    (h : Halted (c :: rest)) :
    step cursor = .error (errorFrom cursor.mode cursor.position c rest) := by
  cases h with
  | cons hblank hstuck =>
    have hnone := Lexeme.first?_of_stuck hstuck
    unfold step
    rw [hrest]
    simp only [hblank, hnone, Bool.false_eq_true, ↓reduceIte]
    unfold errorAt errorFrom
    rw [Cursor.position_skip]
    rw [Cursor.position_advance]
    rw [hrest]
    rw [List.take_length]
    rfl

theorem run_of_nil {scan : Scan} (hrest : scan.cursor.rest = []) : scan.run = scan.finish := by
  rw [run]
  simp [hrest]

theorem run_of_step_ok {scan : Scan} {token? : Option Token} {cursor : Cursor}
    (hrest : scan.cursor.rest ≠ []) (hstep : step scan.cursor = .ok (token?, cursor)) :
    scan.run = (scan.moveTo cursor token?).run := by
  rw [run]
  split
  . contradiction
  . split
    . next hfound =>
      rw [hstep] at hfound
      injection hfound with hfound
      injection hfound with htoken hcursor
      rw [htoken, hcursor]
    . next hfound =>
      rw [hstep] at hfound
      contradiction

theorem run_of_step_error {scan : Scan} {error : Error}
    (hrest : scan.cursor.rest ≠ []) (hstep : step scan.cursor = .error error) :
    scan.run = scan.fail error := by
  rw [run]
  split
  . contradiction
  . split
    . next hfound =>
      rw [hstep] at hfound
      contradiction
    . next hfound =>
      rw [hstep] at hfound
      injection hfound with hfound
      rw [hfound]

theorem tokens_moveTo (scan : Scan) (cursor : Cursor) (token? : Option Token) :
    (scan.moveTo cursor token?).tokens.toList = scan.tokens.toList ++ token?.toList := by
  cases token? <;> simp [moveTo, record]

theorem log_moveTo (scan : Scan) (cursor : Cursor) (token? : Option Token) :
    (scan.moveTo cursor token?).log.toList = scan.log.toList ++ token?.toList.map .token := by
  cases token? <;> simp [moveTo, record]

inductive Reaches : Scan → Scan → Prop
  | refl (scan : Scan) : Reaches scan scan
  | step {scan last : Scan} {token? : Option Token} {cursor : Cursor}
    (hrest : scan.cursor.rest ≠ []) (hstep : step scan.cursor = .ok (token?, cursor))
    (h : Reaches (scan.moveTo cursor token?) last) : Reaches scan last

def LogsTokens (scan : Scan) : Prop := scan.log.toList = scan.tokens.toList.map .token

theorem LogsTokens.moveTo {scan : Scan} (h : LogsTokens scan) (cursor : Cursor)
    (token? : Option Token) : LogsTokens (scan.moveTo cursor token?) := by
  unfold LogsTokens at h ⊢
  rw [log_moveTo, tokens_moveTo]
  rw [h, List.map_append]

theorem Reaches.logsTokens {scan last : Scan} (h : Reaches scan last) (hscan : LogsTokens scan) :
    LogsTokens last := by
  induction h with
  | refl => exact hscan
  | step _ _ _ ih =>
    apply ih
    apply hscan.moveTo

theorem Reaches.run_eq {scan last : Scan} (h : Reaches scan last) : scan.run = last.run := by
  induction h with
  | refl => rfl
  | step hrest hstep _ ih =>
    rw [run_of_step_ok hrest hstep]
    exact ih

def take (scan : Scan) : List Piece → Scan
  | [] => scan
  | piece :: pieces =>
    let next := scan.cursor.skip piece.raw.length
    (scan.moveTo next (piece.token? next.position)).take pieces

theorem reaches_take {scan : Scan} (h : Cuts scan.cursor.rest pieces rest) :
    Reaches scan (scan.take pieces) := by
  generalize htext : scan.cursor.rest = text at h
  -- One piece is one step of the scan, whatever it has found before.
  induction h generalizing scan with
  | halt => exact .refl scan
  | @cons piece text pieces rest hlawful hclosed hcuts ih =>
    have hne : scan.cursor.rest ≠ [] := by
      rw [htext]
      simp [Piece.raw_ne_nil hlawful]
    apply Reaches.step hne (step_of_piece htext hlawful hclosed)
    apply ih
    simp [htext]

theorem cursor_take (scan : Scan) (pieces : List Piece) :
    (scan.take pieces).cursor = scan.cursor.skip (textOf pieces).length := by
  induction pieces generalizing scan with
  | nil => rfl
  | cons piece pieces ih =>
    simp only [take]
    rw [ih, cursor_moveTo, Cursor.skip_skip]
    rw [textOf_cons, List.length_append]

section Take

variable {scan : Scan} (htext : scan.cursor.rest = textOf pieces ++ rest)

include htext

theorem rest_take : (scan.take pieces).cursor.rest = rest := by
  simp [cursor_take, htext]

theorem position_take : (scan.take pieces).cursor.position =
    scan.cursor.position.after scan.cursor.mode (textOf pieces) := by
  simp [cursor_take, Cursor.position_skip, htext]

theorem tokens_take : (scan.take pieces).tokens.toList =
    scan.tokens.toList ++ tokensFrom scan.cursor.mode scan.cursor.position pieces := by
  induction pieces generalizing scan with
  | nil => simp [take, tokensFrom]
  | cons piece pieces ih =>
    rw [textOf_cons, List.append_assoc] at htext
    simp only [take, tokensFrom]
    rw [ih]
    . rw [tokens_moveTo, cursor_moveTo, Cursor.mode_skip, Cursor.position_skip, htext]
      simp
    . simp [htext]

end Take

theorem run_of_cuts {scan : Scan} (hscan : LogsTokens scan)
    (h : Cuts scan.cursor.rest pieces rest) :
    let tokens := scan.tokens.toList ++ tokensFrom scan.cursor.mode scan.cursor.position pieces
    scan.run = reportFrom scan.cursor.mode
      (scan.cursor.position.after scan.cursor.mode (textOf pieces)) tokens (tokens.map .token)
      rest := by
  have hreaches := reaches_take h
  have hlog := hreaches.logsTokens hscan
  have hrest := rest_take h.text_eq
  have hposition := position_take h.text_eq
  have htokens := tokens_take h.text_eq
  unfold LogsTokens at hlog
  rw [hreaches.run_eq]
  rw [← htokens, ← hposition]
  cases rest with
  | nil =>
    rw [run_of_nil hrest]
    simp [finish, record, reportFrom, hlog]
  | cons c rest =>
    have hne : (scan.take pieces).cursor.rest ≠ [] := by simp [hrest]
    rw [run_of_step_error hne (step_of_halted hrest h.halted)]
    simp [fail, reportFrom, hlog, cursor_take]

theorem run_start_of_cuts {cursor : Cursor} (h : Cuts cursor.rest pieces rest) :
    let tokens := tokensFrom cursor.mode cursor.position pieces
    (start cursor).run = reportFrom cursor.mode (cursor.position.after cursor.mode (textOf pieces))
      tokens (tokens.map .token) rest :=
  run_of_cuts rfl h

theorem tokenize_of_cuts {mode : LineMode} {source : String} (h : Cuts source.toList pieces rest) :
    tokenize mode source = (reportFrom mode (.reached mode (textOf pieces))
      (tokensFrom mode .start pieces) [] rest).result := by
  have hrun : Cuts (Cursor.ofString mode source).rest pieces rest := h
  unfold tokenize ofString
  rw [run_start_of_cuts hrun]
  simp only [Cursor.ofString, Position.after_start]
  cases rest <;> rfl

theorem tokenize_of_cuts_nil {mode : LineMode} {source : String}
    (h : Cuts source.toList pieces []) :
    tokenize mode source =
      .ok (tokensFrom mode .start pieces ++ [.eof (.reached mode source.toList)]) := by
  rw [tokenize_of_cuts h]
  rw [h.text_eq]
  rw [List.append_nil]
  rfl

theorem tokenize_of_cuts_cons {mode : LineMode} {source : String} {c : Char}
    (h : Cuts source.toList pieces (c :: rest)) :
    tokenize mode source = .error (errorFrom mode (.reached mode (textOf pieces)) c rest) := by
  rw [tokenize_of_cuts h]
  rfl

def Accepts (mode : LineMode) (source : String) : Prop :=
  ∃ tokens, tokenize mode source = .ok tokens

theorem accepts_iff (mode : LineMode) (source : String) :
    Accepts mode source ↔ ∃ pieces, Cuts source.toList pieces [] := by
  constructor
  . intro h
    rcases h with ⟨tokens, h⟩
    rcases exists_cuts source.toList with ⟨pieces, rest, hcuts⟩
    cases rest with
    | nil => exact ⟨pieces, hcuts⟩
    | cons c rest =>
      rw [tokenize_of_cuts_cons hcuts] at h
      contradiction
  . intro h
    rcases h with ⟨pieces, hcuts⟩
    exact ⟨_, tokenize_of_cuts_nil hcuts⟩

theorem accepts_ofList_iff (mode : LineMode) (text : List Char) :
    Accepts mode (String.ofList text) ↔ ∃ pieces, Cuts text pieces [] := by
  rw [accepts_iff]
  rw [String.toList_ofList]

end SketchLang.Scan
