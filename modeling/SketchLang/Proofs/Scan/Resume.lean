import SketchLang.Proofs.Scan.Run

namespace SketchLang

def Token.shift (base : Position) (token : Token) : Token :=
  { token with position := base.shift token.position }

namespace Scan

def Error.shift (base : Position) (error : Error) : Error :=
  { error with position := base.shift error.position }

def Result.shift (base : Position) : Result → Result
  | .ok tokens => .ok (tokens.map (Token.shift base))
  | .error error => .error (error.shift base)

variable {rest : List Char} {pieces : List Piece}

theorem shift_token? (base position : Position) (piece : Piece) :
    piece.token? (base.shift position) = (piece.token? position).map (Token.shift base) := by
  cases piece with
  | blank c => rfl
  | lexeme l => cases l <;> rfl

theorem shift_after_reached (mode : LineMode) (base : Position) (done text : List Char) :
    (base.shift (.reached mode done)).after mode text =
      base.shift (.reached mode (done ++ text)) := by
  rw [← Position.after_eq_shift]
  rw [← Position.after_eq_shift]
  rw [Position.after_append]

theorem tokensFrom_shift (mode : LineMode) (base : Position) (done : List Char)
    (pieces : List Piece) :
    tokensFrom mode (base.shift (.reached mode done)) pieces =
      (tokensFrom mode (.reached mode done) pieces).map (Token.shift base) := by
  -- Both scans have consumed `done`, one of them after something else.
  induction pieces generalizing done with
  | nil => rfl
  | cons piece pieces ih =>
    simp only [tokensFrom]
    rw [shift_after_reached]
    rw [Position.after_reached]
    rw [shift_token?]
    rw [ih]
    cases piece.token? (.reached mode (done ++ piece.raw)) <;> simp

theorem tokensFrom_eq_shift (mode : LineMode) (base : Position) (pieces : List Piece) :
    tokensFrom mode base pieces =
      (tokensFrom mode .start pieces).map (Token.shift base) := by
  have h := tokensFrom_shift mode base [] pieces
  rw [Position.reached_nil, Position.shift_start] at h
  exact h

theorem errorFrom_shift (mode : LineMode) (base : Position) (done : List Char) (c : Char)
    (rest : List Char) :
    errorFrom mode (base.shift (.reached mode done)) c rest =
      (errorFrom mode (.reached mode done) c rest).shift base := by
  unfold errorFrom
  split
  . rw [shift_after_reached, Position.after_reached]
    rfl
  . rw [shift_after_reached, Position.after_reached]
    rfl

theorem run_start_eq_shift (cursor : Cursor) :
    (start cursor).run.result =
      Result.shift cursor.position (tokenize cursor.mode (String.ofList cursor.rest)) := by
  rcases exists_cuts cursor.rest with ⟨pieces, rest, hcuts⟩
  have hahead : Cuts (String.ofList cursor.rest).toList pieces rest := by
    rw [String.toList_ofList]
    exact hcuts
  rw [run_start_of_cuts hcuts]
  rw [tokensFrom_eq_shift]
  rw [Position.after_eq_shift]
  cases rest with
  | nil =>
    rw [tokenize_of_cuts_nil hahead]
    rw [hahead.text_eq]
    rw [List.append_nil]
    simp [reportFrom, Result.shift, Token.shift, Token.eof, Token.plain]
  | cons c rest =>
    rw [tokenize_of_cuts_cons hahead]
    simp only [reportFrom]
    rw [errorFrom_shift]
    rfl

end Scan

end SketchLang
