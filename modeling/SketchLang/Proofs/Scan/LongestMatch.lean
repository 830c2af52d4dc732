import SketchLang.Proofs.Lexeme.Longest
import SketchLang.Proofs.Scan.Run

namespace SketchLang.Scan

def next (scan : Scan) : Except Error Scan :=
  match step scan.cursor with
  | .ok (token?, cursor) => .ok (scan.moveTo cursor token?)
  | .error error => .error error

structure Takes (scan : Scan) (text : List Char) (token? : Option Token) (after : Scan) :
    Prop where
  rest : scan.cursor.rest = text ++ after.cursor.rest
  mode : after.cursor.mode = scan.cursor.mode
  position : after.cursor.position = scan.cursor.position.after scan.cursor.mode text
  tokens : after.tokens.toList = scan.tokens.toList ++ token?.toList
  log : after.log.toList = scan.log.toList ++ token?.toList.map .token

/--
What a scan does where it stands before `c :: rest`. It takes a blank or the longest token text, and
if there is none it ends without another token.
-/
structure LongestMatch (scan : Scan) (c : Char) (rest : List Char) : Prop where
  blank : c = ' ' ∨ c = '\t' ∨ c = '\r' ∨ c = '\n' →
    ∃ after, scan.next = .ok after ∧ Takes scan [c] none after
  token : ¬ (c = ' ' ∨ c = '\t' ∨ c = '\r' ∨ c = '\n') →
    (∃ text, text <+: c :: rest ∧ Lexeme.IsTokenText text) →
    ∃ longest token after, Lexeme.Longest longest (c :: rest) ∧
      Lexeme.Reads longest token.kind token.lexeme token.value ∧
      token.position = after.cursor.position ∧ scan.next = .ok after ∧
      Takes scan longest (some token) after
  error : ¬ (c = ' ' ∨ c = '\t' ∨ c = '\r' ∨ c = '\n') →
    (∀ text, text <+: c :: rest → ¬ Lexeme.IsTokenText text) →
    ∃ error, scan.next = .error error ∧
      scan.run = ⟨.error error, scan.log.toList ++ [.failed scan.tokens.size error]⟩
  run : scan.run = match scan.next with
    | .ok after => after.run
    | .error error => scan.fail error

def munch (mode : LineMode) (position : Position) : List Char → Result
  | [] => .ok [.eof position]
  | c :: rest =>
    if isBlank c then
      munch mode (position.next mode c) rest
    else
      match Lexeme.longest? (c :: rest) with
      | some l =>
        let position := position.after mode l.raw
        (munch mode position (rest.drop (l.raw.length - 1))).map (l.token position :: ·)
      | none => .error (errorFrom mode position c rest)
termination_by text => text.length

variable {scan : Scan} {c : Char} {text rest : List Char} {piece : Piece} {pieces : List Piece}

theorem run_of_next (hrest : scan.cursor.rest ≠ []) :
    scan.run = match scan.next with
      | .ok after => after.run
      | .error error => scan.fail error := by
  unfold next
  cases hstep : step scan.cursor with
  | ok result => exact run_of_step_ok hrest hstep
  | error error => exact run_of_step_error hrest hstep

theorem takes_piece (hrest : scan.cursor.rest = piece.raw ++ rest) (hlawful : piece.Lawful)
    (hclosed : piece.Closed rest) :
    ∃ after, scan.next = .ok after ∧
      Takes scan piece.raw (piece.token? after.cursor.position) after := by
  refine ⟨scan.moveTo (scan.cursor.skip piece.raw.length)
    (piece.token? (scan.cursor.skip piece.raw.length).position), ?_, ?_⟩
  . unfold next
    rw [step_of_piece hrest hlawful hclosed]
  . rw [cursor_moveTo]
    constructor
    . simp [hrest]
    . simp
    . simp [Cursor.position_skip, hrest]
    . apply tokens_moveTo
    . apply log_moveTo

theorem next_of_isBlank (hrest : scan.cursor.rest = c :: rest) (hc : isBlank c) :
    ∃ after, scan.next = .ok after ∧ Takes scan [c] none after := by
  have hlawful : Piece.Lawful (.blank c) := hc
  exact takes_piece hrest hlawful trivial

theorem next_of_isTokenText (hrest : scan.cursor.rest = c :: rest)
    (htext : text <+: c :: rest) (htoken : Lexeme.IsTokenText text) :
    ∃ longest token after, Lexeme.Longest longest (c :: rest) ∧
      Lexeme.Reads longest token.kind token.lexeme token.value ∧
      token.position = after.cursor.position ∧ scan.next = .ok after ∧
      Takes scan longest (some token) after := by
  rcases Lexeme.starts_or_stuck c rest with ⟨l, tail, heq, hlawful, hclosed⟩ | hstuck
  . have hpiece : Piece.Lawful (.lexeme l) := hlawful
    rw [heq] at hrest
    rcases takes_piece hrest hpiece hclosed with ⟨after, hnext, htakes⟩
    refine ⟨l.raw, l.token after.cursor.position, after, ?_, ?_, ?_, hnext, htakes⟩
    . rw [heq]
      exact Lexeme.longest_of_closed hlawful hclosed
    . exact Lexeme.reads_token hlawful _
    . cases l <;> rfl
  . exact absurd htoken (Lexeme.not_isTokenText_of_stuck hstuck htext)

theorem next_of_not_isTokenText (hrest : scan.cursor.rest = c :: rest) (hc : isBlank c = false)
    (hnone : ∀ text, text <+: c :: rest → ¬ Lexeme.IsTokenText text) :
    scan.next = .error (errorFrom scan.cursor.mode scan.cursor.position c rest) := by
  rcases Lexeme.starts_or_stuck c rest with ⟨l, tail, heq, hlawful, -⟩ | hstuck
  . have htoken := (Lexeme.isTokenText_iff l.raw).mpr ⟨l, hlawful, rfl⟩
    rw [heq] at hnone
    exact absurd htoken (hnone l.raw (List.prefix_append _ _))
  . unfold next
    rw [step_of_halted hrest (.cons hc hstuck)]

theorem munch_blank (mode : LineMode) (position : Position) (hc : isBlank c) :
    munch mode position (c :: rest) = munch mode (position.after mode [c]) rest := by
  rw [munch, if_pos hc]
  rfl

theorem munch_lexeme (mode : LineMode) (position : Position) {l : Lexeme} (hlawful : l.Lawful)
    (hclosed : l.Closed rest) :
    munch mode position (l.raw ++ rest) =
      (munch mode (position.after mode l.raw) rest).map
        (l.token (position.after mode l.raw) :: ·) := by
  have hfound := Lexeme.first?_of_closed hlawful hclosed
  rcases not_isBlank_of_lawful hlawful with ⟨c, inner, hraw, hblank⟩
  rw [Lexeme.first?_eq_longest?, hraw, List.cons_append] at hfound
  rw [hraw, List.cons_append, munch, hblank, if_neg Bool.false_ne_true, hfound]
  simp only [hraw, List.length_cons, Nat.add_sub_cancel, List.drop_left]

theorem munch_stuck (mode : LineMode) (position : Position) (hc : isBlank c = false)
    (hstuck : Lexeme.Stuck (c :: rest)) :
    munch mode position (c :: rest) = .error (errorFrom mode position c rest) := by
  have hnone := Lexeme.first?_of_stuck hstuck
  rw [Lexeme.first?_eq_longest?] at hnone
  rw [munch, hc, if_neg Bool.false_ne_true, hnone]

theorem munch_of_cuts (mode : LineMode) (position : Position) (h : Cuts text pieces rest) :
    munch mode position text = (reportFrom mode (position.after mode (textOf pieces))
      (tokensFrom mode position pieces) [] rest).result := by
  induction h generalizing position with
  | halt hhalted =>
    cases hhalted with
    | nil =>
      rw [munch]
      rfl
    | cons hblank hstuck => exact munch_stuck mode position hblank hstuck
  | @cons piece text pieces rest hlawful hclosed hcuts ih =>
    rw [textOf_cons, Position.after_append]
    cases piece with
    | blank c =>
      rw [Piece.raw, List.singleton_append, munch_blank mode position hlawful, ih]
      rfl
    | lexeme l =>
      rw [Piece.raw, munch_lexeme mode position hlawful hclosed, ih]
      cases rest with
      | nil => rfl
      | cons c rest => rfl

theorem result_run_start (cursor : Cursor) :
    (start cursor).run.result = munch cursor.mode cursor.position cursor.rest := by
  rcases exists_cuts cursor.rest with ⟨pieces, rest, hcuts⟩
  rw [run_start_of_cuts hcuts, munch_of_cuts _ _ hcuts]
  cases rest with
  | nil => rfl
  | cons c rest => rfl

theorem next_longestMatch :
    (∀ (scan : Scan) c rest, scan.cursor.rest = c :: rest → LongestMatch scan c rest) ∧
    ∀ cursor : Cursor,
      (start cursor).run.result = munch cursor.mode cursor.position cursor.rest := by
  refine ⟨?_, result_run_start⟩
  intro scan c rest hrest
  have hne : scan.cursor.rest ≠ [] := by
    rw [hrest]
    exact List.cons_ne_nil c rest
  constructor
  . intro hc
    exact next_of_isBlank hrest ((isBlank_iff c).mpr hc)
  . intro _ h
    rcases h with ⟨text, htext, htoken⟩
    exact next_of_isTokenText hrest htext htoken
  . intro hc hnone
    rw [← isBlank_iff, Bool.not_eq_true] at hc
    have hnext := next_of_not_isTokenText hrest hc hnone
    have hrun := run_of_next hne
    rw [hnext] at hrun
    refine ⟨_, hnext, ?_⟩
    simp [hrun, fail]
  . exact run_of_next hne

theorem next_longestMatch_point_half :
    (∃ token after, (start (.ofString .track "12.3.4")).next = .ok after ∧
      Takes (start (.ofString .track "12.3.4")) "12.3".toList (some token) after) ∧
    ∃ error, (start (.ofString .track "&|")).next = .error error := by
  constructor
  . have hmatch := next_longestMatch.1 (start (.ofString .track "12.3.4")) '1' "2.3.4".toList rfl
    have hlongest : Lexeme.Longest "12.3".toList ('1' :: "2.3.4".toList) := by
      have hinits : ∀ other ∈ ('1' :: "2.3.4".toList).inits, Lexeme.IsTokenText other →
          other.length ≤ "12.3".toList.length := by
        decide +kernel
      refine ⟨by decide, by decide +kernel, ?_⟩
      intro other hother
      exact hinits other ((List.mem_inits ..).mpr hother)
    rcases hmatch.token (by decide) ⟨_, hlongest.isPrefix, hlongest.isTokenText⟩ with
      ⟨longest, token, after, hlongest', -, -, hnext, htakes⟩
    rw [hlongest'.unique hlongest] at htakes
    exact ⟨token, after, hnext, htakes⟩
  . have hmatch := next_longestMatch.1 (start (.ofString .track "&|")) '&' ['|'] rfl
    have hinits : ∀ text ∈ ['&', '|'].inits, ¬ Lexeme.IsTokenText text := by
      decide +kernel
    rcases hmatch.error (by decide) (fun text h => hinits text ((List.mem_inits ..).mpr h)) with
      ⟨error, hnext, -⟩
    exact ⟨error, hnext⟩

end SketchLang.Scan
