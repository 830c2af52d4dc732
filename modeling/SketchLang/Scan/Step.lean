import SketchLang.Cursor
import SketchLang.Lexeme
import SketchLang.Scan.Error

namespace SketchLang.Scan

def isBlank (c : Char) : Bool := c == ' ' || c == '\t' || c == '\r' || c == '\n'

/--
The error at a cursor where `c` comes next and begins no lexeme. A quotation mark begins none
because it does not come again, which shows only at the end of the text.
-/
def errorAt (cursor : Cursor) (c : Char) : Error :=
  if Lexeme.isQuote c then
    ⟨.unterminatedString c, (cursor.skip cursor.rest.length).position⟩
  else
    ⟨.unrecognizedCharacter c, cursor.advance.position⟩

def step (cursor : Cursor) : Except Error (Option Token × Cursor) :=
  match cursor.rest with
  | [] => .ok (none, cursor)
  | c :: rest =>
    if isBlank c then
      .ok (none, cursor.advance)
    else
      match Lexeme.first? (c :: rest) with
      | some lexeme =>
        let cursor := cursor.skip lexeme.raw.length
        .ok (some (lexeme.token cursor.position), cursor)
      | none => .error (errorAt cursor c)

theorem length_rest_lt_of_step {cursor next : Cursor} {token? : Option Token}
    (hrest : cursor.rest ≠ []) (h : step cursor = .ok (token?, next)) :
    next.rest.length < cursor.rest.length := by
  have hpos := List.length_pos_iff.mpr hrest
  unfold step at h
  split at h
  . contradiction
  . split at h
    . cases h
      simp only [Cursor.rest_advance, List.length_tail]
      omega
    . split at h
      . next hlexeme =>
        cases h
        have hne := List.length_pos_iff.mpr (Lexeme.raw_first? hlexeme).2
        simp only [Cursor.rest_skip, List.length_drop]
        omega
      . contradiction

end SketchLang.Scan
