import SketchLang.Scan.Event
import SketchLang.Scan.Step

namespace SketchLang

structure Scan where
  cursor : Cursor
  tokens : Array Token
  log : Array Scan.Event

namespace Scan

abbrev Result := Except Error (List Token)

protected def Result.beq : Result → Result → Bool
  | .ok tokens, .ok tokens' => tokens == tokens'
  | .error error, .error error' => error == error'
  | _, _ => false

instance : BEq Result := ⟨Result.beq⟩

structure Report where
  result : Result
  log : List Event

def start (cursor : Cursor) : Scan := ⟨cursor, #[], #[]⟩

def record (scan : Scan) (token : Token) : Scan :=
  { scan with tokens := scan.tokens.push token, log := scan.log.push (.token token) }

def moveTo (scan : Scan) (cursor : Cursor) : Option Token → Scan
  | none => { scan with cursor := cursor }
  | some token => { scan with cursor := cursor }.record token

def finish (scan : Scan) : Report :=
  let scan := scan.record (.eof scan.cursor.position)
  ⟨.ok scan.tokens.toList, (scan.log.push (.finished scan.tokens.size)).toList⟩

def fail (scan : Scan) (error : Error) : Report :=
  ⟨.error error, (scan.log.push (.failed scan.tokens.size error)).toList⟩

@[simp]
theorem cursor_moveTo (scan : Scan) (cursor : Cursor) (token? : Option Token) :
    (scan.moveTo cursor token?).cursor = cursor := by
  cases token? <;> rfl

def run (scan : Scan) : Report :=
  if _ : scan.cursor.rest = [] then
    scan.finish
  else
    match _ : step scan.cursor with
    | .ok (token?, cursor) => (scan.moveTo cursor token?).run
    | .error error => scan.fail error
termination_by scan.cursor.rest.length
decreasing_by
  rw [cursor_moveTo]
  apply length_rest_lt_of_step <;> assumption

def ofString (mode : LineMode) (source : String) : Report := (start (.ofString mode source)).run

end Scan

def tokenize (mode : LineMode) (source : String) : Scan.Result := (Scan.ofString mode source).result

end SketchLang
