import SketchLang.Scan.Error
import SketchLang.Token.Basic

namespace SketchLang.Scan

inductive Event.Level where
  | debug
  | trace
deriving DecidableEq

def Event.Level.name : Event.Level → String
  | debug => "DEBUG"
  | trace => "TRACE"

inductive Event where
  | token (token : Token)
  | finished (count : Nat)
  | failed (count : Nat) (error : Error)

namespace Event

def level : Event → Level
  | token _ => .trace
  | finished _ | failed _ _ => .debug

def message : Event → String
  | token t =>
    "token " ++ t.kind.name ++ " " ++ Text.quoteString t.lexeme ++ " at " ++
      toString t.position.line ++ ":" ++ toString t.position.column
  | finished count => "scanned " ++ toString count ++ " tokens"
  | failed count error =>
    "scan failed after " ++ toString count ++ " tokens: " ++ error.message

end Event

end SketchLang.Scan
