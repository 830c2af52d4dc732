import SketchLang.InputError
import SketchLang.Position
import SketchLang.Text.Quoted

namespace SketchLang.Scan

inductive Fault where
  | unterminatedString (mark : Char)
  /--
  No lexeme begins with the character, or, for one half of `&&` or `||`, the other half is missing.
  -/
  | unrecognizedCharacter (c : Char)
deriving DecidableEq

def Fault.message : Fault → String
  | unterminatedString mark => "unterminated string literal opened with " ++ Text.quoteChar mark
  | unrecognizedCharacter c => "unrecognized character " ++ Text.quoteChar c

structure Error where
  fault : Fault
  position : Position
deriving DecidableEq

namespace Error

def message (error : Error) : String :=
  "line " ++ toString error.position.line ++ ", column " ++ toString error.position.column ++ ": " ++
    error.fault.message

def toInputError (error : Error) : InputError := ⟨.invalidInput, error.message⟩

end Error

end SketchLang.Scan
