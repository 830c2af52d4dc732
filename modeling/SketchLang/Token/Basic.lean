import SketchLang.Binary64.Shortest
import SketchLang.Position
import SketchLang.Token.Keyword
import SketchLang.Token.Kind

namespace SketchLang

namespace Token

inductive Value where
  | text (text : String)
  | number (number : Binary64)
  | keyword (keyword : Keyword)
  | boolean (boolean : Bool)

namespace Value

def render : Value → String
  | .text s => s
  | .number x => x.text
  | .keyword k => k.spelling
  | .boolean b => if b then "true" else "false"

instance : ToString Value := ⟨render⟩

protected def beq : Value → Value → Bool
  | .text a, .text b => a == b
  | .number a, .number b => a == b
  | .keyword a, .keyword b => a == b
  | .boolean a, .boolean b => a == b
  | _, _ => false

instance : BEq Value := ⟨Value.beq⟩

end Value

end Token

/--
A token. Its position is the one reached after its last character.
-/
structure Token where
  kind : Token.Kind
  lexeme : String
  value : Token.Value
  position : Position

namespace Token

def plain (kind : Kind) (lexeme : String) (position : Position) : Token :=
  ⟨kind, lexeme, .text lexeme, position⟩

def eof (position : Position) : Token := plain .eof "" position

def isEof (token : Token) : Bool := token.kind == .eof

instance : ToString Token := ⟨lexeme⟩

protected def beq (a b : Token) : Bool :=
  a.kind == b.kind && a.lexeme == b.lexeme && a.value == b.value && a.position == b.position

instance : BEq Token := ⟨Token.beq⟩

end Token

end SketchLang
