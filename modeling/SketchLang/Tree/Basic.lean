import SketchLang.Binary64.Basic
import SketchLang.Token.Kind

namespace SketchLang

inductive Literal where
  | number (number : Binary64)
  | string (text : String)
  | boolean (boolean : Bool)

inductive Property (α : Type) where
  | named (name : String)
  | computed (index : α)

def Property.isComputed : Property α → Bool
  | named _ => false
  | computed _ => true

inductive Node where
  | literal (literal : Literal)
  | var (name : String) (value : Node)
  | binary (left : Node) (op : Token.Kind) (right : Node)
  | array (elements : List Node)
  | func (name : String) (params : List String) (body : List Node)
  | ret (value : Node)
  /--
  An `if`. An `elif` is a conditional that is all there is in `otherwise`.
  -/
  | conditional (condition : Node) (body : List Node) (otherwise : Option (List Node))
  | set (caller : Node) (property : String) (value : Node)
  | count (id : String) (first last : Node) (body : List Node)
  | loop (condition : Node) (body : List Node)
  | struct (name : String) (members : List String)
  | new (name : String) (members : List (String × Node))
  | call (caller : Node) (args : List Node)
  | get (caller : Node) (property : Property Node)
  | unary (op : Token.Kind) (operand : Node)

namespace Node

def shape : Node → String
  | literal _ => "Literal"
  | var _ _ => "Var"
  | binary _ _ _ => "Binary"
  | array _ => "Array"
  | func _ _ _ => "Func"
  | ret _ => "Return"
  | conditional _ _ _ => "Conditional"
  | set _ _ _ => "Set"
  | count _ _ _ _ => "For"
  | loop _ _ => "While"
  | struct _ _ => "Struct"
  | new _ _ => "Instance"
  | call _ _ => "Call"
  | get _ _ => "Get"
  | unary _ _ => "Unary"

end Node

end SketchLang
