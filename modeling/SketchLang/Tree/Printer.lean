import SketchLang.Binary64.Shortest
import SketchLang.Text.Quoted
import SketchLang.Tree.Basic

/-!
This module contains the text of a syntax tree: a prefix form in which every node that is not a
literal, an array or an access stands in parentheses.
-/

namespace SketchLang

def Token.Kind.symbol : Token.Kind → String
  | .or => "||"
  | .not => "!"
  | .and => "&&"
  | .equiv => "=="
  | .notEquiv => "!="
  | .gt => ">"
  | .gte => ">="
  | .lt => "<"
  | .lte => "<="
  | .plus => "+"
  | .minus => "-"
  | .asterisk => "*"
  | .slash => "/"
  | kind => kind.name

def Literal.render : Literal → String
  | number x => x.text
  | string s => Text.quoteString s
  | boolean b => if b then "true" else "false"

namespace Node

mutual

def render : Node → String
  | literal l => l.render
  | var name value => "(var " ++ name ++ " " ++ value.render ++ ")"
  | binary left op right => "(" ++ op.symbol ++ " " ++ left.render ++ " " ++ right.render ++ ")"
  | array elements => "[" ++ renderSeq elements ++ "]"
  | func name params body =>
    "(func " ++ name ++ " (" ++ " ".intercalate params ++ ") (" ++ renderSeq body ++ "))"
  | ret value => "(return " ++ value.render ++ ")"
  | conditional condition body otherwise =>
    "(if " ++ condition.render ++ " (" ++ renderSeq body ++ ")" ++ renderOtherwise otherwise ++ ")"
  | set caller property value =>
    "(set " ++ caller.render ++ "." ++ property ++ " " ++ value.render ++ ")"
  | count id first last body =>
    "(for " ++ id ++ " (" ++ first.render ++ " " ++ last.render ++ ") (" ++ renderSeq body ++ "))"
  | loop condition body => "(while " ++ condition.render ++ " (" ++ renderSeq body ++ "))"
  | struct name members => "(struct " ++ name ++ " (" ++ " ".intercalate members ++ "))"
  | new name members => "(new " ++ name ++ renderMembers members ++ ")"
  | call caller args => "(call " ++ caller.render ++ renderArgs args ++ ")"
  | get caller (.named name) => caller.render ++ "." ++ name
  | get caller (.computed index) => caller.render ++ "[" ++ index.render ++ "]"
  | unary op operand => "(" ++ op.symbol ++ " " ++ operand.render ++ ")"

def renderSeq : List Node → String
  | [] => ""
  | node :: nodes => node.render ++ renderArgs nodes

def renderArgs : List Node → String
  | [] => ""
  | node :: nodes => " " ++ node.render ++ renderArgs nodes

def renderMembers : List (String × Node) → String
  | [] => ""
  | (name, value) :: members => " (" ++ name ++ " " ++ value.render ++ ")" ++ renderMembers members

def renderOtherwise : Option (List Node) → String
  | none => ""
  | some body => " (" ++ renderSeq body ++ ")"

end

instance : ToString Node := ⟨render⟩

end Node

end SketchLang
