import SketchLang.Tree.Basic

namespace SketchLang

protected def Literal.beq : Literal → Literal → Bool
  | .number x, .number y => x == y
  | .string s, .string t => s == t
  | .boolean a, .boolean b => a == b
  | _, _ => false

instance : BEq Literal := ⟨Literal.beq⟩

namespace Node

mutual

protected def beq : Node → Node → Bool
  | .literal l, .literal l' => l == l'
  | .var name value, .var name' value' => name == name' && value.beq value'
  | .binary left op right, .binary left' op' right' =>
    left.beq left' && op == op' && right.beq right'
  | .array elements, .array elements' => beqList elements elements'
  | .func name params body, .func name' params' body' =>
    name == name' && params == params' && beqList body body'
  | .ret value, .ret value' => value.beq value'
  | .conditional condition body otherwise, .conditional condition' body' otherwise' =>
    condition.beq condition' && beqList body body' && beqOtherwise otherwise otherwise'
  | .set caller property value, .set caller' property' value' =>
    caller.beq caller' && property == property' && value.beq value'
  | .count id first last body, .count id' first' last' body' =>
    id == id' && first.beq first' && last.beq last' && beqList body body'
  | .loop condition body, .loop condition' body' =>
    condition.beq condition' && beqList body body'
  | .struct name members, .struct name' members' => name == name' && members == members'
  | .new name members, .new name' members' => name == name' && beqMembers members members'
  | .call caller args, .call caller' args' => caller.beq caller' && beqList args args'
  | .get caller property, .get caller' property' =>
    caller.beq caller' && beqProperty property property'
  | .unary op operand, .unary op' operand' => op == op' && operand.beq operand'
  | _, _ => false

def beqList : List Node → List Node → Bool
  | [], [] => true
  | node :: nodes, node' :: nodes' => node.beq node' && beqList nodes nodes'
  | _, _ => false

def beqMembers : List (String × Node) → List (String × Node) → Bool
  | [], [] => true
  | (name, value) :: members, (name', value') :: members' =>
    name == name' && value.beq value' && beqMembers members members'
  | _, _ => false

def beqOtherwise : Option (List Node) → Option (List Node) → Bool
  | none, none => true
  | some body, some body' => beqList body body'
  | _, _ => false

def beqProperty : Property Node → Property Node → Bool
  | .named name, .named name' => name == name'
  | .computed index, .computed index' => index.beq index'
  | _, _ => false

end

instance : BEq Node := ⟨Node.beq⟩

end Node

end SketchLang
