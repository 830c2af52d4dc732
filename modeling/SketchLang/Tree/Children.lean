import SketchLang.Tree.Basic

namespace SketchLang.Node

def children : Node → List Node
  | literal _ | struct _ _ => []
  | var _ value | ret value => [value]
  | binary left _ right => [left, right]
  | array elements => elements
  | func _ _ body => body
  | conditional condition body otherwise => condition :: body ++ otherwise.getD []
  | set caller _ value => [caller, value]
  | count _ first last body => first :: last :: body
  | loop condition body => condition :: body
  | new _ members => members.map (·.2)
  | call caller args => caller :: args
  | get caller (.named _) => [caller]
  | get caller (.computed index) => [caller, index]
  | unary _ operand => [operand]

mutual

def size : Node → Nat
  | literal _ | struct _ _ => 1
  | var _ value | ret value => value.size + 1
  | binary left _ right => left.size + right.size + 1
  | array elements => sizeSeq elements + 1
  | func _ _ body => sizeSeq body + 1
  | conditional condition body none => condition.size + sizeSeq body + 1
  | conditional condition body (some otherwise) =>
    condition.size + sizeSeq body + sizeSeq otherwise + 1
  | set caller _ value => caller.size + value.size + 1
  | count _ first last body => first.size + last.size + sizeSeq body + 1
  | loop condition body => condition.size + sizeSeq body + 1
  | new _ members => sizeMembers members + 1
  | call caller args => caller.size + sizeSeq args + 1
  | get caller (.named _) => caller.size + 1
  | get caller (.computed index) => caller.size + index.size + 1
  | unary _ operand => operand.size + 1

def sizeSeq : List Node → Nat
  | [] => 0
  | node :: nodes => node.size + sizeSeq nodes

def sizeMembers : List (String × Node) → Nat
  | [] => 0
  | (_, value) :: members => value.size + sizeMembers members

end

@[simp]
theorem sizeSeq_append (nodes more : List Node) :
    sizeSeq (nodes ++ more) = sizeSeq nodes + sizeSeq more := by
  induction nodes with
  | nil => simp [sizeSeq]
  | cons node nodes ih => simp [sizeSeq, ih, Nat.add_assoc]

theorem sizeMembers_eq_sizeSeq (members : List (String × Node)) :
    sizeMembers members = sizeSeq (members.map (·.2)) := by
  induction members with
  | nil => rfl
  | cons member members ih => simp [sizeMembers, sizeSeq, ih]

theorem size_eq_sizeSeq_children (node : Node) : node.size = sizeSeq node.children + 1 := by
  cases node with
  | conditional _ _ otherwise => cases otherwise <;> simp [size, children, sizeSeq, Nat.add_assoc]
  | get _ property => cases property <;> simp [size, children, sizeSeq]
  | new => simp [size, children, sizeMembers_eq_sizeSeq]
  | _ => simp [size, children, sizeSeq, Nat.add_assoc]

theorem size_le_sizeSeq {node : Node} {nodes : List Node} (h : node ∈ nodes) :
    node.size ≤ sizeSeq nodes := by
  induction h with
  | head => simp [sizeSeq]
  | tail _ _ ih => exact Nat.le_trans ih (by simp [sizeSeq])

theorem size_lt_of_mem_children {node child : Node} (h : child ∈ node.children) :
    child.size < node.size := by
  have := size_le_sizeSeq h
  rw [size_eq_sizeSeq_children node]
  omega

theorem children_induction {motive : Node → Prop}
    (step : ∀ node, (∀ child ∈ node.children, motive child) → motive node) (node : Node) :
    motive node :=
  step node fun child _ => children_induction step child
termination_by node.size
decreasing_by exact size_lt_of_mem_children (by assumption)

def walkFrom (depth : Nat) (node : Node) : List (Nat × Node) :=
  (depth, node) :: node.children.attach.flatMap fun ⟨child, _⟩ => child.walkFrom (depth + 1)
termination_by node.size
decreasing_by exact size_lt_of_mem_children (by assumption)

def walk (node : Node) : List (Nat × Node) := node.walkFrom 0

end SketchLang.Node
