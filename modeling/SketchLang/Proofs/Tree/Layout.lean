import SketchLang.Proofs.Binary64.Shortest
import SketchLang.Proofs.Tree.Form
import SketchLang.Tree.Children
import SketchLang.Tree.Printer

namespace SketchLang

inductive Head where
  | var
  | func
  | ret
  | conditional
  | set
  | count
  | loop
  | struct
  | new
  | call
  | operator (op : Token.Kind)
deriving DecidableEq

def Head.text : Head → String
  | var => "var"
  | func => "func"
  | ret => "return"
  | conditional => "if"
  | set => "set"
  | count => "for"
  | loop => "while"
  | struct => "struct"
  | new => "new"
  | call => "call"
  | operator op => op.symbol

namespace Form

def word (s : String) : Form .item := .atom s.toList .done

def ofArgs : List (Form .item) → Form .args
  | [] => .nil
  | item :: items => .cons item (ofArgs items)

def ofSeq : List (Form .item) → Form .seq
  | [] => .empty
  | item :: items => .first item (ofArgs items)

def parens (items : List (Form .item)) : Form .item := .group (ofSeq items) .done

def headed (head : Head) (operands : List (Form .item)) (accesses : Form .accesses) : Form .item :=
  .group (ofSeq (word head.text :: operands)) accesses

end Form

namespace Node

open Form

mutual

def form : Node → Form .accesses → Form .item
  | literal l, accesses => .atom l.render.toList accesses
  | var name value, accesses => headed .var [word name, value.form .done] accesses
  | binary left op right, accesses =>
    headed (.operator op) [left.form .done, right.form .done] accesses
  | array elements, accesses => .array (ofSeq (forms elements)) accesses
  | func name params body, accesses =>
    headed .func [word name, parens (params.map word), parens (forms body)] accesses
  | ret value, accesses => headed .ret [value.form .done] accesses
  | conditional condition body otherwise, accesses =>
    headed .conditional (condition.form .done :: parens (forms body) :: otherwiseForms otherwise)
      accesses
  | set caller property value, accesses =>
    headed .set [caller.form (.named property.toList .done), value.form .done] accesses
  | count id start stop body, accesses =>
    headed .count [word id, parens [start.form .done, stop.form .done], parens (forms body)]
      accesses
  | loop condition body, accesses =>
    headed .loop [condition.form .done, parens (forms body)] accesses
  | struct name members, accesses => headed .struct [word name, parens (members.map word)] accesses
  | new name members, accesses => headed .new (word name :: memberForms members) accesses
  | call caller args, accesses => headed .call (caller.form .done :: forms args) accesses
  | get caller (.named name), accesses => caller.form (.named name.toList accesses)
  | get caller (.computed index), accesses => caller.form (.computed (index.form .done) accesses)
  | unary op operand, accesses => headed (.operator op) [operand.form .done] accesses

def forms : List Node → List (Form .item)
  | [] => []
  | node :: nodes => node.form .done :: forms nodes

def memberForms : List (String × Node) → List (Form .item)
  | [] => []
  | (name, value) :: members => parens [word name, value.form .done] :: memberForms members

def otherwiseForms : Option (List Node) → List (Form .item)
  | none => []
  | some body => [parens (forms body)]

end

end Node

namespace Form

@[simp]
theorem text_done : done.text = [] := rfl

@[simp]
theorem text_named (name : List Char) (accesses : Form .accesses) :
    (named name accesses).text = '.' :: name ++ accesses.text := rfl

@[simp]
theorem text_computed (index : Form .item) (accesses : Form .accesses) :
    (computed index accesses).text = '[' :: index.text ++ ']' :: accesses.text := rfl

@[simp]
theorem text_word (s : String) : (word s).text = s.toList := by
  simp [word, Form.text]

@[simp]
theorem text_ofArgs_nil : (ofArgs []).text = [] := rfl

@[simp]
theorem text_ofArgs_cons (item : Form .item) (items : List (Form .item)) :
    (ofArgs (item :: items)).text = ' ' :: item.text ++ (ofArgs items).text := rfl

@[simp]
theorem text_ofSeq_cons (item : Form .item) (items : List (Form .item)) :
    (ofSeq (item :: items)).text = item.text ++ (ofArgs items).text := rfl

@[simp]
theorem text_array (inner : Form .seq) (accesses : Form .accesses) :
    (array inner accesses).text = '[' :: inner.text ++ ']' :: accesses.text := rfl

@[simp]
theorem text_parens (items : List (Form .item)) :
    (parens items).text = '(' :: (ofSeq items).text ++ [')'] := rfl

@[simp]
theorem text_headed (head : Head) (operands : List (Form .item)) (accesses : Form .accesses) :
    (headed head operands accesses).text =
      '(' :: head.text.toList ++ (ofArgs operands).text ++ ')' :: accesses.text := by
  simp [headed, Form.text, ofSeq]

theorem text_ofSeq_words (names : List String) :
    (ofSeq (names.map word)).text = (" ".intercalate names).toList := by
  cases names with
  | nil => rw [String.intercalate_nil]; rfl
  | cons name names =>
    induction names generalizing name with
    | nil => simp
    | cons name' names ih =>
      rw [String.intercalate_cons_cons, String.toList_append, ← ih name']
      simp

end Form

namespace Node

open Form

def LaidOut (node : Node) : Prop :=
  ∀ accesses, (node.form accesses).text = node.render.toList ++ accesses.text

section Lists

variable {nodes : List Node} (h : ∀ node ∈ nodes, LaidOut node)

include h

theorem text_ofArgs_forms : (ofArgs (forms nodes)).text = (renderArgs nodes).toList := by
  induction nodes with
  | nil => rfl
  | cons node nodes ih =>
    rw [List.forall_mem_cons] at h
    simp [forms, renderArgs, h.1 .done, ih h.2]

theorem text_ofSeq_forms : (ofSeq (forms nodes)).text = (renderSeq nodes).toList := by
  cases nodes with
  | nil => rfl
  | cons node nodes =>
    rw [List.forall_mem_cons] at h
    simp [forms, renderSeq, h.1 .done, text_ofArgs_forms h.2]

end Lists

theorem text_ofArgs_memberForms {members : List (String × Node)}
    (h : ∀ node ∈ members.map (·.2), LaidOut node) :
    (ofArgs (memberForms members)).text = (renderMembers members).toList := by
  induction members with
  | nil => rfl
  | cons member members ih =>
    rcases member with ⟨name, value⟩
    rw [List.map_cons, List.forall_mem_cons] at h
    simp [memberForms, renderMembers, h.1 .done, ih h.2]

theorem text_ofArgs_otherwiseForms {otherwise : Option (List Node)}
    (h : ∀ node ∈ otherwise.getD [], LaidOut node) :
    (ofArgs (otherwiseForms otherwise)).text = (renderOtherwise otherwise).toList := by
  cases otherwise with
  | none => rfl
  | some body =>
    rw [Option.getD_some] at h
    simp [otherwiseForms, renderOtherwise, text_ofSeq_forms h]

theorem text_form (node : Node) : LaidOut node := by
  induction node using children_induction with
  | step node ih =>
    intro accesses
    cases node with
    | literal l => simp [form, render, Form.text]
    | var name value =>
      have hvalue := ih value (by simp [children])
      simp [form, render, Head.text, hvalue .done]
    | binary left op right =>
      have hleft := ih left (by simp [children])
      have hright := ih right (by simp [children])
      simp [form, render, Head.text, hleft .done, hright .done]
    | array elements =>
      rw [children] at ih
      simp [form, render, text_ofSeq_forms ih]
    | func name params body =>
      rw [children] at ih
      simp [form, render, Head.text, text_ofSeq_forms ih, text_ofSeq_words]
    | ret value =>
      have hvalue := ih value (by simp [children])
      simp [form, render, Head.text, hvalue .done]
    | conditional condition body otherwise =>
      simp only [children, List.cons_append, List.forall_mem_cons, List.forall_mem_append] at ih
      simp [form, render, Head.text, ih.1 .done, text_ofSeq_forms ih.2.1,
        text_ofArgs_otherwiseForms ih.2.2]
    | set caller property value =>
      have hcaller := ih caller (by simp [children])
      have hvalue := ih value (by simp [children])
      simp [form, render, Head.text, hcaller (.named property.toList .done), hvalue .done]
    | count id start stop body =>
      simp only [children, List.forall_mem_cons] at ih
      simp [form, render, Head.text, ih.1 .done, ih.2.1 .done, text_ofSeq_forms ih.2.2]
    | loop condition body =>
      simp only [children, List.forall_mem_cons] at ih
      simp [form, render, Head.text, ih.1 .done, text_ofSeq_forms ih.2]
    | struct name members => simp [form, render, Head.text, text_ofSeq_words]
    | new name members => simp [form, render, Head.text, text_ofArgs_memberForms ih]
    | call caller args =>
      simp only [children, List.forall_mem_cons] at ih
      simp [form, render, Head.text, ih.1 .done, text_ofArgs_forms ih.2]
    | get caller property =>
      cases property with
      | named name =>
        have hcaller := ih caller (by simp [children])
        simp [form, render, hcaller (.named name.toList accesses)]
      | computed index =>
        have hcaller := ih caller (by simp [children])
        have hindex := ih index (by simp [children])
        simp [form, render, hcaller (.computed (index.form .done) accesses), hindex .done]
    | unary op operand =>
      have hoperand := ih operand (by simp [children])
      simp [form, render, Head.text, hoperand .done]

end Node

end SketchLang
