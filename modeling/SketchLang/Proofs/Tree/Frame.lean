import SketchLang.Tree.Children
import SketchLang.Tree.Printer

/-!
This module contains how the text of a node is made from the texts of its children. They stand in
the order of the children, and what stands between them is told by the frame of the node, in which
there are no children (`Node.interleave_glue`).
-/

namespace SketchLang

inductive Part where
  | text (text : String)
  | child

inductive Fills : List Part → List String → String → Prop
  | nil : Fills [] [] ""
  | text {parts : List Part} {texts : List String} {whole : String} (s : String)
    (h : Fills parts texts whole) : Fills (.text s :: parts) texts (s ++ whole)
  | child {parts : List Part} {texts : List String} {whole : String} (s : String)
    (h : Fills parts texts whole) : Fills (.child :: parts) (s :: texts) (s ++ whole)

def gaps : List Part → List String
  | [] => [""]
  | .text s :: parts => (s ++ (gaps parts).headD "") :: (gaps parts).tail
  | .child :: parts => "" :: gaps parts

def interleave : List String → List String → String
  | gap :: gaps, text :: texts => gap ++ text ++ interleave gaps texts
  | gaps, _ => String.join gaps

section Fills

variable {parts parts' : List Part} {texts texts' : List String} {whole whole' : String}

theorem Fills.append (h : Fills parts texts whole) (h' : Fills parts' texts' whole') :
    Fills (parts ++ parts') (texts ++ texts') (whole ++ whole') := by
  induction h with
  | nil => simpa using h'
  | text s _ ih =>
    rw [String.append_assoc]
    exact .text s ih
  | child s _ ih =>
    rw [String.append_assoc]
    exact .child s ih

theorem fills_text (s : String) : Fills [.text s] [] s := by
  have h := Fills.text s .nil
  rwa [String.append_empty] at h

theorem fills_child (s : String) : Fills [.child] [s] s := by
  have h := Fills.child s .nil
  rwa [String.append_empty] at h

theorem Fills.of_eq (h : Fills parts texts whole) (heq : whole = whole') :
    Fills parts texts whole' := by
  rwa [← heq]

theorem Fills.enclose (h : Fills parts texts whole) (opening closing : String) :
    Fills (.text opening :: parts ++ [.text closing]) texts (opening ++ whole ++ closing) := by
  have happend := ((fills_text opening).append h).append (fills_text closing)
  rwa [List.nil_append, List.append_nil] at happend

theorem gaps_ne_nil (parts : List Part) : gaps parts ≠ [] := by
  cases parts with
  | nil => simp [gaps]
  | cons part parts => cases part <;> simp [gaps]

theorem interleave_cons_append (s gap : String) (gaps texts : List String) :
    interleave ((s ++ gap) :: gaps) texts = s ++ interleave (gap :: gaps) texts := by
  cases texts with
  | nil => simp [interleave, String.append_assoc]
  | cons text texts => simp [interleave, String.append_assoc]

theorem Fills.length_gaps (h : Fills parts texts whole) :
    (gaps parts).length = texts.length + 1 := by
  induction h with
  | nil => rfl
  | text s _ ih => simp [gaps, ih]
  | child s _ ih => simp [gaps, ih]

theorem Fills.interleave_gaps (h : Fills parts texts whole) :
    interleave (gaps parts) texts = whole := by
  induction h with
  | nil => rfl
  | @text parts texts whole s _ ih =>
    rcases List.exists_cons_of_ne_nil (gaps_ne_nil parts) with ⟨gap, more, heq⟩
    rw [gaps, interleave_cons_append, ← ih, heq]
    rfl
  | child s _ ih => simp [gaps, interleave, ih]

end Fills

namespace Node

def mapChildren (f : Node → Node) : Node → Node
  | literal l => literal l
  | var name value => var name (f value)
  | binary left op right => binary (f left) op (f right)
  | array elements => array (elements.map f)
  | func name params body => func name params (body.map f)
  | ret value => ret (f value)
  | conditional condition body otherwise =>
    conditional (f condition) (body.map f) (otherwise.map (List.map f))
  | set caller property value => set (f caller) property (f value)
  | count id first last body => count id (f first) (f last) (body.map f)
  | loop condition body => loop (f condition) (body.map f)
  | struct name members => struct name members
  | new name members => new name (members.map fun (member, value) => (member, f value))
  | call caller args => call (f caller) (args.map f)
  | get caller (.named name) => get (f caller) (.named name)
  | get caller (.computed index) => get (f caller) (.computed (f index))
  | unary op operand => unary op (f operand)

/--
What a node is apart from its children: its shape, its names, its operator or its literal, and the
presence and the lengths of its lists. Empty arrays stand for the children.
-/
def frame (node : Node) : Node := node.mapChildren fun _ => array []

def argParts : Nat → List Part
  | 0 => []
  | n + 1 => .text " " :: .child :: argParts n

def seqParts : Nat → List Part
  | 0 => []
  | n + 1 => .child :: argParts n

def memberParts : List String → List Part
  | [] => []
  | name :: names => .text (" (" ++ name ++ " ") :: .child :: .text ")" :: memberParts names

def bodyParts (n : Nat) : List Part := .text " (" :: seqParts n ++ [.text ")"]

def otherwiseParts : Option (List Node) → List Part
  | none => []
  | some body => bodyParts body.length

def template : Node → List Part
  | literal l => [.text l.render]
  | var name _ => .text ("(var " ++ name ++ " ") :: [.child] ++ [.text ")"]
  | binary _ op _ =>
    .text ("(" ++ op.symbol ++ " ") :: [.child, .text " ", .child] ++ [.text ")"]
  | array elements => .text "[" :: seqParts elements.length ++ [.text "]"]
  | func name params body =>
    .text ("(func " ++ name ++ " (" ++ " ".intercalate params ++ ") (") ::
      seqParts body.length ++ [.text "))"]
  | ret _ => .text "(return " :: [.child] ++ [.text ")"]
  | conditional _ body otherwise =>
    .text "(if " :: (.child :: bodyParts body.length ++ otherwiseParts otherwise) ++ [.text ")"]
  | set _ property _ =>
    .text "(set " :: [.child, .text ("." ++ property ++ " "), .child] ++ [.text ")"]
  | count id _ _ body =>
    .text ("(for " ++ id ++ " (") ::
      (.child :: .text " " :: .child :: .text ") (" :: seqParts body.length) ++ [.text "))"]
  | loop _ body => .text "(while " :: (.child :: bodyParts body.length) ++ [.text ")"]
  | struct name members =>
    [.text ("(struct " ++ name ++ " (" ++ " ".intercalate members ++ "))")]
  | new name members => .text ("(new " ++ name) :: memberParts (members.map (·.1)) ++ [.text ")"]
  | call _ args => .text "(call " :: (.child :: argParts args.length) ++ [.text ")"]
  | get _ (.named name) => [.child, .text ("." ++ name)]
  | get _ (.computed _) => [.child, .text "[", .child, .text "]"]
  | unary op _ => .text ("(" ++ op.symbol ++ " ") :: [.child] ++ [.text ")"]

def glue (node : Node) : List String := gaps node.template

theorem template_mapChildren (f : Node → Node) (node : Node) :
    (node.mapChildren f).template = node.template := by
  cases node with
  | conditional _ _ otherwise =>
    cases otherwise <;> simp [mapChildren, template, otherwiseParts]
  | get _ property => cases property <;> simp [mapChildren, template]
  | new => simp [mapChildren, template, Function.comp_def]
  | _ => simp [mapChildren, template]

theorem fills_args (nodes : List Node) :
    Fills (argParts nodes.length) (nodes.map render) (renderArgs nodes) := by
  induction nodes with
  | nil => exact .nil
  | cons node nodes ih =>
    rw [renderArgs, String.append_assoc]
    exact .text " " (.child node.render ih)

theorem fills_seq (nodes : List Node) :
    Fills (seqParts nodes.length) (nodes.map render) (renderSeq nodes) := by
  cases nodes with
  | nil => exact .nil
  | cons node nodes => exact .child node.render (fills_args nodes)

theorem fills_members (members : List (String × Node)) :
    Fills (memberParts (members.map (·.1))) ((members.map (·.2)).map render)
      (renderMembers members) := by
  induction members with
  | nil => exact .nil
  | cons member members ih =>
    have h := (((fills_text (" (" ++ member.1 ++ " ")).append
      (fills_child member.2.render)).append (fills_text ")")).append ih
    exact h

theorem fills_body (body : List Node) :
    Fills (bodyParts body.length) (body.map render) (" (" ++ renderSeq body ++ ")") :=
  (fills_seq body).enclose " (" ")"

theorem fills_otherwise (otherwise : Option (List Node)) :
    Fills (otherwiseParts otherwise) ((otherwise.getD []).map render)
      (renderOtherwise otherwise) := by
  cases otherwise with
  | none => exact .nil
  | some body => exact fills_body body

theorem fills_template (node : Node) :
    Fills node.template (node.children.map render) node.render := by
  cases node with
  | literal l => exact fills_text _
  | var name value => exact (fills_child value.render).enclose _ ")"
  | binary left op right =>
    have h := ((fills_child left.render).append (fills_text " ")).append (fills_child right.render)
    apply (h.enclose ("(" ++ op.symbol ++ " ") ")").of_eq
    simp [render, String.append_assoc]
  | array elements => exact (fills_seq elements).enclose "[" "]"
  | func name params body => exact (fills_seq body).enclose _ "))"
  | ret value => exact (fills_child value.render).enclose "(return " ")"
  | conditional condition body otherwise =>
    have h := ((fills_child condition.render).append (fills_body body)).append
      (fills_otherwise otherwise)
    simp only [children, List.map_append]
    apply (h.enclose "(if " ")").of_eq
    simp [render, String.append_assoc]
  | set caller property value =>
    have h := (((fills_child caller.render).append (fills_text ("." ++ property ++ " "))).append
      (fills_child value.render))
    apply (h.enclose "(set " ")").of_eq
    simp [render, String.append_assoc]
  | count id first last body =>
    have h := ((((fills_child first.render).append (fills_text " ")).append
      (fills_child last.render)).append (fills_text ") (")).append (fills_seq body)
    apply (h.enclose ("(for " ++ id ++ " (") "))").of_eq
    simp [render, String.append_assoc]
  | loop condition body =>
    have h := (fills_child condition.render).append (fills_body body)
    apply (h.enclose "(while " ")").of_eq
    simp [render, String.append_assoc]
  | struct name members => exact fills_text _
  | new name members => exact (fills_members members).enclose _ ")"
  | call caller args =>
    have h := (fills_child caller.render).append (fills_args args)
    apply (h.enclose "(call " ")").of_eq
    simp [render, String.append_assoc]
  | get caller property =>
    cases property with
    | named name =>
      apply ((fills_child caller.render).append (fills_text ("." ++ name))).of_eq
      simp [render, String.append_assoc]
    | computed index =>
      have h := (fills_child index.render).enclose "[" "]"
      apply ((fills_child caller.render).append h).of_eq
      simp [render, String.append_assoc]
  | unary op operand => exact (fills_child operand.render).enclose _ ")"

theorem length_glue (node : Node) : node.glue.length = node.children.length + 1 := by
  have h := (fills_template node).length_gaps
  rwa [List.length_map] at h

theorem interleave_glue (node : Node) :
    interleave node.frame.glue (node.children.map render) = node.render := by
  unfold glue frame
  rw [template_mapChildren]
  exact (fills_template node).interleave_gaps

end Node

end SketchLang
