import Mathlib.Data.List.Forall2
import SketchLang.Proofs.Tree.Frame
import SketchLang.Tree.Equality

namespace SketchLang.Node

def Alike (a b : Node) : Prop :=
  match a, b with
  | literal l, literal l' => l == l'
  | _, _ => a.frame = b.frame

theorem forall₂_append_iff {α : Type} {r : α → α → Prop} {x x' y y' : List α}
    (h : x.length = x'.length) :
    List.Forall₂ r (x ++ y) (x' ++ y') ↔ List.Forall₂ r x x' ∧ List.Forall₂ r y y' := by
  constructor
  . intro hboth
    constructor
    . have htake := List.forall₂_take x.length hboth
      rwa [List.take_left, h, List.take_left] at htake
    . have hdrop := List.forall₂_drop x.length hboth
      rwa [List.drop_left, h, List.drop_left] at hdrop
  . intro hparts
    exact List.rel_append hparts.1 hparts.2

theorem beq_def (a b : Node) : (a == b) = a.beq b := rfl

theorem beqList_iff (nodes nodes' : List Node) :
    beqList nodes nodes' ↔
      nodes.length = nodes'.length ∧ List.Forall₂ (fun a b => a == b) nodes nodes' := by
  induction nodes generalizing nodes' with
  | nil => cases nodes' <;> simp [beqList]
  | cons node nodes ih =>
    cases nodes' with
    | nil => simp [beqList]
    | cons node' nodes' =>
      simp only [beqList, Bool.and_eq_true, ih, List.length_cons, Nat.succ_inj, List.forall₂_cons,
        beq_def]
      tauto

theorem beqMembers_iff (members members' : List (String × Node)) :
    beqMembers members members' ↔ members.map (·.1) = members'.map (·.1) ∧
      List.Forall₂ (fun a b => a == b) (members.map (·.2)) (members'.map (·.2)) := by
  induction members generalizing members' with
  | nil => cases members' <;> simp [beqMembers]
  | cons member members ih =>
    cases members' with
    | nil => simp [beqMembers]
    | cons member' members' =>
      rcases member with ⟨name, value⟩
      rcases member' with ⟨name', value'⟩
      simp only [beqMembers, Bool.and_eq_true, beq_iff_eq, ih, beq_def, List.map_cons,
        List.cons.injEq, List.forall₂_cons]
      tauto

theorem beqOtherwise_iff (otherwise otherwise' : Option (List Node)) :
    beqOtherwise otherwise otherwise' ↔ otherwise.map List.length = otherwise'.map List.length ∧
      List.Forall₂ (fun a b => a == b) (otherwise.getD []) (otherwise'.getD []) := by
  cases otherwise
  all_goals
    cases otherwise'
    all_goals simp [beqOtherwise, beqList_iff]

theorem frame_eq_frame_conditional_iff (condition condition' : Node) (body body' : List Node)
    (otherwise otherwise' : Option (List Node)) :
    (conditional condition body otherwise).frame = (conditional condition' body' otherwise').frame ↔
      body.length = body'.length ∧ otherwise.map List.length = otherwise'.map List.length := by
  cases otherwise
  all_goals
    cases otherwise'
    all_goals simp [frame, mapChildren]

theorem frame_new (name : String) (members : List (String × Node)) :
    (new name members).frame = new name ((members.map (·.1)).map (·, array [])) := by
  rw [frame, mapChildren, List.map_map]
  rfl

theorem frame_eq_frame_new_iff (name name' : String) (members members' : List (String × Node)) :
    (new name members).frame = (new name' members').frame ↔
      name = name' ∧ members.map (·.1) = members'.map (·.1) := by
  have hinj : ∀ s t : String, (s, array []) = (t, array []) → s = t := by simp
  rw [frame_new, frame_new, new.injEq, List.map_inj_right hinj]

theorem shape_mapChildren (f : Node → Node) (node : Node) :
    (node.mapChildren f).shape = node.shape := by
  cases node with
  | get _ property => cases property <;> rfl
  | _ => rfl

theorem Alike.shape_eq {a b : Node} (h : Alike a b) : a.shape = b.shape := by
  unfold Alike at h
  split at h
  . rfl
  . rw [← shape_mapChildren (fun _ => array []) a, ← shape_mapChildren (fun _ => array []) b]
    exact congrArg shape h

theorem shape_eq_of_beq {a b : Node} (h : a == b) : a.shape = b.shape := by
  rw [beq_def] at h
  fun_cases Node.beq a b
  case case16 => simp [Node.beq] at h
  all_goals rfl

theorem beq_conditional_iff (condition condition' : Node) (body body' : List Node)
    (otherwise otherwise' : Option (List Node)) :
    conditional condition body otherwise == conditional condition' body' otherwise' ↔
      (body.length = body'.length ∧ otherwise.map List.length = otherwise'.map List.length) ∧
        condition == condition' ∧
          List.Forall₂ (fun a b => a == b) (body ++ otherwise.getD [])
            (body' ++ otherwise'.getD []) := by
  simp only [beq_def, Node.beq, Bool.and_eq_true, beqList_iff, beqOtherwise_iff]
  by_cases h : body.length = body'.length
  . rw [forall₂_append_iff h]
    tauto
  . simp [h]

theorem beq_iff_of_shape_eq {a b : Node} (h : a.shape = b.shape) :
    a == b ↔ Alike a b ∧ List.Forall₂ (fun a b => a == b) a.children b.children := by
  cases a with
  | literal l =>
    cases b with
    | literal l' => simp [beq_def, Node.beq, Alike, children]
    | _ => simp [shape] at h
  | var name value =>
    cases b with
    | var name' value' => simp [beq_def, Node.beq, Alike, frame, mapChildren, children]
    | _ => simp [shape] at h
  | binary left op right =>
    cases b with
    | binary left' op' right' =>
      simp [beq_def, Node.beq, Alike, frame, mapChildren, children]
      tauto
    | _ => simp [shape] at h
  | array elements =>
    cases b with
    | array elements' =>
      simp [beq_def, Node.beq, Alike, frame, mapChildren, children, beqList_iff]
    | _ => simp [shape] at h
  | func name params body =>
    cases b with
    | func name' params' body' =>
      simp [beq_def, Node.beq, Alike, frame, mapChildren, children, beqList_iff, and_assoc]
    | _ => simp [shape] at h
  | ret value =>
    cases b with
    | ret value' => simp [beq_def, Node.beq, Alike, frame, mapChildren, children]
    | _ => simp [shape] at h
  | conditional condition body otherwise =>
    cases b with
    | conditional condition' body' otherwise' =>
      simp [beq_conditional_iff, Alike, frame_eq_frame_conditional_iff, children]
    | _ => simp [shape] at h
  | set caller property value =>
    cases b with
    | set caller' property' value' =>
      simp [beq_def, Node.beq, Alike, frame, mapChildren, children]
      tauto
    | _ => simp [shape] at h
  | count id first last body =>
    cases b with
    | count id' first' last' body' =>
      simp [beq_def, Node.beq, Alike, frame, mapChildren, children, beqList_iff]
      tauto
    | _ => simp [shape] at h
  | loop condition body =>
    cases b with
    | loop condition' body' =>
      simp [beq_def, Node.beq, Alike, frame, mapChildren, children, beqList_iff]
      tauto
    | _ => simp [shape] at h
  | struct name members =>
    cases b with
    | struct name' members' => simp [beq_def, Node.beq, Alike, frame, mapChildren, children]
    | _ => simp [shape] at h
  | new name members =>
    cases b with
    | new name' members' =>
      simp [beq_def, Node.beq, Alike, frame_eq_frame_new_iff, children, beqMembers_iff, and_assoc]
    | _ => simp [shape] at h
  | call caller args =>
    cases b with
    | call caller' args' =>
      simp [beq_def, Node.beq, Alike, frame, mapChildren, children, beqList_iff]
      tauto
    | _ => simp [shape] at h
  | get caller property =>
    cases b with
    | get caller' property' =>
      cases property
      all_goals
        cases property'
        all_goals simp [beq_def, Node.beq, beqProperty, Alike, frame, mapChildren, children]
      tauto
    | _ => simp [shape] at h
  | unary op operand =>
    cases b with
    | unary op' operand' => simp [beq_def, Node.beq, Alike, frame, mapChildren, children]
    | _ => simp [shape] at h

theorem beq_iff (a b : Node) :
    a == b ↔ Alike a b ∧ List.Forall₂ (fun a b => a == b) a.children b.children := by
  constructor
  . intro h
    exact (beq_iff_of_shape_eq (shape_eq_of_beq h)).mp h
  . intro h
    exact (beq_iff_of_shape_eq h.1.shape_eq).mpr h

end SketchLang.Node
