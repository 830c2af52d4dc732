import Mathlib.Data.List.Basic
import SketchLang.Tree.Children

namespace SketchLang

inductive Slot where
  | condition
  | caller
  | left
  | first
  | operand
  | right
  | last
  | value
  | index
  | element (i : Nat)
  | statement (i : Nat)
  | member (i : Nat)
  | argument (i : Nat)
  | otherwise (i : Nat)
deriving DecidableEq

namespace Slot

def rank : Slot → Nat × Nat
  | condition | caller | left | first | operand => (0, 0)
  | right | last | value | index => (1, 0)
  | element i | statement i | member i | argument i => (2, i)
  | otherwise i => (3, i)

def Precedes (slot slot' : Slot) : Prop :=
  slot.rank.1 < slot'.rank.1 ∨ slot.rank.1 = slot'.rank.1 ∧ slot.rank.2 < slot'.rank.2

theorem Precedes.irrefl (slot : Slot) : ¬ slot.Precedes slot := by
  unfold Precedes
  omega

theorem Precedes.trans {x y z : Slot} (h : x.Precedes y) (h' : y.Precedes z) : x.Precedes z := by
  unfold Precedes at h h' ⊢
  omega

end Slot

namespace Node

def at? : Node → Slot → Option Node
  | var _ value, .value | ret value, .value | set _ _ value, .value => some value
  | binary left _ _, .left => some left
  | binary _ _ right, .right => some right
  | array elements, .element i => elements[i]?
  | func _ _ body, .statement i | conditional _ body _, .statement i
  | count _ _ _ body, .statement i | loop _ body, .statement i => body[i]?
  | conditional condition _ _, .condition | loop condition _, .condition => some condition
  | conditional _ _ (some otherwise), .otherwise i => otherwise[i]?
  | set caller _ _, .caller | call caller _, .caller | get caller _, .caller => some caller
  | count _ first _ _, .first => some first
  | count _ _ last _, .last => some last
  | new _ members, .member i => members[i]?.map (·.2)
  | call _ args, .argument i => args[i]?
  | get _ (.computed index), .index => some index
  | unary _ operand, .operand => some operand
  | _, _ => none

def find? (node : Node) : List Slot → Option Node
  | [] => some node
  | slot :: address => (node.at? slot).bind (·.find? address)

theorem find?_cons {node child : Node} {slot : Slot} (h : node.at? slot = some child)
    (address : List Slot) : node.find? (slot :: address) = child.find? address := by
  rw [find?, h, Option.bind_some]

def slots : Node → List Slot
  | literal _ | struct _ _ => []
  | var _ _ | ret _ => [.value]
  | binary _ _ _ => [.left, .right]
  | array elements => (List.range elements.length).map .element
  | func _ _ body => (List.range body.length).map .statement
  | conditional _ body otherwise =>
    .condition :: (List.range body.length).map .statement ++
      (List.range (otherwise.getD []).length).map .otherwise
  | set _ _ _ => [.caller, .value]
  | count _ _ _ body => .first :: .last :: (List.range body.length).map .statement
  | loop _ body => .condition :: (List.range body.length).map .statement
  | new _ members => (List.range members.length).map .member
  | call _ args => .caller :: (List.range args.length).map .argument
  | get _ (.named _) => [.caller]
  | get _ (.computed _) => [.caller, .index]
  | unary _ _ => [.operand]

theorem map_getElem?_range (nodes : List Node) :
    (List.range nodes.length).map (nodes[·]?) = nodes.map some := by
  apply List.ext_getElem
  . simp
  . simp

theorem map_at?_slots (node : Node) : node.slots.map node.at? = node.children.map some := by
  cases node with
  | conditional _ _ otherwise =>
    cases otherwise <;> simp [slots, at?, children, Function.comp_def, map_getElem?_range]
  | get _ property => cases property <;> simp [slots, at?, children]
  | new _ members =>
    have h := map_getElem?_range (members.map (·.2))
    simpa [slots, at?, children, Function.comp_def] using h
  | _ => simp [slots, at?, children, Function.comp_def, map_getElem?_range]

theorem mem_slots_iff (node : Node) (slot : Slot) :
    slot ∈ node.slots ↔ (node.at? slot).isSome := by
  cases node with
  | conditional _ _ otherwise => cases otherwise <;> cases slot <;> simp [slots, at?]
  | get _ property => cases property <;> cases slot <;> simp [slots, at?]
  | _ => cases slot <;> simp [slots, at?]

theorem pairwise_slots (node : Node) : node.slots.Pairwise Slot.Precedes := by
  cases node with
  | conditional =>
    simp only [slots, List.cons_append, List.pairwise_cons, List.pairwise_append,
      List.pairwise_map, List.mem_append, List.mem_map]
    refine ⟨?_, ?_, ?_, ?_⟩
    . rintro _ (⟨i, -, rfl⟩ | ⟨i, -, rfl⟩)
      all_goals simp [Slot.Precedes, Slot.rank]
    all_goals simp [Slot.Precedes, Slot.rank, List.pairwise_lt_range]
  | get _ property => cases property <;> simp [slots, Slot.Precedes, Slot.rank]
  | _ => simp [slots, List.pairwise_map, List.pairwise_lt_range, Slot.Precedes, Slot.rank]

theorem length_slots (node : Node) : node.slots.length = node.children.length := by
  have h := congrArg List.length node.map_at?_slots
  simpa using h

def placed (node : Node) : List (Slot × Node) := node.slots.zip node.children

theorem map_fst_placed (node : Node) : node.placed.map (·.1) = node.slots := by
  apply List.map_fst_zip
  exact Nat.le_of_eq node.length_slots

theorem map_snd_placed (node : Node) : node.placed.map (·.2) = node.children := by
  apply List.map_snd_zip
  exact Nat.le_of_eq node.length_slots.symm

theorem map_at?_placed (node : Node) :
    node.placed.map (node.at? ·.1) = node.placed.map (some ·.2) := by
  have h := node.map_at?_slots
  rw [← map_fst_placed, ← map_snd_placed, List.map_map, List.map_map] at h
  exact h

theorem mem_placed_iff (node child : Node) (slot : Slot) :
    (slot, child) ∈ node.placed ↔ node.at? slot = some child := by
  have hsame : ∀ part ∈ node.placed, node.at? part.1 = some part.2 :=
    List.map_inj_left.mp node.map_at?_placed
  constructor
  . intro h
    exact hsame _ h
  . intro h
    have hslot : slot ∈ node.slots := by simp [mem_slots_iff, h]
    rw [← map_fst_placed, List.mem_map] at hslot
    rcases hslot with ⟨part, hpart, rfl⟩
    rw [hsame part hpart, Option.some_inj] at h
    rwa [← h]

theorem mem_children_iff (node child : Node) :
    child ∈ node.children ↔ ∃ slot, node.at? slot = some child := by
  rw [← map_snd_placed, List.mem_map]
  constructor
  . rintro ⟨⟨slot, _⟩, hpart, rfl⟩
    exact ⟨slot, (mem_placed_iff _ _ _).mp hpart⟩
  . rintro ⟨slot, h⟩
    exact ⟨(slot, child), (mem_placed_iff _ _ _).mpr h, rfl⟩

theorem mem_children_of_mem_placed {node : Node} {part : Slot × Node} (h : part ∈ node.placed) :
    part.2 ∈ node.children := by
  rw [← map_snd_placed]
  exact List.mem_map_of_mem h

def addresses (node : Node) : List (List Slot) :=
  [] :: node.placed.attach.flatMap fun ⟨(slot, child), _⟩ => child.addresses.map (slot :: ·)
termination_by node.size
decreasing_by exact size_lt_of_mem_children (mem_children_of_mem_placed ‹_›)

theorem addresses_eq (node : Node) :
    node.addresses =
      [] :: node.placed.flatMap fun (slot, child) => child.addresses.map (slot :: ·) := by
  rw [addresses]
  conv => rhs; rw [← List.attach_map_subtype_val node.placed, List.flatMap_map]

theorem walkFrom_eq (depth : Nat) (node : Node) :
    node.walkFrom depth = (depth, node) :: node.children.flatMap (walkFrom (depth + 1)) := by
  rw [walkFrom, ← List.flatMap_map Subtype.val (walkFrom (depth + 1)),
    List.attach_map_subtype_val]

theorem mem_addresses_iff (node : Node) (address : List Slot) :
    address ∈ node.addresses ↔ (node.find? address).isSome := by
  induction address generalizing node with
  | nil => simp [addresses_eq node, find?]
  | cons slot address ih =>
    rw [addresses_eq]
    simp only [List.mem_cons, reduceCtorEq, false_or, List.mem_flatMap, List.mem_map,
      List.cons.injEq, Prod.exists, mem_placed_iff, find?]
    constructor
    . rintro ⟨_, child, hchild, address, haddress, rfl, rfl⟩
      rw [hchild, Option.bind_some, ← ih]
      exact haddress
    . intro h
      rw [Option.isSome_bind, Option.any_eq_true] at h
      rcases h with ⟨child, hchild, h⟩
      exact ⟨slot, child, hchild, address, (ih child).mpr h, rfl, rfl⟩

theorem pairwise_addresses (node : Node) :
    node.addresses.Pairwise (List.Lex Slot.Precedes) := by
  induction node using children_induction with
  | step node ih =>
    rw [addresses_eq, List.pairwise_cons, List.pairwise_flatMap]
    refine ⟨?_, ?_, ?_⟩
    . intro address h
      simp only [List.mem_flatMap, List.mem_map] at h
      rcases h with ⟨part, -, address, -, rfl⟩
      exact .nil
    . intro part hpart
      rw [List.pairwise_map]
      exact (ih part.2 (mem_children_of_mem_placed hpart)).imp .cons
    . have hslots := node.pairwise_slots
      rw [← map_fst_placed, List.pairwise_map] at hslots
      apply hslots.imp
      intro part part' hless x hx y hy
      rcases List.mem_map.mp hx with ⟨address, -, rfl⟩
      rcases List.mem_map.mp hy with ⟨address', -, rfl⟩
      exact .rel hless

theorem map_some_walkFrom (depth : Nat) (node : Node) :
    (node.walkFrom depth).map some =
      node.addresses.map fun address => (node.find? address).map (depth + address.length, ·) := by
  induction node using children_induction generalizing depth with
  | step node ih =>
    rw [walkFrom_eq, addresses_eq, ← map_snd_placed, List.flatMap_map, List.map_cons,
      List.map_cons, List.map_flatMap, List.map_flatMap]
    congr 1
    apply List.flatMap_congr
    intro part hpart
    rw [ih part.2 (mem_children_of_mem_placed hpart), List.map_map]
    have hat := (mem_placed_iff node part.2 part.1).mp hpart
    apply List.map_congr_left
    intro address _
    simp only [Function.comp_apply, find?_cons hat, List.length_cons, Nat.add_assoc,
      Nat.add_comm 1]

theorem length_walkFrom (depth : Nat) (node : Node) :
    (node.walkFrom depth).length = node.size := by
  induction node using children_induction generalizing depth with
  | step node ih =>
    have hchildren : ∀ nodes : List Node, nodes ⊆ node.children →
        (nodes.flatMap (walkFrom (depth + 1))).length = sizeSeq nodes := by
      intro nodes hnodes
      induction nodes with
      | nil => rfl
      | cons child nodes ihnodes =>
        rw [List.cons_subset] at hnodes
        rw [List.flatMap_cons, List.length_append, ih child hnodes.1, ihnodes hnodes.2, sizeSeq]
    rw [size_eq_sizeSeq_children, ← hchildren node.children (fun _ h => h), walkFrom_eq]
    rfl

end Node

end SketchLang
