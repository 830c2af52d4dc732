import Mathlib.Data.List.Lex
import SketchLang.Proofs.Tree.Address
import SketchLang.Proofs.Tree.Frame

/-!
This module contains that the children of a node leave nothing out. They are what stands in the
slots of the node, their texts stand in the text of the node in their order, and the walk through
the children of the children comes to every node of the tree once (`Node.children_complete`).
-/

namespace SketchLang.Node

structure Glued (node : Node) : Prop where
  length : node.frame.glue.length = node.children.length + 1
  text : node.render = interleave node.frame.glue (node.children.map render)

structure Ordered (node : Node) : Prop where
  children : node.children.map some = node.slots.map node.at?
  complete : ∀ slot, slot ∈ node.slots ↔ (node.at? slot).isSome
  sorted : node.slots.Pairwise Slot.Precedes

structure Visits (node : Node) (addresses : List (List Slot)) : Prop where
  walk : node.walk.map some =
    addresses.map fun address => (node.find? address).map (address.length, ·)
  complete : ∀ address, address ∈ addresses ↔ (node.find? address).isSome
  once : addresses.Nodup
  parent_first : ∀ address slot further, address ++ slot :: further ∈ addresses →
    [address, address ++ slot :: further].Sublist addresses
  sibling_first : ∀ address slot slot' further further', slot.Precedes slot' →
    address ++ slot :: further ∈ addresses → address ++ slot' :: further' ∈ addresses →
      [address ++ slot :: further, address ++ slot' :: further'].Sublist addresses
  length : node.walk.length = node.size

theorem glued (node : Node) : Glued node := by
  constructor
  . rw [← length_glue]
    unfold glue frame
    rw [template_mapChildren]
  . exact node.interleave_glue.symm

theorem pair_sublist_of_pairwise {α : Type} {r : α → α → Prop} {x y : α} {l : List α}
    (hirrefl : ∀ x, ¬ r x x) (htrans : ∀ {x y z}, r x y → r y z → r x z) (h : l.Pairwise r)
    (hx : x ∈ l) (hy : y ∈ l) (hr : r x y) : [x, y].Sublist l := by
  rcases List.append_of_mem hx with ⟨before, behind, rfl⟩
  rw [List.pairwise_append, List.pairwise_cons] at h
  rw [List.mem_append, List.mem_cons] at hy
  rcases hy with hy | rfl | hy
  . exact absurd (htrans hr (h.2.2 y hy x (by simp))) (hirrefl x)
  . exact absurd hr (hirrefl y)
  . apply List.Sublist.trans _ (List.sublist_append_right before _)
    apply List.Sublist.cons_cons
    exact List.singleton_sublist.mpr hy

theorem before_of_lex (node : Node) {address address' : List Slot}
    (h : address ∈ node.addresses) (h' : address' ∈ node.addresses)
    (hlex : List.Lex Slot.Precedes address address') :
    [address, address'].Sublist node.addresses := by
  apply pair_sublist_of_pairwise (r := List.Lex Slot.Precedes)
  . exact List.lex_irrefl Slot.Precedes.irrefl
  . exact List.lex_trans Slot.Precedes.trans
  . exact node.pairwise_addresses
  . exact h
  . exact h'
  . exact hlex

theorem find?_append (node : Node) (address further : List Slot) :
    node.find? (address ++ further) = (node.find? address).bind (·.find? further) := by
  induction address generalizing node with
  | nil => rfl
  | cons slot address ih =>
    simp only [List.cons_append, find?]
    cases node.at? slot with
    | none => rfl
    | some child => exact ih child

theorem visits (node : Node) : Visits node node.addresses := by
  constructor
  . unfold walk
    rw [map_some_walkFrom]
    simp only [Nat.zero_add]
  . exact node.mem_addresses_iff
  . apply node.pairwise_addresses.imp
    rintro address _ hlex rfl
    exact List.lex_irrefl Slot.Precedes.irrefl address hlex
  . intro address slot further h
    refine node.before_of_lex ?_ h ?_
    . rw [mem_addresses_iff, find?_append] at h
      rw [mem_addresses_iff]
      exact Option.isSome_of_isSome_bind h
    . have hnil : List.Lex Slot.Precedes [] (slot :: further) := .nil
      have hlex := hnil.append_left Slot.Precedes address
      rwa [List.append_nil] at hlex
  . intro address slot slot' further further' hless h h'
    have hlex : List.Lex Slot.Precedes (slot :: further) (slot' :: further') := .rel hless
    exact node.before_of_lex h h' (hlex.append_left Slot.Precedes address)
  . exact node.length_walkFrom 0

theorem children_complete :
    (∀ node : Node, Glued node) ∧ (∀ node : Node, Ordered node) ∧
      ∀ node : Node, ∃ addresses, Visits node addresses := by
  refine ⟨glued, ?_, fun node => ⟨node.addresses, node.visits⟩⟩
  intro node
  exact ⟨node.map_at?_slots.symm, node.mem_slots_iff, node.pairwise_slots⟩

end SketchLang.Node
