import SketchLang.Proofs.Binary64.Equality
import SketchLang.Proofs.Tree.Address
import SketchLang.Proofs.Tree.Equality

/-!
This module contains the laws of the equality of trees. It is a partial equivalence, and a tree
equals itself unless it contains a NaN (`Node.beq_self_iff`). Equal trees agree: they have the same
shapes in the same places, and the same text unless zeros of opposite sign stand at one address
(`Node.agrees_of_beq`).
-/

namespace SketchLang.Node

def HasNaN (node : Node) : Prop :=
  ∃ address x, node.find? address = some (literal (.number x)) ∧ x.isNaN

def OppositeZeros (a b : Node) : Prop :=
  ∃ address x y, a.find? address = some (literal (.number x)) ∧
    b.find? address = some (literal (.number y)) ∧ Binary64.Opposite x y

def outline (walk : List (Nat × Node)) : List (Nat × String) :=
  walk.map fun (depth, node) => (depth, node.shape)

structure Agrees (a b : Node) : Prop where
  walk : outline a.walk = outline b.walk
  children : List.Forall₂ (fun a b => a == b) a.children b.children
  text : ¬ OppositeZeros a b → a.render = b.render

section Forall₂

variable {α β : Type} {r s : α → α → Prop} {x y z : List α}

theorem forall₂_comp (h : List.Forall₂ r x y) (h' : List.Forall₂ s y z) :
    List.Forall₂ (fun a c => ∃ b, r a b ∧ s b c) x z := by
  induction h generalizing z with
  | nil =>
    cases h'
    exact .nil
  | cons hr _ ih =>
    cases h' with
    | cons hs h' => exact .cons ⟨_, hr, hs⟩ (ih h')

theorem map_eq_of_forall₂ {f : α → β} (h : List.Forall₂ (fun a b => f a = f b) x y) :
    x.map f = y.map f := by
  rw [← List.forall₂_eq_eq_eq, List.forall₂_map_left_iff, List.forall₂_map_right_iff]
  exact h

end Forall₂

variable {a b c : Node}

theorem frame_eq_literal_iff (a : Node) (l : Literal) : a.frame = literal l ↔ a = literal l := by
  cases a with
  | get _ property => cases property <;> simp [frame, mapChildren]
  | _ => simp [frame, mapChildren]

theorem alike_iff (a b : Node) : Alike a b ↔
    a.frame = b.frame ∧ (∀ l, a.frame ≠ literal l) ∨
      ∃ l l', a = literal l ∧ b = literal l' ∧ l == l' := by
  unfold Alike
  split
  . next l l' => simp [frame, mapChildren]
  . next hne =>
    constructor
    . intro h
      refine .inl ⟨h, ?_⟩
      intro l hl
      have hl' := h.symm.trans hl
      rw [frame_eq_literal_iff] at hl hl'
      exact hne l l hl hl'
    . rintro (⟨h, -⟩ | ⟨l, l', ha, hb, -⟩)
      . exact h
      . exact absurd hb (hne l l' ha)

theorem Alike.symm (h : Alike a b) : Alike b a := by
  rw [alike_iff] at h ⊢
  rcases h with ⟨h, hne⟩ | ⟨l, l', ha, hb, h⟩
  . rw [h] at hne
    exact .inl ⟨h.symm, hne⟩
  . exact .inr ⟨l', l, hb, ha, BEq.symm h⟩

theorem Alike.trans (h : Alike a b) (h' : Alike b c) : Alike a c := by
  rw [alike_iff] at h h' ⊢
  rcases h with ⟨h, hne⟩ | ⟨l, l', ha, hb, h⟩
  . rcases h' with ⟨h', -⟩ | ⟨l', _, rfl, -, -⟩
    . exact .inl ⟨h.trans h', hne⟩
    . exact absurd h (hne l')
  . rcases h' with ⟨-, hne⟩ | ⟨_, l'', hb', hc, h'⟩
    . exact absurd ((frame_eq_literal_iff b l').mpr hb) (hne l')
    . rw [hb, literal.injEq] at hb'
      subst hb'
      exact .inr ⟨l, l'', ha, hc, BEq.trans h h'⟩

theorem alike_self_iff (a : Node) : Alike a a ↔ ¬ ∃ x, a = literal (.number x) ∧ x.isNaN := by
  cases a with
  | literal l => simp [Alike, Literal.comparesNumbers.beq_self_iff]
  | _ => simp [Alike]

theorem beq_induction {motive : Node → Node → Prop}
    (step : ∀ a b, Alike a b →
      List.Forall₂ (fun a b => a == b ∧ motive a b) a.children b.children → motive a b)
    (h : a == b) : motive a b := by
  induction a using children_induction generalizing b with
  | step a ih =>
    rw [beq_iff] at h
    apply step a b h.1
    -- What is known of the children of `a` is known of all that equal them.
    have hchildren := (List.forall₂_and_left _ _).mpr ⟨ih, h.2⟩
    apply hchildren.imp
    intro child child' hchild
    exact ⟨hchild.2, hchild.1 hchild.2⟩

instance : PartialEquivBEq Node where
  symm := by
    intro a b
    apply beq_induction
    intro a b halike hchildren
    rw [beq_iff]
    refine ⟨halike.symm, ?_⟩
    apply List.Forall₂.flip
    exact hchildren.imp fun _ _ h => h.2
  trans := by
    intro a b c h
    apply beq_induction (motive := fun a b => ∀ c, b == c → a == c) _ h
    intro a b halike hchildren c h
    rw [beq_iff] at h ⊢
    refine ⟨halike.trans h.1, ?_⟩
    apply (forall₂_comp hchildren h.2).imp
    rintro child child'' ⟨child', hchild, hchild'⟩
    exact hchild.2 child'' hchild'

theorem hasNaN_iff (node : Node) : node.HasNaN ↔
    (∃ x, node = literal (.number x) ∧ x.isNaN) ∨ ∃ child ∈ node.children, child.HasNaN := by
  constructor
  . rintro ⟨address, x, hfind, hnan⟩
    cases address with
    | nil =>
      injection hfind with hnode
      exact .inl ⟨x, hnode, hnan⟩
    | cons slot address =>
      rw [find?, Option.bind_eq_some_iff] at hfind
      rcases hfind with ⟨child, hchild, hfind⟩
      exact .inr ⟨child, (mem_children_iff _ _).mpr ⟨slot, hchild⟩, address, x, hfind, hnan⟩
  . rintro (⟨x, rfl, hnan⟩ | ⟨child, hchild, address, x, hfind, hnan⟩)
    . exact ⟨[], x, rfl, hnan⟩
    . rcases (mem_children_iff _ _).mp hchild with ⟨slot, hslot⟩
      refine ⟨slot :: address, x, ?_, hnan⟩
      rw [find?_cons hslot, hfind]

theorem beq_self_iff (a : Node) : a == a ↔ ¬ a.HasNaN := by
  induction a using children_induction with
  | step a ih =>
    rw [beq_iff, alike_self_iff, List.forall₂_same, hasNaN_iff, not_or]
    apply and_congr_right'
    push Not
    exact forall₂_congr ih

theorem slots_mapChildren (f : Node → Node) (node : Node) :
    (node.mapChildren f).slots = node.slots := by
  cases node with
  | conditional _ _ otherwise => cases otherwise <;> simp [mapChildren, slots]
  | get _ property => cases property <;> rfl
  | _ => simp [mapChildren, slots]

theorem Alike.slots_eq (h : Alike a b) : a.slots = b.slots := by
  rw [alike_iff] at h
  rcases h with ⟨h, -⟩ | ⟨l, l', rfl, rfl, -⟩
  . rw [← slots_mapChildren (fun _ => array []) a, ← slots_mapChildren (fun _ => array []) b]
    exact congrArg slots h
  . rfl

theorem Alike.forall₂_at? (h : Alike a b) :
    List.Forall₂ (fun child child' => ∃ slot, a.at? slot = some child ∧ b.at? slot = some child')
      a.children b.children := by
  have hslots : List.Forall₂ (fun found found' => ∃ slot, a.at? slot = found ∧ b.at? slot = found')
      (a.children.map some) (b.children.map some) := by
    rw [← map_at?_slots, ← map_at?_slots, h.slots_eq, List.forall₂_map_left_iff,
      List.forall₂_map_right_iff, List.forall₂_same]
    intro slot _
    exact ⟨slot, rfl, rfl⟩
  rwa [List.forall₂_map_left_iff, List.forall₂_map_right_iff] at hslots

theorem not_oppositeZeros_at? {slot : Slot} {child child' : Node} (h : ¬ OppositeZeros a b)
    (hchild : a.at? slot = some child) (hchild' : b.at? slot = some child') :
    ¬ OppositeZeros child child' := by
  rintro ⟨address, x, y, hfind, hfind', hzeros⟩
  apply h
  rw [← find?_cons hchild] at hfind
  rw [← find?_cons hchild'] at hfind'
  exact ⟨slot :: address, x, y, hfind, hfind', hzeros⟩

theorem frame_eq_of_alike (h : Alike a b) (hzeros : ¬ OppositeZeros a b) : a.frame = b.frame := by
  rw [alike_iff] at h
  rcases h with ⟨h, -⟩ | ⟨l, l', rfl, rfl, h⟩
  . exact h
  . rcases (Literal.comparesNumbers.beq_iff l l').mp h with ⟨rfl, -⟩ | ⟨x, y, rfl, rfl, h⟩
    . rfl
    . rcases Binary64.eq_or_opposite_of_beq h with rfl | hopposite
      . rfl
      . exact absurd ⟨[], x, y, rfl, rfl, hopposite⟩ hzeros

theorem render_eq_of_beq (h : a == b) : ¬ OppositeZeros a b → a.render = b.render := by
  apply beq_induction _ h
  intro a b halike hchildren hzeros
  have htexts : a.children.map render = b.children.map render := by
    apply map_eq_of_forall₂
    apply List.Forall₂.mp _ halike.forall₂_at? hchildren
    rintro child child' ⟨slot, hchild, hchild'⟩ hbeq
    exact hbeq.2 (not_oppositeZeros_at? hzeros hchild hchild')
  -- Around the texts of the children stands what the frames tell.
  rw [← interleave_glue a, ← interleave_glue b, frame_eq_of_alike halike hzeros, htexts]

theorem outline_walkFrom (depth : Nat) (node : Node) :
    outline (node.walkFrom depth) =
      (depth, node.shape) ::
        (node.children.map fun child => outline (child.walkFrom (depth + 1))).flatten := by
  unfold outline
  rw [walkFrom_eq, List.map_cons, List.map_flatMap, List.flatMap_def]

theorem outline_eq_of_beq (h : a == b) :
    ∀ depth, outline (a.walkFrom depth) = outline (b.walkFrom depth) := by
  apply beq_induction _ h
  intro a b halike hchildren depth
  rw [outline_walkFrom, outline_walkFrom, halike.shape_eq]
  congr 2
  apply map_eq_of_forall₂
  exact hchildren.imp fun _ _ h => h.2 (depth + 1)

theorem agrees_of_beq (h : a == b) : Agrees a b := by
  constructor
  . exact outline_eq_of_beq h 0
  . exact ((beq_iff a b).mp h).2
  . exact render_eq_of_beq h

end SketchLang.Node
