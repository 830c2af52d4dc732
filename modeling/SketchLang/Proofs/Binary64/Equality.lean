import SketchLang.Proofs.Binary64.Shortest
import SketchLang.Token.Basic
import SketchLang.Tree.Equality

namespace SketchLang

namespace Binary64

variable {x y : Binary64}

theorem beq_iff (x y : Binary64) :
    x == y ↔ x.isNaN = false ∧ y.isNaN = false ∧ (x.bits = y.bits ∨ x.rank = 0 ∧ y.rank = 0) := by
  have hbeq : (x == y) = Binary64.beq x y := rfl
  rw [hbeq]
  simp [Binary64.beq, and_assoc]

theorem beq_iff_rank (x y : Binary64) :
    x == y ↔ x.isNaN = false ∧ y.isNaN = false ∧ x.rank = y.rank ∧
      (x.isNegative = y.isNegative ∨ x.rank = 0) := by
  have hbits : x.bits = y.bits ↔ x.rank = y.rank ∧ x.isNegative = y.isNegative := by
    constructor
    . intro h
      unfold rank isNegative
      rw [h]
      exact ⟨rfl, rfl⟩
    . intro h
      rw [eq_of_rank_eq h.2 h.1]
  rw [beq_iff, hbits]
  constructor
  . rintro ⟨hx, hy, ⟨hrank, hsign⟩ | ⟨hzero, hzero'⟩⟩
    . exact ⟨hx, hy, hrank, .inl hsign⟩
    . exact ⟨hx, hy, hzero.trans hzero'.symm, .inr hzero⟩
  . rintro ⟨hx, hy, hrank, hsign | hzero⟩
    . exact ⟨hx, hy, .inl ⟨hrank, hsign⟩⟩
    . exact ⟨hx, hy, .inr ⟨hzero, hrank.symm.trans hzero⟩⟩

instance : PartialEquivBEq Binary64 where
  symm := by
    intro x y h
    rw [beq_iff_rank] at h ⊢
    rcases h with ⟨hx, hy, hrank, hsign⟩
    rw [← hrank]
    exact ⟨hy, hx, rfl, hsign.imp_left Eq.symm⟩
  trans := by
    intro x y z h h'
    rw [beq_iff_rank] at h h' ⊢
    rcases h with ⟨hx, -, hrank, hsign⟩
    rcases h' with ⟨-, hz, hrank', hsign'⟩
    refine ⟨hx, hz, hrank.trans hrank', ?_⟩
    rcases hsign with hsign | hzero
    . rcases hsign' with hsign' | hzero
      . exact .inl (hsign.trans hsign')
      . exact .inr (hrank.trans hzero)
    . exact .inr hzero

theorem beq_self_iff (x : Binary64) : x == x ↔ x.isNaN = false := by simp [beq_self]

def Opposite (x y : Binary64) : Prop := x.rank = 0 ∧ y.rank = 0 ∧ x.isNegative ≠ y.isNegative

theorem eq_or_opposite_of_beq (h : x == y) : x = y ∨ Opposite x y := by
  rw [beq_iff_rank] at h
  rcases h with ⟨-, -, hrank, hsign⟩
  by_cases hsame : x.isNegative = y.isNegative
  . exact .inl (eq_of_rank_eq hsame hrank)
  . have hzero := hsign.resolve_left hsame
    exact .inr ⟨hzero, hrank.symm.trans hzero, hsame⟩

end Binary64

section Numbers

variable {α : Type} [BEq α]

structure ComparesNumbers (number : Binary64 → α) : Prop where
  inj : ∀ x y, number x = number y → x = y
  beq_iff : ∀ v v' : α, v == v' ↔
    v = v' ∧ (∀ x, v ≠ number x) ∨ ∃ x y, v = number x ∧ v' = number y ∧ x == y

namespace ComparesNumbers

variable {number : Binary64 → α}

theorem beq_number (h : ComparesNumbers number) (x y : Binary64) :
    number x == number y ↔ x == y := by
  rw [h.beq_iff]
  constructor
  . rintro (⟨-, hne⟩ | ⟨x', y', hx, hy, hbeq⟩)
    . exact absurd rfl (hne x)
    . rwa [h.inj x x' hx, h.inj y y' hy]
  . intro hbeq
    exact .inr ⟨x, y, rfl, rfl, hbeq⟩

theorem partialEquiv (h : ComparesNumbers number) : PartialEquivBEq α where
  symm := by
    intro v v' hbeq
    rcases (h.beq_iff v v').mp hbeq with ⟨rfl, -⟩ | ⟨x, y, rfl, rfl, hxy⟩
    . exact hbeq
    . exact (h.beq_number y x).mpr (BEq.symm hxy)
  trans := by
    intro v v' v'' hbeq hbeq'
    rcases (h.beq_iff v v').mp hbeq with ⟨rfl, -⟩ | ⟨x, y, rfl, rfl, hxy⟩
    . exact hbeq'
    . rcases (h.beq_iff _ v'').mp hbeq' with ⟨rfl, -⟩ | ⟨y', z, hy, rfl, hyz⟩
      . exact hbeq
      . rw [← h.inj y y' hy] at hyz
        exact (h.beq_number x z).mpr (BEq.trans hxy hyz)

theorem beq_self_iff (h : ComparesNumbers number) (v : α) :
    v == v ↔ ¬ ∃ x, v = number x ∧ x.isNaN := by
  rw [h.beq_iff]
  constructor
  . rintro (⟨-, hne⟩ | ⟨x, y, rfl, hy, hxy⟩) ⟨z, hz, hnan⟩
    . exact hne z hz
    . rw [← h.inj x z hz, ((Binary64.beq_iff x y).mp hxy).1] at hnan
      contradiction
  . intro hnan
    by_cases hnumber : ∃ x, v = number x
    . rcases hnumber with ⟨x, rfl⟩
      refine .inr ⟨x, x, rfl, rfl, ?_⟩
      rw [Binary64.beq_self_iff, ← Bool.not_eq_true]
      exact fun hx => hnan ⟨x, rfl, hx⟩
    . exact .inl ⟨rfl, fun x hx => hnumber ⟨x, hx⟩⟩

end ComparesNumbers

end Numbers

theorem Literal.comparesNumbers : ComparesNumbers Literal.number := by
  constructor
  . intro x y h
    injection h
  . intro l l'
    have hbeq : (l == l') = Literal.beq l l' := rfl
    rw [hbeq]
    cases l
    all_goals
      cases l'
      all_goals simp [Literal.beq]

instance : PartialEquivBEq Literal := Literal.comparesNumbers.partialEquiv

theorem Token.Value.comparesNumbers : ComparesNumbers Token.Value.number := by
  constructor
  . intro x y h
    injection h
  . intro v v'
    have hbeq : (v == v') = Token.Value.beq v v' := rfl
    rw [hbeq]
    cases v
    all_goals
      cases v'
      all_goals simp [Token.Value.beq]

instance : PartialEquivBEq Token.Value := Token.Value.comparesNumbers.partialEquiv

end SketchLang
