import SketchLang.Proofs.Scan.Equality
import SketchLang.Proofs.Tree.Agreement

namespace SketchLang

namespace Token

instance : PartialEquivBEq Token where
  symm := by
    intro a b h
    rw [beq_iff] at h ⊢
    exact ⟨h.1.symm, h.2.1.symm, BEq.symm h.2.2.1, h.2.2.2.symm⟩
  trans := by
    intro a b c h h'
    rw [beq_iff] at h h' ⊢
    exact ⟨h.1.trans h'.1, h.2.1.trans h'.2.1, BEq.trans h.2.2.1 h'.2.2.1, h.2.2.2.trans h'.2.2.2⟩

def HasNaN (token : Token) : Prop := ∃ x, token.value = .number x ∧ x.isNaN

theorem beq_self_iff (token : Token) : token == token ↔ ¬ token.HasNaN := by
  rw [beq_iff, Value.comparesNumbers.beq_self_iff]
  simp [HasNaN]

end Token

theorem Scan.not_hasNaN_of_mem_tokenize {mode : LineMode} {source : String} {tokens : List Token}
    (h : tokenize mode source = .ok tokens) {token : Token} (htoken : token ∈ tokens) :
    ¬ token.HasNaN := by
  rw [← Token.beq_self_iff]
  exact (lawful_of_mem_tokenize h htoken).beq_self

theorem beq_laws :
    (PartialEquivBEq Node ∧ (∀ a : Node, a == a ↔ ¬ a.HasNaN) ∧
      ∀ a b : Node, a == b → a.Agrees b) ∧
    (PartialEquivBEq Token ∧ ∀ token : Token, token == token ↔ ¬ token.HasNaN) ∧
    ∀ mode source, tokenize mode source == tokenize mode source ∧
      ∀ tokens, tokenize mode source = .ok tokens → ∀ token ∈ tokens, ¬ token.HasNaN := by
  refine ⟨⟨inferInstance, Node.beq_self_iff, ?_⟩, ⟨inferInstance, Token.beq_self_iff⟩, ?_⟩
  . intro a b h
    exact Node.agrees_of_beq h
  . intro mode source
    refine ⟨Scan.tokenize_beq_self mode source, ?_⟩
    intro tokens h token htoken
    exact Scan.not_hasNaN_of_mem_tokenize h htoken

theorem beq_laws_zeros :
    let zero : Node := .literal (.number ⟨0⟩)
    let minusZero : Node := .literal (.number ⟨0x8000000000000000⟩)
    zero == minusZero ∧ zero.Agrees minusZero ∧ zero.OppositeZeros minusZero ∧
      zero.render ≠ minusZero.render := by
  have hbeq : Node.literal (.number ⟨0⟩) == .literal (.number ⟨0x8000000000000000⟩) := by
    decide +kernel
  refine ⟨hbeq, beq_laws.1.2.2 _ _ hbeq, ?_, by decide +kernel⟩
  exact ⟨[], _, _, rfl, rfl, by decide, by decide, by decide⟩

end SketchLang
