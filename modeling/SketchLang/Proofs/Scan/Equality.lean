import Mathlib.Data.List.Forall2
import SketchLang.Proofs.Scan.Emitted

namespace SketchLang

namespace Token

theorem beq_iff (a b : Token) : a == b ↔
    a.kind = b.kind ∧ a.lexeme = b.lexeme ∧ a.value == b.value ∧ a.position = b.position := by
  have hbeq : (a == b) = Token.beq a b := rfl
  rw [hbeq]
  simp [Token.beq, and_assoc]

theorem position_eq_of_beq {a b : Token} (h : a == b) : a.position = b.position :=
  ((beq_iff a b).mp h).2.2.2

inductive Lawful : Token → Prop
  | lexeme {text : List Char} {kind : Kind} {lexeme : String} {value : Value}
    (h : Lexeme.Reads text kind lexeme value) (position : Position) :
    Lawful ⟨kind, lexeme, value, position⟩
  | eof (position : Position) : Lawful (.eof position)

theorem Lawful.beq_value {token : Token} (h : token.Lawful) : token.value == token.value := by
  cases h with
  | lexeme h => exact h.beq_value
  | eof => rfl

theorem Lawful.beq_self {token : Token} (h : token.Lawful) : token == token := by
  rw [beq_iff]
  exact ⟨rfl, rfl, h.beq_value, rfl⟩

theorem Lawful.value_eq {a b : Token} (h : a.Lawful) (h' : b.Lawful) (hkind : a.kind = b.kind)
    (hlexeme : a.lexeme = b.lexeme) : a.value = b.value := by
  cases h with
  | lexeme h =>
    cases h' with
    | lexeme h' =>
      simp only at hkind hlexeme
      subst hkind hlexeme
      exact h.value_unique h'
    | eof => exact absurd hkind h.kind_ne_eof
  | eof =>
    cases h' with
    | lexeme h' => exact absurd hkind.symm h'.kind_ne_eof
    | eof => rfl

theorem beq_list_iff (tokens tokens' : List Token) :
    tokens == tokens' ↔ List.Forall₂ (fun a b => a == b) tokens tokens' := by
  induction tokens generalizing tokens' with
  | nil => cases tokens' <;> simp
  | cons token tokens ih =>
    cases tokens' with
    | nil => simp
    | cons token' tokens' => simp [List.cons_beq_cons, ih]

theorem beq_of_append_beq_append {tokens tokens' : List Token} {token token' : Token}
    (h : tokens ++ [token] == tokens' ++ [token']) : token == token' := by
  rw [beq_list_iff, ← List.forall₂_reverse_iff] at h
  rw [List.reverse_concat, List.reverse_concat, List.forall₂_cons] at h
  exact h.1

end Token

namespace Scan

theorem error_eq_of_beq {error error' : Error}
    (h : (.error error : Result) == .error error') : error = error' := by
  have hbeq : (error == error') = true := h
  exact eq_of_beq hbeq

theorem lawful_of_mem_tokenize {mode : LineMode} {source : String} {tokens : List Token}
    (h : tokenize mode source = .ok tokens) {token : Token} (htoken : token ∈ tokens) :
    token.Lawful := by
  have haccepts : Accepts mode source := ⟨tokens, h⟩
  rw [accepts_iff] at haccepts
  rcases haccepts with ⟨pieces, hcuts⟩
  rw [tokenize_of_cuts_nil hcuts] at h
  injection h with h
  rw [← h, List.mem_append, List.mem_singleton] at htoken
  cases htoken with
  | inl htoken =>
    rcases exists_reads_of_mem_tokensFrom hcuts htoken with ⟨x, hreads⟩
    exact .lexeme hreads token.position
  | inr htoken =>
    rw [htoken]
    exact .eof _

theorem tokenize_beq_self (mode : LineMode) (source : String) :
    tokenize mode source == tokenize mode source := by
  cases h : tokenize mode source with
  | ok tokens =>
    apply (Token.beq_list_iff _ _).mpr
    apply List.forall₂_same.mpr
    intro token htoken
    exact (lawful_of_mem_tokenize h htoken).beq_self
  | error error => exact beq_self_eq_true error

end Scan

end SketchLang
