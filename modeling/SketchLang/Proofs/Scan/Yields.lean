import SketchLang.Proofs.Lexeme.Reading
import SketchLang.Proofs.Scan.Run

/-!
This module contains what the tokens of a text are without their lexemes and positions
(`Scan.Yields`). It can be found part by part: a part of a text that is followed by something that
ends a token has its tokens whatever that is (`Scan.Writes`), and parts are put together by
`Scan.Writes.append`.
-/

namespace SketchLang

def Token.meaning (token : Token) : Token.Kind × Token.Value := (token.kind, token.value)

namespace Scan

def Yields (text : List Char) (meanings : List (Token.Kind × Token.Value)) : Prop :=
  ∃ pieces, Cuts text pieces [] ∧
    ∀ mode position, (tokensFrom mode position pieces).map Token.meaning = meanings

def Separated (text : List Char) : Prop := ∀ c, text.head? = some c → Separates c

/--
The tokens of `x` are `meanings` before every text that keeps apart from it.
-/
def Writes (x : List Char) (meanings : List (Token.Kind × Token.Value)) : Prop :=
  ∀ rest others, Separated rest → Yields rest others → Yields (x ++ rest) (meanings ++ others)

variable {c : Char} {x y text : List Char} {kind : Token.Kind} {lexeme : String}
  {value : Token.Value} {meanings others : List (Token.Kind × Token.Value)}

theorem separated_cons (hc : Separates c) (text : List Char) : Separated (c :: text) := by
  intro d hd
  injection hd with hd
  rwa [← hd]

theorem separated_append (hx : Separated x) (htext : Separated text) : Separated (x ++ text) := by
  cases x with
  | nil => exact htext
  | cons c x =>
    apply separated_cons
    exact hx c rfl

theorem tokenize_of_yields (mode : LineMode) {source : String}
    (h : Yields source.toList meanings) :
    ∃ tokens, tokenize mode source = .ok (tokens ++ [.eof (.reached mode source.toList)]) ∧
      tokens.map Token.meaning = meanings := by
  rcases h with ⟨pieces, hcuts, hmeanings⟩
  exact ⟨_, tokenize_of_cuts_nil hcuts, hmeanings mode .start⟩

namespace Yields

theorem nil : Yields [] [] := ⟨[], .halt .nil, fun _ _ => rfl⟩

theorem blank (hc : isBlank c) (h : Yields text meanings) : Yields (c :: text) meanings := by
  rcases h with ⟨pieces, hcuts, hmeanings⟩
  have hpiece : Piece.Lawful (.blank c) := hc
  refine ⟨.blank c :: pieces, .cons hpiece trivial hcuts, ?_⟩
  intro mode position
  apply hmeanings

theorem of_lexeme {l : Lexeme} (hlawful : l.Lawful) (hclosed : l.Closed text)
    (hmeaning : ∀ position, (l.token position).meaning = (kind, value))
    (h : Yields text meanings) : Yields (l.raw ++ text) ((kind, value) :: meanings) := by
  rcases h with ⟨pieces, hcuts, hmeanings⟩
  have hpiece : Piece.Lawful (.lexeme l) := hlawful
  refine ⟨.lexeme l :: pieces, .cons hpiece hclosed hcuts, ?_⟩
  intro mode position
  simp only [tokensFrom, Piece.token?, Option.toList_some, List.singleton_append, List.map_cons]
  rw [hmeaning, hmeanings]

theorem mark (hmem : (String.ofList [c], kind) ∈ Token.operators) (hc : c ∉ Lexeme.compound)
    (h : Yields text meanings) :
    Yields (c :: text) ((kind, .text (String.ofList [c])) :: meanings) := by
  have hlawful : Lexeme.Lawful (.operator [c] kind) := .operator hmem
  apply of_lexeme hlawful
  . intro d _ hcontinued
    have hcompound := (Lexeme.isOperator_append_singleton ⟨kind, hmem⟩ d).mp hcontinued
    rcases hcompound.1 with ⟨e, he, heq⟩
    injection heq with heq
    rw [heq] at hc
    contradiction
  . intro position
    rfl
  . exact h

end Yields

def inParens (inner : List (Token.Kind × Token.Value)) : List (Token.Kind × Token.Value) :=
  (.leftParen, .text "(") :: inner ++ [(.rightParen, .text ")")]

def inBrackets (inner : List (Token.Kind × Token.Value)) : List (Token.Kind × Token.Value) :=
  (.leftBracket, .text "[") :: inner ++ [(.rightBracket, .text "]")]

namespace Writes

theorem nil : Writes [] [] := fun _ _ _ h => h

theorem reads (hreads : Lexeme.Reads x kind lexeme value) : Writes x [(kind, value)] := by
  intro rest others hrest h
  rcases Lexeme.exists_lawful_of_reads hreads with ⟨l, hlawful, rfl, htoken⟩
  apply Yields.of_lexeme hlawful
  . intro c hc
    exact hrest c hc l hlawful
  . intro position
    rw [htoken]
    rfl
  . exact h

theorem append (hx : Writes x meanings) (hy : Writes y others) (hhead : Separated y) :
    Writes (x ++ y) (meanings ++ others) := by
  intro rest more hrest h
  rw [List.append_assoc, List.append_assoc]
  apply hx
  . exact separated_append hhead hrest
  . apply hy
    . exact hrest
    . exact h

theorem blank (h : Writes x meanings) : Writes (' ' :: x) meanings := by
  intro rest others hrest hyields
  rw [List.cons_append]
  apply Yields.blank
  . rfl
  . apply h
    . exact hrest
    . exact hyields

theorem enclose {left right : Char} {opening closing : Token.Kind}
    (hleft : (String.ofList [left], opening) ∈ Token.operators ∧ left ∉ Lexeme.compound)
    (hright : (String.ofList [right], closing) ∈ Token.operators ∧ right ∉ Lexeme.compound)
    (hseparates : Separates right) (h : Writes x meanings) :
    Writes (left :: x ++ [right]) ((opening, .text (String.ofList [left])) :: meanings ++
      [(closing, .text (String.ofList [right]))]) := by
  intro rest others hrest hyields
  simp only [List.cons_append, List.append_assoc, List.nil_append]
  apply Yields.mark hleft.1 hleft.2
  apply h
  . apply separated_cons
    exact hseparates
  . apply Yields.mark hright.1 hright.2
    exact hyields

theorem parens (h : Writes x meanings) : Writes ('(' :: x ++ [')']) (inParens meanings) := by
  apply h.enclose
  . decide +kernel
  . decide +kernel
  . apply separates_of_ne
    all_goals decide

theorem brackets (h : Writes x meanings) : Writes ('[' :: x ++ [']']) (inBrackets meanings) := by
  apply h.enclose
  . decide +kernel
  . decide +kernel
  . apply separates_of_ne
    all_goals decide

end Writes

end Scan

end SketchLang
