import SketchLang.Proofs.Lexeme.Numeral
import SketchLang.Proofs.Scan.Yields
import SketchLang.Proofs.Text.Quoted
import SketchLang.Tree.Printer

namespace SketchLang

namespace Node

open Scan

def operators : List Token.Kind :=
  [.or, .not, .and, .equiv, .notEquiv, .gt, .gte, .lt, .lte, .plus, .minus, .asterisk, .slash]

/--
Trees of literals, operators, arrays, indices, calls and returns. The numbers are those without a
sign, and the strings those that need no escapes.
-/
inductive IsExpression : Node → Prop
  | number {x : Binary64} (hfinite : x.isFinite) (hsign : x.isNegative = false) :
    IsExpression (literal (.number x))
  | string {s : String} (hplain : Text.quoteString s = "\"" ++ s ++ "\"") :
    IsExpression (literal (.string s))
  | boolean (b : Bool) : IsExpression (literal (.boolean b))
  | unary {op : Token.Kind} {operand : Node} (hop : op ∈ operators)
    (hoperand : IsExpression operand) : IsExpression (unary op operand)
  | binary {left right : Node} {op : Token.Kind} (hop : op ∈ operators)
    (hleft : IsExpression left) (hright : IsExpression right) :
    IsExpression (binary left op right)
  | array {elements : List Node} (helements : ∀ element ∈ elements, IsExpression element) :
    IsExpression (array elements)
  | get {caller index : Node} (hcaller : IsExpression caller) (hindex : IsExpression index) :
    IsExpression (get caller (.computed index))
  | call {caller : Node} {args : List Node} (hcaller : IsExpression caller)
    (hargs : ∀ arg ∈ args, IsExpression arg) : IsExpression (call caller args)
  | ret {value : Node} (hvalue : IsExpression value) : IsExpression (ret value)

mutual

def flatten : Node → List (Token.Kind × Token.Value)
  | literal (.number x) => [(.number, .number x)]
  | literal (.string s) => [(.string, .text s)]
  | literal (.boolean b) => [(.boolean, .boolean b)]
  | unary op operand => inParens ((op, .text op.symbol) :: operand.flatten)
  | binary left op right => inParens ((op, .text op.symbol) :: left.flatten ++ right.flatten)
  | array elements => inBrackets (flattenSeq elements)
  | get caller (.computed index) => caller.flatten ++ inBrackets index.flatten
  | call caller args => inParens ((.identifier, .text "call") :: caller.flatten ++ flattenSeq args)
  | ret value => inParens ((.identifier, .text "return") :: value.flatten)
  | _ => []

def flattenSeq : List Node → List (Token.Kind × Token.Value)
  | [] => []
  | node :: nodes => node.flatten ++ flattenSeq nodes

end

def Prints (node : Node) : Prop := Writes node.render.toList node.flatten

theorem prints_number {x : Binary64} (hfinite : x.isFinite) (hsign : x.isNegative = false) :
    Prints (literal (.number x)) := by
  apply Writes.reads
  exact Lexeme.reads_text hfinite hsign

theorem prints_string {s : String} (hplain : Text.quoteString s = "\"" ++ s ++ "\"") :
    Prints (literal (.string s)) := by
  have hquote : Text.quote '"' s.toList = '"' :: s.toList ++ ['"'] := by
    rw [← Text.toList_quoteString, hplain]
    simp
  have hescaped : s.toList.flatMap (Text.escape '"') = s.toList := by
    simpa [Text.quote] using hquote
  have hmem : '"' ∉ s.toList := Text.not_mem_of_escaped_eq (.inl rfl) hescaped
  have hrender : (literal (.string s)).render.toList = '"' :: s.toList ++ ['"'] := by
    unfold render Literal.render
    rw [Text.toList_quoteString, hquote]
  have hreads := Lexeme.Reads.quoted (show Lexeme.isQuote '"' by rfl) hmem
  rw [String.ofList_toList, ← hrender] at hreads
  apply Writes.reads hreads

theorem prints_boolean (b : Bool) : Prints (literal (.boolean b)) := by
  cases b with
  | true => apply Writes.reads Lexeme.Reads.true
  | false => apply Writes.reads Lexeme.Reads.false

theorem mem_operators_symbol {op : Token.Kind} (h : op ∈ operators) :
    (op.symbol, op) ∈ Token.operators := by
  have htable : ∀ op ∈ operators, (op.symbol, op) ∈ Token.operators := by
    decide +kernel
  apply htable
  exact h

theorem writes_symbol {op : Token.Kind} (hop : op ∈ operators) :
    Writes op.symbol.toList [(op, .text op.symbol)] := by
  have hmem : (String.ofList op.symbol.toList, op) ∈ Token.operators := by
    rw [String.ofList_toList]
    apply mem_operators_symbol
    exact hop
  have hwrites := Writes.reads (.operator hmem)
  rwa [String.ofList_toList] at hwrites

theorem separated_blank (text : List Char) : Separated (' ' :: text) := by
  apply separated_cons
  apply separates_of_isBlank
  rfl

theorem separated_renderArgs (nodes : List Node) : Separated (renderArgs nodes).toList := by
  cases nodes with
  | nil =>
    intro c hc
    contradiction
  | cons node nodes =>
    simp only [renderArgs, String.toList_append, List.append_assoc]
    apply separated_blank

section Seq

variable {nodes : List Node} (hnodes : ∀ node ∈ nodes, Prints node)

include hnodes

theorem writes_renderArgs : Writes (renderArgs nodes).toList (flattenSeq nodes) := by
  induction nodes with
  | nil => exact Writes.nil
  | cons node nodes ih =>
    have hnode : Prints node := hnodes node (by simp)
    have htail := ih fun other hother => hnodes other (by simp [hother])
    have hwrites := hnode.blank.append htail (separated_renderArgs nodes)
    simpa [renderArgs, flattenSeq] using hwrites

theorem writes_renderSeq : Writes (renderSeq nodes).toList (flattenSeq nodes) := by
  cases nodes with
  | nil => exact Writes.nil
  | cons node nodes =>
    have hnode : Prints node := hnodes node (by simp)
    have hothers : ∀ other ∈ nodes, Prints other :=
      fun other hother => hnodes other (by simp [hother])
    have htail := writes_renderArgs hothers
    have hwrites := hnode.append htail (separated_renderArgs nodes)
    simpa [renderSeq, flattenSeq] using hwrites

end Seq

theorem reads_of_classify {word : String} (hword : Lexeme.IsWord word.toList)
    (hclass : Lexeme.classify word = (.identifier, .text word)) :
    Lexeme.Reads word.toList .identifier word (.text word) := by
  have hreads := Lexeme.reads_word hword
  rwa [String.ofList_toList, hclass] at hreads

theorem separated_bracket (text : List Char) : Separated ('[' :: text) := by
  apply separated_cons
  apply separates_of_ne
  all_goals decide

theorem prints_of_isExpression {node : Node} (h : IsExpression node) : Prints node := by
  induction h with
  | number hfinite hsign => exact prints_number hfinite hsign
  | string hplain => exact prints_string hplain
  | boolean b => exact prints_boolean b
  | unary hop _ ih =>
    have hwrites := ((writes_symbol hop).append ih.blank (separated_blank _)).parens
    simpa [Prints, render, flatten] using hwrites
  | binary hop _ _ ihleft ihright =>
    have hright := ihright.blank
    have hleft := ihleft.blank.append hright (separated_blank _)
    have hwrites := ((writes_symbol hop).append hleft (separated_blank _)).parens
    simpa [Prints, render, flatten] using hwrites
  | array _ ih =>
    have hwrites := (writes_renderSeq ih).brackets
    simpa [Prints, render, flatten] using hwrites
  | get _ _ ihcaller ihindex =>
    have hwrites := ihcaller.append ihindex.brackets (separated_bracket _)
    simpa [Prints, render, flatten] using hwrites
  | call _ _ ihcaller ihargs =>
    have hword := reads_of_classify (show Lexeme.IsWord "call".toList by decide +kernel) rfl
    have hargs := ihcaller.blank.append (writes_renderArgs ihargs) (separated_renderArgs _)
    have hwrites := ((Writes.reads hword).append hargs (separated_blank _)).parens
    simpa [Prints, render, flatten] using hwrites
  | ret _ ih =>
    have hword := reads_of_classify (show Lexeme.IsWord "return".toList by decide +kernel) rfl
    have hwrites := ((Writes.reads hword).append ih.blank (separated_blank _)).parens
    simpa [Prints, render, flatten] using hwrites

theorem tokenize_render (mode : LineMode) {node : Node} (h : IsExpression node) :
    ∃ tokens, tokenize mode node.render =
        .ok (tokens ++ [.eof (.reached mode node.render.toList)]) ∧
      tokens.map Token.meaning = node.flatten := by
  have hyields := prints_of_isExpression h [] [] (fun c hc => by contradiction) Yields.nil
  rw [List.append_nil, List.append_nil] at hyields
  exact tokenize_of_yields mode hyields

theorem tokenize_render_index :
    IsExpression (Node.get (.array [.literal (.string "a b"), .ret (.literal (.boolean true))])
      (.computed (.unary .minus (.literal (.number ⟨0x3FB999999999999A⟩))))) ∧
    ∃ tokens, tokenize .track "[\"a b\" (return true)][(- 0.1)]" =
        .ok (tokens ++ [.eof ⟨1, 30⟩]) ∧
      tokens.map Token.meaning =
        inBrackets [(.string, .text "a b"),
          (.leftParen, .text "("), (.identifier, .text "return"), (.boolean, .boolean true),
          (.rightParen, .text ")")] ++
        inBrackets [(.leftParen, .text "("), (.minus, .text "-"),
          (.number, .number ⟨0x3FB999999999999A⟩), (.rightParen, .text ")")] := by
  have helements : ∀ element ∈ [Node.literal (.string "a b"), .ret (.literal (.boolean true))],
      IsExpression element := by
    simp only [List.forall_mem_cons, List.not_mem_nil, false_implies, implies_true, and_true]
    constructor
    . apply IsExpression.string
      decide +kernel
    . apply IsExpression.ret
      apply IsExpression.boolean
  have hindex : IsExpression (.unary .minus (.literal (.number ⟨0x3FB999999999999A⟩))) := by
    apply IsExpression.unary (by decide)
    apply IsExpression.number (by decide) (by decide)
  have hexpression := IsExpression.get (.array helements) hindex
  have htext : render (Node.get (.array [.literal (.string "a b"), .ret (.literal (.boolean true))])
      (.computed (.unary .minus (.literal (.number ⟨0x3FB999999999999A⟩))))) =
      "[\"a b\" (return true)][(- 0.1)]" := by
    decide +kernel
  have hposition : .reached .track "[\"a b\" (return true)][(- 0.1)]".toList =
      (⟨1, 30⟩ : Position) := by
    decide +kernel
  have htokens := tokenize_render .track hexpression
  rw [htext, hposition] at htokens
  simp only [flatten, flattenSeq, inParens] at htokens
  exact ⟨hexpression, htokens⟩

end Node

end SketchLang
