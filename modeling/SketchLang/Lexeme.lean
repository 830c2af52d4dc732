import SketchLang.Binary64.Rounding
import SketchLang.Token.Basic
import SketchLang.Token.Operator

/-!
This module contains the lexemes of the language and how one is recognised at the start of a text.

Every recogniser takes the longest lexeme of its class that begins the text. No two classes have
lexemes that begin with the same character, so at most one of the recognisers succeeds. The main
statement is that a recognised lexeme is a prefix of the text and is not empty
(`Lexeme.raw_first?`).
-/

namespace SketchLang

inductive Lexeme where
  | word (text : List Char)
  | number (text : List Char) (value : Binary64)
  | quoted (mark : Char) (text : List Char)
  | operator (text : List Char) (kind : Token.Kind)

namespace Lexeme

def isQuote (c : Char) : Bool := c == '"' || c == '\''

def isWordStart (c : Char) : Bool := c.isAlpha || c == '_'

def isWordRest (c : Char) : Bool := c.isAlphanum || c == '_'

def raw : Lexeme → List Char
  | word text | number text _ | operator text _ => text
  | quoted mark text => mark :: text ++ [mark]

def classify (word : String) : Token.Kind × Token.Value :=
  match Keyword.lookup? word with
  | some keyword => (.keyword, .keyword keyword)
  | none =>
    if word = "true" then (.boolean, .boolean true)
    else if word = "false" then (.boolean, .boolean false)
    else (.identifier, .text word)

def token (lexeme : Lexeme) (position : Position) : Token :=
  match lexeme with
  | word text =>
    let (kind, value) := classify (String.ofList text)
    ⟨kind, String.ofList text, value, position⟩
  | number text value => ⟨.number, String.ofList text, .number value, position⟩
  | quoted _ text => .plain .string (String.ofList text) position
  | operator text kind => .plain kind (String.ofList text) position

def word? : List Char → Option Lexeme
  | [] => none
  | c :: rest => if isWordStart c then some (word (c :: rest.takeWhile isWordRest)) else none

def numeral (text : List Char) : List Char :=
  let whole := text.takeWhile Char.isDigit
  match text.dropWhile Char.isDigit with
  | '.' :: rest => whole ++ '.' :: rest.takeWhile Char.isDigit
  | _ => whole

def number? (text : List Char) : Option Lexeme :=
  match Decimal.ofText? (numeral text) with
  | some decimal => some (number (numeral text) (.ofDecimal decimal))
  | none => none

def quoted? : List Char → Option Lexeme
  | [] => none
  | mark :: rest =>
    if isQuote mark && rest.contains mark then
      some (quoted mark (rest.takeWhile (· != mark)))
    else
      none

def exactOperator? (text : List Char) : Option Lexeme :=
  (Token.operatorKind? (String.ofList text)).map (operator text)

def operator? (text : List Char) : Option Lexeme :=
  exactOperator? (text.take 2) <|> exactOperator? (text.take 1)

def first? (text : List Char) : Option Lexeme :=
  quoted? text <|> number? text <|> word? text <|> operator? text

theorem numeral_isPrefix (text : List Char) : numeral text <+: text := by
  unfold numeral
  split
  . next rest h =>
    conv => rhs; rw [← List.takeWhile_append_dropWhile (p := Char.isDigit) (l := text), h]
    simp [List.takeWhile_prefix]
  . exact List.takeWhile_prefix _

theorem takeWhile_ne_isPrefix {mark : Char} {text : List Char} (h : mark ∈ text) :
    text.takeWhile (· != mark) ++ [mark] <+: text := by
  induction text with
  | nil => simp at h
  | cons c text ih =>
    by_cases hc : c = mark
    . simp [hc]
    . have : mark ∈ text := by simpa [Ne.symm hc] using h
      simpa [hc] using ih this

theorem raw_word? {text : List Char} {lexeme : Lexeme} (h : word? text = some lexeme) :
    lexeme.raw <+: text ∧ lexeme.raw ≠ [] := by
  unfold word? at h
  split at h
  . contradiction
  . split at h
    . cases h
      simp [raw, List.takeWhile_prefix]
    . contradiction

theorem raw_number? {text : List Char} {lexeme : Lexeme} (h : number? text = some lexeme) :
    lexeme.raw <+: text ∧ lexeme.raw ≠ [] := by
  unfold number? at h
  split at h
  . next hread =>
    cases h
    refine ⟨numeral_isPrefix text, fun hnil => ?_⟩
    simp only [raw] at hnil
    simp [hnil, Decimal.ofText?] at hread
  . contradiction

theorem raw_quoted? {text : List Char} {lexeme : Lexeme} (h : quoted? text = some lexeme) :
    lexeme.raw <+: text ∧ lexeme.raw ≠ [] := by
  unfold quoted? at h
  split at h
  . contradiction
  . split at h
    . next hmark =>
      cases h
      have hmem := (Bool.and_eq_true_iff.mp hmark).2
      simp [raw, takeWhile_ne_isPrefix (List.contains_iff_mem.mp hmem)]
    . contradiction

theorem raw_exactOperator? {text : List Char} {lexeme : Lexeme}
    (h : exactOperator? text = some lexeme) : lexeme.raw = text ∧ lexeme.raw ≠ [] := by
  simp only [exactOperator?, Option.map_eq_some_iff] at h
  obtain ⟨kind, hkind, rfl⟩ := h
  refine ⟨rfl, fun hnil => ?_⟩
  rw [show text = [] from hnil] at hkind
  simp [Token.operatorKind?_empty] at hkind

theorem raw_operator? {text : List Char} {lexeme : Lexeme} (h : operator? text = some lexeme) :
    lexeme.raw <+: text ∧ lexeme.raw ≠ [] := by
  simp only [operator?, Option.orElse_eq_orElse, Option.orElse_eq_or, Option.or_eq_some_iff] at h
  rcases h with h | ⟨_, h⟩ <;> obtain ⟨hraw, hne⟩ := raw_exactOperator? h
  . exact ⟨hraw ▸ List.take_prefix 2 text, hne⟩
  . exact ⟨hraw ▸ List.take_prefix 1 text, hne⟩

theorem raw_first? {text : List Char} {lexeme : Lexeme} (h : first? text = some lexeme) :
    lexeme.raw <+: text ∧ lexeme.raw ≠ [] := by
  simp only [first?, Option.orElse_eq_orElse, Option.orElse_eq_or, Option.or_eq_some_iff] at h
  rcases h with h | ⟨_, h | ⟨_, h | ⟨_, h⟩⟩⟩
  . exact raw_quoted? h
  . exact raw_number? h
  . exact raw_word? h
  . exact raw_operator? h

end Lexeme

end SketchLang
