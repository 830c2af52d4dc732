namespace SketchLang.Token

inductive Kind where
  | leftParen
  | rightParen
  | leftBrace
  | rightBrace
  | leftBracket
  | rightBracket
  | period
  | comma
  | colon
  | keyword
  | identifier
  | string
  | number
  | boolean
  | assign
  | or
  | not
  | and
  | equiv
  | notEquiv
  | gt
  | gte
  | lt
  | lte
  | plus
  | minus
  | asterisk
  | slash
  | eof
deriving DecidableEq, Ord

namespace Kind

def all : List Kind :=
  [leftParen, rightParen, leftBrace, rightBrace, leftBracket, rightBracket, period, comma, colon,
    keyword, identifier, string, number, boolean, assign, or, not, and, equiv, notEquiv, gt, gte,
    lt, lte, plus, minus, asterisk, slash, eof]

def name : Kind → String
  | leftParen => "LeftParen"
  | rightParen => "RightParen"
  | leftBrace => "LeftBrace"
  | rightBrace => "RightBrace"
  | leftBracket => "LeftBracket"
  | rightBracket => "RightBracket"
  | period => "Period"
  | comma => "Comma"
  | colon => "Colon"
  | keyword => "Keyword"
  | identifier => "Identifier"
  | string => "String"
  | number => "Number"
  | boolean => "Boolean"
  | assign => "Assign"
  | or => "Or"
  | not => "Not"
  | and => "And"
  | equiv => "Equiv"
  | notEquiv => "NotEquiv"
  | gt => "Gt"
  | gte => "Gte"
  | lt => "Lt"
  | lte => "Lte"
  | plus => "Plus"
  | minus => "Minus"
  | asterisk => "Asterisk"
  | slash => "Slash"
  | eof => "EOF"

instance : ToString Kind := ⟨name⟩

def ofName? (name : String) : Option Kind := all.find? (·.name == name)

theorem mem_all (kind : Kind) : kind ∈ all := by
  cases kind <;> decide

theorem ofName?_name (kind : Kind) : ofName? kind.name = some kind := by
  cases kind <;> decide +kernel

end Kind

end SketchLang.Token
