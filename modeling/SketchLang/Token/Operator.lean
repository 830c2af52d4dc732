import SketchLang.Token.Kind

namespace SketchLang.Token

def operators : List (String × Kind) :=
  [("(", .leftParen), (")", .rightParen), ("\x7b", .leftBrace), ("\x7d", .rightBrace),
    ("[", .leftBracket), ("]", .rightBracket), (".", .period), (",", .comma), (":", .colon),
    ("+", .plus), ("-", .minus), ("*", .asterisk), ("/", .slash), ("=", .assign), ("==", .equiv),
    ("!", .not), ("!=", .notEquiv), (">", .gt), (">=", .gte), ("<", .lt), ("<=", .lte),
    ("&&", .and), ("||", .or)]

def operatorKind? (lexeme : String) : Option Kind := operators.lookup lexeme

theorem operatorKind?_empty : operatorKind? "" = none := by
  decide +kernel

end SketchLang.Token
