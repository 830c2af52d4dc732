import SketchLang.Text.Quoted

namespace SketchLang

inductive Keyword where
  | prepare
  | as
  | brush
  | prep
  | has
  | sketch
  | needs
  | finished
  | loop
  | through
  | «while»
  | «if»
  | elif
  | «else»
deriving DecidableEq, Ord

namespace Keyword

def all : List Keyword :=
  [prepare, as, brush, prep, has, sketch, needs, finished, loop, through, «while», «if», elif,
    «else»]

def spelling : Keyword → String
  | prepare => "prepare"
  | as => "as"
  | brush => "brush"
  | prep => "prep"
  | has => "has"
  | sketch => "sketch"
  | needs => "needs"
  | finished => "finished"
  | loop => "loop"
  | through => "through"
  | «while» => "while"
  | «if» => "if"
  | elif => "elif"
  | «else» => "else"

instance : ToString Keyword := ⟨spelling⟩

def lookup? (word : String) : Option Keyword := all.find? (·.spelling == word)

structure NotReserved where
  word : String
deriving DecidableEq

def NotReserved.message (error : NotReserved) : String :=
  Text.quoteString error.word ++ " is not a reserved word"

def parse (word : String) : Except NotReserved Keyword :=
  match lookup? word with
  | some keyword => .ok keyword
  | none => .error ⟨word⟩

theorem lookup?_spelling (keyword : Keyword) : lookup? keyword.spelling = some keyword := by
  cases keyword <;> decide +kernel

end Keyword

end SketchLang
