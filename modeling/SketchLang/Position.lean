namespace SketchLang

inductive LineMode where
  | flat
  | track
deriving DecidableEq, Repr

instance : Inhabited LineMode := ⟨.flat⟩

/--
The position reached after some text has been consumed: the number of the current line, counted
from 1, and how many characters of that line are consumed.
-/
structure Position where
  line : Nat
  column : Nat
deriving DecidableEq, Repr

namespace Position

def start : Position := ⟨1, 0⟩

def next (mode : LineMode) (p : Position) (c : Char) : Position :=
  if c = '\n' ∧ mode = .track then ⟨p.line + 1, 0⟩ else ⟨p.line, p.column + 1⟩

def after (mode : LineMode) (p : Position) (text : List Char) : Position :=
  text.foldl (next mode) p

@[simp]
theorem after_nil (mode : LineMode) (p : Position) : p.after mode [] = p := rfl

@[simp]
theorem after_cons (mode : LineMode) (p : Position) (c : Char) (text : List Char) :
    p.after mode (c :: text) = (p.next mode c).after mode text := rfl

theorem after_append (mode : LineMode) (p : Position) (text more : List Char) :
    p.after mode (text ++ more) = (p.after mode text).after mode more := by
  simp [after]

end Position

end SketchLang
