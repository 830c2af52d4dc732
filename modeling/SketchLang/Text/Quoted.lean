import SketchLang.Unicode.DefaultIgnorable
import SketchLang.Unicode.GraphemeExtend
import SketchLang.Unicode.Unprintable

/-!
This module contains the quoted form of text that is used wherever a lexeme or a character is
shown to the user. It stays on one line and holds visible characters only: whatever would not
show, or would attach to the character before it, is written as an escape.
-/

namespace SketchLang.Text

def isHidden (c : Char) : Bool := Unicode.isUnprintable c || Unicode.isDefaultIgnorable c

def isHalfwidthSoundMark (c : Char) : Bool := c == '\uff9e' || c == '\uff9f'

/--
Whether a character would attach to the one before it. The halfwidth sound marks extend a grapheme
as well, but each has a cell of its own.
-/
def attaches (c : Char) : Bool := Unicode.isGraphemeExtend c && !isHalfwidthSoundMark c

def codePointEscape (c : Char) : List Char :=
  '\\' :: 'u' :: '\x7b' :: Nat.toDigits 16 c.toNat ++ ['\x7d']

def escape (mark c : Char) : List Char :=
  if c = '\x00' then ['\\', '0']
  else if c = '\t' then ['\\', 't']
  else if c = '\n' then ['\\', 'n']
  else if c = '\r' then ['\\', 'r']
  else if c = '\\' ∨ c = mark then ['\\', c]
  else if attaches c ∨ isHidden c then codePointEscape c
  else [c]

def quote (mark : Char) (text : List Char) : List Char :=
  mark :: text.flatMap (escape mark) ++ [mark]

def quoteString (text : String) : String := String.ofList (quote '"' text.toList)

def quoteChar (c : Char) : String := String.ofList (quote '\'' [c])

@[simp]
theorem toList_quoteString (text : String) :
    (quoteString text).toList = quote '"' text.toList := by
  simp [quoteString]

@[simp]
theorem toList_quoteChar (c : Char) : (quoteChar c).toList = quote '\'' [c] := by
  simp [quoteChar]

example : quote '"' ['\u115f', '\uff9e', '\uff9f'] =
    ['"', '\\', 'u', '\x7b', '1', '1', '5', 'f', '\x7d', '\uff9e', '\uff9f', '"'] := by
  decide +kernel

example : quote '"' ['a', '"', '\'', '\n', 'é'] =
    ['"', 'a', '\\', '"', '\'', '\\', 'n', 'é', '"'] := by
  decide +kernel

end SketchLang.Text
