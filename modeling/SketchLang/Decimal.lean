namespace SketchLang

/--
The number `digits / 10 ^ places`.
-/
structure Decimal where
  digits : Nat
  places : Nat
deriving DecidableEq, Repr

namespace Decimal

def scale (d : Decimal) : Nat := Nat.pow 10 d.places

def ofDigits (whole fraction : List Char) : Decimal :=
  ⟨Nat.ofDigitChars 10 (whole ++ fraction) 0, fraction.length⟩

/--
Read a numeral: one or more digits, then nothing or a point and any number of digits. There is
no sign and no exponent.
-/
def ofText? (text : List Char) : Option Decimal :=
  let whole := text.takeWhile Char.isDigit
  if whole.isEmpty then
    none
  else
    match text.dropWhile Char.isDigit with
    | [] => some (ofDigits whole [])
    | '.' :: fraction => if fraction.all Char.isDigit then some (ofDigits whole fraction) else none
    | _ => none

def text (d : Decimal) : List Char :=
  let whole := Nat.toDigits 10 (d.digits / d.scale)
  if d.places = 0 then
    whole
  else
    let fraction := Nat.toDigits 10 (d.digits % d.scale)
    whole ++ '.' :: fraction.leftpad d.places '0'

example : ofText? ['0', '4', '.', '5', '0'] = some ⟨450, 2⟩ ∧ ofText? ['7', '.'] = some ⟨7, 0⟩ ∧
    ofText? ['.', '5'] = none ∧ ofText? ['1', 'e', '5'] = none := by
  decide +kernel

example : text ⟨450, 2⟩ = ['4', '.', '5', '0'] ∧ text ⟨25, 4⟩ = ['0', '.', '0', '0', '2', '5'] ∧
    text ⟨120, 0⟩ = ['1', '2', '0'] := by
  decide +kernel

end Decimal

end SketchLang
