import SketchLang.Binary64.Basic
import SketchLang.Decimal

/-!
This module contains the decimal text of a floating-point number: of all decimal numbers that
round to it, one with the fewest digits, and of those the nearest.

All magnitudes, and the midpoints between neighbours, are whole multiples of `10 ^ -1075`, so the
search compares whole numbers only. It goes through the grids of the multiples of `10 ^ k`, coarse
ones first. If any point of a grid rounds to the number then so does one of the two grid points
around it.
-/

namespace SketchLang.Binary64

def scaled (rank : Nat) : Nat := units rank * Nat.pow 5 1074

def roundsTo (rank n : Nat) : Bool :=
  let low := scaled (rank - 1) + scaled rank
  let high := scaled rank + scaled (rank + 1)
  if rank % 2 = 0 then low ≤ 2 * n && 2 * n ≤ high else low < 2 * n && 2 * n < high

/--
The multiple of `10 ^ k` that is nearest to the magnitude of the given rank among those that round
to it, divided by `10 ^ k`. Of two that are equally near it is the upper one.
-/
def onGrid? (rank k : Nat) : Option Nat :=
  let spacing := Nat.pow 10 k
  let below := scaled rank / spacing
  let distance := scaled rank % spacing
  match roundsTo rank (below * spacing), roundsTo rank ((below + 1) * spacing) with
  | true, true => if 2 * distance < spacing then some below else some (below + 1)
  | true, false => some below
  | false, true => some (below + 1)
  | false, false => none

def gridPoint (n k : Nat) : Decimal :=
  if k < 1074 then ⟨n, 1074 - k⟩ else ⟨n * Nat.pow 10 (k - 1074), 0⟩

def firstHit (rank : Nat) : Nat → Decimal
  | 0 => gridPoint (scaled rank) 0
  | k + 1 =>
    match onGrid? rank (k + 1) with
    | some n => gridPoint n (k + 1)
    | none => firstHit rank k

def shortest (rank : Nat) : Decimal :=
  if rank = 0 then ⟨0, 0⟩ else firstHit rank (Nat.toDigits 10 (scaled rank)).length

def text (x : Binary64) : String :=
  if x.isNaN then "NaN"
  else
    let magnitude := if x.isFinite then String.ofList (shortest x.rank).text else "inf"
    if x.isNegative then "-" ++ magnitude else magnitude

example : (text ⟨0x3FB999999999999A⟩, text ⟨0x8000000000000000⟩, text ⟨0x4059000000000000⟩,
    text ⟨0xFFF0000000000000⟩) = ("0.1", "-0", "100", "-inf") := by
  decide +kernel

/-- The power `2 ^ -25` lies halfway between two numbers of 17 digits, and the upper one is taken. -/
example : text ⟨0x3E60000000000000⟩ = "0.000000029802322387695313" := by
  decide +kernel

end SketchLang.Binary64
