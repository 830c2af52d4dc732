import SketchLang.Binary64.Basic
import SketchLang.Decimal

namespace SketchLang.Binary64

def roundHalfEven (num den : Nat) : Nat :=
  let quotient := num / den
  let remainder := num % den
  if 2 * remainder < den then quotient
  else if den < 2 * remainder then quotient + 1
  else quotient + quotient % 2

/--
The rank of the magnitude nearest to `num / den`, where the quotient counts multiples of
`2 ^ -1074`.

Above `2 ^ 53` not every multiple is a magnitude: they are spaced by `2 ^ shift`, such that the
significand keeps 53 bits. A significand that is rounded up to `2 ^ 53` gives the next power of
two, and everything from half a spacing above the largest finite magnitude on gives infinity.
-/
def nearestRank (num den : Nat) : Nat :=
  let shift := (num / den).log2 - 52
  min infinityRank (shift * binade + roundHalfEven num (den <<< shift))

def ofDecimal (d : Decimal) : Binary64 :=
  ofRank (nearestRank (d.digits <<< 1074) d.scale)

example : (ofDecimal ⟨1, 0⟩).bits = 0x3FF0000000000000 ∧
    (ofDecimal ⟨1, 1⟩).bits = 0x3FB999999999999A ∧
    (ofDecimal ⟨2 ^ 1024 - 2 ^ 970, 0⟩).bits = 0x7FF0000000000000 ∧
    (ofDecimal ⟨2 ^ 1024 - 2 ^ 970 - 1, 0⟩).bits = 0x7FEFFFFFFFFFFFFF ∧
    (ofDecimal ⟨25, 325⟩).bits = 1 ∧ (ofDecimal ⟨24, 325⟩).bits = 0 := by
  decide +kernel

end SketchLang.Binary64
