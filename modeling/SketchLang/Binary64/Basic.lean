/-!
This module contains the binary floating-point numbers of 64 bits that number tokens carry, as
the words that represent them.

A word without its sign bit is called the rank of the number: ranks are ordered like the
magnitudes they stand for, so that a magnitude and its neighbours are found by counting. All
magnitudes are whole multiples of `2 ^ -1074`, the smallest of them, and `units` counts in it.
-/

namespace SketchLang

structure Binary64 where
  bits : UInt64

namespace Binary64

def signBit : Nat := 0x8000000000000000

/--
How many magnitudes lie between two powers of two, `2 ^ 52`.
-/
def binade : Nat := 0x10000000000000

def isNegative (x : Binary64) : Bool := signBit ≤ x.bits.toNat

def rank (x : Binary64) : Nat := x.bits.toNat % signBit

def infinityRank : Nat := 0x7FF * binade

def isNaN (x : Binary64) : Bool := infinityRank < x.rank

def isFinite (x : Binary64) : Bool := x.rank < infinityRank

def ofRank (rank : Nat) : Binary64 := ⟨UInt64.ofNat rank⟩

/--
The magnitude that has the given rank, in multiples of `2 ^ -1074`. It goes on beyond the finite
ranks as if the exponent had no limit.
-/
def units (rank : Nat) : Nat :=
  if rank < binade then rank else (binade + rank % binade) <<< (rank / binade - 1)

protected def beq (x y : Binary64) : Bool :=
  !x.isNaN && !y.isNaN && (x.bits == y.bits || x.rank == 0 && y.rank == 0)

instance : BEq Binary64 := ⟨Binary64.beq⟩

end Binary64

end SketchLang
