namespace SketchLang.Unicode

/--
A table of closed ranges of code points, ascending and disjoint.
-/
abbrev Ranges := List (Nat × Nat)

namespace Ranges

def contains : Ranges → Nat → Bool
  | [], _ => false
  | (first, last) :: rest, n => if n < first then false else n ≤ last || contains rest n

def ascending : Ranges → Bool
  | [] => true
  | [r] => r.1 ≤ r.2
  | r :: s :: rest => r.1 ≤ r.2 && r.2 < s.1 && ascending (s :: rest)

def count (ranges : Ranges) : Nat := ranges.foldl (fun n r => n + (r.2 + 1 - r.1)) 0

end Ranges

end SketchLang.Unicode
