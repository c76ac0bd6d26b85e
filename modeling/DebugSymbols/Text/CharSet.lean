namespace DebugSymbols

namespace CharSet

/-- Halves the ranges from `low` to `high`, which ascend, until one may hold `n`. -/
def search (ranges : Array (Nat × Nat)) (n low high : Nat) : Bool :=
  if high ≤ low then false
  else
    let middle := (low + high) / 2
    let (first, last) := ranges.getD middle (0, 0)
    if n < first then search ranges n low middle
    else if last < n then search ranges n (middle + 1) high
    else true
termination_by high - low

def contains (ranges : Array (Nat × Nat)) (c : Char) : Bool :=
  search ranges c.toNat 0 ranges.size

end CharSet

namespace Blank

/-- The characters with the White_Space property. -/
def ranges : Array (Nat × Nat) := #[
  (0x9, 0xD), (0x20, 0x20), (0x85, 0x85), (0xA0, 0xA0), (0x1680, 0x1680), (0x2000, 0x200A),
  (0x2028, 0x2029), (0x202F, 0x202F), (0x205F, 0x205F), (0x3000, 0x3000)]

def isBlank (c : Char) : Bool := CharSet.contains ranges c

def trimStart (s : List Char) : List Char := s.dropWhile isBlank

def trimEnd (s : List Char) : List Char := (s.reverse.dropWhile isBlank).reverse

def trim (s : List Char) : List Char := trimEnd (trimStart s)

end Blank

end DebugSymbols
