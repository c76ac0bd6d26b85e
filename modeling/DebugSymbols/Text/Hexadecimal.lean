namespace DebugSymbols.Hexadecimal

def padded (width n : Nat) : String :=
  String.ofList ((Nat.toDigits 16 n).leftpad width '0')

def digits (n : Nat) : String := padded 1 n

/-- A byte as `0x` and two digits. -/
def byte (b : UInt8) : String := "0x" ++ padded 2 b.toNat

/-- Two digits for each byte, without separators. -/
def bytes (bs : List UInt8) : String := String.join (bs.map fun b => padded 2 b.toNat)

def digitValue? (c : Char) : Option Nat :=
  if '0' ≤ c ∧ c ≤ '9' then some (c.toNat - '0'.toNat)
  else if 'a' ≤ c ∧ c ≤ 'f' then some (c.toNat - 'a'.toNat + 10)
  else if 'A' ≤ c ∧ c ≤ 'F' then some (c.toNat - 'A'.toNat + 10)
  else none

/-- Bytes from pairs of digits in either case. -/
def parseBytes? : List Char → Option (List UInt8)
  | [] => some []
  | [_] => none
  | high :: low :: rest => do
    let h ← digitValue? high
    let l ← digitValue? low
    let bytes ← parseBytes? rest
    pure (UInt8.ofNat (16 * h + l) :: bytes)

end DebugSymbols.Hexadecimal
