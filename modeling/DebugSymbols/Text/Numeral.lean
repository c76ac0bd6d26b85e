import DebugSymbols.Text.CharSet
import DebugSymbols.Text.Hexadecimal

namespace DebugSymbols.Numeral

inductive Fault where
  | empty
  | invalidDigit
  | tooLarge
deriving DecidableEq, Repr

def Fault.message : Fault → String
  | empty => "cannot parse integer from empty string"
  | invalidDigit => "invalid digit found in string"
  | tooLarge => "number too large to fit in target type"

inductive Radix where
  | decimal
  | hexadecimal
deriving DecidableEq, Repr

def Radix.value : Radix → Nat
  | decimal => 10
  | hexadecimal => 16

def digit? (r : Radix) (c : Char) : Option Nat :=
  (Hexadecimal.digitValue? c).filter fun d => d < r.value

/-- Appends digits to a number, up to the first fault. -/
def accumulate (r : Radix) (n : Nat) : List Char → Except Fault UInt32
  | [] => .ok (UInt32.ofNat n)
  | c :: cs =>
    match digit? r c with
    | none => .error .invalidDigit
    | some d =>
      if n * r.value + d < 0x100000000 then accumulate r (n * r.value + d) cs else .error .tooLarge

/-- A plus sign may stand in front of the digits. -/
def unsigned (r : Radix) : List Char → Except Fault UInt32
  | [] => .error .empty
  | ['+'] => .error .invalidDigit
  | '+' :: cs => accumulate r 0 cs
  | cs => accumulate r 0 cs

/-- The radix of a typed number, and its number or fault. -/
def parse (typed : String) : Radix × Except Fault UInt32 :=
  match Blank.trim typed.toList with
  | '0' :: 'x' :: cs => (.hexadecimal, unsigned .hexadecimal cs)
  | '0' :: 'X' :: cs => (.hexadecimal, unsigned .hexadecimal cs)
  | cs => (.decimal, unsigned .decimal cs)

end DebugSymbols.Numeral
