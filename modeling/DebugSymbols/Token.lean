import DebugSymbols.Text.Hexadecimal

namespace DebugSymbols

/-- The number by which a module's metadata names a method. -/
structure Token where
  value : UInt32
deriving DecidableEq, Repr, Inhabited

namespace Token

theorem value_inj {s t : Token} : s.value = t.value ↔ s = t := by
  cases s
  cases t
  simp

def isNull (t : Token) : Bool := t.value == 0

/-- `0x` and eight digits. -/
def text (t : Token) : String := "0x" ++ Hexadecimal.padded 8 t.value.toNat

def debug (t : Token) : String := "Token(" ++ t.text ++ ")"

instance : ToString Token := ⟨text⟩

/-- The order of tokens is that of their numbers. -/
def atMost (s t : Token) : Bool := s.value ≤ t.value

def ascending (ts : List Token) : List Token := ts.mergeSort atMost

end Token

end DebugSymbols
