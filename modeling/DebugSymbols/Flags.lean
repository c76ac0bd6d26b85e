import DebugSymbols.Text.Hexadecimal

namespace DebugSymbols

/-- The names of the set bits, and a hexadecimal remainder if some have no name. -/
def flagText (type : String) (names : List (UInt32 × String)) (bits : UInt32) : String :=
  let named := (names.filter fun (bit, _) => bits &&& bit != 0).map Prod.snd
  let rest := bits &&& ~~~(names.foldl (fun mask (bit, _) => mask ||| bit) 0)
  let remainder := if rest = 0 then [] else ["0x" ++ Hexadecimal.digits rest.toNat]
  let parts := named ++ remainder
  type ++ "(" ++ (if parts.isEmpty then "0x0" else " | ".intercalate parts) ++ ")"

/-- Properties of all source paths of a file; bits without a name are possible. -/
structure FileFlags where
  bits : UInt32 := 0
deriving DecidableEq, Repr

namespace FileFlags

def names : List (UInt32 × String) := [(1, "WINDOWS_PATHS"), (2, "ASPX_SOURCE")]

/-- Drops the bits that have no name. -/
def truncate (bits : UInt32) : FileFlags := ⟨bits &&& 3⟩

def text (f : FileFlags) : String := flagText "FileFlags" names f.bits

end FileFlags

/-- Which optional data a method carries. -/
structure MethodFlags where
  ambiguousLocals : Bool
  columns : Bool
  ends : Bool
deriving DecidableEq, Repr

namespace MethodFlags

def bits (f : MethodFlags) : UInt32 :=
  (if f.ambiguousLocals then 1 else 0) ||| (if f.columns then 2 else 0) |||
    (if f.ends then 4 else 0)

def ofBits (bits : UInt32) : MethodFlags :=
  ⟨bits &&& 1 != 0, bits &&& 2 != 0, bits &&& 4 != 0⟩

def names : List (UInt32 × String) :=
  [(1, "AMBIGUOUS_LOCALS"), (2, "COLUMNS_INCLUDED"), (4, "END_INFO_INCLUDED")]

def text (f : MethodFlags) : String := flagText "MethodFlags" names f.bits

end MethodFlags

end DebugSymbols
