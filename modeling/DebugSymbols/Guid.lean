import DebugSymbols.Text.Hexadecimal

namespace DebugSymbols

/-- A module identity, held as the sixteen bytes of its file form. -/
structure Guid where
  bytes : List UInt8
  length_bytes : bytes.length = 16 := by rfl
deriving DecidableEq, Repr

namespace Guid

def zero : Guid := ⟨List.replicate 16 0, rfl⟩

instance : Inhabited Guid := ⟨zero⟩

def ofBytes? (bytes : List UInt8) : Option Guid :=
  if h : bytes.length = 16 then some ⟨bytes, h⟩ else none

/-- The bytes of the written form: its first three groups are little-endian in a file. -/
def writtenOrder (bytes : List UInt8) : List UInt8 :=
  (bytes.take 4).reverse ++ ((bytes.drop 4).take 2).reverse ++ ((bytes.drop 6).take 2).reverse ++
    bytes.drop 8

def text (g : Guid) : String :=
  let written := writtenOrder g.bytes
  let group (start length : Nat) := Hexadecimal.bytes ((written.drop start).take length)
  "-".intercalate [group 0 4, group 4 2, group 6 2, group 8 2, group 10 6]

instance : ToString Guid := ⟨text⟩

/-- Reads the written form, in either case of letters. -/
def parse? (text : String) : Option Guid := do
  let groups := text.toList.splitOn '-'
  guard (groups.map List.length = [8, 4, 4, 4, 12])
  let written ← Hexadecimal.parseBytes? groups.flatten
  ofBytes? (writtenOrder written)

end Guid

end DebugSymbols
