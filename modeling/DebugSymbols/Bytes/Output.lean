import DebugSymbols.Bytes.Varint

namespace DebugSymbols

/-- `bytes` laid over `data` at `position`; a gap before them is filled with zeros. -/
def overlay (data : Bytes) (position : Nat) (bytes : List UInt8) : Bytes :=
  (data.take position).rightpad position 0 ++ bytes ++ data.drop (position + bytes.length)

structure Output where
  data : Bytes := #[]
  position : Nat := 0
deriving Repr

namespace Output

def seek (o : Output) (target : Nat) : Output := { o with position := target }

def seekEnd (o : Output) : Output := o.seek o.data.size

def write (o : Output) (bytes : List UInt8) : Output :=
  ⟨overlay o.data o.position bytes, o.position + bytes.length⟩

end Output

/-- A run of bytes behind its length. -/
def encodeRun (bytes : List UInt8) : List UInt8 :=
  Varint.encode (UInt32.ofNat bytes.length) ++ bytes

def encodeText (s : String) : List UInt8 := encodeRun (Utf8.encode s)

def encodeCounted (f : α → List UInt8) (as : List α) : List UInt8 :=
  Varint.encode (UInt32.ofNat as.length) ++ as.flatMap f

end DebugSymbols
