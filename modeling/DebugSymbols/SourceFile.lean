import DebugSymbols.Bytes.Writing
import DebugSymbols.Md5

namespace DebugSymbols

/-- A source file by name, with a checksum of its contents. -/
structure SourceFile where
  index : UInt32
  fileName : String
  checksum : List UInt8
  autoGenerated : Bool := false
deriving DecidableEq, Repr

namespace SourceFile

/-- A source file with the digest of its contents, not yet numbered. -/
def ofContent (fileName : String) (content : List UInt8) : SourceFile :=
  { index := 0, fileName := fileName, checksum := Md5.digest content }

def matchesContent (f : SourceFile) (content : List UInt8) : Bool :=
  f.checksum.length == 16 && Md5.digest content == f.checksum

def encode (f : SourceFile) : List UInt8 :=
  encodeText f.fileName ++ encodeRun f.checksum ++ [if f.autoGenerated then 1 else 0]

def write [Sink σ] (f : SourceFile) : Writing σ Unit := do
  Writing.text f.fileName
  Writing.prefixedBytes f.checksum
  Writing.u8 (if f.autoGenerated then 1 else 0)

/-- The index comes from the table record and not from the entry itself. -/
def read (index : UInt32) : Reader SourceFile := do
  let fileName ← Reader.text
  let checksum ← Reader.prefixedBytes
  let generated ← Reader.u8
  pure ⟨index, fileName, checksum, generated != 0⟩

end SourceFile

end DebugSymbols
