import DebugSymbols.Bytes.Output
import DebugSymbols.Step

namespace DebugSymbols

/-- A stream that can be written from any position on.  Each of its operations may fail. -/
class Sink (σ : Type) where
  position : Step σ Nat
  seek (target : Nat) : Step σ Unit
  seekEnd : Step σ Unit
  write (bytes : List UInt8) : Step σ Unit
  /-- Passes on what is held back. -/
  flush : Step σ Unit

/-- A stream in memory takes everything. -/
instance : Sink Output where
  position := do return (← get).position
  seek target := modify fun o => o.seek target
  seekEnd := modify fun o => o.seekEnd
  write bytes := modify fun o => o.write bytes
  flush := pure ()

abbrev Writing (σ : Type) := Step σ

/-- A table's length as the format records it. -/
def tableLength (count : Nat) : Except Error UInt32 :=
  if count < 0x100000000 then .ok (UInt32.ofNat count) else .error (.malformed (.tableTooLong count))

namespace Writing

variable [Sink σ]

def position : Writing σ UInt32 := do
  let p ← Sink.position
  if p < 0x100000000 then pure (UInt32.ofNat p) else throw (.malformed (.fileTooLarge p))

def raw (bytes : List UInt8) : Writing σ Unit := Sink.write bytes

def u8 (v : UInt8) : Writing σ Unit := raw [v]

def u32 (v : UInt32) : Writing σ Unit := raw (littleEndian 4 v.toNat)

def varint (v : UInt32) : Writing σ Unit := raw (Varint.encode v)

def signedVarint (v : Int32) : Writing σ Unit := raw (Varint.encodeSigned v)

def prefixedBytes (bytes : List UInt8) : Writing σ Unit :=
  if bytes.length < 0x100000000 then do
    varint (UInt32.ofNat bytes.length)
    raw bytes
  else throw (.malformed (.runTooLong bytes.length))

def text (s : String) : Writing σ Unit := prefixedBytes (Utf8.encode s)

def counted (w : α → Writing σ Unit) (as : List α) : Writing σ Unit := do
  varint (← tableLength as.length)
  as.forM w

/-- Notes where something begins. -/
def placed (w : α → Writing σ Unit) (a : α) : Writing σ (α × UInt32) := do
  let offset ← position
  w a
  pure (a, offset)

/-- A stretch of a file. -/
structure Extent where
  offset : UInt32
  size : UInt32
deriving DecidableEq, Repr

/-- Notes which stretch something takes. -/
def measured (w : Writing σ α) : Writing σ (Extent × α) := do
  let start ← position
  let a ← w
  let stop ← position
  pure (⟨start, stop - start⟩, a)

end Writing

end DebugSymbols
