import DebugSymbols.Header
import DebugSymbols.LineProgram.Decode
import DebugSymbols.Method.Definition

namespace DebugSymbols

/-- Stands behind the parts of a method and says where they begin. -/
structure MethodTrailer where
  compileUnit : UInt32
  localsOffset : UInt32
  namespaceId : UInt32
  blocksOffset : UInt32
  scopeVariablesOffset : UInt32
  /-- 0 for a method without a real name. -/
  realNameOffset : UInt32
  flags : UInt32
deriving DecidableEq, Repr

namespace MethodTrailer

def encode (t : MethodTrailer) : List UInt8 :=
  [t.compileUnit, t.localsOffset, t.namespaceId, t.blocksOffset, t.scopeVariablesOffset,
    t.realNameOffset, t.flags].flatMap Varint.encode

def write [Sink σ] (t : MethodTrailer) : Writing σ Unit := do
  Writing.varint t.compileUnit
  Writing.varint t.localsOffset
  Writing.varint t.namespaceId
  Writing.varint t.blocksOffset
  Writing.varint t.scopeVariablesOffset
  Writing.varint t.realNameOffset
  Writing.varint t.flags

def read : Reader MethodTrailer := do
  let compileUnit ← Reader.varint
  let localsOffset ← Reader.varint
  let namespaceId ← Reader.varint
  let blocksOffset ← Reader.varint
  let scopeVariablesOffset ← Reader.varint
  let realNameOffset ← Reader.varint
  let flags ← Reader.varint
  pure ⟨compileUnit, localsOffset, namespaceId, blocksOffset, scopeVariablesOffset,
    realNameOffset, flags⟩

end MethodTrailer

/-- The parts of a method that are stored apart from its record. -/
inductive MethodPart where
  | locals
  | blocks
  | scopeVariables
  | lines
  | realName
deriving DecidableEq, Repr

@[reducible] def MethodPart.Value : MethodPart → Type
  | locals => List LocalVariable
  | blocks => List CodeBlock
  | scopeVariables => List ScopeVariable
  | lines => LineTable
  | realName => Option String

structure MethodRecord where
  token : Token
  index : UInt32
  linesOffset : UInt32
  trailer : MethodTrailer
deriving DecidableEq, Repr

namespace MethodRecord

def compileUnit (m : MethodRecord) : UInt32 := m.trailer.compileUnit

def namespaceId (m : MethodRecord) : UInt32 := m.trailer.namespaceId

def flags (m : MethodRecord) : MethodFlags := MethodFlags.ofBits m.trailer.flags

def read (index : UInt32) : Reader MethodRecord := do
  let token ← Reader.u32
  let dataOffset ← Reader.u32
  let linesOffset ← Reader.u32
  Reader.seek dataOffset.toNat
  let trailer ← MethodTrailer.read
  pure ⟨⟨token⟩, index, linesOffset, trailer⟩

def partOffset (m : MethodRecord) : MethodPart → UInt32
  | .locals => m.trailer.localsOffset
  | .blocks => m.trailer.blocksOffset
  | .scopeVariables => m.trailer.scopeVariablesOffset
  | .lines => m.linesOffset
  | .realName => m.trailer.realNameOffset

/-- A part that is known without reading: a real name at offset 0 is absent. -/
def knownPart? (m : MethodRecord) : (part : MethodPart) → Option part.Value
  | .realName => if m.trailer.realNameOffset = 0 then some none else none
  | .locals | .blocks | .scopeVariables | .lines => none

def readPart [Build] (p : LineParameters) (m : MethodRecord) :
    (part : MethodPart) → Reader part.Value
  | .locals => Reader.counted LocalVariable.read
  | .blocks => CodeBlock.readTable
  | .scopeVariables => Reader.counted ScopeVariable.read
  | .lines => LineProgram.read p m.flags.columns m.flags.ends
  | .realName => some <$> Reader.text

end MethodRecord

end DebugSymbols
