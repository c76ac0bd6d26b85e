import DebugSymbols.Proofs.Build
import DebugSymbols.Store.Sealing

namespace DebugSymbols

/-- Bytes and their place in the file. -/
structure Section where
  offset : Nat
  bytes : List UInt8
deriving DecidableEq, Repr

namespace Section

def stop (s : Section) : Nat := s.offset + s.bytes.length

/-- Lays runs of bytes one behind another. -/
def layOut (start : Nat) : List (List UInt8) → List Section
  | [] => []
  | bytes :: rest => ⟨start, bytes⟩ :: layOut (start + bytes.length) rest

end Section

/-- The payload of a method: its parts in file order, and the trailer that points back at them. -/
structure MethodImage where
  token : Token
  locals : Section
  blocks : Section
  scopeVariables : Section
  realName : Section
  lines : Section
  trailer : Section
deriving Repr

namespace MethodImage

def parts (m : MethodImage) : List Section :=
  [m.locals, m.blocks, m.scopeVariables, m.realName, m.lines, m.trailer]

def bytes (m : MethodImage) : List UInt8 := m.parts.flatMap Section.bytes

/-- The record of the method table: the token and where trailer and line program begin. -/
def record (m : MethodImage) : List UInt8 :=
  littleEndian 4 m.token.value.toNat ++ littleEndian 4 m.trailer.offset ++
    littleEndian 4 m.lines.offset

def ofDefinition (p : LineParameters) (start : Nat) (d : MethodDefinition) :
    Except Error MethodImage := do
  let program ← LineProgram.encode p d.flags.columns d.flags.ends d.lines
  let locals : Section := ⟨start, encodeCounted LocalVariable.encode d.locals⟩
  let blocks : Section := ⟨locals.stop, encodeCounted CodeBlock.encode d.blocks⟩
  let scopeVariables : Section :=
    ⟨blocks.stop, encodeCounted ScopeVariable.encode d.scopeVariables⟩
  let realName : Section := ⟨scopeVariables.stop, d.realName.elim [] encodeText⟩
  let lines : Section := ⟨realName.stop, program⟩
  let trailer : MethodTrailer := {
    compileUnit := d.compileUnit
    localsOffset := UInt32.ofNat locals.offset
    namespaceId := d.namespaceId
    blocksOffset := UInt32.ofNat blocks.offset
    scopeVariablesOffset := UInt32.ofNat scopeVariables.offset
    realNameOffset := if d.realName.isSome then UInt32.ofNat realName.offset else 0
    flags := d.flags.bits }
  pure ⟨d.token, locals, blocks, scopeVariables, realName, lines, ⟨lines.stop, trailer.encode⟩⟩

/-- Lays methods one behind another. -/
def layOut (p : LineParameters) (start : Nat) : List MethodDefinition →
    Except Error (List MethodImage)
  | [] => .ok []
  | d :: ds => do
    let m ← ofDefinition p start d
    let rest ← layOut p m.trailer.stop ds
    pure (m :: rest)

end MethodImage

/-- A whole file, section by section. -/
structure Image where
  guid : Guid
  options : StoreOptions
  typeCount : UInt32
  scopeCount : Nat
  sources : List Section
  units : List Section
  methods : List MethodImage
  methodTable : Section
  sourceTable : Section
  unitTable : Section
  scopeTable : Section
deriving Repr

namespace Image

def dataOffset : Nat := Preamble.size + Header.size

/-- A table that numbers its entries from 1 and says where each begins. -/
def indexTable (entries : List Section) : List UInt8 :=
  (entries.zipIdx 1).flatMap fun (s, i) => littleEndian 4 i ++ littleEndian 4 s.offset

def dataBytes (i : Image) : List UInt8 :=
  i.sources.flatMap Section.bytes ++ i.units.flatMap Section.bytes ++
    i.methods.flatMap MethodImage.bytes

def header (i : Image) : Header where
  totalFileSize := UInt32.ofNat i.scopeTable.stop
  dataSectionOffset := UInt32.ofNat dataOffset
  dataSectionSize := UInt32.ofNat i.dataBytes.length
  compileUnitCount := UInt32.ofNat i.units.length
  compileUnitTableOffset := UInt32.ofNat i.unitTable.offset
  compileUnitTableSize := UInt32.ofNat i.unitTable.bytes.length
  sourceCount := UInt32.ofNat i.sources.length
  sourceTableOffset := UInt32.ofNat i.sourceTable.offset
  sourceTableSize := UInt32.ofNat i.sourceTable.bytes.length
  methodCount := UInt32.ofNat i.methods.length
  methodTableOffset := UInt32.ofNat i.methodTable.offset
  methodTableSize := UInt32.ofNat i.methodTable.bytes.length
  typeCount := i.typeCount
  anonymousScopeCount := UInt32.ofNat i.scopeCount
  anonymousScopeTableOffset := UInt32.ofNat i.scopeTable.offset
  anonymousScopeTableSize := UInt32.ofNat i.scopeTable.bytes.length
  lineBase := i.options.parameters.lineBase
  lineRange := i.options.parameters.lineRange.toUInt32.toInt32
  opcodeBase := i.options.parameters.opcodeBase.toUInt32.toInt32
  fileFlags := i.options.fileFlags.bits

def bytes (i : Image) : List UInt8 :=
  ({ guid := i.guid : Preamble }).encode ++ i.header.encode ++ i.dataBytes ++
    i.methodTable.bytes ++ i.sourceTable.bytes ++ i.unitTable.bytes ++ i.scopeTable.bytes

end Image

namespace Authoring

def image (a : Authoring) (guid : Guid) : Except Error Image := do
  let sourceRuns := a.sources.toList.map SourceFile.encode
  let unitRuns := a.units.toList.map CompileUnit.encode
  let unitsStart := Image.dataOffset + sourceRuns.flatten.length
  let methodsStart := unitsStart + unitRuns.flatten.length
  let methods ← MethodImage.layOut a.options.parameters methodsStart a.sortedMethods
  let sources := Section.layOut Image.dataOffset sourceRuns
  let units := Section.layOut unitsStart unitRuns
  let methodTable : Section :=
    ⟨methodsStart + (methods.flatMap MethodImage.bytes).length, methods.flatMap MethodImage.record⟩
  let sourceTable : Section := ⟨methodTable.stop, Image.indexTable sources⟩
  let unitTable : Section := ⟨sourceTable.stop, Image.indexTable units⟩
  let scopeTable : Section := ⟨unitTable.stop, a.scopes.toList.flatMap AnonymousScope.encode⟩
  pure {
    guid := guid
    options := a.options
    typeCount := a.lastType
    scopeCount := a.scopes.size
    sources := sources
    units := units
    methods := methods
    methodTable := methodTable
    sourceTable := sourceTable
    unitTable := unitTable
    scopeTable := scopeTable }

end Authoring

end DebugSymbols
