import DebugSymbols.LineProgram.Encode
import DebugSymbols.Method.Record
import DebugSymbols.Store.Authoring

/-!
A store is written into a file in one pass.  Room is left for the header; the payloads of sources,
compile units and methods follow, each noting where it begins, and the tables that point at them.
In the end the header is written into its room.
-/
namespace DebugSymbols

structure MethodPlace where
  token : Token
  trailerOffset : UInt32
  linesOffset : UInt32
deriving DecidableEq, Repr

def MethodPlace.write [Sink σ] (m : MethodPlace) : Writing σ Unit := do
  Writing.u32 m.token.value
  Writing.u32 m.trailerOffset
  Writing.u32 m.linesOffset

namespace MethodDefinition

/-- Writes the real name and answers its offset, 0 without a name. -/
def writeRealName [Sink σ] : Option String → Writing σ UInt32
  | none => pure 0
  | some name => do
    let offset ← Writing.position
    Writing.text name
    pure offset

def write [Build] [Sink σ] (p : LineParameters) (d : MethodDefinition) :
    Writing σ MethodPlace := do
  let localsOffset ← Writing.position
  Writing.counted LocalVariable.write d.locals
  let blocksOffset ← Writing.position
  Writing.counted CodeBlock.write d.blocks
  let scopeVariablesOffset ← Writing.position
  Writing.counted ScopeVariable.write d.scopeVariables
  let realNameOffset ← writeRealName d.realName
  let linesOffset ← Writing.position
  Writing.raw (← LineProgram.encode p d.flags.columns d.flags.ends d.lines)
  let trailerOffset ← Writing.position
  MethodTrailer.write {
    compileUnit := d.compileUnit
    localsOffset := localsOffset
    namespaceId := d.namespaceId
    blocksOffset := blocksOffset
    scopeVariablesOffset := scopeVariablesOffset
    realNameOffset := realNameOffset
    flags := d.flags.bits }
  pure ⟨d.token, trailerOffset, linesOffset⟩

end MethodDefinition

namespace Authoring

/-- A record of the tables that say of each number where its entry begins. -/
def writeIndexRecord [Sink σ] (index offset : UInt32) : Writing σ Unit := do
  Writing.u32 index
  Writing.u32 offset

def writeData [Build] [Sink σ] (a : Authoring) :
    Writing σ (List (SourceFile × UInt32) × List (CompileUnit × UInt32) × List MethodPlace) := do
  let sources ← a.sources.toList.mapM (Writing.placed SourceFile.write)
  let units ← a.units.toList.mapM (Writing.placed CompileUnit.write)
  let methods ← a.methods.toList.mapM (MethodDefinition.write a.options.parameters)
  pure (sources, units, methods)

/-- Writes everything but the header, for which room is left, and answers the header. -/
def writeAround [Build] [Sink σ] (a : Authoring) (guid : Guid) : Writing σ Header := do
  Writing.raw ({ guid := guid } : Preamble).encode
  Writing.raw (List.replicate Header.size 0)
  let (data, sources, units, methods) ← Writing.measured a.writeData
  let methodCount ← tableLength methods.length
  let (methodTable, ()) ← Writing.measured (methods.forM MethodPlace.write)
  let sourceCount ← tableLength sources.length
  let (sourceTable, ()) ← Writing.measured
    (sources.forM fun (source, offset) => writeIndexRecord source.index offset)
  let unitCount ← tableLength units.length
  let (unitTable, ()) ← Writing.measured
    (units.forM fun (unit, offset) => writeIndexRecord unit.index offset)
  let scopeCount ← tableLength a.scopes.size
  let (scopeTable, ()) ← Writing.measured (a.scopes.toList.forM AnonymousScope.write)
  let totalFileSize ← Writing.position
  pure {
    totalFileSize := totalFileSize
    dataSectionOffset := data.offset
    dataSectionSize := data.size
    compileUnitCount := unitCount
    compileUnitTableOffset := unitTable.offset
    compileUnitTableSize := unitTable.size
    sourceCount := sourceCount
    sourceTableOffset := sourceTable.offset
    sourceTableSize := sourceTable.size
    methodCount := methodCount
    methodTableOffset := methodTable.offset
    methodTableSize := methodTable.size
    typeCount := a.lastType
    anonymousScopeCount := scopeCount
    anonymousScopeTableOffset := scopeTable.offset
    anonymousScopeTableSize := scopeTable.size
    lineBase := a.options.parameters.lineBase
    lineRange := a.options.parameters.lineRange.toUInt32.toInt32
    opcodeBase := a.options.parameters.opcodeBase.toUInt32.toInt32
    fileFlags := a.options.fileFlags.bits }

/-- Writes the file from the start of the stream on, leaves the stream at its end and answers the
header. -/
def writeFile [Build] [Sink σ] (a : Authoring) (guid : Guid) : Writing σ Header := do
  Sink.seek 0
  let header ← a.writeAround guid
  Sink.seek Preamble.size
  Writing.raw header.encode
  Sink.seekEnd
  pure header

/-- The methods in the order of the file, by ascending token. -/
def sortedMethods (a : Authoring) : List MethodDefinition :=
  a.methods.toList.mergeSort fun d e => d.token.atMost e.token

def sorted (a : Authoring) : Authoring := { a with methods := a.sortedMethods.toArray }

end Authoring

end DebugSymbols
