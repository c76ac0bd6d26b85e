import DebugSymbols.AnonymousScope
import DebugSymbols.CompileUnit
import DebugSymbols.Method.Record
import DebugSymbols.SourceFile
import Std.Data.TreeMap
import Std.Data.TreeSet

namespace DebugSymbols

/-- The answers for the indices `start`, `start + 1`, …, `count` of them, up to the first error. -/
def collect [Monad m] (f : UInt32 → m α) : Nat → Nat → m (List α)
  | _, 0 => pure []
  | start, count + 1 => do
    let a ← f (UInt32.ofNat start)
    let rest ← collect f (start + 1) count
    pure (a :: rest)

/-- The first answer of a kind for the indices `start`, `start + 1`, …, `count` of them. -/
def findFirst [Monad m] (f : UInt32 → m α) (wanted : α → Bool) (missing : m α) : Nat → Nat → m α
  | _, 0 => missing
  | start, count + 1 => do
    let a ← f (UInt32.ofNat start)
    if wanted a then pure a else findFirst f wanted missing (start + 1) count

/-- Records on from index `start`, `count` of them, as long as their tokens are new. -/
def collectRecords [Monad m] [MonadExceptOf Error m] (record : UInt32 → m MethodRecord) :
    Std.TreeSet UInt32 → Nat → Nat → m (List MethodRecord)
  | _, _, 0 => pure []
  | seen, start, count + 1 => do
    let r ← record (UInt32.ofNat start)
    if seen.contains r.token.value then throw (.malformed (.repeatedToken r.token))
    else
      let rest ← collectRecords record (seen.insert r.token.value) (start + 1) count
      pure (r :: rest)

structure SymbolFile where
  data : Bytes
  preamble : Preamble
  header : Header
  parameters : LineParameters
deriving DecidableEq

namespace SymbolFile

def open? (data : Bytes) : Except Error SymbolFile := do
  let preamble ← Preamble.decode (← (Reader.bytes Preamble.size).eval data 0)
  let header ← Header.decode (← (Reader.bytes Header.size).eval data Preamble.size)
  let parameters ← header.parameters
  if data.size < header.totalFileSize.toNat then
    .error (.malformed (.sizeBeyondStream header.totalFileSize data.size))
  else pure ⟨data, preamble, header, parameters⟩

/-- Opens a file that has to belong to the module `expected`. -/
def openFor? (data : Bytes) (expected : Guid) : Except Error SymbolFile := do
  let f ← open? data
  if f.preamble.guid = expected then pure f
  else .error (.guidMismatch expected f.preamble.guid)

def readIndexed (index : UInt32) (entry : Reader α) : Reader α := do
  let found ← Reader.u32
  if found ≠ index then Reader.fail (.malformed (.recordIndex index found))
  else
    let dataOffset ← Reader.u32
    Reader.seek dataOffset.toNat
    entry

def sourcePlace (f : SymbolFile) (index : UInt32) : Except Error Nat :=
  Header.recordOffset f.header.sourceTableOffset f.header.sourceCount Header.indexRecordSize index

def sourceFile (f : SymbolFile) (index : UInt32) : Except Error SourceFile := do
  let place ← f.sourcePlace index
  (readIndexed index (SourceFile.read index)).eval f.data place

def sources (f : SymbolFile) : Except Error (List SourceFile) :=
  collect f.sourceFile 1 f.header.sourceCount.toNat

def findSource (f : SymbolFile) (name : String) : Except Error SourceFile :=
  findFirst f.sourceFile (fun s => s.fileName == name) (.error (.notFound (.sourceFile name))) 1
    f.header.sourceCount.toNat

def unitPlace (f : SymbolFile) (index : UInt32) : Except Error Nat :=
  Header.recordOffset f.header.compileUnitTableOffset f.header.compileUnitCount
    Header.indexRecordSize index

def compileUnit (f : SymbolFile) (index : UInt32) : Except Error CompileUnit := do
  let place ← f.unitPlace index
  (readIndexed index (CompileUnit.read index)).eval f.data place

def compileUnits (f : SymbolFile) : Except Error (List CompileUnit) :=
  collect f.compileUnit 1 f.header.compileUnitCount.toNat

def methodPlace (f : SymbolFile) (index : UInt32) : Except Error Nat :=
  Header.recordOffset f.header.methodTableOffset f.header.methodCount Header.methodRecordSize index

def methodRecord (f : SymbolFile) (index : UInt32) : Except Error MethodRecord := do
  let place ← f.methodPlace index
  (MethodRecord.read index).eval f.data place

/-- The method table is read as a whole, so that one damaged record spoils every look-up in it. -/
def methods (f : SymbolFile) : Except Error (List MethodRecord) :=
  collectRecords f.methodRecord ∅ 1 f.header.methodCount.toNat

def method (f : SymbolFile) (index : UInt32) : Except Error MethodRecord := do
  if index = 0 then throw .outOfBounds
  let ms ← f.methods
  match ms[index.toNat - 1]? with
  | some m => pure m
  | none => throw .outOfBounds

def methodByToken (f : SymbolFile) (token : Token) : Except Error MethodRecord := do
  let ms ← f.methods
  match ms.find? fun m => m.token == token with
  | some m => pure m
  | none => .error (.methodNotFound token)

def part [Build] (f : SymbolFile) (m : MethodRecord) (part : MethodPart) :
    Except Error part.Value :=
  match m.knownPart? part with
  | some v => .ok v
  | none => (m.readPart f.parameters part).eval f.data (m.partOffset part).toNat

/-- Reads the anonymous scopes by id; of two scopes with one id the later one stays. -/
def readScopes (count : UInt32) : Reader (Std.TreeMap UInt32 AnonymousScope) := do
  let scopes ← Reader.replicate count.toNat AnonymousScope.read
  pure (scopes.foldl (fun table s => table.insert s.id s) ∅)

def scopeTable (f : SymbolFile) : Except Error (Std.TreeMap UInt32 AnonymousScope) :=
  (readScopes f.header.anonymousScopeCount).eval f.data f.header.anonymousScopeTableOffset.toNat

def anonymousScopes (f : SymbolFile) : Except Error (List AnonymousScope) :=
  (fun table => table.toList.map Prod.snd) <$> f.scopeTable

def anonymousScope (f : SymbolFile) (id : UInt32) : Except Error AnonymousScope := do
  let table ← f.scopeTable
  match table[id]? with
  | some s => pure s
  | none => .error (.notFound (.anonymousScope id))

def textAt (f : SymbolFile) (offset : UInt32) : Except Error String :=
  (Reader.textAt offset.toNat).eval f.data 0

end SymbolFile

end DebugSymbols
