import DebugSymbols.SymbolFile

namespace DebugSymbols

/-- A method with those of its parts that have been read. -/
structure Method where
  record : MethodRecord
  locals : Option (List LocalVariable) := none
  blocks : Option (List CodeBlock) := none
  scopeVariables : Option (List ScopeVariable) := none
  lines : Option LineTable := none
  realName : Option (Option String) := none

namespace Method

def ofRecord (record : MethodRecord) : Method :=
  { record := record, realName := record.knownPart? .realName }

def part? (m : Method) : (part : MethodPart) → Option part.Value
  | .locals => m.locals
  | .blocks => m.blocks
  | .scopeVariables => m.scopeVariables
  | .lines => m.lines
  | .realName => m.realName

def setPart (m : Method) : (part : MethodPart) → part.Value → Method
  | .locals, v => { m with locals := some v }
  | .blocks, v => { m with blocks := some v }
  | .scopeVariables, v => { m with scopeVariables := some v }
  | .lines, v => { m with lines := some v }
  | .realName, v => { m with realName := some v }

def lineTableLoaded (m : Method) : Bool := m.lines.isSome

/-- A part that was read before, or else is read now, and the method with it. -/
def getPart [Monad m] (read : MethodRecord → (part : MethodPart) → m part.Value)
    (method : Method) (part : MethodPart) : m (part.Value × Method) :=
  match method.part? part with
  | some v => pure (v, method)
  | none => do
    let v ← read method.record part
    pure (v, method.setPart part v)

end Method

/-- The methods of a file, by index and by token. -/
structure MethodTable where
  ordered : Array Method
  /-- The place of each token in `ordered`. -/
  places : Std.TreeMap UInt32 Nat

namespace MethodTable

def ofRecords (records : List MethodRecord) : MethodTable where
  ordered := (records.map Method.ofRecord).toArray
  places := records.zipIdx.foldl (fun places (m, i) => places.insert m.token.value i) ∅

def at? (t : MethodTable) (index : UInt32) : Option Method :=
  if index = 0 then none else t.ordered[index.toNat - 1]?

def withToken? (t : MethodTable) (token : Token) : Option Method :=
  t.places[token.value]?.bind fun place => t.ordered[place]?

def getPart [Monad m] [MonadExceptOf Error m]
    (read : MethodRecord → (part : MethodPart) → m part.Value) (index : UInt32)
    (part : MethodPart) (t : MethodTable) : m (part.Value × MethodTable) :=
  match t.at? index with
  | none => throw .outOfBounds
  | some method => do
    let (v, method) ← method.getPart read part
    pure (v, { t with ordered := t.ordered.setIfInBounds (index.toNat - 1) method })

end MethodTable

structure Bound where
  file : SymbolFile
  /-- Where the stream stands. -/
  position : Nat := Preamble.size + Header.size
  sources : Std.TreeMap UInt32 SourceFile := ∅
  units : Std.TreeMap UInt32 CompileUnit := ∅
  methods : Option MethodTable := none
  scopes : Option (Std.TreeMap UInt32 AnonymousScope) := none

/-- A look-up that may extend what has been read, also when it fails. -/
abbrev Lookup := ExceptT Error (StateM Bound)

namespace Lookup

def ofExcept (answer : Except Error α) : Lookup α := ExceptT.mk (pure answer)

def read (r : Reader α) : Lookup α := do
  let b ← get
  let (answer, position) := r b.file.data b.position
  set { b with position := position }
  ofExcept answer

def readAt (target : Nat) (r : Reader α) : Lookup α := read (Reader.readAt target r)

end Lookup

namespace Bound

/-- An entry of the file that is read once and then kept. -/
def readOnce (place : SymbolFile → Except Error Nat) (entry : SymbolFile → Reader α)
    (kept : Bound → Option α) (keep : α → Bound → Bound) : Lookup α := do
  let b ← get
  let place ← Lookup.ofExcept (place b.file)
  match kept b with
  | some a => pure a
  | none =>
    let a ← Lookup.readAt place (entry b.file)
    modify (keep a)
    pure a

def sourceFile (index : UInt32) : Lookup SourceFile :=
  readOnce (·.sourcePlace index) (fun _ => SymbolFile.readIndexed index (SourceFile.read index))
    (·.sources[index]?) fun source b => { b with sources := b.sources.insert index source }

def allSources : Lookup (List SourceFile) := do
  let b ← get
  collect sourceFile 1 b.file.header.sourceCount.toNat

def findSource (name : String) : Lookup SourceFile := do
  let b ← get
  findFirst sourceFile (fun s => s.fileName == name) (throw (.notFound (.sourceFile name))) 1
    b.file.header.sourceCount.toNat

def compileUnit (index : UInt32) : Lookup CompileUnit :=
  readOnce (·.unitPlace index) (fun _ => SymbolFile.readIndexed index (CompileUnit.read index))
    (·.units[index]?) fun unit b => { b with units := b.units.insert index unit }

def compileUnits : Lookup (List CompileUnit) := do
  let b ← get
  collect compileUnit 1 b.file.header.compileUnitCount.toNat

def methodRecord (index : UInt32) : Lookup MethodRecord := do
  let b ← get
  let place ← Lookup.ofExcept (b.file.methodPlace index)
  Lookup.readAt place (MethodRecord.read index)

/-- The methods, all of them read on the first call that succeeds. -/
def methodTable : Lookup MethodTable := do
  let b ← get
  match b.methods with
  | some table => pure table
  | none =>
    let records ← collectRecords methodRecord ∅ 1 b.file.header.methodCount.toNat
    let table := MethodTable.ofRecords records
    modify fun b => { b with methods := some table }
    pure table

def allMethods : Lookup (List Method) := do
  let table ← methodTable
  pure table.ordered.toList

def method (index : UInt32) : Lookup Method := do
  if index = 0 then throw .outOfBounds
  let table ← methodTable
  match table.at? index with
  | some m => pure m
  | none => throw .outOfBounds

def methodByToken (token : Token) : Lookup Method := do
  let table ← methodTable
  match table.withToken? token with
  | some m => pure m
  | none => throw (.methodNotFound token)

def readPart [Build] (m : MethodRecord) (part : MethodPart) : Lookup part.Value := do
  let b ← get
  Lookup.readAt (m.partOffset part).toNat (m.readPart b.file.parameters part)

/-- Reads a part of the method with an index, once. -/
def part [Build] (index : UInt32) (part : MethodPart) : Lookup part.Value := do
  let table ← methodTable
  let (v, table) ← table.getPart readPart index part
  modify fun b => { b with methods := some table }
  pure v

def scopeTable : Lookup (Std.TreeMap UInt32 AnonymousScope) :=
  readOnce (fun f => .ok f.header.anonymousScopeTableOffset.toNat)
    (fun f => SymbolFile.readScopes f.header.anonymousScopeCount) (·.scopes)
    fun table b => { b with scopes := some table }

def anonymousScopes : Lookup (List AnonymousScope) := do
  let table ← scopeTable
  pure (table.toList.map Prod.snd)

def anonymousScope (id : UInt32) : Lookup AnonymousScope := do
  let table ← scopeTable
  match table[id]? with
  | some s => pure s
  | none => throw (.notFound (.anonymousScope id))

def textAt (offset : UInt32) : Lookup String := Lookup.read (Reader.textAt offset.toNat)

end Bound

end DebugSymbols
