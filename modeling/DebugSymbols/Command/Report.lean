import DebugSymbols.Command.Arguments
import DebugSymbols.SymbolFile
import DebugSymbols.Text.Columns
import DebugSymbols.Text.JsonValue
import DebugSymbols.Text.LowerCase
import DebugSymbols.Text.Numeral

namespace DebugSymbols

/-- Why a command failed, from the outermost reason to the innermost. -/
structure Failure where
  message : String
  causes : List String := []
  /-- The program did not report the failure but stopped at it. -/
  stopped : Bool := false
deriving DecidableEq, Repr

namespace Failure

def ofError (e : Error) : Failure where
  message := e.message
  stopped := e matches .overflow _

def code (f : Failure) : UInt32 := if f.stopped then 101 else 1

/-- A file that cannot be opened.  A missing file is reported by two layers. -/
def ofOpening (path : String) (e : Error) : Failure :=
  let layers := if e = .file .missing then [e.message, e.message] else [e.message]
  { message := "failed to open symbol file: " ++ path, causes := layers }

def aheadOfPoints (offset : UInt32) (token : Token) : Failure :=
  let shown := "0x" ++ Hexadecimal.digits offset.toNat
  { message := s!"offset {shown} lies before the first sequence point of method {token}" }

/-- Several causes are numbered. -/
def text (f : Failure) : String :=
  let causes :=
    match f.causes with
    | [] => []
    | [cause] => ["", "Caused by:", "    " ++ cause]
    | causes => "" :: "Caused by:" :: causes.zipIdx.map fun (cause, i) => s!"    {i}: {cause}"
  let title := if f.stopped then "thread main panicked: " else "Error: "
  "\n".intercalate ((title ++ f.message) :: causes)

end Failure

structure Report where
  document : JsonValue
  text : List String

namespace Report

def run (answer : Except Error α) : Except Failure α := answer.mapError Failure.ofError

def number (typed : String) : Except Failure UInt32 :=
  match Numeral.parse typed with
  | (_, .ok n) => .ok n
  | (.decimal, .error fault) =>
    .error { message := "invalid number: " ++ typed, causes := [fault.message] }
  | (.hexadecimal, .error fault) =>
    .error { message := "invalid hex number: " ++ typed, causes := [fault.message] }

/-- A negative position is unknown. -/
def position (v : Int32) : String := if v < 0 then "-" else toString v.toInt

def yesNo (b : Bool) (yes : String) : String := if b then yes else ""

def codeOffset (offset : UInt32) : String := "IL_" ++ Hexadecimal.padded 4 offset.toNat

def version (f : SymbolFile) : String := s!"{f.preamble.major}.{f.preamble.minor}"

def infoDocument (f : SymbolFile) : JsonValue :=
  let h := f.header
  let p := f.parameters
  .object [
    ("guid", .string f.preamble.guid.text),
    ("version", .string (version f)),
    ("file_size", .nat h.totalFileSize.toNat),
    ("sources", .nat h.sourceCount.toNat),
    ("compile_units", .nat h.compileUnitCount.toNat),
    ("methods", .nat h.methodCount.toNat),
    ("types", .nat h.typeCount.toNat),
    ("anonymous_scopes", .nat h.anonymousScopeCount.toNat),
    ("line_base", .number p.lineBase.toInt),
    ("line_range", .nat p.lineRange.toNat),
    ("opcode_base", .nat p.opcodeBase.toNat),
    ("flags", .string h.flags.text)]

def info (f : SymbolFile) : Report :=
  let h := f.header
  let p := f.parameters
  { document := infoDocument f
    text := [
      s!"GUID:             {f.preamble.guid}",
      s!"Version:          {version f}",
      s!"File size:        {h.totalFileSize}",
      s!"Sources:          {h.sourceCount}",
      s!"Compile units:    {h.compileUnitCount}",
      s!"Methods:          {h.methodCount}",
      s!"Types:            {h.typeCount}",
      s!"Anonymous scopes: {h.anonymousScopeCount}",
      s!"Line program:     base {p.lineBase}, range {p.lineRange}, opcode base {p.opcodeBase}",
      s!"Flags:            {h.flags.text}"] }

def checksum (bytes : List UInt8) : String :=
  if bytes.isEmpty then "-" else Hexadecimal.bytes bytes

def sourceDocument (s : SourceFile) : JsonValue := .object [
  ("index", .nat s.index.toNat),
  ("file_name", .string s.fileName),
  ("checksum", .string (checksum s.checksum)),
  ("auto_generated", .bool s.autoGenerated)]

def sourceRow (s : SourceFile) : List String :=
  [toString s.index, s.fileName, checksum s.checksum, yesNo s.autoGenerated "yes"]

def sources (f : SymbolFile) : Except Failure Report := do
  let sources ← run f.sources
  let columns := [⟨"#", .right⟩, ⟨"File", .left⟩, ⟨"MD5", .left⟩, ⟨"Generated", .left⟩]
  pure ⟨.array (sources.map sourceDocument), Columns.render columns "" (sources.map sourceRow)⟩

/-- A method with the names that its numbers stand for. -/
structure MethodEntry where
  index : UInt32
  token : Token
  source : String
  namespaceName : Option String
  realName : Option String
  pointCount : Nat
  flags : MethodFlags
deriving DecidableEq, Repr

namespace MethodEntry

def document (m : MethodEntry) : JsonValue := .object [
  ("index", .nat m.index.toNat),
  ("token", .string m.token.text),
  ("source", .string m.source),
  ("namespace", .ofOption m.namespaceName),
  ("real_name", .ofOption m.realName),
  ("sequence_points", .nat m.pointCount),
  ("flags", .string m.flags.text)]

def row (m : MethodEntry) : List String :=
  [toString m.index, m.token.text, m.source, m.namespaceName.getD "", m.realName.getD "",
    toString m.pointCount]

end MethodEntry

def occursIn (wanted : List Char) : List Char → Bool
  | [] => wanted.isEmpty
  | c :: rest => wanted.isPrefixOf (c :: rest) || occursIn wanted rest

/-- Whether a name contains a text, both taken in lower case. -/
def nameContains (name text : String) : Bool :=
  occursIn (LowerCase.ofText text.toList) (LowerCase.ofText name.toList)

/-- The entry of a method; none if its compile unit is unknown or its source is not wanted. -/
def describedMethod? [Build] (f : SymbolFile) (units : List (CompileUnit × String))
    (filter : Option String) (m : MethodRecord) : Except Error (Option MethodEntry) :=
  match units.find? fun (u, _) => u.index == m.compileUnit with
  | none => .ok none
  | some (u, source) =>
    if filter.all (nameContains source) then do
      let realName ← f.part m .realName
      let table ← f.part m .lines
      pure (some {
        index := m.index
        token := m.token
        source := source
        namespaceName := (u.findNamespace? m.namespaceId).map (·.name)
        realName := realName
        pointCount := table.entries.length
        flags := m.flags })
    else .ok none

def methodEntries [Build] (f : SymbolFile) (filter : Option String) :
    Except Error (List MethodEntry) := do
  let units ← f.compileUnits
  let units ← units.mapM fun u => do
    let source ← f.sourceFile u.source
    pure (u, source.fileName)
  let methods ← f.methods
  let entries ← methods.mapM (describedMethod? f units filter)
  pure (entries.filterMap id)

def methodsDocument (entries : List MethodEntry) : JsonValue := .object [
  ("methods", .array (entries.map MethodEntry.document)),
  ("count", .nat entries.length)]

def methods [Build] (f : SymbolFile) (filter : Option String) : Except Failure Report := do
  let entries ← run (methodEntries f filter)
  let columns := [⟨"#", .right⟩, ⟨"Token", .left⟩, ⟨"Source", .left⟩, ⟨"Namespace", .left⟩,
    ⟨"Name", .left⟩, ⟨"Points", .right⟩]
  pure {
    document := methodsDocument entries
    text := Columns.render columns "" (entries.map MethodEntry.row) ++
      ["", s!"{entries.length} methods"] }

/-- A sequence point with the name of its file. -/
structure Position where
  offset : UInt32
  file : String
  row : Int32
  column : Int32
  endRow : Int32
  endColumn : Int32
  hidden : Bool
deriving DecidableEq, Repr

abbrev FileNames := Std.TreeMap UInt32 String

/-- The name of a source, which is read from the file once only. -/
def fileName (f : SymbolFile) (index : UInt32) : StateT FileNames (Except Error) String := do
  match (← get)[index]? with
  | some name => pure name
  | none =>
    let source ← f.sourceFile index
    modify fun names => names.insert index source.fileName
    pure source.fileName

namespace Position

def ofEntry (e : LineEntry) (file : String) : Position :=
  ⟨e.offset, file, e.row, e.column, e.endRow, e.endColumn, e.hidden⟩

def resolve (f : SymbolFile) (e : LineEntry) : StateT FileNames (Except Error) Position := do
  let file ← fileName f e.file
  pure (ofEntry e file)

def members (p : Position) : List (String × JsonValue) := [
  ("offset", .nat p.offset.toNat),
  ("file", .string p.file),
  ("row", .number p.row.toInt),
  ("column", .number p.column.toInt),
  ("end_row", .number p.endRow.toInt),
  ("end_column", .number p.endColumn.toInt),
  ("hidden", .bool p.hidden)]

def tableRow (p : Position) : List String :=
  [codeOffset p.offset, p.file, toString p.row.toInt, position p.column,
    position p.endRow ++ ":" ++ position p.endColumn, yesNo p.hidden "hidden"]

end Position

def typedMethod (f : SymbolFile) (token : String) : Except Failure MethodRecord := do
  let token ← number token
  run (f.methodByToken ⟨token⟩)

def linePositions [Build] (f : SymbolFile) (token : String) :
    Except Failure (Token × List Position) := do
  let m ← typedMethod f token
  let table ← run (f.part m .lines)
  let positions ← run ((table.entries.mapM (Position.resolve f)).run' ∅)
  pure (m.token, positions)

def linesDocument (token : Token) (positions : List Position) : JsonValue := .object [
  ("token", .string token.text),
  ("entries", .array (positions.map fun p => .object p.members))]

def lines [Build] (f : SymbolFile) (token : String) : Except Failure Report := do
  let (token, positions) ← linePositions f token
  let columns := [⟨"Offset", .right⟩, ⟨"File", .left⟩, ⟨"Line", .right⟩, ⟨"Col", .right⟩,
    ⟨"End", .left⟩, ⟨"", .left⟩]
  pure {
    document := linesDocument token positions
    text := s!"Method {token}:" :: Columns.render columns "  " (positions.map Position.tableRow) }

def lookupPosition [Build] (f : SymbolFile) (token offset : String) :
    Except Failure (Token × UInt32 × Position) := do
  let m ← typedMethod f token
  let offset ← number offset
  let table ← run (f.part m .lines)
  match table.find? offset with
  | some e =>
    let p ← run ((Position.resolve f e).run' ∅)
    pure (m.token, offset, p)
  | none => .error (.aheadOfPoints offset m.token)

/-- The members of the position stand beside those of the query. -/
def lookupDocument (token : Token) (offset : UInt32) (p : Position) : JsonValue :=
  .object ([("token", .string token.text), ("offset", .nat offset.toNat)] ++ p.members)

def lookup [Build] (f : SymbolFile) (token offset : String) : Except Failure Report := do
  let (token, offset, p) ← lookupPosition f token offset
  let column := if p.column < 0 then "" else ":" ++ toString p.column.toInt
  pure {
    document := lookupDocument token offset p
    text := [token.text ++ "+" ++ codeOffset offset ++ " -> " ++ p.file ++ ":" ++
      position p.row ++ column ++ yesNo p.hidden " (hidden)"] }

structure CaptureEntry where
  kind : String
  name : String
  field : String
deriving DecidableEq, Repr

def captures (s : AnonymousScope) : List CaptureEntry :=
  s.captured.map (fun v => ⟨v.kind.text, v.name, v.capturedName⟩) ++
    s.scopes.map fun c => ⟨"Scope", toString c.scope, c.capturedName⟩

def CaptureEntry.document (c : CaptureEntry) : JsonValue := .object [
  ("kind", .string c.kind),
  ("name", .string c.name),
  ("field", .string c.field)]

def scopeDocument (s : AnonymousScope) : JsonValue := .object [
  ("id", .nat s.id.toNat),
  ("captures", .array ((captures s).map CaptureEntry.document))]

def scopeLines (s : AnonymousScope) : List String :=
  let columns := [⟨"Kind", .left⟩, ⟨"Name", .left⟩, ⟨"Field", .left⟩]
  s!"Scope {s.id} ({(captures s).length} captures):" ::
    Columns.render columns "  " ((captures s).map fun c => [c.kind, c.name, c.field])

def scopes (f : SymbolFile) : Except Failure Report := do
  let scopes ← run f.anonymousScopes
  pure ⟨.array (scopes.map scopeDocument), scopes.flatMap scopeLines⟩

def ofCommand [Build] (f : SymbolFile) : Command → Except Failure Report
  | .info => .ok (info f)
  | .sources => sources f
  | .methods source => methods f source
  | .lines token => lines f token
  | .lookup token offset => lookup f token offset
  | .scopes => scopes f

end Report

end DebugSymbols
