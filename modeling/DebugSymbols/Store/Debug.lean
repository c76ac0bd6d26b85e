import DebugSymbols.Store.Lifecycle

namespace DebugSymbols

def describeRecord (type : String) (fields : List (String × String)) : String :=
  let shown := fields.map fun (name, value) => name ++ ": " ++ value
  type ++ " \x7b " ++ ", ".intercalate shown ++ " \x7d"

def LineEntry.debug (e : LineEntry) : String :=
  describeRecord "LineNumberEntry" [
    ("file", toString e.file), ("row", toString e.row), ("column", toString e.column),
    ("end_row", toString e.endRow), ("end_column", toString e.endColumn),
    ("offset", toString e.offset), ("is_hidden", toString e.hidden)]

def LineTable.debug (t : LineTable) : String :=
  let entries := ", ".intercalate (t.entries.map LineEntry.debug)
  describeRecord "LineNumberTable" [("entries", "[" ++ entries ++ "]")]

/-- A method, with its line table if that was read and else the place of the table. -/
def Method.debug (m : Method) : String :=
  let r := m.record
  let lines :=
    match m.lines with
    | some t => "Hydrated(" ++ t.debug ++ ")"
    | none => s!"Unhydrated({r.linesOffset})"
  let fields := ", ".intercalate [
    "token: " ++ r.token.debug, s!"index: {r.index}", s!"compile_unit: {r.compileUnit}",
    s!"namespace_id: {r.namespaceId}", "flags: " ++ r.flags.text, "line_numbers: " ++ lines]
  "Method \x7b " ++ fields ++ ", .. \x7d"

def Store.debug (s : Store) : String :=
  describeRecord "SymbolStore" [
    ("state", "\"" ++ s.stateName ++ "\""), ("sources", toString s.sourceCount),
    ("compile_units", toString s.compileUnitCount), ("methods", toString s.methodCount)]

end DebugSymbols
