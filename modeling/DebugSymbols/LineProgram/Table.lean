namespace DebugSymbols

/-- A sequence point: the source position at which the code from `offset` on begins.  A column or an
end of -1 is absent. -/
structure LineEntry where
  file : UInt32
  row : Int32
  column : Int32 := -1
  endRow : Int32 := -1
  endColumn : Int32 := -1
  offset : UInt32
  hidden : Bool := false
deriving DecidableEq, Repr

namespace LineEntry

def null : LineEntry := ⟨0, 0, 0, 0, 0, 0, false⟩

def isNull (e : LineEntry) : Bool := e == null

def hasColumn (e : LineEntry) : Bool := e.column != -1

def hasEnd (e : LineEntry) : Bool := e.endRow != -1 || e.endColumn != -1

/-- The number of rows from start to end, modulo `2 ^ 32`. -/
def endDistance (e : LineEntry) : UInt32 := (e.endRow - e.row).toUInt32

/-- The distance that marks an absent end in a line program. -/
def absentEnd : UInt32 := 0xFFFFFF

end LineEntry

/-- The sequence points of a method, by ascending offset unless the file is damaged. -/
structure LineTable where
  entries : List LineEntry
deriving DecidableEq, Repr

namespace LineTable

def visible (t : LineTable) : List LineEntry := t.entries.filter fun e => !e.hidden

/-- The entry in force at an offset: the last visible one before the first entry beyond it. -/
def find? (t : LineTable) (offset : UInt32) : Option LineEntry :=
  ((t.entries.takeWhile fun e => e.offset ≤ offset).filter fun e => !e.hidden).getLast?

/-- The first visible entry of least row. -/
def topmost? (t : LineTable) : Option LineEntry :=
  t.visible.foldl (fun best e =>
    match best with
    | none => some e
    | some b => if e.row < b.row then some e else some b) none

/-- The last visible entry of greatest row. -/
def bottommost? (t : LineTable) : Option LineEntry :=
  t.visible.foldl (fun best e =>
    match best with
    | none => some e
    | some b => if e.row < b.row then some b else some e) none

/-- The visible entries between whose rows the method lies. -/
def bounds? (t : LineTable) : Option (LineEntry × LineEntry) := do
  let first ← t.topmost?
  let last ← t.bottommost?
  pure (first, last)

end LineTable

end DebugSymbols
