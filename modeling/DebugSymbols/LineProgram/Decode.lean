import DebugSymbols.LineProgram.Instruction

namespace DebugSymbols.LineProgram

/-- Executes instructions up to the end of the sequence and returns what they record. -/
def run [Build] (p : LineParameters) (r : Registers) : Reader (List LineEntry) := fun data start =>
  match _h : Instruction.read p data start with
  | (.error e, q) => (.error e, q)
  | (.ok i, q) =>
    if i = .endSequence then (.ok [], q)
    else
      match r.step p i with
      | .error e => (.error e, q)
      | .ok r' =>
        match run p r' data q with
        | (.ok entries, q') => (.ok (if i.records then r'.entry :: entries else entries), q')
        | (.error e, q') => (.error e, q')
termination_by data start => data.size - start
decreasing_by
  have := Instruction.read_advances _h
  omega

def readColumn (e : LineEntry) : Reader LineEntry := do
  let column ← Reader.signedVarint
  pure { e with column := column }

/-- An end is the distance in rows and a column, or one number that says there is none. -/
def readEnd (e : LineEntry) : Reader LineEntry := do
  let distance ← Reader.varint
  if distance = LineEntry.absentEnd then pure { e with endRow := -1, endColumn := -1 }
  else
    let column ← Reader.signedVarint
    pure { e with endRow := e.row + distance.toInt32, endColumn := column }

/-- Reads a program and, behind it, the columns and the ends of all its entries. -/
def read [Build] (p : LineParameters) (columns ends : Bool) : Reader LineTable := do
  let entries ← run p {}
  let entries ← if columns then Reader.traverse readColumn entries else pure entries
  let entries ← if ends then Reader.traverse readEnd entries else pure entries
  pure ⟨entries⟩

end DebugSymbols.LineProgram
