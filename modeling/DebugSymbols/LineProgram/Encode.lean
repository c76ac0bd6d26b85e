import DebugSymbols.LineProgram.Instruction

namespace DebugSymbols.LineProgram

/-- The instructions that advance the offset ahead of the recording one, and what is left for that
one to advance. -/
def leadOffset [Build] (p : LineParameters) (delta : UInt32) :
    Except Error (List Instruction × UInt32) := do
  if delta < p.maxIncrement then pure ([], delta)
  else
    let twoAdvances ← Build.word .twoAdvances (2 * p.maxIncrement.toNat)
    if delta < twoAdvances then
      let leftOver ← Build.word .leftOver (delta.toNat - p.maxIncrement.toNat)
      pure ([.advanceMax], leftOver)
    else pure ([.advanceOffset delta], 0)

/-- Whether a special opcode can express a row delta.  The end of those that it can, a sum with the
line base, is computed only for a delta not below the line base; it wraps in a release build. -/
def reaches [Build] (p : LineParameters) (rowDelta : Int32) : Except Error Bool := do
  if rowDelta < p.lineBase then pure false
  else
    let limit ← Build.signed .rowLimit (p.lineBase.toInt + p.lineRange.toNat)
    pure (decide (rowDelta < limit))

/-- The special opcode of a row delta that one can express. -/
def specialOpcode [Build] (p : LineParameters) (rowDelta : Int32) (offsetDelta : UInt32) :
    Except Error UInt32 := do
  let rowPlace ← Build.signed .rowPlace (rowDelta.toInt - p.lineBase.toInt)
  let opcode ← Build.word .opcodeOfRow (p.opcodeBase.toNat + rowPlace.toUInt32.toNat)
  let offsetPlace ← Build.word .offsetPlace (p.lineRange.toNat * offsetDelta.toNat)
  Build.word .opcodeOfOffset (opcode.toNat + offsetPlace.toNat)

/-- One special opcode if it can express the row delta, else a spelled out advance. -/
def recording [Build] (p : LineParameters) (rowDelta : Int32) (offsetDelta : UInt32) :
    Except Error (List Instruction) := do
  if ← reaches p rowDelta then
    let opcode ← specialOpcode p rowDelta offsetDelta
    if opcode < 256 then pure [.special opcode.toUInt8]
    else throw (.malformed (.specialOpcodeOverflow opcode))
  else
    let advance := if offsetDelta = 0 then [] else [Instruction.advanceOffset offsetDelta]
    pure (.advanceRow rowDelta :: advance ++ [.copy])

/-- Instructions that take the registers to `e` and record it. -/
def instructions [Build] (p : LineParameters) (r : Registers) (e : LineEntry) :
    Except Error (List Instruction) :=
  let file := if e.file = r.file then [] else [Instruction.setSource e.file]
  let toggle := if e.hidden = r.hidden then [] else [Instruction.toggleHidden]
  if e.offset < r.offset then .error (.malformed (.offsetPrecedes e.offset r.offset))
  else do
    let (lead, rest) ← leadOffset p (e.offset - r.offset)
    let last ← recording p (e.row - r.row) rest
    pure (file ++ toggle ++ lead ++ last)

def registersAt (e : LineEntry) : Registers := ⟨e.file, e.row, e.offset, e.hidden⟩

/-- A whole program, from registers `r` to the end of the sequence. -/
def program [Build] (p : LineParameters) (r : Registers) :
    List LineEntry → Except Error (List Instruction)
  | [] => .ok [.endSequence]
  | e :: es => do
    let first ← instructions p r e
    let rest ← program p (registersAt e) es
    pure (first ++ rest)

def encodeEnd (e : LineEntry) : List UInt8 :=
  if e.hasEnd then Varint.encode e.endDistance ++ Varint.encodeSigned e.endColumn
  else Varint.encode LineEntry.absentEnd

/-- The bytes of a table: the program, then all columns, then all ends. -/
def encode [Build] (p : LineParameters) (columns ends : Bool) (entries : List LineEntry) :
    Except Error (List UInt8) := do
  let is ← program p {} entries
  let columnBytes := if columns then entries.flatMap fun e => Varint.encodeSigned e.column else []
  let endBytes := if ends then entries.flatMap encodeEnd else []
  pure (is.flatMap Instruction.encode ++ columnBytes ++ endBytes)

end DebugSymbols.LineProgram
