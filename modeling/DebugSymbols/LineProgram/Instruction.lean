import DebugSymbols.Build
import DebugSymbols.Bytes.Varint
import DebugSymbols.LineProgram.Parameters
import DebugSymbols.LineProgram.Table

namespace DebugSymbols

inductive Instruction where
  /-- Records a sequence point. -/
  | copy
  | advanceOffset (delta : UInt32)
  | advanceRow (delta : Int32)
  | setFile (file : UInt32)
  /-- Adds the constant advance to the offset. -/
  | advanceMax
  /-- Advances offset and row at once, then records. -/
  | special (opcode : UInt8)
  /-- The extended form of `setFile`. -/
  | setSource (file : UInt32)
  | toggleHidden
  /-- An extended instruction without effect. -/
  | reserved (opcode : UInt8)
  | endSequence
deriving DecidableEq, Repr

structure Registers where
  file : UInt32 := 1
  row : Int32 := 1
  offset : UInt32 := 0
  hidden : Bool := false
deriving DecidableEq, Repr

namespace Registers

def entry (r : Registers) : LineEntry :=
  { file := r.file, row := r.row, offset := r.offset, hidden := r.hidden }

/-- The registers after an instruction.  Row and offset wrap in every build.  The row delta of a
special opcode, a sum with the line base, wraps in a release build only. -/
def step [Build] (p : LineParameters) (r : Registers) : Instruction → Except Error Registers
  | .advanceOffset delta => .ok { r with offset := r.offset + delta }
  | .advanceRow delta => .ok { r with row := r.row + delta }
  | .setFile file | .setSource file => .ok { r with file := file }
  | .advanceMax => .ok { r with offset := r.offset + p.maxIncrement }
  | .toggleHidden => .ok { r with hidden := !r.hidden }
  | .special opcode => do
    let place ← Build.byte .opcodePlace (opcode.toNat - p.opcodeBase.toNat)
    let rowDelta ← Build.signed .rowAdvance (p.lineBase.toInt + (place % p.lineRange).toNat)
    pure { r with
      offset := r.offset + (place / p.lineRange).toUInt32
      row := r.row + rowDelta }
  | .copy | .reserved _ | .endSequence => .ok r

end Registers

namespace Instruction

def records : Instruction → Bool
  | copy | special _ => true
  | _ => false

/-- An extended instruction: a zero byte, the length of what follows, and the opcode with its
operands. -/
def extended (opcode : UInt8) (operands : List UInt8) : List UInt8 :=
  0 :: UInt8.ofNat (operands.length + 1) :: opcode :: operands

def encode : Instruction → List UInt8
  | copy => [1]
  | advanceOffset delta => 2 :: Varint.encode delta
  | advanceRow delta => 3 :: Varint.encodeSigned delta
  | setFile file => 4 :: Varint.encode file
  | advanceMax => [8]
  | special opcode => [opcode]
  | setSource file => extended 0x04 (Varint.encode file)
  | toggleHidden => extended 0x40 []
  | reserved opcode => extended opcode []
  | endSequence => extended 0x01 []

/-- Reads the operands of an extended instruction and goes on at `next`, where its declared length
and not its operands put the end; the end of the sequence leaves that unread. -/
def readOperands (next : Nat) (opcode : UInt8) : Reader Instruction :=
  if opcode = 0x01 then pure endSequence
  else if opcode = 0x04 then do
    let file ← Reader.varint
    Reader.seek next
    pure (setSource file)
  else if opcode = 0x40 then do
    Reader.seek next
    pure toggleHidden
  else if 0x41 ≤ opcode ∧ opcode ≤ 0x7F then do
    Reader.seek next
    pure (reserved opcode)
  else Reader.fail (.malformed (.unknownExtendedOpcode opcode))

def readExtended : Reader Instruction := do
  let length ← Reader.u8
  let start ← Reader.position
  let opcode ← Reader.u8
  readOperands (start + length.toNat) opcode

def readStandard (opcode : UInt8) : Reader Instruction :=
  if opcode = 1 then pure copy
  else if opcode = 2 then advanceOffset <$> Reader.varint
  else if opcode = 3 then advanceRow <$> Reader.signedVarint
  else if opcode = 4 then setFile <$> Reader.varint
  else if opcode = 8 then pure advanceMax
  else Reader.fail (.malformed (.unknownStandardOpcode opcode))

def read (p : LineParameters) : Reader Instruction := do
  let opcode ← Reader.u8
  if opcode = 0 then readExtended
  else if opcode < p.opcodeBase then readStandard opcode
  else pure (special opcode)

theorem readOperands_end {next : Nat} {opcode : UInt8} {data : Bytes} {start q : Nat}
    {i : Instruction} (h : readOperands next opcode data start = (.ok i, q)) :
    q = start ∨ q = next := by
  have jump {i j : Instruction} {m : Nat}
      (h : (do Reader.seek next; pure i : Reader Instruction) data m = (.ok j, q)) : q = next := by
    obtain ⟨_, k, hk, h⟩ := Reader.bind_eq_ok.1 h
    simp only [Reader.seek, Prod.mk.injEq, Reader.pure_apply] at hk h
    omega
  unfold readOperands at h
  split at h
  · simp only [Reader.pure_apply, Prod.mk.injEq] at h
    omega
  split at h
  · obtain ⟨file, k, -, h⟩ := Reader.bind_eq_ok.1 h
    exact .inr (jump h)
  split at h
  · exact .inr (jump h)
  split at h
  · exact .inr (jump h)
  · exact absurd h Reader.fail_ne_ok

theorem readExtended_end {data : Bytes} {start q : Nat} {i : Instruction}
    (h : readExtended data start = (.ok i, q)) : start < q := by
  obtain ⟨length, m, hl, h⟩ := Reader.bind_eq_ok.1 h
  obtain ⟨-, rfl⟩ := Reader.u8_end hl
  obtain ⟨s, m, hs, h⟩ := Reader.bind_eq_ok.1 h
  simp only [Reader.position, Prod.mk.injEq, Except.ok.injEq] at hs
  obtain ⟨rfl, rfl⟩ := hs
  obtain ⟨opcode, m, ho, h⟩ := Reader.bind_eq_ok.1 h
  obtain ⟨-, rfl⟩ := Reader.u8_end ho
  rcases readOperands_end h with h | h <;> omega

theorem readStandard_end {opcode : UInt8} {data : Bytes} {start q : Nat} {i : Instruction}
    (h : readStandard opcode data start = (.ok i, q)) : start ≤ q := by
  unfold readStandard at h
  split at h
  · simp only [Reader.pure_apply, Prod.mk.injEq] at h
    omega
  split at h
  · obtain ⟨v, h, -⟩ := Reader.map_eq_ok.1 h
    exact Nat.le_of_lt (Reader.varint_advances h)
  split at h
  · obtain ⟨v, h, -⟩ := Reader.map_eq_ok.1 h
    exact Nat.le_of_lt (Reader.signedVarint_advances h)
  split at h
  · obtain ⟨v, h, -⟩ := Reader.map_eq_ok.1 h
    exact Nat.le_of_lt (Reader.varint_advances h)
  split at h
  · simp only [Reader.pure_apply, Prod.mk.injEq] at h
    omega
  · exact absurd h Reader.fail_ne_ok

/-- An instruction begins inside the stream, and the next one begins after it, whatever length an
extended instruction declares. -/
theorem read_advances {p : LineParameters} {data : Bytes} {start q : Nat} {i : Instruction}
    (h : read p data start = (.ok i, q)) : start < data.size ∧ start < q := by
  obtain ⟨opcode, m, ho, h⟩ := Reader.bind_eq_ok.1 h
  obtain ⟨hsize, rfl⟩ := Reader.u8_end ho
  refine ⟨hsize, ?_⟩
  split at h
  · have := readExtended_end h
    omega
  split at h
  · have := readStandard_end h
    omega
  · simp only [Reader.pure_apply, Prod.mk.injEq] at h
    omega

end Instruction

end DebugSymbols
