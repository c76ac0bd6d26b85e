import DebugSymbols.Error

namespace DebugSymbols

theorem toInt_toInt32 (v : UInt32) : v.toInt32.toInt = (v.toNat : Int).bmod 0x100000000 :=
  BitVec.toInt_eq_toNat_bmod v.toBitVec

theorem toInt_byte (v : UInt8) : v.toUInt32.toInt32.toInt = v.toNat := by
  have := v.toNat_lt
  rw [toInt_toInt32, UInt8.toNat_toUInt32, Int.bmod_eq_of_le (by omega) (by omega)]

/-- The parameters of the one-byte instructions of a line program: a special opcode advances the row
by `lineBase` plus a remainder below `lineRange`, and special opcodes begin at `opcodeBase`, behind
the standard opcodes and with room for an offset. -/
structure LineParameters where
  lineBase : Int32
  lineRange : UInt8
  opcodeBase : UInt8
  lineRange_ne_zero : lineRange ≠ 0 := by decide
  nine_le_opcodeBase : 9 ≤ opcodeBase := by decide
  room : opcodeBase.toNat + lineRange.toNat ≤ 255 := by decide
deriving DecidableEq, Repr

namespace LineParameters

def default : LineParameters := { lineBase := -1, lineRange := 8, opcodeBase := 9 }

instance : Inhabited LineParameters := ⟨default⟩

def make (lineBase : Int32) (lineRange opcodeBase : UInt8) : Except ParameterFault LineParameters :=
  if hr : lineRange = 0 then .error .rangeZero
  else if hb : opcodeBase < 9 then .error (.overlapsStandard opcodeBase)
  else if hs : 255 < opcodeBase.toNat + lineRange.toNat then
    .error (.noSpecialOpcodes opcodeBase lineRange)
  else .ok ⟨lineBase, lineRange, opcodeBase, hr, UInt8.not_lt.1 hb, Nat.not_lt.1 hs⟩

def byte? (v : Int32) : Option UInt8 :=
  if 0 ≤ v.toInt ∧ v.toInt < 256 then some (UInt8.ofNat v.toInt.toNat) else none

def ofHeader (lineBase lineRange opcodeBase : Int32) : Except Error LineParameters :=
  match byte? lineRange, byte? opcodeBase with
  | some range, some base =>
    match make lineBase range base with
    | .ok parameters => .ok parameters
    | .error fault => .error (.malformed (.parametersRejected fault))
  | _, _ => .error (.malformed (.parametersNotBytes lineRange opcodeBase))

/-- The offset that the constant advance adds; special opcodes carry offsets below it. -/
def maxIncrement (p : LineParameters) : UInt32 :=
  (255 - p.opcodeBase.toUInt32) / p.lineRange.toUInt32

theorem toNat_maxIncrement (p : LineParameters) :
    p.maxIncrement.toNat = (255 - p.opcodeBase.toNat) / p.lineRange.toNat := by
  have := p.room
  have hsub : (255 - p.opcodeBase.toUInt32).toNat = 255 - p.opcodeBase.toNat := by
    rw [UInt32.toNat_sub_of_le]
    · simp
    · rw [UInt32.le_iff_toNat_le]
      simp
      omega
  simp [maxIncrement, UInt32.toNat_div, hsub]

theorem maxIncrement_pos (p : LineParameters) : 0 < p.maxIncrement := by
  have h0 : 0 < p.lineRange.toNat :=
    Nat.pos_of_ne_zero fun h => p.lineRange_ne_zero (UInt8.toNat_inj.1 h)
  have := p.room
  rw [UInt32.lt_iff_toNat_lt, toNat_maxIncrement]
  exact Nat.div_pos (by omega) h0

end LineParameters

end DebugSymbols
