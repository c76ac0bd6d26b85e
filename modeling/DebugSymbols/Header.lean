import DebugSymbols.Bytes.LittleEndian
import DebugSymbols.Flags
import DebugSymbols.LineProgram.Parameters

namespace DebugSymbols

def fieldAt (data : List UInt8) (offset width : Nat) : Nat :=
  ofLittleEndian ((data.drop offset).take width)

def wordAt (data : List UInt8) (offset : Nat) : UInt32 := UInt32.ofNat (fieldAt data offset 4)

structure Preamble where
  major : Int32 := 50
  minor : Int32 := 0
  guid : Guid
deriving DecidableEq, Repr

namespace Preamble

def magic : UInt64 := 0x45e82623fd7fa614

def size : Nat := 32

def encode (p : Preamble) : List UInt8 :=
  littleEndian 8 magic.toNat ++ littleEndian 4 p.major.toUInt32.toNat ++
    littleEndian 4 p.minor.toUInt32.toNat ++ p.guid.bytes

def decode (data : List UInt8) : Except Error Preamble :=
  match Guid.ofBytes? ((data.drop 16).take 16) with
  | none => .error .outOfBounds
  | some guid =>
    let found := UInt64.ofNat (fieldAt data 0 8)
    let major := (wordAt data 8).toInt32
    let minor := (wordAt data 12).toInt32
    if found ≠ magic then .error (.malformed (.wrongMagic found))
    else if major ≠ 50 ∨ minor ≠ 0 then .error (.unsupportedVersion major minor)
    else .ok ⟨major, minor, guid⟩

end Preamble

/-- Where the sections of a file lie, how many entries they hold, and the settings of the store. -/
structure Header where
  totalFileSize : UInt32 := 0
  dataSectionOffset : UInt32 := 0
  dataSectionSize : UInt32 := 0
  compileUnitCount : UInt32 := 0
  compileUnitTableOffset : UInt32 := 0
  compileUnitTableSize : UInt32 := 0
  sourceCount : UInt32 := 0
  sourceTableOffset : UInt32 := 0
  sourceTableSize : UInt32 := 0
  methodCount : UInt32 := 0
  methodTableOffset : UInt32 := 0
  methodTableSize : UInt32 := 0
  typeCount : UInt32 := 0
  anonymousScopeCount : UInt32 := 0
  anonymousScopeTableOffset : UInt32 := 0
  anonymousScopeTableSize : UInt32 := 0
  lineBase : Int32 := 0
  lineRange : Int32 := 0
  opcodeBase : Int32 := 0
  fileFlags : UInt32 := 0
deriving DecidableEq, Repr

namespace Header

def size : Nat := 80

/-- The fields in file order. -/
def words (h : Header) : List UInt32 :=
  [h.totalFileSize, h.dataSectionOffset, h.dataSectionSize,
    h.compileUnitCount, h.compileUnitTableOffset, h.compileUnitTableSize,
    h.sourceCount, h.sourceTableOffset, h.sourceTableSize,
    h.methodCount, h.methodTableOffset, h.methodTableSize, h.typeCount,
    h.anonymousScopeCount, h.anonymousScopeTableOffset, h.anonymousScopeTableSize,
    h.lineBase.toUInt32, h.lineRange.toUInt32, h.opcodeBase.toUInt32, h.fileFlags]

def encode (h : Header) : List UInt8 := h.words.flatMap fun w => littleEndian 4 w.toNat

def decode (data : List UInt8) : Except Error Header :=
  if data.length < size then .error .outOfBounds
  else .ok {
    totalFileSize := wordAt data 0
    dataSectionOffset := wordAt data 4
    dataSectionSize := wordAt data 8
    compileUnitCount := wordAt data 12
    compileUnitTableOffset := wordAt data 16
    compileUnitTableSize := wordAt data 20
    sourceCount := wordAt data 24
    sourceTableOffset := wordAt data 28
    sourceTableSize := wordAt data 32
    methodCount := wordAt data 36
    methodTableOffset := wordAt data 40
    methodTableSize := wordAt data 44
    typeCount := wordAt data 48
    anonymousScopeCount := wordAt data 52
    anonymousScopeTableOffset := wordAt data 56
    anonymousScopeTableSize := wordAt data 60
    lineBase := (wordAt data 64).toInt32
    lineRange := (wordAt data 68).toInt32
    opcodeBase := (wordAt data 72).toInt32
    fileFlags := wordAt data 76 }

def parameters (h : Header) : Except Error LineParameters :=
  LineParameters.ofHeader h.lineBase h.lineRange h.opcodeBase

def flags (h : Header) : FileFlags := FileFlags.truncate h.fileFlags

def methodRecordSize : Nat := 12

def indexRecordSize : Nat := 8

/-- Where record `index`, counted from 1, of a table lies. -/
def recordOffset (tableOffset count : UInt32) (recordSize : Nat) (index : UInt32) :
    Except Error Nat :=
  if index = 0 ∨ count < index then .error .outOfBounds
  else .ok (tableOffset.toNat + (index.toNat - 1) * recordSize)

end Header

end DebugSymbols
