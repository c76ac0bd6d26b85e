import DebugSymbols.Guid
import DebugSymbols.Text.Utf8
import DebugSymbols.Token

namespace DebugSymbols

/-- Why line-program parameters cannot drive a line program. -/
inductive ParameterFault where
  | rangeZero
  | overlapsStandard (opcodeBase : UInt8)
  | noSpecialOpcodes (opcodeBase lineRange : UInt8)
deriving DecidableEq, Repr

/-- What is damaged in a file, or breaks the format in a definition. -/
inductive Damage where
  | varintOverflow
  | invalidUtf8 (start : Nat) (fault : Utf8.Fault)
  | runTooLong (length : Nat)
  | tableTooLong (length : Nat)
  | fileTooLarge (position : Nat)
  | unknownExtendedOpcode (opcode : UInt8)
  | unknownStandardOpcode (opcode : UInt8)
  | offsetPrecedes (offset previous : UInt32)
  | specialOpcodeOverflow (opcode : UInt32)
  | parametersNotBytes (lineRange opcodeBase : Int32)
  | parametersRejected (fault : ParameterFault)
  | wrongMagic (magic : UInt64)
  | sizeBeyondStream (claimed : UInt32) (held : Nat)
  | recordIndex (expected found : UInt32)
  | repeatedToken (token : Token)
  | captureKind (kind : UInt8) (scope : UInt32)
  | blockKind (kind block : UInt32)
  | nullPoint (token : Token) (position : Nat)
  | pointGoesBack (token : Token) (position : Nat) (last offset : UInt32)
  | reservedEndDistance (token : Token) (position : Nat)
  | blockIndex (token : Token) (position : Nat) (index : UInt32)
deriving DecidableEq, Repr

inductive Missing where
  | sourceFile (name : String)
  | anonymousScope (id : UInt32)
deriving DecidableEq, Repr

inductive Repeated where
  | method (token : Token)
  | codeBlock (index : UInt32) (token : Token)
  | anonymousScope (id : UInt32)
deriving DecidableEq, Repr

/-- How code blocks fail to nest. -/
inductive Imbalance where
  | nothingOpen (token : Token) (offset : UInt32)
  | blocksOpen (token : Token) (count : Nat)
  | methodOpen (token : Token)
deriving DecidableEq, Repr

inductive FileFault where
  | missing
  | full
deriving DecidableEq, Repr

/-- The operations of line programs that are not meant to wrap. -/
inductive Operation where
  | twoAdvances
  /-- What one constant advance leaves of an offset delta. -/
  | leftOver
  /-- The end of the row deltas that special opcodes express. -/
  | rowLimit
  /-- A row delta, counted from the line base. -/
  | rowPlace
  | opcodeOfRow
  | offsetPlace
  | opcodeOfOffset
  /-- A special opcode, counted from the first. -/
  | opcodePlace
  /-- The row delta that a special opcode expresses. -/
  | rowAdvance
deriving DecidableEq, Repr

inductive Error where
  | malformed (damage : Damage)
  | outOfBounds
  | unsupportedVersion (major minor : Int32)
  | guidMismatch (expected found : Guid)
  | notFound (missing : Missing)
  | methodNotFound (token : Token)
  | readOnly
  | notBound
  | alreadySealed
  | unbalancedBlock (imbalance : Imbalance)
  | duplicate (repeated : Repeated)
  | invalidConfig (fault : ParameterFault)
  | file (fault : FileFault)
  /-- The program stops at an operation whose result its type does not hold. -/
  | overflow (operation : Operation)
deriving DecidableEq, Repr

def ParameterFault.message : ParameterFault → String
  | rangeZero => "line range must be at least 1"
  | overlapsStandard base => s!"opcode base {base} overlaps the standard opcodes"
  | noSpecialOpcodes base range =>
    s!"opcode base {base} with line range {range} leaves no special opcodes"

def Damage.message : Damage → String
  | varintOverflow => "7-bit encoded integer overflow: value exceeds u32 capacity after 28 bits"
  | invalidUtf8 start fault => s!"Invalid UTF-8 string at offset {start}: {fault.message}"
  | runTooLong n => s!"Byte run of {n} bytes is too long"
  | tableTooLong n => s!"Table with {n} entries is too large"
  | fileTooLarge p => s!"Symbol file exceeds 32-bit offsets at {p}"
  | unknownExtendedOpcode op =>
    "Unknown extended opcode " ++ Hexadecimal.byte op ++ " in line number program"
  | unknownStandardOpcode op =>
    "Unknown standard opcode " ++ Hexadecimal.byte op ++ " in line number program"
  | offsetPrecedes offset previous =>
    s!"Line number entry offset {offset} precedes previous offset {previous}"
  | specialOpcodeOverflow op => s!"Special opcode {op} overflows a byte"
  | parametersNotBytes range base =>
    s!"Invalid line program parameters: range {range}, opcode base {base}"
  | parametersRejected fault =>
    s!"Invalid line program parameters: Invalid configuration - {fault.message}"
  | wrongMagic magic => "Invalid symbol file magic 0x" ++ Hexadecimal.padded 16 magic.toNat
  | sizeBeyondStream claimed held => s!"Header claims {claimed} bytes but the stream holds {held}"
  | recordIndex expected found => s!"Table record {expected} carries index {found}"
  | repeatedToken token => s!"Method token {token} appears twice in the method table"
  | captureKind kind scope => s!"Invalid capture kind {kind} in anonymous scope {scope}"
  | blockKind kind block => s!"Invalid kind {kind} for code block {block}"
  | nullPoint token position =>
    s!"Method {token} has a null sequence point at position {position}"
  | pointGoesBack token position last offset =>
    s!"Method {token} sequence point {position} goes back from offset {last} to {offset}"
  | reservedEndDistance token position =>
    s!"Method {token} sequence point {position} ends 16777215 lines after it starts"
  | blockIndex token position index =>
    s!"Method {token} code block at position {position} has index {index}"

def Missing.message : Missing → String
  | sourceFile name => s!"source file {name}"
  | anonymousScope id => s!"anonymous scope {id}"

def Repeated.message : Repeated → String
  | method token => s!"method {token}"
  | codeBlock index token => s!"code block {index} in method {token}"
  | anonymousScope id => s!"anonymous scope {id}"

def Imbalance.message : Imbalance → String
  | nothingOpen token offset => s!"method {token} closes a block at offset {offset} with none open"
  | blocksOpen token count => s!"method {token} ends with {count} open block(s)"
  | methodOpen token => s!"method {token} is still open"

def FileFault.message : FileFault → String
  | missing => "No such file or directory (os error 2)"
  | full => "failed to write whole buffer"

def Operation.verb : Operation → String
  | rowLimit | opcodeOfRow | opcodeOfOffset | rowAdvance => "add"
  | leftOver | rowPlace | opcodePlace => "subtract"
  | twoAdvances | offsetPlace => "multiply"

def Error.message : Error → String
  | malformed damage => s!"Malformed - {damage.message}"
  | outOfBounds => "Out of Bound read would have occurred"
  | unsupportedVersion major minor => s!"Unsupported symbol file version {major}.{minor}"
  | guidMismatch expected found => s!"Symbol file GUID {found} does not match expected {expected}"
  | notFound missing => s!"Not found - {missing.message}"
  | methodNotFound token => s!"No method with token {token}"
  | readOnly => "The symbol store is bound for reading and cannot be modified"
  | notBound => "The symbol store is not bound to a symbol file"
  | alreadySealed => "The symbol store has already been sealed"
  | unbalancedBlock imbalance => s!"Unbalanced code block: {imbalance.message}"
  | duplicate repeated => s!"Duplicate definition - {repeated.message}"
  | invalidConfig fault => s!"Invalid configuration - {fault.message}"
  | file fault => fault.message
  | overflow operation => s!"attempt to {operation.verb} with overflow"

end DebugSymbols
