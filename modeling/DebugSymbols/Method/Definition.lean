import DebugSymbols.Bytes.Writing
import DebugSymbols.Flags
import DebugSymbols.LineProgram.Table

namespace DebugSymbols

structure LocalVariable where
  index : UInt32
  name : String
  blockIndex : UInt32
deriving DecidableEq, Repr

namespace LocalVariable

def encode (v : LocalVariable) : List UInt8 :=
  Varint.encode v.index ++ encodeText v.name ++ Varint.encode v.blockIndex

def write [Sink σ] (v : LocalVariable) : Writing σ Unit := do
  Writing.varint v.index
  Writing.text v.name
  Writing.varint v.blockIndex

def read : Reader LocalVariable := do
  let index ← Reader.varint
  let name ← Reader.text
  let blockIndex ← Reader.varint
  pure ⟨index, name, blockIndex⟩

end LocalVariable

/-- A local variable that holds the captures of an anonymous scope. -/
structure ScopeVariable where
  scope : UInt32
  localIndex : UInt32
deriving DecidableEq, Repr

namespace ScopeVariable

def encode (v : ScopeVariable) : List UInt8 := Varint.encode v.scope ++ Varint.encode v.localIndex

def write [Sink σ] (v : ScopeVariable) : Writing σ Unit := do
  Writing.varint v.scope
  Writing.varint v.localIndex

def read : Reader ScopeVariable := do
  let scope ← Reader.varint
  let localIndex ← Reader.varint
  pure ⟨scope, localIndex⟩

end ScopeVariable

inductive BlockKind where
  | lexical
  | compilerGenerated
  | iteratorBody
  | iteratorDispatcher
deriving DecidableEq, Repr

namespace BlockKind

def code : BlockKind → UInt32
  | lexical => 1
  | compilerGenerated => 2
  | iteratorBody => 3
  | iteratorDispatcher => 4

def ofCode? (code : UInt32) : Option BlockKind :=
  if code = 1 then some lexical
  else if code = 2 then some compilerGenerated
  else if code = 3 then some iteratorBody
  else if code = 4 then some iteratorDispatcher
  else none

def text : BlockKind → String
  | lexical => "Lexical"
  | compilerGenerated => "CompilerGenerated"
  | iteratorBody => "IteratorBody"
  | iteratorDispatcher => "IteratorDispatcher"

end BlockKind

/-- A region of a method's code; the parent of an outermost block is -1. -/
structure CodeBlock where
  index : UInt32
  parent : Int32
  kind : BlockKind
  startOffset : UInt32
  endOffset : UInt32
deriving DecidableEq, Repr

namespace CodeBlock

/-- Stands for a block that was never recorded. -/
def placeholder (index : UInt32) : CodeBlock := ⟨index, -1, .compilerGenerated, 0, 0⟩

/-- A block's index is its position in the table and is not written. -/
def encode (b : CodeBlock) : List UInt8 :=
  Varint.encode b.kind.code ++ Varint.encodeSigned b.parent ++ Varint.encode b.startOffset ++
    Varint.encode b.endOffset

def write [Sink σ] (b : CodeBlock) : Writing σ Unit := do
  Writing.varint b.kind.code
  Writing.signedVarint b.parent
  Writing.varint b.startOffset
  Writing.varint b.endOffset

def read (index : UInt32) : Reader CodeBlock := do
  let code ← Reader.varint
  match BlockKind.ofCode? code with
  | none => Reader.fail (.malformed (.blockKind code index))
  | some kind =>
    let parent ← Reader.signedVarint
    let startOffset ← Reader.varint
    let endOffset ← Reader.varint
    pure ⟨index, parent, kind, startOffset, endOffset⟩

def readTable : Reader (List CodeBlock) := do
  let count ← Reader.varint
  Reader.indexed (fun i => read (UInt32.ofNat i)) 1 count.toNat

end CodeBlock

structure MethodDefinition where
  token : Token
  compileUnit : UInt32
  namespaceId : UInt32 := 0
  locals : List LocalVariable := []
  blocks : List CodeBlock := []
  scopeVariables : List ScopeVariable := []
  lines : List LineEntry := []
  realName : Option String := none
  ambiguousLocals : Bool := false
deriving DecidableEq, Repr

namespace MethodDefinition

/-- What keeps sequence points from being recorded: a null point, an offset below the one before
it, or an end that reads as absent. -/
def pointDamage? (token : Token) (position : Nat) (last : UInt32) : List LineEntry → Option Damage
  | [] => none
  | e :: es =>
    if e.isNull then some (.nullPoint token position)
    else if e.offset < last then some (.pointGoesBack token position last e.offset)
    else if e.hasEnd ∧ e.endDistance = LineEntry.absentEnd then
      some (.reservedEndDistance token position)
    else pointDamage? token (position + 1) e.offset es

/-- Blocks must be numbered by their positions, from 1. -/
def blockDamage? (token : Token) (position : Nat) : List CodeBlock → Option Damage
  | [] => none
  | b :: bs =>
    if b.index.toNat = position then blockDamage? token (position + 1) bs
    else some (.blockIndex token position b.index)

def damage? (d : MethodDefinition) : Option Damage :=
  (pointDamage? d.token 0 0 d.lines).or (blockDamage? d.token 1 d.blocks)

def validate (d : MethodDefinition) : Except Error Unit :=
  match d.damage? with
  | some damage => .error (.malformed damage)
  | none => .ok ()

/-- Locals are ambiguous when marked so or when two of them share a name; columns and ends are
carried as soon as one point has them. -/
def flags (d : MethodDefinition) : MethodFlags where
  ambiguousLocals := d.ambiguousLocals || !decide (d.locals.map (·.name)).Nodup
  columns := d.lines.any LineEntry.hasColumn
  ends := d.lines.any LineEntry.hasEnd

end MethodDefinition

end DebugSymbols
