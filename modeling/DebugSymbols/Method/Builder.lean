import DebugSymbols.Method.Definition

namespace DebugSymbols

structure MethodBuilder where
  token : Token
  compileUnit : UInt32
  namespaceId : UInt32 := 0
  /-- The sequence points kept so far, newest first. -/
  marked : List LineEntry := []
  blocks : List CodeBlock := []
  /-- The indices of the open blocks, innermost first.  An index says as much as a place in `blocks`:
  no two blocks have the same one, since a block is opened behind all others and added only with an
  index that none has. -/
  openBlocks : List UInt32 := []
  locals : List LocalVariable := []
  scopeVariables : List ScopeVariable := []
  realName : Option String := none
  ambiguousLocals : Bool := false
deriving DecidableEq, Repr

namespace MethodBuilder

def liesBeyond (e f : LineEntry) : Bool :=
  decide (f.row < e.row) || (f.row == e.row && decide (f.column < e.column))

/-- Points in a row at one offset leave one: the one that lies furthest, the first of equals. -/
def addPoint : List LineEntry → LineEntry → List LineEntry
  | [], e => [e]
  | last :: earlier, e =>
    if last.offset = e.offset then
      if liesBeyond e last then e :: earlier else last :: earlier
    else e :: last :: earlier

def mark (m : MethodBuilder) (e : LineEntry) : MethodBuilder :=
  { m with marked := addPoint m.marked e }

/-- The kept sequence points in the order of marking. -/
def points (m : MethodBuilder) : List LineEntry := m.marked.reverse

/-- The index of the innermost open block, 0 with none open. -/
def currentBlock (m : MethodBuilder) : UInt32 := m.openBlocks.headD 0

def maxIndex (m : MethodBuilder) : UInt32 := m.blocks.foldl (fun i b => max i b.index) 0

def parent? (m : MethodBuilder) : Option Int32 :=
  match m.openBlocks with
  | [] => some (-1)
  | i :: _ => if i < 0x80000000 then some i.toInt32 else none

/-- Opens a block inside the innermost one, numbered behind all others. -/
def startBlock (m : MethodBuilder) (kind : BlockKind) (offset : UInt32) :
    Except Error (UInt32 × MethodBuilder) :=
  if m.maxIndex = 0xFFFFFFFF then .error .outOfBounds
  else
    match m.parent? with
    | none => .error .outOfBounds
    | some parent =>
      let index := m.maxIndex + 1
      .ok (index, { m with
        blocks := m.blocks ++ [⟨index, parent, kind, offset, offset⟩]
        openBlocks := index :: m.openBlocks })

def endBlock (m : MethodBuilder) (offset : UInt32) : Except Error MethodBuilder :=
  match m.openBlocks with
  | [] => .error (.unbalancedBlock (.nothingOpen m.token offset))
  | i :: outer =>
    .ok { m with
      blocks := m.blocks.map fun b => if b.index = i then { b with endOffset := offset } else b
      openBlocks := outer }

def addBlock (m : MethodBuilder) (b : CodeBlock) : Except Error MethodBuilder :=
  if b.index = 0 then .error .outOfBounds
  else if m.blocks.any fun c => c.index == b.index then
    .error (.duplicate (.codeBlock b.index m.token))
  else .ok { m with blocks := m.blocks ++ [b] }

def addLocal (m : MethodBuilder) (index : UInt32) (name : String) : MethodBuilder :=
  { m with locals := m.locals ++ [⟨index, name, m.currentBlock⟩] }

def addScopeVariable (m : MethodBuilder) (scope localIndex : UInt32) : MethodBuilder :=
  { m with scopeVariables := m.scopeVariables ++ [⟨scope, localIndex⟩] }

def setRealName (m : MethodBuilder) (name : String) : MethodBuilder :=
  { m with realName := some name }

def setAmbiguousLocals (m : MethodBuilder) (ambiguous : Bool) : MethodBuilder :=
  { m with ambiguousLocals := ambiguous }

/-- A table of blocks being filled in: its places so far, newest first, and the blocks still to be
put in. -/
structure Filling where
  done : List CodeBlock
  rest : List CodeBlock

/-- The place of a number gets the next block if that has the number, else a placeholder. -/
def Filling.place (f : Filling) (i : Nat) : Filling :=
  match f.rest with
  | [] => { f with done := .placeholder (UInt32.ofNat i) :: f.done }
  | b :: rest =>
    if b.index.toNat = i then ⟨b :: f.done, rest⟩
    else { f with done := .placeholder (UInt32.ofNat i) :: f.done }

def sortedBlocks (m : MethodBuilder) : List CodeBlock :=
  m.blocks.mergeSort fun a b => a.index ≤ b.index

def places (m : MethodBuilder) : Nat := m.sortedBlocks.getLast?.elim 0 fun b => b.index.toNat

/-- The blocks as a table in which each stands at its own index. -/
def blockTable (m : MethodBuilder) : List CodeBlock :=
  ((List.range' 1 m.places).foldl Filling.place ⟨[], m.sortedBlocks⟩).done.reverse

def define (m : MethodBuilder) : Except Error MethodDefinition :=
  if m.openBlocks.isEmpty then
    .ok {
      token := m.token
      compileUnit := m.compileUnit
      namespaceId := m.namespaceId
      locals := m.locals
      blocks := m.blockTable
      scopeVariables := m.scopeVariables
      lines := m.points
      realName := m.realName
      ambiguousLocals := m.ambiguousLocals }
  else .error (.unbalancedBlock (.blocksOpen m.token m.openBlocks.length))

end MethodBuilder

end DebugSymbols
