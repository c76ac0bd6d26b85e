import DebugSymbols.Bytes.Writing

namespace DebugSymbols

/-- A namespace with the namespaces it imports; its parent is 0 at top level. -/
structure Namespace where
  name : String
  index : UInt32
  parent : UInt32
  usingClauses : List String
deriving DecidableEq, Repr

namespace Namespace

def encode (n : Namespace) : List UInt8 :=
  encodeText n.name ++ Varint.encode n.index ++ Varint.encode n.parent ++
    encodeCounted encodeText n.usingClauses

def write [Sink σ] (n : Namespace) : Writing σ Unit := do
  Writing.text n.name
  Writing.varint n.index
  Writing.varint n.parent
  Writing.counted Writing.text n.usingClauses

def read : Reader Namespace := do
  let name ← Reader.text
  let index ← Reader.varint
  let parent ← Reader.varint
  let usingClauses ← Reader.counted Reader.text
  pure ⟨name, index, parent, usingClauses⟩

end Namespace

/-- A source file that was compiled, with the files it includes and the namespaces it declares. -/
structure CompileUnit where
  index : UInt32
  source : UInt32
  includes : List UInt32 := []
  namespaces : List Namespace := []
deriving DecidableEq, Repr

namespace CompileUnit

def findNamespace? (u : CompileUnit) (index : UInt32) : Option Namespace :=
  u.namespaces.find? fun n => n.index == index

def encode (u : CompileUnit) : List UInt8 :=
  Varint.encode u.source ++ encodeCounted Varint.encode u.includes ++
    encodeCounted Namespace.encode u.namespaces

def write [Sink σ] (u : CompileUnit) : Writing σ Unit := do
  Writing.varint u.source
  Writing.counted Writing.varint u.includes
  Writing.counted Namespace.write u.namespaces

/-- The index comes from the table record and not from the entry itself. -/
def read (index : UInt32) : Reader CompileUnit := do
  let source ← Reader.varint
  let includes ← Reader.counted Reader.varint
  let namespaces ← Reader.counted Namespace.read
  pure ⟨index, source, includes, namespaces⟩

end CompileUnit

end DebugSymbols
