import DebugSymbols.AnonymousScope
import DebugSymbols.CompileUnit
import DebugSymbols.LineProgram.Parameters
import DebugSymbols.Method.Definition
import DebugSymbols.SourceFile
import Std.Data.TreeSet

namespace DebugSymbols

/-- The settings that a symbol file records for all its entries. -/
structure StoreOptions where
  parameters : LineParameters := .default
  fileFlags : FileFlags := {}
deriving DecidableEq, Repr

/-- The contents of a store while it is being filled.  Sources and compile units are numbered from 1
in the order in which they come. -/
structure Authoring where
  options : StoreOptions := {}
  sources : Array SourceFile := #[]
  units : Array CompileUnit := #[]
  methods : Array MethodDefinition := #[]
  /-- The tokens of the methods. -/
  tokens : Std.TreeSet UInt32 := ∅
  scopes : Array AnonymousScope := #[]
  lastType : UInt32 := 0
  lastMethod : UInt32 := 0
  lastNamespace : UInt32 := 0

namespace Authoring

/-- A change of the contents, which answers something. -/
abbrev Change := Step Authoring

def nextIndex (count : Nat) : Except Error UInt32 := tableLength (count + 1)

def hasSource (a : Authoring) (index : UInt32) : Bool :=
  index ≠ 0 && index.toNat ≤ a.sources.size

def hasUnit (a : Authoring) (index : UInt32) : Bool :=
  index ≠ 0 && index.toNat ≤ a.units.size

def checkSource (index : UInt32) : Change Unit := do
  let a ← get
  if a.hasSource index then pure () else throw .outOfBounds

def checkUnit (index : UInt32) : Change Unit := do
  let a ← get
  if a.hasUnit index then pure () else throw .outOfBounds

def modifyUnit (a : Authoring) (index : UInt32) (f : CompileUnit → CompileUnit) : Authoring :=
  { a with units := a.units.modify (index.toNat - 1) f }

def changeUnit (index : UInt32) (f : CompileUnit → CompileUnit) : Change Unit := do
  checkUnit index
  modify fun a => a.modifyUnit index f

def addSource (source : SourceFile) : Change UInt32 := do
  let a ← get
  let index ← nextIndex a.sources.size
  set { a with sources := a.sources.push { source with index := index } }
  pure index

def addUnit (source : UInt32) : Change UInt32 := do
  checkSource source
  let a ← get
  let index ← nextIndex a.units.size
  set { a with units := a.units.push { index := index, source := source } }
  pure index

def addInclude (unit source : UInt32) : Change Unit := do
  checkSource source
  changeUnit unit fun u => { u with includes := u.includes ++ [source] }

def nextType : Change UInt32 := do
  modify fun a => { a with lastType := a.lastType + 1 }
  pure (← get).lastType

def nextMethod : Change UInt32 := do
  modify fun a => { a with lastMethod := a.lastMethod + 1 }
  pure (← get).lastMethod

/-- Gives out a number of the sequence that also numbers the namespaces. -/
def nextNamespace : Change UInt32 := do
  modify fun a => { a with lastNamespace := a.lastNamespace + 1 }
  pure (← get).lastNamespace

/-- Declares a namespace; its parent may be any number that was given out before. -/
def defineNamespace (unit : UInt32) (name : String) (usingClauses : List String)
    (parent : UInt32) : Change UInt32 := do
  let a ← get
  if a.lastNamespace < parent then throw .outOfBounds
  else
    checkUnit unit
    let index ← nextNamespace
    changeUnit unit fun u =>
      { u with namespaces := u.namespaces ++ [⟨name, index, parent, usingClauses⟩] }
    pure index

/-- Files the token of a method, which nothing else may have. -/
def claimToken (token : Token) : Change Unit := do
  let a ← get
  let (taken, tokens) := a.tokens.containsThenInsert token.value
  set { a with tokens := tokens }
  if taken then throw (.duplicate (.method token)) else pure ()

def defineMethod (d : MethodDefinition) : Change Unit := do
  d.validate
  checkUnit d.compileUnit
  claimToken d.token
  modify fun a => { a with methods := a.methods.push d }

def defineScope (id : UInt32) : Change Unit := do
  let a ← get
  if a.scopes.any fun s => s.id == id then throw (.duplicate (.anonymousScope id))
  else set { a with scopes := a.scopes.push { id := id } }

def changeScope (id : UInt32) (f : AnonymousScope → AnonymousScope) : Change Unit := do
  let a ← get
  match a.scopes.findIdx? fun s => s.id == id with
  | some i => set { a with scopes := a.scopes.modify i f }
  | none => throw (.notFound (.anonymousScope id))

def capture (scope : UInt32) (v : CapturedVariable) : Change Unit :=
  changeScope scope fun s => { s with captured := s.captured ++ [v] }

def captureLocal (scope : UInt32) (name capturedName : String) : Change Unit :=
  capture scope ⟨name, capturedName, .localVariable⟩

def captureParameter (scope : UInt32) (name capturedName : String) : Change Unit :=
  capture scope ⟨name, capturedName, .parameter⟩

def captureThis (scope : UInt32) (capturedName : String) : Change Unit :=
  capture scope ⟨"this", capturedName, .this⟩

def captureScope (scope captured : UInt32) (capturedName : String) : Change Unit :=
  changeScope scope fun s => { s with scopes := s.scopes ++ [⟨captured, capturedName⟩] }

end Authoring

end DebugSymbols
