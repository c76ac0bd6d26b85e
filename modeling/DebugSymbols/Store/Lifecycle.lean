import DebugSymbols.Store.Bound
import DebugSymbols.Store.Sealing

namespace DebugSymbols

inductive Store where
  | authoring (contents : Authoring)
  | sealed (header : Header)
  | bound (file : Bound)

namespace Store

def new (options : StoreOptions) : Store := .authoring { options := options }

instance : Inhabited Store := ⟨new {}⟩

def open? (data : Bytes) : Except Error Store := do
  let f ← SymbolFile.open? data
  pure (.bound { file := f })

def openFor? (data : Bytes) (expected : Guid) : Except Error Store := do
  let f ← SymbolFile.openFor? data expected
  pure (.bound { file := f })

def isBound : Store → Bool
  | bound _ => true
  | _ => false

def isSealed : Store → Bool
  | sealed _ => true
  | _ => false

/-- Makes a change, which only a store that is being filled accepts. -/
def change (s : Store) (c : Authoring.Change α) : Except Error α × Store :=
  match s with
  | authoring a =>
    let (answer, a) := c.run a
    (answer, authoring a)
  | sealed _ => (.error .alreadySealed, s)
  | bound _ => (.error .readOnly, s)

/-- Runs a look-up, which only a bound store answers. -/
def lookup (s : Store) (l : Lookup α) : Except Error α × Store :=
  match s with
  | bound b =>
    let (answer, b) := l.run b
    (answer, bound b)
  | _ => (.error .notBound, s)

/-- Writes the file over the start of a stream.  The methods are put in order before; they stay so
also when the stream fails. -/
def sealOver [Build] [Sink σ] (s : Store) (o : σ) (guid : Guid) : Except Error Unit × σ × Store :=
  match s with
  | authoring a =>
    match (a.sorted.writeFile guid).run o with
    | (.ok header, o) => (.ok (), o, sealed header)
    | (.error e, o) => (.error e, o, authoring a.sorted)
  | sealed _ => (.error .alreadySealed, o, s)
  | bound _ => (.error .readOnly, o, s)

def sealInto [Build] (s : Store) (o : Output) (guid : Guid) : Except Error (Output × Store) :=
  match s.sealOver o guid with
  | (.ok (), o, s) => .ok (o, s)
  | (.error e, _, _) => .error e

def guid : Store → Except Error Guid
  | bound b => .ok b.file.preamble.guid
  | _ => .error .notBound

def header : Store → Except Error Header
  | bound b => .ok b.file.header
  | sealed h => .ok h
  | authoring _ => .error .notBound

def parameters : Store → LineParameters
  | authoring a => a.options.parameters
  | sealed h =>
    match h.parameters with
    | .ok p => p
    | .error _ => .default
  | bound b => b.file.parameters

def fileFlags : Store → FileFlags
  | authoring a => a.options.fileFlags
  | sealed h => h.flags
  | bound b => b.file.header.flags

/-- A number that a store being filled counts and a file records in its header. -/
def count (ofContents : Authoring → Nat) (ofHeader : Header → UInt32) : Store → UInt32
  | authoring a => UInt32.ofNat (min (ofContents a) 0xFFFFFFFF)
  | sealed h => ofHeader h
  | bound b => ofHeader b.file.header

def sourceCount : Store → UInt32 := count (·.sources.size) (·.sourceCount)

def compileUnitCount : Store → UInt32 := count (·.units.size) (·.compileUnitCount)

def methodCount : Store → UInt32 := count (·.methods.size) (·.methodCount)

def anonymousScopeCount : Store → UInt32 := count (·.scopes.size) (·.anonymousScopeCount)

def typeCount : Store → UInt32 := count (·.lastType.toNat) (·.typeCount)

def stateName : Store → String
  | authoring _ => "Authoring"
  | sealed _ => "Sealed"
  | bound _ => "Bound"

end Store

end DebugSymbols
