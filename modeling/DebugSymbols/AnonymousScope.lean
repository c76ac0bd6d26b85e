import DebugSymbols.Bytes.Writing

namespace DebugSymbols

inductive CaptureKind where
  | localVariable
  | parameter
  | this
deriving DecidableEq, Repr

namespace CaptureKind

def code : CaptureKind → UInt8
  | localVariable => 0
  | parameter => 1
  | this => 2

def ofCode? (code : UInt8) : Option CaptureKind :=
  if code = 0 then some localVariable
  else if code = 1 then some parameter
  else if code = 2 then some this
  else none

def text : CaptureKind → String
  | localVariable => "Local"
  | parameter => "Parameter"
  | this => "This"

end CaptureKind

/-- A variable that a closure keeps in the field `capturedName`. -/
structure CapturedVariable where
  name : String
  capturedName : String
  kind : CaptureKind
deriving DecidableEq, Repr

/-- Another scope that a closure reaches through the field `capturedName`. -/
structure CapturedScope where
  scope : UInt32
  capturedName : String
deriving DecidableEq, Repr

/-- What the class made for a closure captures. -/
structure AnonymousScope where
  id : UInt32
  captured : List CapturedVariable := []
  scopes : List CapturedScope := []
deriving DecidableEq, Repr

namespace CapturedVariable

def encode (v : CapturedVariable) : List UInt8 :=
  encodeText v.name ++ encodeText v.capturedName ++ [v.kind.code]

def write [Sink σ] (v : CapturedVariable) : Writing σ Unit := do
  Writing.text v.name
  Writing.text v.capturedName
  Writing.u8 v.kind.code

def read (scope : UInt32) : Reader CapturedVariable := do
  let name ← Reader.text
  let capturedName ← Reader.text
  let code ← Reader.u8
  match CaptureKind.ofCode? code with
  | some kind => pure ⟨name, capturedName, kind⟩
  | none => Reader.fail (.malformed (.captureKind code scope))

end CapturedVariable

namespace CapturedScope

def encode (s : CapturedScope) : List UInt8 := Varint.encode s.scope ++ encodeText s.capturedName

def write [Sink σ] (s : CapturedScope) : Writing σ Unit := do
  Writing.varint s.scope
  Writing.text s.capturedName

def read : Reader CapturedScope := do
  let scope ← Reader.varint
  let capturedName ← Reader.text
  pure ⟨scope, capturedName⟩

end CapturedScope

namespace AnonymousScope

def find? (s : AnonymousScope) (name : String) : Option CapturedVariable :=
  s.captured.find? fun v => v.name == name

def encode (s : AnonymousScope) : List UInt8 :=
  Varint.encode s.id ++ encodeCounted CapturedVariable.encode s.captured ++
    encodeCounted CapturedScope.encode s.scopes

def write [Sink σ] (s : AnonymousScope) : Writing σ Unit := do
  Writing.varint s.id
  Writing.counted CapturedVariable.write s.captured
  Writing.counted CapturedScope.write s.scopes

def read : Reader AnonymousScope := do
  let id ← Reader.varint
  let captured ← Reader.counted (CapturedVariable.read id)
  let scopes ← Reader.counted CapturedScope.read
  pure ⟨id, captured, scopes⟩

end AnonymousScope

end DebugSymbols
