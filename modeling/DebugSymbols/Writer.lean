import DebugSymbols.Method.Builder
import DebugSymbols.Store.Debug

namespace DebugSymbols

structure Writer where
  store : Store := .new {}
  /-- The methods that are open, innermost first. -/
  methods : List MethodBuilder := []

instance : Inhabited Writer := ⟨{}⟩

namespace Writer

def change (c : Authoring.Change α) : Step Writer α := fun w =>
  let (answer, store) := w.store.change c
  (answer, { w with store := store })

/-- Adds a source file and the compile unit made from it. -/
def defineDocument (fileName : String) (checksum : List UInt8) : Step Writer (UInt32 × UInt32) := do
  let source ← change (Authoring.addSource { index := 0, fileName := fileName, checksum := checksum })
  let unit ← change (Authoring.addUnit source)
  pure (source, unit)

def openMethod (w : Writer) (token : Token) (compileUnit namespaceId : UInt32) : Writer :=
  { w with methods :=
      { token := token, compileUnit := compileUnit, namespaceId := namespaceId } :: w.methods }

def defineBuilt (s : Store) (m : MethodBuilder) : Except Error Unit × Store :=
  match m.define with
  | .ok d => s.change (Authoring.defineMethod d)
  | .error e => (.error e, s)

/-- Takes the innermost method off and defines it. -/
def closeMethod (w : Writer) : Except Error Unit × Writer :=
  match w.methods with
  | [] => (.ok (), w)
  | m :: outer =>
    let (answer, store) := defineBuilt w.store m
    (answer, ⟨store, outer⟩)

/-- Describes the innermost method; without one nothing happens. -/
def describe (w : Writer) (f : MethodBuilder → MethodBuilder) : Writer :=
  match w.methods with
  | [] => w
  | m :: outer => { w with methods := f m :: outer }

def openBlock (kind : BlockKind) (offset : UInt32) : Step Writer (Option UInt32) := do
  let w ← get
  match w.methods with
  | [] => pure none
  | m :: outer =>
    let (index, m) ← m.startBlock kind offset
    set { w with methods := m :: outer }
    pure (some index)

def closeBlock (offset : UInt32) : Step Writer Unit := do
  let w ← get
  match w.methods with
  | [] => pure ()
  | m :: outer =>
    let m ← m.endBlock offset
    set { w with methods := m :: outer }

/-- No method may be open when the store is handed over. -/
def checkClosed (w : Writer) : Except Error Unit :=
  match w.methods with
  | [] => .ok ()
  | m :: _ => .error (.unbalancedBlock (.methodOpen m.token))

def writeInto [Build] [Sink σ] (w : Writer) (o : σ) (guid : Guid) : Except Error Unit × σ × Writer :=
  match w.checkClosed with
  | .ok () =>
    let (answer, o, store) := w.store.sealOver o guid
    (answer, o, { w with store := store })
  | .error e => (.error e, o, w)

/-- Seals the store into a file of its own, which is made before anything is checked. -/
def writeToFile [Build] [Sink σ] (w : Writer) (file : Except Error σ) (guid : Guid) :
    Except Error Unit × Except Error σ × Writer :=
  match file with
  | .error e => (.error e, .error e, w)
  | .ok o =>
    match w.writeInto o guid with
    | (.ok (), o, w) =>
      let (answer, o) := Sink.flush.run o
      (answer, .ok o, w)
    | (.error e, o, w) => (.error e, .ok o, w)

def intoStore (w : Writer) : Except Error Store := do
  w.checkClosed
  pure w.store

/-- A description for diagnosis; open methods show by their tokens. -/
def debug (w : Writer) : String :=
  let methods := ", ".intercalate (w.methods.reverse.map fun m => m.token.debug)
  describeRecord "SymbolWriter" [("store", w.store.debug), ("methods", "[" ++ methods ++ "]")]

end Writer

end DebugSymbols
