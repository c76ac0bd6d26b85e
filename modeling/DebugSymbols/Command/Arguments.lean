namespace DebugSymbols

inductive Command where
  | info
  | sources
  /-- With a text, only methods from source files whose names contain it. -/
  | methods (source : Option String)
  | lines (token : String)
  | lookup (token offset : String)
  | scopes
deriving DecidableEq, Repr

structure Invocation where
  command : Command
  path : String
  json : Bool
deriving DecidableEq, Repr

inductive Request where
  | run (i : Invocation)
  | version
  | help
  | invalid
deriving DecidableEq, Repr

namespace Arguments

inductive CommandName where
  | info | sources | methods | lines | lookup | scopes | help
deriving DecidableEq, Repr

def CommandName.ofWord? (word : String) : Option CommandName :=
  match word with
  | "info" => some info
  | "sources" => some sources
  | "methods" => some methods
  | "lines" => some lines
  | "lookup" => some lookup
  | "scopes" => some scopes
  | "help" => some help
  | _ => none

inductive ValueOption where
  | source | token | offset
deriving DecidableEq, Repr

def ValueOption.ofLong? (word : List Char) : Option ValueOption :=
  match String.ofList word with
  | "source" => some source
  | "token" => some token
  | "offset" => some offset
  | _ => none

def ValueOption.ofShort? (c : Char) : Option ValueOption :=
  match c with
  | 's' => some source
  | 't' => some token
  | 'o' => some offset
  | _ => none

def CommandName.takes : CommandName → ValueOption → Bool
  | methods, .source => true
  | lines, .token => true
  | lookup, .token => true
  | lookup, .offset => true
  | _, _ => false

/-- What the words so far say.  The flags count from the command name on; `jsonBefore` remembers the
one in front of it. -/
structure Scan where
  command : Option CommandName := none
  /-- The command that help is asked about. -/
  topic : Option CommandName := none
  json : Bool := false
  jsonBefore : Bool := false
  verbose : Bool := false
  path : Option String := none
  source : Option String := none
  token : Option String := none
  offset : Option String := none
  /-- The option whose value is the next word. -/
  pending : Option ValueOption := none
  /-- Behind two lone hyphens every word is plain. -/
  plainOnly : Bool := false
deriving DecidableEq, Repr

namespace Scan

def value? (s : Scan) : ValueOption → Option String
  | .source => s.source
  | .token => s.token
  | .offset => s.offset

/-- No option may be given twice. -/
def setValue (s : Scan) (o : ValueOption) (v : String) : Except Request Scan :=
  if (s.value? o).isSome then .error .invalid
  else .ok <|
    match o with
    | .source => { s with source := some v }
    | .token => { s with token := some v }
    | .offset => { s with offset := some v }

def setJson (s : Scan) : Except Request Scan :=
  if s.json then .error .invalid else .ok { s with json := true }

def setVerbose (s : Scan) : Except Request Scan :=
  if s.verbose then .error .invalid else .ok { s with verbose := true }

/-- The version is known in front of the command name only. -/
def askVersion (s : Scan) : Except Request Scan :=
  .error (if s.command.isNone then .version else .invalid)

def option (s : Scan) (o : Option ValueOption) (v : Option (List Char)) : Except Request Scan :=
  match o.filter fun o => s.command.any fun c => c.takes o, v with
  | none, _ => .error .invalid
  | some o, some v => s.setValue o (String.ofList v)
  | some o, none => .ok { s with pending := some o }

/-- The first plain word names the command, the second the file. -/
def plain (s : Scan) (word : String) : Except Request Scan :=
  match s.command with
  | none =>
    match CommandName.ofWord? word with
    | some c =>
      .ok { s with command := some c, json := false, jsonBefore := s.json, verbose := false }
    | none => .error .invalid
  | some _ =>
    if s.path.isSome || word.isEmpty then .error .invalid else .ok { s with path := some word }

def long (s : Scan) (word : List Char) : Except Request Scan :=
  let name := word.takeWhile (· ≠ '=')
  match word.dropWhile (· ≠ '=') with
  | _ :: v => s.option (ValueOption.ofLong? name) (some v)
  | [] =>
    match String.ofList name with
    | "json" => s.setJson
    | "verbose" => s.setVerbose
    | "version" => s.askVersion
    | "help" => .error .help
    | _ => s.option (ValueOption.ofLong? name) none

/-- Letters behind one hyphen; an option that takes a value takes the rest of the word. -/
def short (s : Scan) : List Char → Except Request Scan
  | [] => .ok s
  | 'v' :: cs => do short (← s.setVerbose) cs
  | 'V' :: _ => s.askVersion
  | 'h' :: _ => .error .help
  | c :: [] => s.option (ValueOption.ofShort? c) none
  | c :: '=' :: v => s.option (ValueOption.ofShort? c) (some v)
  | c :: v => s.option (ValueOption.ofShort? c) (some v)

def endOptions (s : Scan) : Except Request Scan :=
  if s.command.isNone then .error .invalid else .ok { s with plainOnly := true }

/-- Behind the word that asks for help stands at most the name of one command. -/
def helpTopic (s : Scan) (word : String) : Except Request Scan :=
  match s.topic, CommandName.ofWord? word with
  | none, some c => .ok { s with topic := some c }
  | _, _ => .error .invalid

/-- Reads one more word.  The value of an option may not look like an option. -/
def word (s : Scan) (w : String) : Except Request Scan :=
  if s.command = some .help then s.helpTopic w
  else if s.plainOnly then s.plain w
  else
    match s.pending, w.toList with
    | some _, '-' :: _ :: _ => .error .invalid
    | some o, _ => setValue { s with pending := none } o w
    | none, ['-', '-'] => s.endOptions
    | none, '-' :: '-' :: name => s.long name
    | none, '-' :: c :: cs => s.short (c :: cs)
    | none, _ => s.plain w

def command? (s : Scan) : Option Command :=
  match s.command with
  | none | some .help => none
  | some .info => some .info
  | some .sources => some .sources
  | some .methods => some (.methods s.source)
  | some .lines => s.token.map .lines
  | some .lookup => do
    let token ← s.token
    let offset ← s.offset
    pure (.lookup token offset)
  | some .scopes => some .scopes

def invocation? (s : Scan) : Option Invocation := do
  guard s.pending.isNone
  let command ← s.command?
  let path ← s.path
  pure ⟨command, path, s.json || s.jsonBefore⟩

end Scan

def parse (args : List String) : Request :=
  match args.foldlM Scan.word {} with
  | .error request => request
  | .ok s =>
    if s.command = some .help then .help
    else
      match s.invocation? with
      | some i => .run i
      | none => .invalid

end Arguments

end DebugSymbols
