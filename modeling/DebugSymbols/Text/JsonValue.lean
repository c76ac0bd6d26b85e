import DebugSymbols.Text.Hexadecimal

namespace DebugSymbols

/-- The members of an object are kept in order, and their names may repeat. -/
inductive JsonValue where
  | null
  | bool (b : Bool)
  | number (n : Int)
  | string (s : String)
  | array (elements : List JsonValue)
  | object (members : List (String × JsonValue))

namespace JsonValue

def nat (n : Nat) : JsonValue := number n

def ofOption (s : Option String) : JsonValue :=
  match s with
  | some s => string s
  | none => null

def escapeChar (c : Char) : String :=
  if c = '"' then "\\\""
  else if c = '\\' then "\\\\"
  else if c = '\x08' then "\\b"
  else if c = '\x0c' then "\\f"
  else if c = '\n' then "\\n"
  else if c = '\r' then "\\r"
  else if c = '\t' then "\\t"
  else if c.toNat < 0x20 then "\\u" ++ Hexadecimal.padded 4 c.toNat
  else c.toString

def quote (s : String) : String := "\"" ++ String.join (s.toList.map escapeChar) ++ "\""

def newline (depth : Nat) : String := "\n" ++ String.ofList (List.replicate (2 * depth) ' ')

mutual

def pretty (depth : Nat) : JsonValue → String
  | null => "null"
  | bool true => "true"
  | bool false => "false"
  | number n => toString n
  | string s => quote s
  | array [] => "[]"
  | array elements =>
    "[" ++ ",".intercalate (prettyElements (depth + 1) elements) ++ newline depth ++ "]"
  | object [] => "\x7b\x7d"
  | object members =>
    "\x7b" ++ ",".intercalate (prettyMembers (depth + 1) members) ++ newline depth ++ "\x7d"

def prettyElements (depth : Nat) : List JsonValue → List String
  | [] => []
  | v :: vs => (newline depth ++ pretty depth v) :: prettyElements depth vs

def prettyMembers (depth : Nat) : List (String × JsonValue) → List String
  | [] => []
  | (name, v) :: rest =>
    (newline depth ++ quote name ++ ": " ++ pretty depth v) :: prettyMembers depth rest

end

def text (v : JsonValue) : String := v.pretty 0

end JsonValue

end DebugSymbols
