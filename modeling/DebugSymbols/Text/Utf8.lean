namespace DebugSymbols.Utf8

/-- The first fault of a byte run: the bytes in order before it, and the length of the broken
sequence, or `none` when the run ends inside a sequence that is in order so far. -/
structure Fault where
  validUpTo : Nat
  length : Option Nat
deriving DecidableEq, Repr

def Fault.message (f : Fault) : String :=
  match f.length with
  | some n => s!"invalid utf-8 sequence of {n} bytes from index {f.validUpTo}"
  | none => s!"incomplete utf-8 byte sequence from index {f.validUpTo}"

structure Bounds where
  low : UInt8
  high : UInt8

def Bounds.admits (r : Bounds) (b : UInt8) : Bool := r.low ≤ b && b ≤ r.high

def continuation : Bounds := ⟨0x80, 0xBF⟩

/-- What must follow a lead byte; `none` for a byte that leads nothing. -/
def tail? (lead : UInt8) : Option (List Bounds) :=
  if lead < 0x80 then some []
  else if lead < 0xC2 then none
  else if lead < 0xE0 then some [continuation]
  else if lead = 0xE0 then some [⟨0xA0, 0xBF⟩, continuation]
  else if lead = 0xED then some [⟨0x80, 0x9F⟩, continuation]
  else if lead < 0xF0 then some [continuation, continuation]
  else if lead = 0xF0 then some [⟨0x90, 0xBF⟩, continuation, continuation]
  else if lead < 0xF4 then some [continuation, continuation, continuation]
  else if lead = 0xF4 then some [⟨0x80, 0x8F⟩, continuation, continuation]
  else none

inductive Follow where
  | complete
  | broken (matched : Nat)
  | cut

def follow : List Bounds → List UInt8 → Follow
  | [], _ => .complete
  | _ :: _, [] => .cut
  | r :: rs, b :: bs =>
    if r.admits b then
      match follow rs bs with
      | .broken n => .broken (n + 1)
      | other => other
    else .broken 0

/-- The first fault of `bytes`, where `start` bytes precede them. -/
def faultFrom (start : Nat) : List UInt8 → Option Fault
  | [] => none
  | lead :: rest =>
    match tail? lead with
    | none => some ⟨start, some 1⟩
    | some bounds =>
      match follow bounds rest with
      | .complete => faultFrom (start + 1 + bounds.length) (rest.drop bounds.length)
      | .broken n => some ⟨start, some (n + 1)⟩
      | .cut => some ⟨start, none⟩
termination_by bytes => bytes.length
decreasing_by simp only [List.length_cons, List.length_drop]; omega

def fault? (bytes : List UInt8) : Option Fault := faultFrom 0 bytes

def decode (bytes : List UInt8) : Except Fault String :=
  match String.fromUTF8? ⟨bytes.toArray⟩ with
  | some s => .ok s
  | none => .error ((fault? bytes).getD ⟨bytes.length, none⟩)

def encode (s : String) : List UInt8 := s.toUTF8.data.toList

end DebugSymbols.Utf8
