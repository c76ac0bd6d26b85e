import DebugSymbols.Store.Lifecycle

namespace DebugSymbols

/-- A file that was opened, and after it is dropped the methods that were read from it. -/
inductive Binding where
  | live (file : Bound)
  | dropped (methods : Option MethodTable)

namespace Binding

def methods? : Binding → Option MethodTable
  | live b => b.methods
  | dropped methods => methods

def drop : Binding → Binding
  | live b => dropped b.methods
  | dropped methods => dropped methods

/-- The part of a kept method; what was not read before its file was dropped stays unknown. -/
def part [Build] (b : Binding) (index : UInt32) (part : MethodPart) :
    Except Error part.Value × Binding :=
  match b.methods?, b with
  | none, _ => (.error .notBound, b)
  | some _, live bound =>
    let (answer, bound) := (Bound.part index part).run bound
    (answer, live bound)
  | some table, dropped _ =>
    (Prod.fst <$> table.getPart (fun _ _ => .error .notBound) index part, b)

end Binding

/-- A method that is kept: the opening of its file, and its index there. -/
structure KeptMethod where
  binding : Nat
  index : UInt32
deriving DecidableEq, Repr

structure Bindings where
  all : Array Binding := #[]

namespace Bindings

def bind (bs : Bindings) (f : SymbolFile) : Nat × Bindings :=
  (bs.all.size, ⟨bs.all.push (.live { file := f })⟩)

def drop (bs : Bindings) (n : Nat) : Bindings := ⟨bs.all.modify n Binding.drop⟩

def store? (bs : Bindings) (n : Nat) : Option Store :=
  match bs.all[n]? with
  | some (.live b) => some (.bound b)
  | _ => none

def lookup (bs : Bindings) (n : Nat) (l : Lookup α) : Except Error α × Bindings :=
  match bs.all[n]? with
  | some (.live b) =>
    let (answer, b) := l.run b
    (answer, ⟨bs.all.setIfInBounds n (.live b)⟩)
  | _ => (.error .notBound, bs)

def method? (bs : Bindings) (m : KeptMethod) : Option Method :=
  bs.all[m.binding]?.bind fun b => b.methods?.bind fun table => table.at? m.index

def part [Build] (bs : Bindings) (m : KeptMethod) (part : MethodPart) :
    Except Error part.Value × Bindings :=
  match bs.all[m.binding]? with
  | some b =>
    let (answer, b) := b.part m.index part
    (answer, ⟨bs.all.setIfInBounds m.binding b⟩)
  | none => (.error .notBound, bs)

end Bindings

end DebugSymbols
