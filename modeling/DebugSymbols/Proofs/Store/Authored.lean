import DebugSymbols.Proofs.Keys
import DebugSymbols.Proofs.Store.Calls
import DebugSymbols.Proofs.Store.Query
import Mathlib.Data.List.Sort

namespace DebugSymbols

namespace MethodDefinition

def part (d : MethodDefinition) : (part : MethodPart) → part.Value
  | .locals => d.locals
  | .blocks => d.blocks
  | .scopeVariables => d.scopeVariables
  | .lines => ⟨d.lines⟩
  | .realName => d.realName

def summary (d : MethodDefinition) (index : Nat) : MethodSummary :=
  ⟨d.token, UInt32.ofNat index, d.compileUnit, d.namespaceId, d.flags⟩

end MethodDefinition

namespace Authoring

/-- The methods with the numbers that they get in a file. -/
def numberedMethods (a : Authoring) : List (MethodDefinition × Nat) := a.sortedMethods.zipIdx 1

def sortedScopes (a : Authoring) : List AnonymousScope :=
  a.scopes.toList.mergeSort fun s t => s.id ≤ t.id

def pick (a : Authoring) : MethodKey → Except Error (MethodDefinition × Nat) :=
  pickAmong (fun (d, _) => d.token) a.numberedMethods

/-- The answer that the contents of the store give; texts have an offset in a file only. -/
def answer (a : Authoring) : (q : Query) → Except Error q.Answer
  | .source index => entryAt a.sources.toList index
  | .sources => .ok a.sources.toList
  | .findSource name =>
    match a.sources.toList.find? fun s => s.fileName == name with
    | some s => .ok s
    | none => .error (.notFound (.sourceFile name))
  | .unit index => entryAt a.units.toList index
  | .units => .ok a.units.toList
  | .method key => (fun (d, index) => d.summary index) <$> a.pick key
  | .methods => .ok (a.numberedMethods.map fun (d, index) => d.summary index)
  | .part key part => (fun (d, _) => d.part part) <$> a.pick key
  | .scope id =>
    match a.scopes.toList.find? fun s => s.id == id with
    | some s => .ok s
    | none => .error (.notFound (.anonymousScope id))
  | .scopes => .ok a.sortedScopes
  | .textAt _ => .error .notBound

variable {a : Authoring}

theorem sortedMethods_perm (a : Authoring) : a.sortedMethods.Perm a.methods.toList :=
  List.mergeSort_perm _ _

theorem sortedMethods_nodup (ha : a.WellFormed) : (a.sortedMethods.map (·.token)).Nodup :=
  (a.sortedMethods_perm.map _).nodup_iff.2 ha.tokens_nodup

theorem sortedMethods_pairwise (ha : a.WellFormed) :
    a.sortedMethods.Pairwise fun d e => d.token.value < e.token.value := by
  apply pairwise_mergeSort_of_nodup (k := fun d : MethodDefinition => d.token.value)
  have hinj := ha.tokens_nodup.map_on (f := Token.value) fun s _ t _ h => Token.value_inj.1 h
  rwa [List.map_map] at hinj

/-- Definitions in the order of their tokens can be arranged in one way only. -/
theorem sortedMethods_eq (ha : a.WellFormed) {ds : List MethodDefinition}
    (hperm : ds.Perm a.methods.toList)
    (hds : ds.Pairwise fun d e => d.token.value < e.token.value) : a.sortedMethods = ds :=
  (a.sortedMethods_perm.trans hperm.symm).eq_of_pairwise' (sortedMethods_pairwise ha) hds

theorem sortedMethods_eq_of_perm {b : Authoring} (ha : a.WellFormed) (hb : b.WellFormed)
    (h : a.methods.toList.Perm b.methods.toList) : a.sortedMethods = b.sortedMethods :=
  sortedMethods_eq ha (b.sortedMethods_perm.trans h.symm) (sortedMethods_pairwise hb)

end Authoring

end DebugSymbols
