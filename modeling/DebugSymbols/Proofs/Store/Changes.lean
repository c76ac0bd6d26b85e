import DebugSymbols.Store.Authoring
import Std.Data.TreeSet.Lemmas

namespace DebugSymbols

theorem treeSet_insert_of_mem {t : Std.TreeSet UInt32} {k : UInt32} (h : k ∈ t) :
    t.insert k = t := by
  obtain ⟨⟨⟨i, hi⟩⟩⟩ := t
  have hmem : i.contains k = true := h
  have hinsert : Std.DTreeMap.Internal.Impl.insertIfNew k () i hi.balanced =
      ⟨i, hi.balanced, by simp, by omega⟩ := by
    unfold Std.DTreeMap.Internal.Impl.insertIfNew
    exact dif_pos hmem
  simp only [Std.TreeSet.insert, Std.TreeMap.insertIfNew, Std.DTreeMap.insertIfNew, hinsert]

namespace Authoring

/-- A change that is refused, and then leaves the contents alone, or is made as a whole. -/
def allOrNothing (refusal? : Option Error) (answer : α) (a b : Authoring) :
    Except Error α × Authoring :=
  match refusal? with
  | some e => (.error e, a)
  | none => (.ok answer, b)

def fullTable? (size : Nat) : Option Error :=
  if size + 1 < 0x100000000 then none else some (.malformed (.tableTooLong (size + 1)))

def missingSource? (a : Authoring) (index : UInt32) : Option Error :=
  if a.hasSource index then none else some .outOfBounds

def missingUnit? (a : Authoring) (index : UInt32) : Option Error :=
  if a.hasUnit index then none else some .outOfBounds

def missingScope? (a : Authoring) (id : UInt32) : Option Error :=
  if a.scopes.any fun s => s.id == id then none else some (.notFound (.anonymousScope id))

def takenScope? (a : Authoring) (id : UInt32) : Option Error :=
  if a.scopes.any fun s => s.id == id then some (.duplicate (.anonymousScope id)) else none

def takenToken? (a : Authoring) (token : Token) : Option Error :=
  if token.value ∈ a.tokens then some (.duplicate (.method token)) else none

def unknownParent? (a : Authoring) (parent : UInt32) : Option Error :=
  if a.lastNamespace < parent then some .outOfBounds else none

/-- Why a definition is refused; the first reason counts. -/
def refusedMethod? (a : Authoring) (d : MethodDefinition) : Option Error :=
  (d.damage?.map .malformed).or ((a.missingUnit? d.compileUnit).or (a.takenToken? d.token))

def pushSource (a : Authoring) (source : SourceFile) : Authoring :=
  { a with sources := a.sources.push { source with index := UInt32.ofNat (a.sources.size + 1) } }

def pushUnit (a : Authoring) (source : UInt32) : Authoring :=
  { a with units :=
      a.units.push { index := UInt32.ofNat (a.units.size + 1), source := source } }

def pushInclude (a : Authoring) (unit source : UInt32) : Authoring :=
  a.modifyUnit unit fun u => { u with includes := u.includes ++ [source] }

def declareNamespace (a : Authoring) (unit : UInt32) (n : Namespace) : Authoring :=
  { a with lastNamespace := n.index }.modifyUnit unit fun u =>
    { u with namespaces := u.namespaces ++ [n] }

def pushMethod (a : Authoring) (d : MethodDefinition) : Authoring :=
  { a with methods := a.methods.push d, tokens := a.tokens.insert d.token.value }

def pushScope (a : Authoring) (id : UInt32) : Authoring :=
  { a with scopes := a.scopes.push { id := id } }

/-- The contents with the first scope of an id changed. -/
def modifyScope (a : Authoring) (id : UInt32) (f : AnonymousScope → AnonymousScope) : Authoring :=
  match a.scopes.findIdx? fun s => s.id == id with
  | some i => { a with scopes := a.scopes.modify i f }
  | none => a

def pushCapture (a : Authoring) (id : UInt32) (v : CapturedVariable) : Authoring :=
  a.modifyScope id fun s => { s with captured := s.captured ++ [v] }

variable {a b : Authoring}

theorem missingUnit?_eq_none {index : UInt32} :
    a.missingUnit? index = none ↔ a.hasUnit index = true := by
  simp [missingUnit?]

theorem missingSource?_eq_none {index : UInt32} :
    a.missingSource? index = none ↔ a.hasSource index = true := by
  simp [missingSource?]

theorem unknownParent?_eq_none {parent : UInt32} :
    a.unknownParent? parent = none ↔ parent ≤ a.lastNamespace := by
  simp [unknownParent?]

theorem fullTable?_eq_none {size : Nat} : fullTable? size = none ↔ size + 1 < 0x100000000 := by
  simp only [fullTable?, ite_eq_left_iff, reduceCtorEq, imp_false, Decidable.not_not]

theorem takenScope?_eq_none {id : UInt32} :
    a.takenScope? id = none ↔ ∀ s ∈ a.scopes, s.id ≠ id := by
  simp [takenScope?, Array.forall_mem_iff_forall_getElem]

theorem refusedMethod?_eq_none {d : MethodDefinition} :
    a.refusedMethod? d = none ↔
      d.damage? = none ∧ a.hasUnit d.compileUnit = true ∧ d.token.value ∉ a.tokens := by
  simp [refusedMethod?, missingUnit?, takenToken?]

theorem run_map_allOrNothing {x : Change α} {refusal? : Option Error} {answer : α} (g : α → β)
    (hx : x.run a = allOrNothing refusal? answer a b) :
    (g <$> x).run a = allOrNothing refusal? (g answer) a b := by
  rw [Step.run_map, hx]
  cases refusal? <;> rfl

/-- A check ahead of a change only adds its reason to refuse. -/
theorem run_check_bind {x : Change β} {f : β → Change α} {first second : Option Error} {v : β}
    {answer : α} (hx : x.run a = allOrNothing first v a a)
    (hf : (f v).run a = allOrNothing second answer a b) :
    (x >>= f).run a = allOrNothing (first.or second) answer a b := by
  rw [Step.run_bind, hx]
  cases first with
  | some e => rfl
  | none => exact hf

theorem run_get_bind {f : Authoring → Change α} :
    ((get : Change Authoring) >>= f).run a = (f a).run a := by
  rw [Step.run_bind, Step.run_get]

theorem run_nextIndex (size : Nat) :
    (liftM (nextIndex size) : Change UInt32).run a =
      allOrNothing (fullTable? size) (UInt32.ofNat (size + 1)) a a := by
  rw [Step.run_lift, nextIndex, tableLength, fullTable?]
  split <;> rfl

theorem run_checkSource (index : UInt32) :
    (checkSource index).run a = allOrNothing (a.missingSource? index) () a a := by
  rw [checkSource, run_get_bind, missingSource?]
  split <;> rfl

theorem run_checkUnit (index : UInt32) :
    (checkUnit index).run a = allOrNothing (a.missingUnit? index) () a a := by
  rw [checkUnit, run_get_bind, missingUnit?]
  split <;> rfl

theorem run_changeUnit (index : UInt32) (f : CompileUnit → CompileUnit) :
    (changeUnit index f).run a =
      allOrNothing (a.missingUnit? index) () a (a.modifyUnit index f) := by
  rw [changeUnit, ← Option.or_none (o := a.missingUnit? index)]
  exact run_check_bind (run_checkUnit index) rfl

theorem run_addSource (source : SourceFile) :
    (addSource source).run a = allOrNothing (fullTable? a.sources.size)
      (UInt32.ofNat (a.sources.size + 1)) a (a.pushSource source) := by
  rw [addSource, run_get_bind, ← Option.or_none (o := fullTable? a.sources.size)]
  exact run_check_bind (run_nextIndex a.sources.size) rfl

theorem run_addUnit (source : UInt32) :
    (addUnit source).run a =
      allOrNothing ((a.missingSource? source).or (fullTable? a.units.size))
        (UInt32.ofNat (a.units.size + 1)) a (a.pushUnit source) := by
  rw [addUnit]
  apply run_check_bind (run_checkSource source)
  rw [run_get_bind, ← Option.or_none (o := fullTable? a.units.size)]
  exact run_check_bind (run_nextIndex a.units.size) rfl

theorem run_addInclude (unit source : UInt32) :
    (addInclude unit source).run a =
      allOrNothing ((a.missingSource? source).or (a.missingUnit? unit)) () a
        (a.pushInclude unit source) :=
  run_check_bind (run_checkSource source) (run_changeUnit unit _)

theorem run_nextNamespace : nextNamespace.run a =
    (.ok (a.lastNamespace + 1), { a with lastNamespace := a.lastNamespace + 1 }) := rfl

/-- The counter moves only once the unit is known, so that the namespace finds its place. -/
theorem run_defineNamespace (unit : UInt32) (name : String) (usingClauses : List String)
    (parent : UInt32) :
    (defineNamespace unit name usingClauses parent).run a =
      allOrNothing ((a.unknownParent? parent).or (a.missingUnit? unit)) (a.lastNamespace + 1) a
        (a.declareNamespace unit ⟨name, a.lastNamespace + 1, parent, usingClauses⟩) := by
  rw [defineNamespace, run_get_bind, unknownParent?]
  split
  · rfl
  rw [Step.run_bind, run_checkUnit, Option.none_or]
  cases hunit : a.missingUnit? unit with
  | some e => rfl
  | none =>
    have hstill : ({ a with lastNamespace := a.lastNamespace + 1 } : Authoring).missingUnit? unit =
        none := hunit
    dsimp only [allOrNothing]
    rw [Step.run_bind, run_nextNamespace]
    dsimp only
    rw [Step.run_bind, run_changeUnit, hstill]
    rfl

/-- A token that is taken is put into the set once more, where it stands already. -/
theorem run_claimToken (token : Token) :
    (claimToken token).run a = allOrNothing (a.takenToken? token) () a
      { a with tokens := a.tokens.insert token.value } := by
  rw [claimToken, run_get_bind, takenToken?]
  dsimp only
  rw [Std.TreeSet.containsThenInsert_fst, Std.TreeSet.containsThenInsert_snd, Step.run_bind]
  change (if _ then _ else _ : Change Unit).run { a with tokens := a.tokens.insert token.value } = _
  by_cases htaken : token.value ∈ a.tokens
  · rw [if_pos htaken, if_pos (Std.TreeSet.contains_iff_mem.2 htaken),
      treeSet_insert_of_mem htaken]
    rfl
  · rw [if_neg htaken, if_neg fun h => htaken (Std.TreeSet.contains_iff_mem.1 h)]
    rfl

theorem run_defineMethod (d : MethodDefinition) :
    (defineMethod d).run a = allOrNothing (a.refusedMethod? d) () a (a.pushMethod d) := by
  have hvalidate : (liftM d.validate : Change Unit).run a =
      allOrNothing (d.damage?.map .malformed) () a a := by
    rw [Step.run_lift, MethodDefinition.validate]
    cases d.damage? <;> rfl
  refine run_check_bind hvalidate (run_check_bind (run_checkUnit d.compileUnit) ?_)
  rw [Step.run_bind, run_claimToken]
  cases a.takenToken? d.token <;> rfl

theorem run_defineScope (id : UInt32) :
    (defineScope id).run a = allOrNothing (a.takenScope? id) () a (a.pushScope id) := by
  rw [defineScope, run_get_bind, takenScope?]
  split <;> rfl

theorem run_changeScope (id : UInt32) (f : AnonymousScope → AnonymousScope) :
    (changeScope id f).run a =
      allOrNothing (a.missingScope? id) () a (a.modifyScope id f) := by
  have hany : (a.scopes.findIdx? fun s => s.id == id).isSome = a.scopes.any fun s => s.id == id := by
    simp
  rw [changeScope, run_get_bind, missingScope?, ← hany, modifyScope]
  cases a.scopes.findIdx? fun s => s.id == id <;> rfl

end Authoring

end DebugSymbols
