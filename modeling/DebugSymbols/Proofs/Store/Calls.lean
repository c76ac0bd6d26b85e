import DebugSymbols.Proofs.Keys
import DebugSymbols.Proofs.Store.Changes
import DebugSymbols.Store.Lifecycle

namespace DebugSymbols

theorem forall_getElem?_push {P : Nat → α → Prop} {as : Array α} {a : α}
    (h : ∀ k b, as[k]? = some b → P k b) (ha : P as.size a) :
    ∀ k b, (as.push a)[k]? = some b → P k b := by
  intro k b hb
  rw [Array.getElem?_push] at hb
  by_cases hk : k = as.size
  · rw [if_pos hk] at hb
    cases hb
    exact hk ▸ ha
  · rw [if_neg hk] at hb
    exact h k b hb

theorem nodup_map_push {f : α → β} {as : Array α} {a : α} (h : (as.toList.map f).Nodup)
    (hnew : ∀ b ∈ as, f b ≠ f a) : ((as.push a).toList.map f).Nodup := by
  rw [Array.toList_push]
  refine nodup_map_snoc h fun hmem => ?_
  obtain ⟨b, hb, heq⟩ := List.mem_map.1 hmem
  exact hnew b (Array.mem_toList_iff.1 hb) heq

/-- A call that fills a store. -/
inductive AuthoringCall where
  | addSource (source : SourceFile)
  | addUnit (source : UInt32)
  | addInclude (unit source : UInt32)
  | defineNamespace (unit : UInt32) (name : String) (usingClauses : List String) (parent : UInt32)
  | defineMethod (d : MethodDefinition)
  | nextType
  | nextMethod
  | nextNamespace
  | defineScope (id : UInt32)
  | captureLocal (scope : UInt32) (name capturedName : String)
  | captureParameter (scope : UInt32) (name capturedName : String)
  | captureThis (scope : UInt32) (capturedName : String)
  | captureScope (scope captured : UInt32) (capturedName : String)
deriving DecidableEq, Repr

/-- The change that a call makes, and the number that it answers if it answers one. -/
def AuthoringCall.change : AuthoringCall → Authoring.Change (Option UInt32)
  | addSource source => some <$> Authoring.addSource source
  | addUnit source => some <$> Authoring.addUnit source
  | addInclude unit source => (fun _ => none) <$> Authoring.addInclude unit source
  | defineNamespace unit name usingClauses parent =>
    some <$> Authoring.defineNamespace unit name usingClauses parent
  | defineMethod d => (fun _ => none) <$> Authoring.defineMethod d
  | nextType => some <$> Authoring.nextType
  | nextMethod => some <$> Authoring.nextMethod
  | nextNamespace => some <$> Authoring.nextNamespace
  | defineScope id => (fun _ => none) <$> Authoring.defineScope id
  | captureLocal scope name capturedName =>
    (fun _ => none) <$> Authoring.captureLocal scope name capturedName
  | captureParameter scope name capturedName =>
    (fun _ => none) <$> Authoring.captureParameter scope name capturedName
  | captureThis scope capturedName => (fun _ => none) <$> Authoring.captureThis scope capturedName
  | captureScope scope captured capturedName =>
    (fun _ => none) <$> Authoring.captureScope scope captured capturedName

namespace Store

/-- The answer to a call, and the store behind it. -/
def call (s : Store) (c : AuthoringCall) : Except Error (Option UInt32) × Store := s.change c.change

/-- The store after calls, whether they succeed or fail. -/
def afterCalls (s : Store) (cs : List AuthoringCall) : Store := cs.foldl (fun s c => (s.call c).2) s

end Store

namespace Authoring

/-- Why a call is refused; the first reason counts. -/
def refusal? (a : Authoring) : AuthoringCall → Option Error
  | .addSource _ => fullTable? a.sources.size
  | .addUnit source => (a.missingSource? source).or (fullTable? a.units.size)
  | .addInclude unit source => (a.missingSource? source).or (a.missingUnit? unit)
  | .defineNamespace unit _ _ parent => (a.unknownParent? parent).or (a.missingUnit? unit)
  | .defineMethod d => a.refusedMethod? d
  | .nextType | .nextMethod | .nextNamespace => none
  | .defineScope id => a.takenScope? id
  | .captureLocal scope .. | .captureParameter scope .. | .captureThis scope ..
  | .captureScope scope .. => a.missingScope? scope

/-- The number that a call gives out, if it is one that does. -/
def number? (a : Authoring) : AuthoringCall → Option UInt32
  | .addSource _ => some (UInt32.ofNat (a.sources.size + 1))
  | .addUnit _ => some (UInt32.ofNat (a.units.size + 1))
  | .nextType => some (a.lastType + 1)
  | .nextMethod => some (a.lastMethod + 1)
  | .nextNamespace | .defineNamespace .. => some (a.lastNamespace + 1)
  | .addInclude .. | .defineMethod _ | .defineScope _ | .captureLocal .. | .captureParameter ..
  | .captureThis .. | .captureScope .. => none

/-- The contents after a call that is not refused. -/
def after (a : Authoring) : AuthoringCall → Authoring
  | .addSource source => a.pushSource source
  | .addUnit source => a.pushUnit source
  | .addInclude unit source => a.pushInclude unit source
  | .defineNamespace unit name usingClauses parent =>
    a.declareNamespace unit ⟨name, a.lastNamespace + 1, parent, usingClauses⟩
  | .defineMethod d => a.pushMethod d
  | .nextType => { a with lastType := a.lastType + 1 }
  | .nextMethod => { a with lastMethod := a.lastMethod + 1 }
  | .nextNamespace => { a with lastNamespace := a.lastNamespace + 1 }
  | .defineScope id => a.pushScope id
  | .captureLocal scope name capturedName =>
    a.pushCapture scope ⟨name, capturedName, .localVariable⟩
  | .captureParameter scope name capturedName =>
    a.pushCapture scope ⟨name, capturedName, .parameter⟩
  | .captureThis scope capturedName => a.pushCapture scope ⟨"this", capturedName, .this⟩
  | .captureScope scope captured capturedName =>
    a.modifyScope scope fun s => { s with scopes := s.scopes ++ [⟨captured, capturedName⟩] }

/-- A call is refused and then changes nothing, or it is made as a whole. -/
theorem run_change (a : Authoring) (c : AuthoringCall) :
    c.change.run a = allOrNothing (a.refusal? c) (a.number? c) a (a.after c) := by
  cases c with
  | addSource source => exact run_map_allOrNothing some (run_addSource source)
  | addUnit source => exact run_map_allOrNothing some (run_addUnit source)
  | addInclude unit source => exact run_map_allOrNothing _ (run_addInclude unit source)
  | defineNamespace unit name usingClauses parent =>
    exact run_map_allOrNothing some (run_defineNamespace unit name usingClauses parent)
  | defineMethod d => exact run_map_allOrNothing _ (run_defineMethod d)
  | nextType | nextMethod | nextNamespace => rfl
  | defineScope id => exact run_map_allOrNothing _ (run_defineScope id)
  | captureLocal scope name capturedName | captureParameter scope name capturedName
  | captureThis scope capturedName | captureScope scope captured capturedName =>
    exact run_map_allOrNothing _ (run_changeScope scope _)

/-- What holds of every store that is filled by calls. -/
structure WellFormed (a : Authoring) : Prop where
  sources : ∀ k s, a.sources[k]? = some s → s.index = UInt32.ofNat (k + 1)
  units : ∀ k u, a.units[k]? = some u → u.index = UInt32.ofNat (k + 1)
  methods : ∀ d ∈ a.methods, d.damage? = none
  tokens : ∀ t, t ∈ a.tokens ↔ ∃ d ∈ a.methods, d.token.value = t
  tokens_nodup : (a.methods.toList.map (·.token)).Nodup
  scopes_nodup : (a.scopes.toList.map (·.id)).Nodup

theorem wellFormed_new (options : StoreOptions) :
    ({ options := options } : Authoring).WellFormed where
  sources := by simp
  units := by simp
  methods := by simp
  tokens := by simp
  tokens_nodup := by simp
  scopes_nodup := by simp

/-- From `a` to `b` a change was made that keeps what holds of every store. -/
structure Keeps (a b : Authoring) : Prop where
  wellFormed : a.WellFormed → b.WellFormed
  options : b.options = a.options

namespace Keeps

variable {a : Authoring}

theorem refl (a : Authoring) : a.Keeps a := ⟨id, rfl⟩

theorem trans {b c : Authoring} (h : a.Keeps b) (h' : b.Keeps c) : a.Keeps c :=
  ⟨fun ha => h'.wellFormed (h.wellFormed ha), h'.options.trans h.options⟩

theorem numbers (type method ns : UInt32) : a.Keeps
    { a with lastType := type, lastMethod := method, lastNamespace := ns } :=
  ⟨fun h => ⟨h.sources, h.units, h.methods, h.tokens, h.tokens_nodup, h.scopes_nodup⟩, rfl⟩

theorem pushSource (source : SourceFile) : a.Keeps (a.pushSource source) := by
  refine ⟨fun h => ⟨?_, h.units, h.methods, h.tokens, h.tokens_nodup, h.scopes_nodup⟩, rfl⟩
  exact forall_getElem?_push h.sources rfl

theorem pushUnit (source : UInt32) : a.Keeps (a.pushUnit source) := by
  refine ⟨fun h => ⟨h.sources, ?_, h.methods, h.tokens, h.tokens_nodup, h.scopes_nodup⟩, rfl⟩
  exact forall_getElem?_push h.units rfl

theorem modifyUnit (index : UInt32) {f : CompileUnit → CompileUnit}
    (hf : ∀ u, (f u).index = u.index) : a.Keeps (a.modifyUnit index f) := by
  refine ⟨fun h => ⟨h.sources, fun k u hu => ?_, h.methods, h.tokens, h.tokens_nodup,
    h.scopes_nodup⟩, rfl⟩
  rw [Authoring.modifyUnit, Array.getElem?_modify] at hu
  split at hu
  · obtain ⟨v, hv, rfl⟩ := Option.map_eq_some_iff.1 hu
    rw [hf]
    exact h.units k v hv
  · exact h.units k u hu

theorem pushMethod {d : MethodDefinition} (h : a.refusedMethod? d = none) :
    a.Keeps (a.pushMethod d) := by
  obtain ⟨hvalid, -, hnew⟩ := refusedMethod?_eq_none.1 h
  refine ⟨fun h => ⟨h.sources, h.units, fun e he => ?_, fun t => ?_, ?_, h.scopes_nodup⟩, rfl⟩
  · rcases Array.mem_push.1 he with he | rfl
    · exact h.methods e he
    · exact hvalid
  · rw [Authoring.pushMethod, Std.TreeSet.mem_insert, Std.LawfulEqCmp.compare_eq_iff_eq, h.tokens]
    simp only [Array.mem_push, or_and_right, exists_or, exists_eq_left]
    exact or_comm
  · apply nodup_map_push h.tokens_nodup
    intro e he heq
    exact hnew ((h.tokens _).2 ⟨e, he, congrArg Token.value heq⟩)

theorem pushScope {id : UInt32} (h : a.takenScope? id = none) : a.Keeps (a.pushScope id) := by
  have hnew := takenScope?_eq_none.1 h
  refine ⟨fun h => ⟨h.sources, h.units, h.methods, h.tokens, h.tokens_nodup, ?_⟩, rfl⟩
  exact nodup_map_push h.scopes_nodup hnew

theorem modifyScope (id : UInt32) {f : AnonymousScope → AnonymousScope}
    (hf : ∀ s, (f s).id = s.id) : a.Keeps (a.modifyScope id f) := by
  unfold Authoring.modifyScope
  cases a.scopes.findIdx? fun s => s.id == id with
  | none => exact refl a
  | some i =>
    refine ⟨fun h => ⟨h.sources, h.units, h.methods, h.tokens, h.tokens_nodup, ?_⟩, rfl⟩
    -- The ids are the same list.
    have hids : (a.scopes.modify i f).toList.map (·.id) = a.scopes.toList.map (·.id) := by
      apply List.ext_getElem?
      intro k
      simp only [List.getElem?_map, Array.getElem?_toList, Array.getElem?_modify]
      split
      · cases a.scopes[k]? with
        | none => rfl
        | some s => exact congrArg some (hf s)
      · rfl
    rw [hids]
    exact h.scopes_nodup

theorem after {c : AuthoringCall} (h : a.refusal? c = none) : a.Keeps (a.after c) := by
  cases c with
  | addSource source => exact pushSource source
  | addUnit source => exact pushUnit source
  | addInclude unit source => exact modifyUnit unit fun _ => rfl
  | defineNamespace unit name usingClauses parent =>
    exact (numbers a.lastType a.lastMethod (a.lastNamespace + 1)).trans
      (modifyUnit unit fun _ => rfl)
  | defineMethod d => exact pushMethod h
  | nextType | nextMethod | nextNamespace => exact numbers _ _ _
  | defineScope id => exact pushScope h
  | captureLocal scope name capturedName | captureParameter scope name capturedName
  | captureThis scope capturedName | captureScope scope captured capturedName =>
    exact modifyScope scope fun _ => rfl

end Keeps

end Authoring

namespace Store

theorem call_authoring (a : Authoring) (c : AuthoringCall) :
    (authoring a).call c = match a.refusal? c with
      | some e => (.error e, authoring a)
      | none => (.ok (a.number? c), authoring (a.after c)) := by
  change (((c.change.run a).1, authoring (c.change.run a).2) : _ × Store) = _
  rw [Authoring.run_change]
  cases a.refusal? c <;> rfl

theorem exists_call_authoring (a : Authoring) (c : AuthoringCall) :
    ∃ b, ((authoring a).call c).2 = authoring b ∧ a.Keeps b := by
  rw [call_authoring]
  cases h : a.refusal? c with
  | some e => exact ⟨a, rfl, .refl a⟩
  | none => exact ⟨a.after c, rfl, .after h⟩

/-- A run of calls only ever fills the store, whether its calls succeed or fail. -/
theorem afterCalls_authoring (a : Authoring) (cs : List AuthoringCall) :
    ∃ b, (authoring a).afterCalls cs = authoring b ∧ a.Keeps b := by
  induction cs generalizing a with
  | nil => exact ⟨a, rfl, .refl a⟩
  | cons c cs ih =>
    obtain ⟨b, hstep, hkeeps⟩ := exists_call_authoring a c
    obtain ⟨b', hrest, hkeeps'⟩ := ih b
    refine ⟨b', ?_, hkeeps.trans hkeeps'⟩
    rw [← hrest, ← hstep]
    rfl

theorem afterCalls_new (options : StoreOptions) (cs : List AuthoringCall) :
    ∃ a, (Store.new options).afterCalls cs = authoring a ∧ a.WellFormed ∧ a.options = options := by
  obtain ⟨a, ha, hkeeps⟩ := afterCalls_authoring { options := options } cs
  exact ⟨a, ha, hkeeps.wellFormed (Authoring.wellFormed_new options), hkeeps.options⟩

end Store

end DebugSymbols
