import DebugSymbols.Proofs.Store.Authored
import DebugSymbols.Proofs.Store.History
import DebugSymbols.Store.Debug

namespace DebugSymbols

structure Appearance where
  bound : Bool
  isSealed : Bool
  parameters : LineParameters
  fileFlags : FileFlags
  sourceCount : UInt32
  compileUnitCount : UInt32
  methodCount : UInt32
  anonymousScopeCount : UInt32
  typeCount : UInt32
  description : String

/-- A call of a store, which is sealed over streams of the kind `σ`. -/
inductive StoreCall (σ : Type) where
  | fill (c : AuthoringCall)
  | sealOver (stream : σ) (guid : Guid)
  | ask (q : Query)
  | guid
  | header
  | appearance

namespace StoreCall

@[reducible] def Answer : StoreCall σ → Type
  | fill _ => Option UInt32
  | sealOver .. => Unit
  | ask q => q.Answer
  | guid => Guid
  | header => Header
  | appearance => Appearance

/-- Whether a call is one that fills the store or seals it. -/
def changes : StoreCall σ → Bool
  | fill _ | sealOver .. => true
  | ask _ | guid | header | appearance => false

def readsFile : StoreCall σ → Bool
  | ask _ | guid => true
  | fill _ | sealOver .. | header | appearance => false

def stream? : StoreCall σ → Option σ
  | sealOver stream _ => some stream
  | fill _ | ask _ | guid | header | appearance => none

end StoreCall

structure Reply (c : StoreCall σ) where
  answer : Except Error c.Answer
  stream : Option σ

namespace Store

def appearance (s : Store) : Appearance where
  bound := s.isBound
  isSealed := s.isSealed
  parameters := s.parameters
  fileFlags := s.fileFlags
  sourceCount := s.sourceCount
  compileUnitCount := s.compileUnitCount
  methodCount := s.methodCount
  anonymousScopeCount := s.anonymousScopeCount
  typeCount := s.typeCount
  description := s.debug

section Calls

variable [Sink σ]

def perform (s : Store) : (c : StoreCall σ) → Reply c × Store
  | .fill c => (⟨(s.call c).1, none⟩, (s.call c).2)
  | .sealOver stream guid =>
    let (answer, stream, s) := s.sealOver stream guid
    (⟨answer, some stream⟩, s)
  | .ask q => (⟨(s.ask q).1, none⟩, (s.ask q).2)
  | .guid => (⟨s.guid, none⟩, s)
  | .header => (⟨s.header, none⟩, s)
  | .appearance => (⟨.ok s.appearance, none⟩, s)

/-- The store after calls, whether they succeed or fail. -/
def after (s : Store) (cs : List (StoreCall σ)) : Store := cs.foldl (fun s c => (s.perform c).2) s

end Calls

/-- A store to begin with: a new one, or one that was opened over a file. -/
inductive Initial : Store → Prop
  | new (options : StoreOptions) : Initial (Store.new options)
  | opened {data : Bytes} {s : Store} (h : Store.open? data = .ok s) : Initial s
  | openedFor {data : Bytes} {guid : Guid} {s : Store} (h : Store.openFor? data guid = .ok s) :
    Initial s

end Store

namespace Authoring

def reordered (a : Authoring) (ms : Array MethodDefinition) : Authoring := { a with methods := ms }

variable {a : Authoring} {ms : Array MethodDefinition}

theorem WellFormed.reordered (ha : a.WellFormed) (hms : ms.toList.Perm a.methods.toList) :
    (a.reordered ms).WellFormed where
  sources := ha.sources
  units := ha.units
  methods d hd := ha.methods d (Array.mem_toList_iff.1 (hms.mem_iff.1 (Array.mem_toList_iff.2 hd)))
  tokens t := by
    rw [Authoring.reordered, ha.tokens]
    simp only [← Array.mem_toList_iff, hms.mem_iff]
  tokens_nodup := (hms.map _).nodup_iff.2 ha.tokens_nodup
  scopes_nodup := ha.scopes_nodup

theorem sorted_reordered (ha : a.WellFormed) (hms : ms.toList.Perm a.methods.toList) :
    (a.reordered ms).sorted = a.sorted := by
  rw [sorted, sortedMethods_eq_of_perm (ha.reordered hms) ha hms]
  rfl

theorem refusal?_reordered (c : AuthoringCall) : (a.reordered ms).refusal? c = a.refusal? c := by
  cases c <;> rfl

theorem number?_reordered (c : AuthoringCall) : (a.reordered ms).number? c = a.number? c := by
  cases c <;> rfl

theorem modifyScope_reordered (hms : ms.toList.Perm a.methods.toList) (id : UInt32)
    (f : AnonymousScope → AnonymousScope) :
    ∃ ms', (a.reordered ms).modifyScope id f = (a.modifyScope id f).reordered ms' ∧
      ms'.toList.Perm (a.modifyScope id f).methods.toList := by
  refine ⟨ms, ?_, ?_⟩
  · unfold modifyScope reordered
    dsimp only
    split <;> rfl
  · unfold modifyScope
    split <;> exact hms

theorem after_reordered (hms : ms.toList.Perm a.methods.toList) (c : AuthoringCall) :
    ∃ ms', (a.reordered ms).after c = (a.after c).reordered ms' ∧
      ms'.toList.Perm (a.after c).methods.toList := by
  cases c with
  | defineMethod d =>
    refine ⟨ms.push d, rfl, ?_⟩
    simp only [after, pushMethod, Array.toList_push]
    exact hms.append_right [d]
  | captureLocal scope name capturedName | captureParameter scope name capturedName
  | captureThis scope capturedName | captureScope scope captured capturedName =>
    exact modifyScope_reordered hms scope _
  | addSource | addUnit | addInclude | defineNamespace | nextType | nextMethod | nextNamespace
  | defineScope => exact ⟨ms, rfl, hms⟩

end Authoring

namespace Store

/-- No call tells the stores apart. -/
inductive Alike : Store → Store → Prop
  | authoring {a : Authoring} {ms : Array MethodDefinition} (ha : a.WellFormed)
    (hms : ms.toList.Perm a.methods.toList) : Alike (authoring a) (authoring (a.reordered ms))
  | sealed (header : Header) : Alike (sealed header) (sealed header)
  | bound {b b' : Bound} (hb : b.Coherent) (hb' : b'.Coherent) (hfile : b'.file = b.file) :
    Alike (bound b) (bound b')

/-- What holds of a store whatever was called: its contents are well formed, or what it has read
agrees with its file. -/
def Sound : Store → Prop
  | authoring a => a.WellFormed
  | sealed _ => True
  | bound b => b.Coherent

variable {s t : Store} {σ : Type} [Sink σ]

theorem Initial.sound (h : s.Initial) : s.Sound := by
  cases h with
  | new options => exact Authoring.wellFormed_new options
  | opened h =>
    obtain ⟨f, -, rfl⟩ := open?_eq_ok h
    exact Bound.coherent_of_file f
  | openedFor h =>
    obtain ⟨f, -, rfl⟩ := openFor?_eq_ok h
    exact Bound.coherent_of_file f

theorem Sound.alike (h : s.Sound) : s.Alike s := by
  cases s with
  | authoring a => exact @Alike.authoring a a.methods h (.refl _)
  | sealed header => exact .sealed header
  | bound b => exact .bound h h rfl

theorem Alike.sound (h : s.Alike t) : t.Sound := by
  cases h with
  | authoring ha hms => exact ha.reordered hms
  | sealed header => trivial
  | bound hb hb' hfile => exact hb'

namespace Alike

theorem appearance (h : s.Alike t) : s.appearance = t.appearance := by
  cases h with
  | @authoring a ms ha hms =>
    have hcount : (Store.authoring (a.reordered ms)).methodCount =
        (Store.authoring a).methodCount :=
      congrArg (fun count => UInt32.ofNat (min count 0xFFFFFFFF)) hms.length_eq
    simp only [Store.appearance, Store.debug, hcount]
    rfl
  | sealed header => rfl
  | @bound b b' hb hb' hfile =>
    obtain ⟨file, position, sources, units, methods, scopes⟩ := b'
    cases hfile
    rfl

theorem guid (h : s.Alike t) : s.guid = t.guid := by
  cases h with
  | authoring | sealed => rfl
  | bound hb hb' hfile => simp only [Store.guid, hfile]

theorem header (h : s.Alike t) : s.header = t.header := by
  cases h with
  | authoring | sealed => rfl
  | bound hb hb' hfile => simp only [Store.header, hfile]

theorem fill (h : s.Alike t) (c : AuthoringCall) :
    (s.call c).1 = (t.call c).1 ∧ (s.call c).2.Alike (t.call c).2 := by
  cases h with
  | @authoring a ms ha hms =>
    rw [call_authoring, call_authoring, Authoring.refusal?_reordered, Authoring.number?_reordered]
    cases hrefusal : a.refusal? c with
    | some e => exact ⟨rfl, .authoring ha hms⟩
    | none =>
      obtain ⟨ms', hafter, hms'⟩ := Authoring.after_reordered hms c
      rw [hafter]
      exact ⟨rfl, .authoring ((Authoring.Keeps.after hrefusal).wellFormed ha) hms'⟩
  | sealed header => exact ⟨rfl, .sealed header⟩
  | bound hb hb' hfile => exact ⟨rfl, .bound hb hb' hfile⟩

theorem sealOver (h : s.Alike t) (stream : σ) (guid : Guid) :
    (s.sealOver stream guid).1 = (t.sealOver stream guid).1 ∧
      (s.sealOver stream guid).2.1 = (t.sealOver stream guid).2.1 ∧
      (s.sealOver stream guid).2.2.Alike (t.sealOver stream guid).2.2 := by
  cases h with
  | @authoring a ms ha hms =>
    have hsorted : a.sorted.WellFormed := ha.reordered a.sortedMethods_perm
    rw [Store.sealOver, Store.sealOver, Authoring.sorted_reordered ha hms]
    rcases (a.sorted.writeFile guid).run stream with ⟨e | header, stream⟩
    · exact ⟨rfl, rfl, Sound.alike (s := .authoring a.sorted) hsorted⟩
    · exact ⟨rfl, rfl, .sealed header⟩
  | sealed header => exact ⟨rfl, rfl, .sealed header⟩
  | bound hb hb' hfile => exact ⟨rfl, rfl, .bound hb hb' hfile⟩

theorem ask (h : s.Alike t) (q : Query) :
    (s.ask q).1 = (t.ask q).1 ∧ (s.ask q).2.Alike (t.ask q).2 := by
  cases h with
  | authoring ha hms => exact ⟨rfl, .authoring ha hms⟩
  | sealed header => exact ⟨rfl, .sealed header⟩
  | bound hb hb' hfile =>
    obtain ⟨hanswer, c, hc, hext⟩ := ask_bound hb q
    obtain ⟨hanswer', c', hc', hext'⟩ := ask_bound hb' q
    rw [hc, hc', hanswer, hanswer', hfile]
    refine ⟨rfl, .bound hext.coherent hext'.coherent ?_⟩
    rw [hext.file_eq, hext'.file_eq, hfile]

/-- Stores that are alike answer a call alike, write the same, and stay alike. -/
theorem perform (h : s.Alike t) (c : StoreCall σ) :
    (s.perform c).1 = (t.perform c).1 ∧ (s.perform c).2.Alike (t.perform c).2 := by
  cases c with
  | fill c =>
    obtain ⟨hanswer, hnext⟩ := h.fill c
    exact ⟨by rw [Store.perform, hanswer]; rfl, hnext⟩
  | sealOver stream guid =>
    obtain ⟨hanswer, hstream, hnext⟩ := h.sealOver stream guid
    exact ⟨by simp only [Store.perform, hanswer, hstream], hnext⟩
  | ask q =>
    obtain ⟨hanswer, hnext⟩ := h.ask q
    exact ⟨by simp only [Store.perform, hanswer], hnext⟩
  | guid => exact ⟨by simp only [Store.perform, h.guid], h⟩
  | header => exact ⟨by simp only [Store.perform, h.header], h⟩
  | appearance => exact ⟨by simp only [Store.perform, h.appearance], h⟩

theorem after (h : s.Alike t) (cs : List (StoreCall σ)) : (s.after cs).Alike (t.after cs) := by
  induction cs generalizing s t with
  | nil => exact h
  | cons c cs ih => exact ih (h.perform c).2

end Alike

theorem Sound.after (h : s.Sound) (cs : List (StoreCall σ)) : (s.after cs).Sound :=
  (h.alike.after cs).sound

theorem sealOver_error {stream : σ} {guid : Guid} {e : Error} (h : s.Sound)
    (he : (s.sealOver stream guid).1 = .error e) : s.Alike (s.sealOver stream guid).2.2 := by
  cases s with
  | authoring a =>
    rw [sealOver] at he ⊢
    generalize (a.sorted.writeFile guid).run stream = result at he ⊢
    obtain ⟨e | header, stream⟩ := result
    · -- The methods stay in the order of the file.
      exact .authoring h a.sortedMethods_perm
    · cases he
  | sealed header => exact .sealed header
  | bound b => exact h.alike

/-- A call that fails leaves a store that cannot be told from the one before. -/
theorem Sound.perform_error {c : StoreCall σ} {e : Error} (h : s.Sound)
    (he : (s.perform c).1.answer = .error e) : s.Alike (s.perform c).2 := by
  cases c with
  | fill c =>
    cases s with
    | authoring a =>
      simp only [perform, call_authoring] at he ⊢
      cases hrefusal : a.refusal? c with
      | some e => exact h.alike
      | none =>
        rw [hrefusal] at he
        cases he
    | sealed header => exact .sealed header
    | bound b => exact h.alike
  | sealOver stream guid => exact sealOver_error h he
  | ask q =>
    cases s with
    | authoring a => exact h.alike
    | sealed header => exact .sealed header
    | bound b =>
      obtain ⟨-, b', hb', hext⟩ := ask_bound h q
      rw [perform, hb']
      exact .bound h hext.coherent hext.file_eq
  | guid | header | appearance => exact h.alike

end Store

end DebugSymbols
