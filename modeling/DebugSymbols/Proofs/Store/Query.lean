import DebugSymbols.Proofs.Build
import DebugSymbols.Proofs.Bytes.Reading
import DebugSymbols.Store.Lifecycle

namespace DebugSymbols

/-- How a method is picked. -/
inductive MethodKey where
  | index (index : UInt32)
  | token (token : Token)
deriving DecidableEq, Repr

/-- The entry under a number; the first one has the number 1. -/
def entryAt (entries : List α) (index : UInt32) : Except Error α :=
  match if index = 0 then none else entries[index.toNat - 1]? with
  | some entry => .ok entry
  | none => .error .outOfBounds

def pickAmong (token : α → Token) (entries : List α) : MethodKey → Except Error α
  | .index index => entryAt entries index
  | .token wanted =>
    match entries.find? fun entry => token entry == wanted with
    | some entry => .ok entry
    | none => .error (.methodNotFound wanted)

theorem entryAt_map (g : α → β) (entries : List α) (index : UInt32) :
    entryAt (entries.map g) index = g <$> entryAt entries index := by
  unfold entryAt
  by_cases hzero : index = 0
  · rw [if_pos hzero, if_pos hzero]
    rfl
  · rw [if_neg hzero, if_neg hzero, List.getElem?_map]
    cases entries[index.toNat - 1]? <;> rfl

theorem pickAmong_map (token : β → Token) (g : α → β) (entries : List α) (key : MethodKey) :
    pickAmong token (entries.map g) key =
      g <$> pickAmong (fun entry => token (g entry)) entries key := by
  cases key with
  | index index => exact entryAt_map g entries index
  | token wanted =>
    rw [pickAmong, pickAmong, List.find?_map]
    change (match Option.map g (entries.find? fun entry => token (g entry) == wanted) with
      | some entry => _
      | none => _) = _
    cases entries.find? fun entry => token (g entry) == wanted <;> rfl

theorem mem_of_pickAmong {token : α → Token} {entries : List α} {key : MethodKey} {entry : α}
    (h : pickAmong token entries key = .ok entry) : entry ∈ entries := by
  cases key with
  | index index =>
    rw [pickAmong, entryAt] at h
    by_cases hzero : index = 0
    · rw [if_pos hzero] at h
      cases h
    rw [if_neg hzero] at h
    cases hentry : entries[index.toNat - 1]? with
    | none =>
      rw [hentry] at h
      cases h
    | some found =>
      rw [hentry] at h
      cases h
      exact List.mem_of_getElem? hentry
  | token wanted =>
    rw [pickAmong] at h
    cases hentry : entries.find? fun entry => token entry == wanted with
    | none =>
      rw [hentry] at h
      cases h
    | some found =>
      rw [hentry] at h
      cases h
      exact List.mem_of_find?_eq_some hentry

/-- A read of a bound store. -/
inductive Query where
  | source (index : UInt32)
  | sources
  | findSource (name : String)
  | unit (index : UInt32)
  | units
  | method (key : MethodKey)
  | methods
  | part (key : MethodKey) (part : MethodPart)
  | scope (id : UInt32)
  | scopes
  | textAt (offset : UInt32)
deriving DecidableEq, Repr

/-- What a method shows of itself before any of its parts is read. -/
structure MethodSummary where
  token : Token
  index : UInt32
  compileUnit : UInt32
  namespaceId : UInt32
  flags : MethodFlags
deriving DecidableEq, Repr

def MethodRecord.summary (m : MethodRecord) : MethodSummary :=
  ⟨m.token, m.index, m.compileUnit, m.namespaceId, m.flags⟩

namespace Query

@[reducible] def Answer : Query → Type
  | .source _ | .findSource _ => SourceFile
  | .sources => List SourceFile
  | .unit _ => CompileUnit
  | .units => List CompileUnit
  | .method _ => MethodSummary
  | .methods => List MethodSummary
  | .part _ p => p.Value
  | .scope _ => AnonymousScope
  | .scopes => List AnonymousScope
  | .textAt _ => String

end Query

namespace SymbolFile

def pick (f : SymbolFile) : MethodKey → Except Error MethodRecord
  | .index index => f.method index
  | .token token => f.methodByToken token

/-- A key picks among the methods of a file.  The index 0 picks nothing, and does not read them. -/
theorem pick_eq_bind (f : SymbolFile) {key : MethodKey} (h : key ≠ .index 0) :
    f.pick key = f.methods >>= fun ms => pickAmong (·.token) ms key := by
  cases key with
  | index index =>
    have hzero : index ≠ 0 := fun hzero => h (hzero ▸ rfl)
    rw [pick, method, if_neg hzero]
    refine congrArg (f.methods >>= ·) (funext fun ms => ?_)
    rw [pickAmong, entryAt, if_neg hzero]
    cases ms[index.toNat - 1]? <;> rfl
  | token wanted =>
    refine congrArg (f.methods >>= ·) (funext fun ms => ?_)
    rw [pickAmong]
    cases ms.find? fun m => m.token == wanted <;> rfl

theorem pick_eq {f : SymbolFile} {ms : List MethodRecord} (hms : f.methods = .ok ms)
    (key : MethodKey) : f.pick key = pickAmong (·.token) ms key := by
  by_cases h : key = .index 0
  · subst h
    rfl
  · rw [f.pick_eq_bind h, hms, ok_bind]

/-- The answer that the bytes of the file give. -/
def answer (f : SymbolFile) : (q : Query) → Except Error q.Answer
  | .source index => f.sourceFile index
  | .sources => f.sources
  | .findSource name => f.findSource name
  | .unit index => f.compileUnit index
  | .units => f.compileUnits
  | .method key => MethodRecord.summary <$> f.pick key
  | .methods => List.map MethodRecord.summary <$> f.methods
  | .part key p => f.pick key >>= fun m => f.part m p
  | .scope id => f.anonymousScope id
  | .scopes => f.anonymousScopes
  | .textAt offset => f.textAt offset

end SymbolFile

namespace Bound

def pick : MethodKey → Lookup Method
  | .index index => method index
  | .token token => methodByToken token

/-- The look-up of a query; a part is read through the method that was picked. -/
def answer : (q : Query) → Lookup q.Answer
  | .source index => sourceFile index
  | .sources => allSources
  | .findSource name => findSource name
  | .unit index => compileUnit index
  | .units => compileUnits
  | .method key => (fun m => m.record.summary) <$> pick key
  | .methods => List.map (fun m => m.record.summary) <$> allMethods
  | .part key p => pick key >>= fun m => part m.record.index p
  | .scope id => anonymousScope id
  | .scopes => anonymousScopes
  | .textAt offset => textAt offset

end Bound

namespace Store

def ask (s : Store) (q : Query) : Except Error q.Answer × Store := s.lookup (Bound.answer q)

def afterQueries (s : Store) (qs : List Query) : Store := qs.foldl (fun s q => (s.ask q).2) s

end Store

end DebugSymbols
