import DebugSymbols.Proofs.Bytes.Rounds
import DebugSymbols.Proofs.Header
import DebugSymbols.Proofs.Store.ReadEntries
import Mathlib.Algebra.Order.BigOperators.Group.List
import Mathlib.Algebra.Order.Ring.Nat
import Mathlib.Data.List.Perm.Subperm

namespace DebugSymbols

open Reader (Spends)
open Tallied (Within Yields)

section Elements

theorem LocalVariable.spends_read : Spends 1 LocalVariable.read :=
  (Spends.varint.bind fun index => Spends.text.bind fun name => Spends.varint.bind fun blockIndex =>
    Spends.pure (⟨index, name, blockIndex⟩ : LocalVariable)).mono (by decide)

theorem ScopeVariable.spends_read : Spends 1 ScopeVariable.read :=
  (Spends.varint.bind fun scope => Spends.varint.bind fun localIndex =>
    Spends.pure (⟨scope, localIndex⟩ : ScopeVariable)).mono (by decide)

theorem CodeBlock.spends_read (index : UInt32) : Spends 1 (CodeBlock.read index) := by
  refine Spends.varint.bind (w := 0) fun code => ?_
  cases BlockKind.ofCode? code with
  | none => exact Spends.malformed _
  | some kind =>
    exact (Spends.signedVarint.bind fun parent => Spends.varint.bind fun startOffset =>
      Spends.varint.bind fun endOffset => Spends.pure _).mono (Nat.zero_le _)

theorem CapturedVariable.spends_read (scope : UInt32) : Spends 1 (CapturedVariable.read scope) := by
  refine (Spends.text.bind (w := 2) fun name => Spends.text.bind (w := 1) fun capturedName =>
    Spends.u8.bind (w := 0) fun code => ?_).mono (by decide)
  cases CaptureKind.ofCode? code with
  | none => exact Spends.malformed _
  | some kind => exact Spends.pure _

theorem CapturedScope.spends_read : Spends 1 CapturedScope.read :=
  (Spends.varint.bind fun scope => Spends.text.bind fun capturedName =>
    Spends.pure (⟨scope, capturedName⟩ : CapturedScope)).mono (by decide)

end Elements

section Entries

open Tallied (lift counted indexed)

def Namespace.tallied : Tallied Namespace := do
  let name ← lift Reader.text
  let index ← lift Reader.varint
  let parent ← lift Reader.varint
  let usingClauses ← counted (lift Reader.text)
  pure ⟨name, index, parent, usingClauses⟩

def CompileUnit.tallied (index : UInt32) : Tallied CompileUnit := do
  let source ← lift Reader.varint
  let includes ← counted (lift Reader.varint)
  let namespaces ← counted Namespace.tallied
  pure ⟨index, source, includes, namespaces⟩

def AnonymousScope.tallied : Tallied AnonymousScope := do
  let id ← lift Reader.varint
  let vs ← counted (lift (CapturedVariable.read id))
  let scopes ← counted (lift CapturedScope.read)
  pure ⟨id, vs, scopes⟩

theorem Namespace.reader_tallied : Namespace.tallied.reader = Namespace.read := by
  simp only [tallied, Tallied.reader_bind, Tallied.reader_lift, Tallied.reader_counted,
    Tallied.reader_pure]
  rfl

theorem CompileUnit.reader_tallied (index : UInt32) :
    (CompileUnit.tallied index).reader = CompileUnit.read index := by
  simp only [tallied, Tallied.reader_bind, Tallied.reader_lift, Tallied.reader_counted,
    Tallied.reader_pure, Namespace.reader_tallied]
  rfl

theorem AnonymousScope.reader_tallied : AnonymousScope.tallied.reader = AnonymousScope.read := by
  simp only [tallied, Tallied.reader_bind, Tallied.reader_lift, Tallied.reader_counted,
    Tallied.reader_pure]
  rfl

theorem Namespace.within_tallied : Within 0 1 Namespace.tallied :=
  (Within.lift .text |>.bind fun name => Within.lift .varint |>.bind fun index =>
    Within.lift .varint |>.bind fun parent =>
      (Within.counted (.lift .text)).bind fun usingClauses =>
        Within.pure (⟨name, index, parent, usingClauses⟩ : Namespace)).mono (by decide)

theorem CompileUnit.within_tallied (index : UInt32) : Within 0 1 (CompileUnit.tallied index) :=
  (Within.lift .varint |>.bind fun source => (Within.counted (.lift .varint)).bind fun includes =>
    (Within.counted Namespace.within_tallied).bind fun namespaces =>
      Within.pure (⟨index, source, includes, namespaces⟩ : CompileUnit)).mono (by decide)

theorem AnonymousScope.within_tallied : Within 0 1 AnonymousScope.tallied :=
  (Within.lift .varint |>.bind fun id =>
    (Within.counted (.lift (CapturedVariable.spends_read id))).bind fun vs =>
      (Within.counted (.lift CapturedScope.spends_read)).bind fun scopes =>
        Within.pure (⟨id, vs, scopes⟩ : AnonymousScope)).mono (by decide)

theorem Namespace.yields_tallied :
    Yields (fun n => n.usingClauses.length) Namespace.tallied := by
  intro data p q a n h
  obtain ⟨name, m₁, n₁, r₁, hname, h₁, rfl⟩ := Tallied.bind_eq_ok.1 h
  obtain ⟨index, m₂, n₂, r₂, hindex, h₂, rfl⟩ := Tallied.bind_eq_ok.1 h₁
  obtain ⟨parent, m₃, n₃, r₃, hparent, h₃, rfl⟩ := Tallied.bind_eq_ok.1 h₂
  obtain ⟨usingClauses, m₄, n₄, r₄, hclauses, h₄, rfl⟩ := Tallied.bind_eq_ok.1 h₃
  cases h₄
  simp only [Tally.made_add, Yields.lift _ _ _ _ _ _ hname, Yields.lift _ _ _ _ _ _ hindex,
    Yields.lift _ _ _ _ _ _ hparent, Yields.counted_lift _ _ _ _ _ _ hclauses, Nat.zero_add,
    Nat.add_zero]

theorem CompileUnit.yields_tallied (index : UInt32) :
    Yields (fun u => u.includes.length + (u.namespaces.map fun n => n.usingClauses.length + 1).sum)
      (CompileUnit.tallied index) := by
  intro data p q a n h
  obtain ⟨source, m₁, n₁, r₁, hsource, h₁, rfl⟩ := Tallied.bind_eq_ok.1 h
  obtain ⟨includes, m₂, n₂, r₂, hincludes, h₂, rfl⟩ := Tallied.bind_eq_ok.1 h₁
  obtain ⟨namespaces, m₃, n₃, r₃, hnamespaces, h₃, rfl⟩ := Tallied.bind_eq_ok.1 h₂
  cases h₃
  simp only [Tally.made_add, Yields.lift _ _ _ _ _ _ hsource,
    Yields.counted_lift _ _ _ _ _ _ hincludes,
    Yields.counted Namespace.yields_tallied _ _ _ _ _ hnamespaces, Nat.zero_add, Nat.add_zero]

theorem AnonymousScope.yields_tallied :
    Yields (fun s => s.captured.length + s.scopes.length) AnonymousScope.tallied := by
  intro data p q a n h
  obtain ⟨id, m₁, n₁, r₁, hid, h₁, rfl⟩ := Tallied.bind_eq_ok.1 h
  obtain ⟨vs, m₂, n₂, r₂, hvs, h₂, rfl⟩ := Tallied.bind_eq_ok.1 h₁
  obtain ⟨scopes, m₃, n₃, r₃, hscopes, h₃, rfl⟩ := Tallied.bind_eq_ok.1 h₂
  cases h₃
  simp only [Tally.made_add, Yields.lift _ _ _ _ _ _ hid, Yields.counted_lift _ _ _ _ _ _ hvs,
    Yields.counted_lift _ _ _ _ _ _ hscopes, Nat.zero_add, Nat.add_zero]

end Entries

/-- What is read as often as a number says: the tables of a method, the lists of a namespace, of a
compile unit and of an anonymous scope, and the table of all anonymous scopes, whose number stands
in the header. -/
inductive CountDriven where
  | locals
  | blocks
  | scopeVariables
  | declaredNamespace
  | compileUnit (index : UInt32)
  | anonymousScope
  | scopeTable (count : UInt32)
deriving DecidableEq, Repr

namespace CountDriven

open Tallied (lift counted indexed)

abbrev Value : CountDriven → Type
  | locals => List LocalVariable
  | blocks => List CodeBlock
  | scopeVariables => List ScopeVariable
  | declaredNamespace => Namespace
  | compileUnit _ => CompileUnit
  | anonymousScope => AnonymousScope
  | scopeTable _ => Std.TreeMap UInt32 AnonymousScope

def reader : (k : CountDriven) → Reader k.Value
  | locals => Reader.counted LocalVariable.read
  | blocks => CodeBlock.readTable
  | scopeVariables => Reader.counted ScopeVariable.read
  | declaredNamespace => Namespace.read
  | compileUnit index => CompileUnit.read index
  | anonymousScope => AnonymousScope.read
  | scopeTable count => SymbolFile.readScopes count

def storedCount : CountDriven → Reader UInt32
  | locals | blocks | scopeVariables => Reader.varint
  | declaredNamespace => do
    let _ ← Reader.text
    let _ ← Reader.varint
    let _ ← Reader.varint
    Reader.varint
  | compileUnit _ | anonymousScope => do
    let _ ← Reader.varint
    Reader.varint
  | scopeTable count => pure count

def elements : (k : CountDriven) → k.Value → Nat
  | locals, ls => List.length ls
  | blocks, bs => List.length bs
  | scopeVariables, vs => List.length vs
  | declaredNamespace, n => n.usingClauses.length
  | compileUnit _, u =>
    u.includes.length + (u.namespaces.map fun n => n.usingClauses.length + 1).sum
  | anonymousScope, s => s.captured.length + s.scopes.length
  | scopeTable _, table =>
    (table.toList.map fun entry => entry.2.captured.length + entry.2.scopes.length + 1).sum

def tallied : (k : CountDriven) → Tallied k.Value
  | locals => counted (lift LocalVariable.read)
  | blocks => do
    let count ← lift Reader.varint
    indexed (fun i => lift (CodeBlock.read (UInt32.ofNat i))) 1 count.toNat
  | scopeVariables => counted (lift ScopeVariable.read)
  | declaredNamespace => Namespace.tallied
  | compileUnit index => CompileUnit.tallied index
  | anonymousScope => AnonymousScope.tallied
  | scopeTable count => do
    let scopes ← indexed (fun _ => AnonymousScope.tallied) 0 count.toNat
    pure (scopes.foldl (fun table s => table.insert s.id s) ∅)

theorem reader_tallied (k : CountDriven) : k.tallied.reader = k.reader := by
  cases k with
  | locals => exact Tallied.reader_counted _
  | blocks =>
    simp only [tallied, Tallied.reader_bind, Tallied.reader_lift, Tallied.reader_indexed]
    rfl
  | scopeVariables => exact Tallied.reader_counted _
  | declaredNamespace => exact Namespace.reader_tallied
  | compileUnit index => exact CompileUnit.reader_tallied index
  | anonymousScope => exact AnonymousScope.reader_tallied
  | scopeTable count =>
    simp only [tallied, Tallied.reader_bind, Tallied.reader_indexed, AnonymousScope.reader_tallied]
    rfl

theorem within_tallied (k : CountDriven) : Within 0 0 k.tallied := by
  cases k with
  | locals => exact (Within.counted (.lift LocalVariable.spends_read)).mono (Nat.zero_le _)
  | blocks =>
    exact ((Within.lift .varint).bind fun count =>
      Within.indexed (fun i => .lift (CodeBlock.spends_read _)) 1 count.toNat).mono (Nat.zero_le _)
  | scopeVariables => exact (Within.counted (.lift ScopeVariable.spends_read)).mono (Nat.zero_le _)
  | declaredNamespace => exact Namespace.within_tallied.mono (Nat.zero_le _)
  | compileUnit index => exact (CompileUnit.within_tallied index).mono (Nat.zero_le _)
  | anonymousScope => exact AnonymousScope.within_tallied.mono (Nat.zero_le _)
  | scopeTable count =>
    exact (Within.indexed (fun _ => AnonymousScope.within_tallied) 0 count.toNat).bind fun _ =>
      Within.pure _

theorem sum_listedScopes_le (weight : AnonymousScope → Nat) (scopes : List AnonymousScope) :
    ((listedScopes scopes).map weight).sum ≤ (scopes.map weight).sum := by
  have hnodup : (listedScopes scopes).Nodup := (nodup_listedScopes scopes).of_map
  have hsubset : listedScopes scopes ⊆ scopes := fun s hs =>
    List.mem_reverse.1 (List.mem_of_find?_eq_some (mem_listedScopes.1 hs))
  obtain ⟨kept, hperm, hsublist⟩ := hnodup.subperm hsubset
  rw [← (hperm.map weight).sum_eq]
  exact (hsublist.map weight).sum_le_sum fun n _ => Nat.zero_le n

theorem elements_le_made {k : CountDriven} {data : Bytes} {p q : Nat} {a : k.Value} {n : Tally}
    (h : k.tallied data p = ((.ok a, q), n)) : k.elements a ≤ n.made := by
  cases k with
  | locals => exact (Yields.counted_lift _ _ _ _ _ _ h).ge
  | blocks =>
    obtain ⟨count, m, n₁, n₂, hcount, hblocks, rfl⟩ := Tallied.bind_eq_ok.1 h
    rw [Tally.made_add, Yields.indexed_lift _ _ _ _ _ _ _ _ hblocks]
    exact Nat.le_add_left _ _
  | scopeVariables => exact (Yields.counted_lift _ _ _ _ _ _ h).ge
  | declaredNamespace => exact (Namespace.yields_tallied _ _ _ _ _ h).ge
  | compileUnit index => exact (CompileUnit.yields_tallied index _ _ _ _ _ h).ge
  | anonymousScope => exact (AnonymousScope.yields_tallied _ _ _ _ _ h).ge
  | scopeTable count =>
    obtain ⟨scopes, m, n₁, n₂, hscopes, htable, rfl⟩ := Tallied.bind_eq_ok.1 h
    cases htable
    have hmade := Yields.indexed (fun _ => AnonymousScope.yields_tallied) _ _ _ _ _ _ _ hscopes
    have hlisted := sum_listedScopes_le (fun s => s.captured.length + s.scopes.length + 1) scopes
    rw [listedScopes, List.map_map] at hlisted
    rw [Tally.made_add, hmade]
    exact hlisted.trans (Nat.le_add_right _ _)

theorem storedCount_le_told {k : CountDriven} {data : Bytes} {p m : Nat} {count : UInt32}
    (h : k.storedCount data p = (.ok count, m)) : count.toNat ≤ (k.tallied data p).2.told := by
  have hlift {α : Type} {r : Reader α} {p q : Nat} {a : α} (hread : r data p = (.ok a, q)) :
      lift r data p = ((.ok a, q), {}) := Tallied.lift_eq_iff.2 ⟨hread, rfl⟩
  cases k with
  | locals => exact Tallied.le_told_counted h
  | blocks =>
    simp only [tallied]
    exact Tallied.le_told_bind_of_ok (hlift h) (Tallied.le_told_indexed _ _ _)
  | scopeVariables => exact Tallied.le_told_counted h
  | declaredNamespace =>
    obtain ⟨name, m₁, hname, h₁⟩ := Reader.bind_eq_ok.1 h
    obtain ⟨index, m₂, hindex, h₂⟩ := Reader.bind_eq_ok.1 h₁
    obtain ⟨parent, m₃, hparent, hcount⟩ := Reader.bind_eq_ok.1 h₂
    simp only [tallied, Namespace.tallied]
    apply Tallied.le_told_bind_of_ok (hlift hname)
    apply Tallied.le_told_bind_of_ok (hlift hindex)
    apply Tallied.le_told_bind_of_ok (hlift hparent)
    exact Tallied.le_told_bind (Tallied.le_told_counted hcount)
  | compileUnit index =>
    obtain ⟨source, m₁, hsource, hcount⟩ := Reader.bind_eq_ok.1 h
    simp only [tallied, CompileUnit.tallied]
    apply Tallied.le_told_bind_of_ok (hlift hsource)
    exact Tallied.le_told_bind (Tallied.le_told_counted hcount)
  | anonymousScope =>
    obtain ⟨id, m₁, hid, hcount⟩ := Reader.bind_eq_ok.1 h
    simp only [tallied, AnonymousScope.tallied]
    apply Tallied.le_told_bind_of_ok (hlift hid)
    exact Tallied.le_told_bind (Tallied.le_told_counted hcount)
  | scopeTable count =>
    cases h
    simp only [tallied]
    exact Tallied.le_told_bind (Tallied.le_told_indexed _ _ _)

/-- From `p` on there is a byte of the stream for each round that comes to an end, and a loop that
succeeds makes the rounds that it was told to make.  Hence a loop that is told to make too many
fails, after no more rounds than there are bytes. -/
structure Bounded (k : CountDriven) (data : Bytes) (p : Nat) : Prop where
  answer : (k.tallied data p).1 = k.reader data p
  storedCount_le : ∀ {count : UInt32} {m : Nat}, k.storedCount data p = (.ok count, m) →
    count.toNat ≤ (k.tallied data p).2.told
  rounds_le : (k.tallied data p).2.made ≤ (k.tallied data p).2.told ∧
    (k.tallied data p).2.made ≤ data.size - p
  success : ∀ {a : k.Value} {q : Nat}, k.reader data p = (.ok a, q) →
    (k.tallied data p).2.made = (k.tallied data p).2.told ∧
      k.elements a ≤ (k.tallied data p).2.made ∧
      p ≤ q ∧ data.size - q + (k.tallied data p).2.made ≤ data.size - p
  failure : ∀ {e : Error} {q : Nat}, k.reader data p = (.error e, q) → e.OfStream
  tooFew : data.size - p < (k.tallied data p).2.told →
    ∃ e q, k.reader data p = (.error e, q) ∧ e.OfStream

theorem bounded (k : CountDriven) (data : Bytes) (p : Nat) : k.Bounded data p := by
  have hanswer : (k.tallied data p).1 = k.reader data p := congrFun₂ k.reader_tallied data p
  rcases hrun : k.tallied data p with ⟨⟨e | a, q⟩, n⟩ <;> rw [hrun] at hanswer
  · obtain ⟨hcause, htold, hmade⟩ := k.within_tallied.failing hrun
    constructor
    case answer => rw [hrun, hanswer]
    case storedCount_le => exact storedCount_le_told
    case rounds_le => exact hrun ▸ ⟨htold, hmade⟩
    case success =>
      intro a q h
      cases hanswer.trans h
    case failure =>
      intro e q h
      cases hanswer.trans h
      exact hcause
    case tooFew => exact fun _ => ⟨e, q, hanswer.symm, hcause⟩
  · obtain ⟨htold, hforward, hspent⟩ := k.within_tallied.onward hrun
    have hmade : n.made ≤ data.size - p := by omega
    constructor
    case answer => rw [hrun, hanswer]
    case storedCount_le => exact storedCount_le_told
    case rounds_le => exact hrun ▸ ⟨Nat.le_of_eq htold, hmade⟩
    case success =>
      intro a q h
      cases hanswer.trans h
      exact hrun ▸ ⟨htold, elements_le_made hrun, hforward, hspent⟩
    case failure =>
      intro e q h
      cases hanswer.trans h
    case tooFew =>
      intro hfew
      rw [hrun] at hfew
      change data.size - p < n.told at hfew
      omega

end CountDriven

section Records

theorem Reader.liesAt_of_u32 {data : Bytes} {p q : Nat} {v : UInt32}
    (h : Reader.u32 data p = (.ok v, q)) :
    LiesAt data p (littleEndian 4 v.toNat) ∧ q = p + 4 := by
  obtain ⟨n, hn, rfl⟩ := Reader.map_eq_ok.1 h
  obtain ⟨bs, m, hbs, hn⟩ := Reader.bind_eq_ok.1 hn
  obtain ⟨hsize, rfl, rfl⟩ := Reader.exact_eq_ok.1 hbs
  cases hn
  have hlies := LiesAt.extract data p (p + 4)
  have hlength : (data.extract p (p + 4)).toList.length = 4 := by
    rw [Array.length_toList, Array.size_extract, Nat.min_eq_left hsize, Nat.add_sub_cancel_left]
  have hbytes := littleEndian_ofLittleEndian (data.extract p (p + 4)).toList
  have hlt := ofLittleEndian_lt (data.extract p (p + 4)).toList
  rw [hlength] at hbytes hlt
  rw [UInt32.toNat_ofNat_of_lt' hlt, hbytes]
  exact ⟨hlies, rfl⟩

theorem MethodRecord.liesAt_of_read {index : UInt32} {data : Bytes} {p q : Nat} {m : MethodRecord}
    (h : MethodRecord.read index data p = (.ok m, q)) :
    ∃ dataOffset : UInt32, LiesAt data p (littleEndian 4 m.token.value.toNat ++
      littleEndian 4 dataOffset.toNat ++ littleEndian 4 m.linesOffset.toNat) := by
  obtain ⟨token, _, htoken, h₁⟩ := Reader.bind_eq_ok.1 h
  obtain ⟨dataOffset, _, hdata, h₂⟩ := Reader.bind_eq_ok.1 h₁
  obtain ⟨linesOffset, _, hlines, h₃⟩ := Reader.bind_eq_ok.1 h₂
  obtain ⟨_, _, -, h₄⟩ := Reader.bind_eq_ok.1 h₃
  obtain ⟨trailer, _, -, hm⟩ := Reader.bind_eq_ok.1 h₄
  cases hm
  obtain ⟨hfirst, rfl⟩ := Reader.liesAt_of_u32 htoken
  obtain ⟨hsecond, rfl⟩ := Reader.liesAt_of_u32 hdata
  obtain ⟨hthird, rfl⟩ := Reader.liesAt_of_u32 hlines
  refine ⟨dataOffset, LiesAt.append_iff.2 ⟨LiesAt.append_iff.2 ⟨hfirst, ?_⟩, ?_⟩⟩
  · rwa [length_littleEndian]
  · rwa [List.length_append, length_littleEndian, length_littleEndian]

theorem MethodRecord.failsByStream_read (index : UInt32) :
    Reader.FailsByStream (MethodRecord.read index) := by
  have htrailer : Reader.FailsByStream MethodTrailer.read :=
    .bind .varint fun _ => .bind .varint fun _ => .bind .varint fun _ => .bind .varint fun _ =>
      .bind .varint fun _ => .bind .varint fun _ => .bind .varint fun _ => .pure _
  exact .bind .u32 fun token => .bind .u32 fun dataOffset => .bind .u32 fun linesOffset =>
    .bind (.seek dataOffset.toNat) fun _ => .bind htrailer fun trailer => .pure _

end Records

namespace SymbolFile

variable {f : SymbolFile} {index : UInt32} {m : MethodRecord} {e : Error}

theorem methodRecord_ofStream (h : f.methodRecord index = .error e) : e.OfStream := by
  unfold methodRecord methodPlace Header.recordOffset at h
  split at h
  · cases h
    exact Error.ofStream_outOfBounds
  · exact MethodRecord.failsByStream_read index _ _ _ e (Prod.ext h rfl)

theorem liesAt_of_methodRecord (h : f.methodRecord index = .ok m) :
    ∃ dataOffset : UInt32, LiesAt f.data (f.header.methodTableOffset.toNat + (index.toNat - 1) * 12)
      (littleEndian 4 m.token.value.toNat ++ littleEndian 4 dataOffset.toNat ++
        littleEndian 4 m.linesOffset.toNat) := by
  unfold methodRecord methodPlace Header.recordOffset at h
  split at h
  · cases h
  · exact MethodRecord.liesAt_of_read (Prod.ext h rfl)

/-- A look-up of a record, counted when it comes to an end. -/
def talliedRecord (f : SymbolFile) (index : UInt32) : Step Nat MethodRecord := do
  let m ← liftM (f.methodRecord index)
  modify (· + 1)
  pure m

/-- The loop over the method table, with the number of records that it read. -/
def talliedMethods (f : SymbolFile) : Except Error (List MethodRecord) × Nat :=
  (collectRecords f.talliedRecord ∅ 1 f.header.methodCount.toNat).run 0

theorem run_talliedRecord (f : SymbolFile) (index : UInt32) (n : Nat) :
    (f.talliedRecord index).run n = match f.methodRecord index with
      | .ok m => (.ok m, n + 1)
      | .error e => (.error e, n) := by
  rw [talliedRecord, Step.run_bind, Step.run_lift]
  cases f.methodRecord index <;> rfl

/-- How the loop may end that is told to go on up to record `last`: it read `t` records, and the
stream has twelve bytes for each. -/
structure RecordsRead (f : SymbolFile) (last : Nat) (answer : Except Error (List MethodRecord))
    (t : Nat) : Prop where
  le_last : t ≤ last
  room : t * 12 ≤ f.data.size - f.header.methodTableOffset.toNat
  success : ∀ {ms : List MethodRecord}, answer = .ok ms → t = last
  failure : ∀ {e : Error}, answer = .error e → e.OfStream

section Loop

variable {last t : Nat}

theorem RecordsRead.of_ok {ms : List MethodRecord}
    (hroom : last * 12 ≤ f.data.size - f.header.methodTableOffset.toNat) :
    f.RecordsRead last (.ok ms) last where
  le_last := Nat.le_refl last
  room := hroom
  success _ := rfl
  failure h := by cases h

theorem RecordsRead.of_error (hcause : e.OfStream) (hle : t ≤ last)
    (hroom : t * 12 ≤ f.data.size - f.header.methodTableOffset.toNat) :
    f.RecordsRead last (.error e) t where
  le_last := hle
  room := hroom
  success h := by cases h
  failure h := by
    cases h
    exact hcause

/-- Behind `n` records, `count` more. -/
theorem run_collectRecords (f : SymbolFile) (seen : Std.TreeSet UInt32) (n count : Nat)
    (hcount : n + count ≤ f.header.methodCount.toNat)
    (hroom : n * 12 ≤ f.data.size - f.header.methodTableOffset.toNat) :
    ∃ t, (collectRecords f.talliedRecord seen (n + 1) count).run n =
        (collectRecords f.methodRecord seen (n + 1) count, t) ∧
      f.RecordsRead (n + count) (collectRecords f.methodRecord seen (n + 1) count) t := by
  induction count generalizing seen n with
  | zero => exact ⟨n, rfl, .of_ok hroom⟩
  | succ count ih =>
    rw [collectRecords, collectRecords, Step.run_bind, run_talliedRecord]
    cases hrecord : f.methodRecord (UInt32.ofNat (n + 1)) with
    | error e =>
      exact ⟨n, rfl, .of_error (methodRecord_ofStream hrecord) (Nat.le_add_right _ _) hroom⟩
    | ok m =>
      have hindex : (UInt32.ofNat (n + 1)).toNat = n + 1 :=
        UInt32.toNat_ofNat_of_lt' (Nat.lt_of_le_of_lt (by omega) f.header.methodCount.toNat_lt)
      have hroom' : (n + 1) * 12 ≤ f.data.size - f.header.methodTableOffset.toNat := by
        obtain ⟨dataOffset, hlies⟩ := liesAt_of_methodRecord hrecord
        have hbytes := hlies.length_le
        simp only [List.length_append, length_littleEndian, hindex] at hbytes
        omega
      have hlast : n + 1 + count = n + (count + 1) := by omega
      rw [ok_bind]
      dsimp only
      split
      · exact ⟨n + 1, rfl, .of_error (Error.ofStream_malformed _) (by omega) hroom'⟩
      · obtain ⟨t, hrun, hread⟩ := ih (seen.insert m.token.value) (n + 1) (by omega) hroom'
        rw [hlast] at hread
        rw [Step.run_bind, hrun]
        cases hrest :
            collectRecords f.methodRecord (seen.insert m.token.value) (n + 1 + 1) count with
        | error e => exact ⟨t, rfl, .of_error (hread.failure hrest) hread.le_last hread.room⟩
        | ok rest =>
          obtain rfl := hread.success hrest
          exact ⟨_, rfl, .of_ok hread.room⟩

end Loop

/-- The loop over the method table reads no more records than the stream has room for, each from
twelve bytes of its own. -/
structure RecordsBounded (f : SymbolFile) : Prop where
  answer : f.talliedMethods.1 = f.methods
  rounds_le : f.talliedMethods.2 ≤ f.header.methodCount.toNat ∧
    f.talliedMethods.2 * 12 ≤ f.data.size - f.header.methodTableOffset.toNat
  success : ∀ {ms : List MethodRecord}, f.methods = .ok ms →
    ms.length = f.talliedMethods.2 ∧ f.talliedMethods.2 = f.header.methodCount.toNat ∧
      ∀ k m, ms[k]? = some m → ∃ dataOffset : UInt32,
        LiesAt f.data (f.header.methodTableOffset.toNat + k * 12)
          (littleEndian 4 m.token.value.toNat ++ littleEndian 4 dataOffset.toNat ++
            littleEndian 4 m.linesOffset.toNat)
  failure : ∀ {e : Error}, f.methods = .error e → e.OfStream
  tooFew : f.data.size - f.header.methodTableOffset.toNat < f.header.methodCount.toNat * 12 →
    ∃ e, f.methods = .error e ∧ e.OfStream

theorem recordsBounded (f : SymbolFile) : f.RecordsBounded := by
  obtain ⟨t, hrun, hread⟩ :=
    f.run_collectRecords ∅ 0 f.header.methodCount.toNat (Nat.zero_add _).le (Nat.zero_le _)
  rw [Nat.zero_add f.header.methodCount.toNat] at hread
  have htally : f.talliedMethods = (f.methods, t) := hrun
  constructor
  case answer => rw [htally]
  case rounds_le => exact htally ▸ ⟨hread.le_last, hread.room⟩
  case success =>
    intro ms hms
    have hmade := hread.success hms
    rw [htally]
    refine ⟨(collectRecords_length hms).trans hmade.symm, hmade, fun k m hm => ?_⟩
    have hk : k + 1 < 2 ^ 32 := by
      have := (List.getElem?_eq_some_iff.1 hm).1
      have := methods_length_lt hms
      omega
    have hrecord := readsFrom_of_collect (collect_of_collectRecords hms) k m hm
    have hlies := liesAt_of_methodRecord hrecord
    rwa [Nat.add_comm 1, UInt32.toNat_ofNat_of_lt' hk, Nat.add_sub_cancel] at hlies
  case failure => exact hread.failure
  case tooFew =>
    intro hfew
    cases hms : f.methods with
    | error e => exact ⟨e, rfl, hread.failure hms⟩
    | ok ms =>
      have := hread.success hms
      have := hread.room
      omega

end SymbolFile

/-- No number in a file, however large, makes a loop go on for longer than the file has bytes. -/
theorem countDriven_bounded :
    (∀ (k : CountDriven) (data : Bytes) (p : Nat), k.Bounded data p) ∧
      ∀ f : SymbolFile, f.RecordsBounded :=
  ⟨CountDriven.bounded, SymbolFile.recordsBounded⟩

/-- A table of four billion local variables in a stream with one. -/
example : CountDriven.locals.tallied #[0xFF, 0xFF, 0xFF, 0xFF, 0x0F, 0, 1, 0x78, 1] 0 =
    ((.error .outOfBounds, 9), { told := 4294967295, made := 1 }) := by
  rfl

end DebugSymbols
