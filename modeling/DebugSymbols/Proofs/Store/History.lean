import DebugSymbols.Proofs.Store.Coherence
import DebugSymbols.Proofs.Store.Query

namespace DebugSymbols

namespace SymbolFile

variable {f : SymbolFile} {key : MethodKey} {m : MethodRecord} {ms : List MethodRecord}

def partAt (f : SymbolFile) (index : UInt32) (part : MethodPart) (ms : List MethodRecord) :
    Except Error part.Value := entryAt ms index >>= fun m => f.part m part

theorem mem_of_pick (h : f.pick key = .ok m) : ∃ ms, f.methods = .ok ms ∧ m ∈ ms := by
  by_cases hkey : key = .index 0
  · subst hkey
    cases h
  rw [f.pick_eq_bind hkey] at h
  obtain ⟨ms, hms, h⟩ := bind_ok_iff.1 h
  exact ⟨ms, hms, mem_of_pickAmong h⟩

theorem method_of_mem (hms : f.methods = .ok ms) (hmem : m ∈ ms) : f.method m.index = .ok m := by
  obtain ⟨k, hk⟩ := List.mem_iff_getElem?.1 hmem
  have hlt := (List.getElem?_eq_some_iff.1 hk).1
  have hcount := methods_length_lt hms
  have hindex : m.index.toNat = k + 1 := by
    rw [methods_index hms hk]
    exact UInt32.toNat_ofNat_of_lt' (Nat.lt_of_le_of_lt hlt hcount)
  have hne : m.index ≠ 0 := by
    intro hzero
    rw [hzero] at hindex
    cases hindex
  show f.pick (.index m.index) = .ok m
  rw [pick_eq hms, pickAmong, entryAt, if_neg hne, hindex]
  simp only [Nat.add_sub_cancel, hk]

theorem partAt_of_method {index : UInt32} (h : f.method index = .ok m) (part : MethodPart) :
    f.methods >>= f.partAt index part = f.part m part := by
  change f.pick (.index index) = .ok m at h
  obtain ⟨ms, hms, -⟩ := mem_of_pick h
  rw [pick_eq hms, pickAmong] at h
  rw [hms, ok_bind, partAt, h]
  rfl

theorem partAt_of_pick (h : f.pick key = .ok m) (part : MethodPart) :
    f.methods >>= f.partAt m.index part = f.part m part := by
  obtain ⟨ms, hms, hmem⟩ := mem_of_pick h
  exact partAt_of_method (method_of_mem hms hmem) part

end SymbolFile

theorem Reader.textAt_apply (target : Nat) (data : Bytes) (p : Nat) :
    Reader.textAt target data p = ((Reader.textAt target).eval data 0, p) := by
  unfold Reader.eval Reader.textAt
  rw [bind_apply, bind_apply]
  simp only [Reader.size]
  split <;> rfl

namespace Bound

variable {place : SymbolFile → Except Error Nat} {entry : SymbolFile → Reader α}
  {kept : Bound → Option α} {keep : α → Bound → Bound} {answer : SymbolFile → Except Error α}

/-- An entry that is read once answers what the file says if what is kept of it does. -/
theorem answers_readOnce (hanswer : ∀ f, answer f = place f >>= fun p => (entry f).eval f.data p)
    (hkept : ∀ b : Bound, b.Coherent → ∀ a, kept b = some a → answer b.file = .ok a)
    (hkeep : ∀ b : Bound, b.Coherent → ∀ a, answer b.file = .ok a → b.Extends (keep a b)) :
    (readOnce place entry kept keep).Answers answer := by
  intro b hb
  unfold readOnce
  rw [Lookup.run_bind, Lookup.run_get]
  dsimp only
  rw [Lookup.run_bind, Lookup.run_ofExcept]
  cases hplace : place b.file with
  | error e =>
    rw [hanswer, hplace]
    exact ⟨rfl, hb.extends_self⟩
  | ok p =>
    dsimp only
    cases ha : kept b with
    | some a => exact ⟨(hkept b hb a ha).symm, hb.extends_self⟩
    | none =>
      -- A failed read is not kept.
      have hread : answer b.file = (entry b.file).eval b.file.data p := by
        rw [hanswer, hplace]
        rfl
      dsimp only
      rw [Lookup.run_bind, Lookup.run_readAt, hread]
      cases ha : (entry b.file).eval b.file.data p with
      | error e => exact ⟨rfl, hb.extends_self⟩
      | ok a => exact ⟨rfl, hkeep b hb a (hread.trans ha)⟩

theorem forall_getElem?_insert {P : UInt32 → α → Prop} {t : Std.TreeMap UInt32 α} {index : UInt32}
    {a : α} (h : ∀ i b, t[i]? = some b → P i b) (ha : P index a) :
    ∀ i b, (t.insert index a)[i]? = some b → P i b := by
  intro i b hb
  rw [Std.TreeMap.getElem?_insert] at hb
  by_cases heq : compare index i = .eq
  · rw [if_pos heq] at hb
    cases hb
    exact Std.LawfulEqCmp.eq_of_compare heq ▸ ha
  · rw [if_neg heq] at hb
    exact h i b hb

theorem answers_sourceFile (index : UInt32) :
    (Bound.sourceFile index).Answers (·.sourceFile index) := by
  apply answers_readOnce (fun _ => rfl) (fun b hb => hb.sources index)
  intro b hb source hsource
  have hsources := forall_getElem?_insert hb.sources hsource
  exact ⟨⟨hsources, hb.units, hb.methods, hb.scopes⟩, rfl, rfl⟩

theorem answers_compileUnit (index : UInt32) :
    (Bound.compileUnit index).Answers (·.compileUnit index) := by
  apply answers_readOnce (fun _ => rfl) (fun b hb => hb.units index)
  intro b hb unit hunit
  have hunits := forall_getElem?_insert hb.units hunit
  exact ⟨⟨hb.sources, hunits, hb.methods, hb.scopes⟩, rfl, rfl⟩

theorem answers_scopeTable : Bound.scopeTable.Answers SymbolFile.scopeTable := by
  apply answers_readOnce (fun _ => rfl) (fun b hb => hb.scopes)
  intro b hb table htable
  refine ⟨⟨hb.sources, hb.units, hb.methods, ?_⟩, rfl, rfl⟩
  intro t ht
  cases ht
  exact htable

theorem answers_allSources : Bound.allSources.Answers SymbolFile.sources :=
  .of_file fun f => .collect answers_sourceFile 1 f.header.sourceCount.toNat

theorem answers_findSource (name : String) :
    (Bound.findSource name).Answers (·.findSource name) :=
  .of_file fun f => .findFirst answers_sourceFile _ _ 1 f.header.sourceCount.toNat

theorem answers_compileUnits : Bound.compileUnits.Answers SymbolFile.compileUnits :=
  .of_file fun f => .collect answers_compileUnit 1 f.header.compileUnitCount.toNat

theorem answers_methodRecord (index : UInt32) :
    (Bound.methodRecord index).Answers (·.methodRecord index) := by
  intro b hb
  rw [methodRecord, Lookup.run_bind, Lookup.run_get]
  dsimp only
  rw [Lookup.run_bind, Lookup.run_ofExcept, SymbolFile.methodRecord]
  cases b.file.methodPlace index with
  | error e => exact ⟨rfl, hb.extends_self⟩
  | ok place => exact ⟨rfl, hb.extends_self⟩

theorem methodTable_cases (b : Bound) :
    let records := collectRecords methodRecord ∅ 1 b.file.header.methodCount.toNat
    (∃ t, b.methods = some t ∧ methodTable.run b = (.ok t, b)) ∨
      (b.methods = none ∧ ∃ e b', records.run b = (.error e, b') ∧
        methodTable.run b = (.error e, b')) ∨
      b.methods = none ∧ ∃ ms b', records.run b = (.ok ms, b') ∧
        methodTable.run b = (.ok (MethodTable.ofRecords ms),
          { b' with methods := some (MethodTable.ofRecords ms) }) := by
  intro records
  rw [methodTable, Lookup.run_bind, Lookup.run_get]
  dsimp only
  cases b.methods with
  | some t => exact .inl ⟨t, rfl, rfl⟩
  | none =>
    right
    dsimp only
    rw [Lookup.run_bind]
    rcases records.run b with ⟨e | ms, b'⟩
    · exact .inl ⟨rfl, e, b', rfl, rfl⟩
    · exact .inr ⟨rfl, ms, b', rfl, rfl⟩

/-- The methods are read as a whole, and only a whole table is kept. -/
theorem run_methodTable {b : Bound} (hb : b.Coherent) :
    (∃ t b', methodTable.run b = (.ok t, b') ∧ t.Coherent b.file ∧ b.Extends b') ∨
      ∃ e b', methodTable.run b = (.error e, b') ∧ b.file.methods = .error e ∧ b.Extends b' := by
  have hcollect := Lookup.Answers.collectRecords answers_methodRecord ∅ 1
    b.file.header.methodCount.toNat b hb
  change (_ = b.file.methods) ∧ _ at hcollect
  obtain ⟨hms, hext⟩ := hcollect
  obtain ⟨t, ht, hrun⟩ | ⟨-, e, b', hrecords, hrun⟩ | ⟨-, ms, b', hrecords, hrun⟩ :=
    methodTable_cases b
  · exact .inl ⟨t, b, hrun, hb.methods t ht, hb.extends_self⟩
  · -- A damaged record: the table stays unread.
    rw [hrecords] at hms hext
    exact .inr ⟨e, b', hrun, hms.symm, hext⟩
  · rw [hrecords] at hms hext
    have ht : (MethodTable.ofRecords ms).Coherent b.file := MethodTable.coherent_ofRecords hms.symm
    refine .inl ⟨MethodTable.ofRecords ms, _, hrun, ht,
      ⟨hext.coherent.sources, hext.coherent.units, ?_, hext.coherent.scopes⟩,
      hext.file_eq, hext.position_eq⟩
    intro t h
    cases h
    exact hext.file_eq ▸ ht

/-- A look-up through the method table answers what it finds in the records of the file. -/
theorem answers_methodTable_bind {k : MethodTable → Lookup β}
    {g : List MethodRecord → SymbolFile → Except Error β}
    (hk : ∀ b : Bound, b.Coherent → ∀ t, t.Coherent b.file →
      ((k t).run b).1 = g t.records b.file ∧ b.Extends ((k t).run b).2) :
    (methodTable >>= k).Answers fun f => f.methods >>= fun ms => g ms f := by
  intro b hb
  rw [Lookup.run_bind]
  obtain ⟨t, b', hrun, ht, hext⟩ | ⟨e, b', hrun, he, hext⟩ := run_methodTable hb
  · rw [hrun]
    dsimp only
    rw [ht.records]
    obtain ⟨hanswer, hext'⟩ := hk b' hext.coherent t (hext.file_eq ▸ ht)
    exact ⟨hext.file_eq ▸ hanswer, hext.trans hext'⟩
  · rw [hrun]
    dsimp only
    rw [he]
    exact ⟨rfl, hext⟩

theorem answers_allMethods :
    (List.map Method.record <$> Bound.allMethods).Answers SymbolFile.methods := by
  have h : (Bound.allMethods >>= fun ms => pure (ms.map Method.record)).Answers
      fun f => f.methods >>= fun ms => .ok ms := by
    rw [allMethods, bind_assoc]
    exact answers_methodTable_bind fun b hb t _ => ⟨rfl, hb.extends_self⟩
  rw [map_eq_pure_bind]
  exact h.congr fun f => bind_pure _

theorem answers_pick (key : MethodKey) :
    (Method.record <$> Bound.pick key).Answers (·.pick key) := by
  by_cases hkey : key = .index 0
  · subst hkey
    exact .throw .outOfBounds
  suffices h : (Method.record <$> Bound.pick key).Answers
      fun f => f.methods >>= fun ms => pickAmong (·.token) ms key from
    h.congr fun f => (f.pick_eq_bind hkey).symm
  cases key with
  | index index =>
    have hzero : index ≠ 0 := fun hzero => hkey (hzero ▸ rfl)
    rw [pick, method, if_neg hzero, map_bind]
    apply answers_methodTable_bind
    intro b hb t ht
    rw [pickAmong, entryAt, ← t.record_at? index]
    cases t.at? index with
    | none => exact ⟨rfl, hb.extends_self⟩
    | some m => exact ⟨rfl, hb.extends_self⟩
  | token wanted =>
    rw [pick, methodByToken, map_bind]
    apply answers_methodTable_bind
    intro b hb t ht
    rw [pickAmong, ← ht.record_withToken? wanted]
    cases t.withToken? wanted with
    | none => exact ⟨rfl, hb.extends_self⟩
    | some m => exact ⟨rfl, hb.extends_self⟩

theorem getPart_cases (b : Bound) (m : Method) (part : MethodPart) :
    let read := (m.record.readPart b.file.parameters part).eval b.file.data
      (m.record.partOffset part).toNat
    (∃ v, m.part? part = some v ∧ (m.getPart readPart part).run b = (.ok (v, m), b)) ∨
      (m.part? part = none ∧ ∃ v, read = .ok v ∧
        (m.getPart readPart part).run b = (.ok (v, m.setPart part v), b)) ∨
      m.part? part = none ∧ ∃ e, read = .error e ∧
        (m.getPart readPart part).run b = (.error e, b) := by
  intro read
  have hread : (readPart m.record part).run b = (read, b) := rfl
  unfold Method.getPart
  cases m.part? part with
  | some v => exact .inl ⟨v, rfl, rfl⟩
  | none =>
    right
    dsimp only
    rw [Lookup.run_bind, hread]
    cases read with
    | ok v => exact .inl ⟨rfl, v, rfl, rfl⟩
    | error e => exact .inr ⟨rfl, e, rfl, rfl⟩

theorem run_method_getPart {b : Bound} {m : Method} (hm : m.Coherent b.file) (part : MethodPart) :
    (∃ v m', (m.getPart readPart part).run b = (.ok (v, m'), b) ∧
        b.file.part m.record part = .ok v ∧ m'.record = m.record ∧ m'.Coherent b.file) ∨
      ∃ e, (m.getPart readPart part).run b = (.error e, b) ∧
        b.file.part m.record part = .error e := by
  obtain ⟨v, hkept, hrun⟩ | ⟨hnone, v, hread, hrun⟩ | ⟨hnone, e, hread, hrun⟩ :=
    getPart_cases b m part
  · exact .inl ⟨v, m, hrun, hm.parts part v hkept, rfl, hm⟩
  · have hv : b.file.part m.record part = .ok v := by
      rw [SymbolFile.part, hm.known part hnone, ← hread]
    exact .inl ⟨v, m.setPart part v, hrun, hv, Method.record_setPart, hm.setPart hv⟩
  · have he : b.file.part m.record part = .error e := by
      rw [SymbolFile.part, hm.known part hnone, ← hread]
    exact .inr ⟨e, hrun, he⟩

theorem run_table_getPart {b : Bound} {t : MethodTable} (ht : t.Coherent b.file) (index : UInt32)
    (part : MethodPart) :
    (∃ v t', (t.getPart readPart index part).run b = (.ok (v, t'), b) ∧
        b.file.partAt index part t.records = .ok v ∧ t'.Coherent b.file) ∨
      ∃ e, (t.getPart readPart index part).run b = (.error e, b) ∧
        b.file.partAt index part t.records = .error e := by
  unfold MethodTable.getPart SymbolFile.partAt
  rw [entryAt, ← t.record_at? index]
  cases hat : t.at? index with
  | none => exact .inr ⟨.outOfBounds, rfl, rfl⟩
  | some m =>
    dsimp only [Option.map_some]
    rw [Lookup.run_bind]
    obtain ⟨v, m', hrun, hv, hrecord, hm'⟩ | ⟨e, hrun, he⟩ :=
      run_method_getPart (ht.of_at? hat) part
    · rw [hrun]
      exact .inl ⟨v, _, rfl, hv, ht.setIfInBounds hat hrecord hm'⟩
    · rw [hrun]
      exact .inr ⟨e, rfl, he⟩

theorem answers_part (index : UInt32) (part : MethodPart) :
    (Bound.part index part).Answers fun f => f.methods >>= f.partAt index part := by
  unfold Bound.part
  apply answers_methodTable_bind (g := fun ms f => f.partAt index part ms)
  intro b hb t ht
  rw [Lookup.run_bind]
  obtain ⟨v, t', hrun, hv, ht'⟩ | ⟨e, hrun, he⟩ := run_table_getPart ht index part
  · rw [hrun, hv]
    refine ⟨rfl, ⟨hb.sources, hb.units, ?_, hb.scopes⟩, rfl, rfl⟩
    intro t'' h
    cases h
    exact ht'
  · rw [hrun, he]
    exact ⟨rfl, hb.extends_self⟩

theorem answers_anonymousScopes : Bound.anonymousScopes.Answers SymbolFile.anonymousScopes :=
  answers_scopeTable.map _

theorem answers_anonymousScope (id : UInt32) :
    (Bound.anonymousScope id).Answers (·.anonymousScope id) := by
  apply answers_scopeTable.bind
  intro table
  cases table[id]? with
  | none => exact .throw (.notFound (.anonymousScope id))
  | some s => exact .pure s

/-- A text is read elsewhere in the stream, so that where the stream stands does not matter. -/
theorem answers_textAt (offset : UInt32) : (Bound.textAt offset).Answers (·.textAt offset) := by
  intro b hb
  rw [textAt, Lookup.run_read, Reader.textAt_apply]
  exact ⟨rfl, hb.extends_self⟩

/-- Every read answers what the bytes of the file say. -/
theorem answers_answer (q : Query) : (Bound.answer q).Answers (·.answer q) := by
  cases q with
  | source index => exact answers_sourceFile index
  | sources => exact answers_allSources
  | findSource name => exact answers_findSource name
  | unit index => exact answers_compileUnit index
  | units => exact answers_compileUnits
  | method key =>
    have h := (answers_pick key).map MethodRecord.summary
    rwa [← comp_map] at h
  | methods =>
    have h := answers_allMethods.map (List.map MethodRecord.summary)
    rwa [← comp_map, List.map_comp_map] at h
  | part key p =>
    have h := (answers_pick key).bind fun m => answers_part m.index p
    rw [bind_map_left] at h
    apply h.congr
    intro f
    cases hpick : f.pick key with
    | error e => rw [SymbolFile.answer, hpick]; rfl
    | ok m =>
      rw [SymbolFile.answer, hpick]
      exact SymbolFile.partAt_of_pick hpick p
  | scope id => exact answers_anonymousScope id
  | scopes => exact answers_anonymousScopes
  | textAt offset => exact answers_textAt offset

end Bound

namespace Store

variable {b : Bound} {data : Bytes} {s : Store}

theorem open?_eq_ok (h : Store.open? data = .ok s) :
    ∃ f, SymbolFile.open? data = .ok f ∧ s = .bound { file := f } := by
  obtain ⟨f, hf, h⟩ := bind_ok_iff.1 h
  cases h
  exact ⟨f, hf, rfl⟩

theorem openFor?_eq_ok {guid : Guid} (h : Store.openFor? data guid = .ok s) :
    ∃ f, SymbolFile.openFor? data guid = .ok f ∧ s = .bound { file := f } := by
  obtain ⟨f, hf, h⟩ := bind_ok_iff.1 h
  cases h
  exact ⟨f, hf, rfl⟩

theorem ask_bound (hb : b.Coherent) (q : Query) :
    ((bound b).ask q).1 = b.file.answer q ∧ ∃ b', ((bound b).ask q).2 = bound b' ∧ b.Extends b' :=
  have ⟨hanswer, hext⟩ := Bound.answers_answer q b hb
  ⟨hanswer, _, rfl, hext⟩

theorem afterQueries_bound (hb : b.Coherent) (qs : List Query) :
    ∃ b', (bound b).afterQueries qs = bound b' ∧ b.Extends b' := by
  induction qs generalizing b with
  | nil => exact ⟨b, rfl, hb.extends_self⟩
  | cons q qs ih =>
    obtain ⟨-, b', hstep, hext⟩ := ask_bound hb q
    obtain ⟨b'', hrest, hext'⟩ := ih hext.coherent
    refine ⟨b'', ?_, hext.trans hext'⟩
    rw [← hrest, ← hstep]
    rfl

/-- Whatever a freshly bound store was asked before, also in vain, it answers what the bytes of its
file say. -/
theorem ask_afterQueries_bound (f : SymbolFile) (history : List Query) (q : Query) :
    (((bound { file := f }).afterQueries history).ask q).1 = f.answer q := by
  obtain ⟨b, hb, hext⟩ := afterQueries_bound (Bound.coherent_of_file f) history
  rw [hb, (ask_bound hext.coherent q).1, hext.file_eq]

/-- A store over any bytes answers each read, by a value or an error, as if it were the first. -/
theorem ask_independent_of_history (h : Store.open? data = .ok s) (history : List Query)
    (q : Query) : ((s.afterQueries history).ask q).1 = (s.ask q).1 := by
  obtain ⟨f, -, rfl⟩ := open?_eq_ok h
  rw [ask_afterQueries_bound]
  exact (ask_afterQueries_bound f [] q).symm

/-- A file with one source and a method table that lies beyond its end: the source is found also
after look-ups that failed. -/
theorem ask_independent_of_history_damaged_methods :
    let preamble : Preamble := { guid := .zero }
    let header : Header := {
      sourceCount := 1, sourceTableOffset := 112
      methodCount := 1, methodTableOffset := 4096
      lineBase := -1, lineRange := 8, opcodeBase := 9 }
    let source : SourceFile := { index := 1, fileName := "a.cs", checksum := [7, 8] }
    let data : Bytes := (preamble.encode ++ header.encode ++ littleEndian 4 1 ++
      littleEndian 4 120 ++ source.encode).toArray
    let s : Store := .bound { file := ⟨data, preamble, header, .default⟩ }
    Store.open? data = .ok s ∧
      (s.ask .methods).1 = .error .outOfBounds ∧
      (s.ask (.source 1)).1 = .ok source ∧
      ((s.afterQueries [.source 2, .methods, .source 1, .part (.token ⟨5⟩) .lines]).ask
        (.source 1)).1 = (s.ask (.source 1)).1 := by
  intro preamble header source data s
  have hopen : Store.open? data = .ok s := by
    have hfile : SymbolFile.open? data = .ok ⟨data, preamble, header, .default⟩ := by decide +kernel
    rw [Store.open?, hfile]
    rfl
  exact ⟨hopen, by decide +kernel, by decide +kernel,
    ask_independent_of_history hopen [.source 2, .methods, .source 1, .part (.token ⟨5⟩) .lines]
      (.source 1)⟩

end Store

end DebugSymbols
