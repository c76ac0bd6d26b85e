import DebugSymbols.Proofs.Store.History
import DebugSymbols.Proofs.Store.ReadEntries
import Mathlib.Data.List.Dedup

namespace DebugSymbols

/-- As many entries as are counted, with a key each. -/
structure ListsAll (key : α → κ) (count : UInt32) (as : List α) : Prop where
  length : as.length = count.toNat
  nodup : (as.map key).Nodup

section Indices

variable {index : UInt32} {data : Bytes} {p q : Nat}

theorem SourceFile.read_index {s : SourceFile} (h : SourceFile.read index data p = (.ok s, q)) :
    s.index = index := by
  obtain ⟨fileName, _, -, h⟩ := Reader.bind_eq_ok.1 h
  obtain ⟨checksum, _, -, h⟩ := Reader.bind_eq_ok.1 h
  obtain ⟨generated, _, -, h⟩ := Reader.bind_eq_ok.1 h
  cases h
  rfl

theorem CompileUnit.read_index {u : CompileUnit} (h : CompileUnit.read index data p = (.ok u, q)) :
    u.index = index := by
  obtain ⟨source, _, -, h⟩ := Reader.bind_eq_ok.1 h
  obtain ⟨includes, _, -, h⟩ := Reader.bind_eq_ok.1 h
  obtain ⟨namespaces, _, -, h⟩ := Reader.bind_eq_ok.1 h
  cases h
  rfl

namespace SymbolFile

theorem readIndexed_eq_ok {entry : Reader α} {a : α}
    (h : readIndexed index entry data p = (.ok a, q)) : ∃ m, entry data m = (.ok a, q) := by
  obtain ⟨found, _, -, h⟩ := Reader.bind_eq_ok.1 h
  split at h
  · exact absurd h Reader.fail_ne_ok
  obtain ⟨dataOffset, _, -, h⟩ := Reader.bind_eq_ok.1 h
  obtain ⟨_, m, -, h⟩ := Reader.bind_eq_ok.1 h
  exact ⟨m, h⟩

variable {f : SymbolFile}

theorem sourceFile_index {s : SourceFile} (h : f.sourceFile index = .ok s) : s.index = index := by
  obtain ⟨place, -, h⟩ := bind_ok_iff.1 h
  obtain ⟨m, h⟩ := readIndexed_eq_ok (Prod.ext h rfl)
  exact SourceFile.read_index h

theorem compileUnit_index {u : CompileUnit} (h : f.compileUnit index = .ok u) :
    u.index = index := by
  obtain ⟨place, -, h⟩ := bind_ok_iff.1 h
  obtain ⟨m, h⟩ := readIndexed_eq_ok (Prod.ext h rfl)
  exact CompileUnit.read_index h

end SymbolFile

end Indices

/-- Entries that are collected by numbers, and that carry these, have a number each. -/
theorem listsAll_of_collect {key : α → UInt32} {f : UInt32 → Except Error α} {count : UInt32}
    {as : List α} (h : collect f 1 count.toNat = .ok as) (hkey : ∀ n a, f n = .ok a → key a = n) :
    ListsAll key count as := by
  have hlength := collect_length h
  have hcount := count.toNat_lt
  have hnumber (k : Nat) (hk : k < as.length) : (key as[k]).toNat = 1 + k := by
    rw [hkey _ _ (readsFrom_of_collect h k _ (List.getElem?_eq_getElem hk))]
    exact UInt32.toNat_ofNat_of_lt' (by change 1 + k < 2 ^ 32; omega)
  refine ⟨hlength, ?_⟩
  rw [List.Nodup, List.pairwise_map, List.pairwise_iff_getElem]
  intro j k hj hk hjk heq
  have := congrArg UInt32.toNat heq
  rw [hnumber j hj, hnumber k hk] at this
  omega

section Scopes

variable {stored : List AnonymousScope}

theorem length_listedScopes (stored : List AnonymousScope) :
    (listedScopes stored).length = (stored.map (·.id)).dedup.length := by
  rw [← List.length_map (·.id)]
  refine List.Perm.length_eq ?_
  rw [List.perm_ext_iff_of_nodup (nodup_listedScopes stored) (List.nodup_dedup _)]
  intro id
  rw [List.mem_dedup, List.mem_map, List.mem_map]
  constructor
  · rintro ⟨s, hs, rfl⟩
    exact ⟨s, List.mem_reverse.1 (List.mem_of_find?_eq_some (mem_listedScopes.1 hs)), rfl⟩
  · -- Some scope of that id is the last one.
    rintro ⟨s, hs, rfl⟩
    cases hlast : stored.reverse.find? fun t => t.id == s.id with
    | none => exact absurd (List.find?_eq_none.1 hlast s (List.mem_reverse.2 hs)) (by simp)
    | some t =>
      have hid : t.id = s.id := by simpa using List.find?_some hlast
      exact ⟨t, mem_listedScopes.2 (hid ▸ hlast), hid⟩

/-- Nothing is lost exactly if no two scopes are stored under one id. -/
theorem listsAll_listedScopes_iff {count : UInt32} (h : stored.length = count.toNat) :
    ListsAll AnonymousScope.id count (listedScopes stored) ↔ (stored.map (·.id)).Nodup := by
  constructor
  · intro hall
    have hlength := hall.length
    have hids : stored.length = (stored.map (·.id)).length := (List.length_map _).symm
    rw [length_listedScopes, ← h, hids] at hlength
    exact List.dedup_eq_self.1 ((List.dedup_sublist _).eq_of_length hlength)
  · intro hnodup
    refine ⟨?_, nodup_listedScopes stored⟩
    rw [length_listedScopes, List.dedup_eq_self.2 hnodup, List.length_map, h]

namespace SymbolFile

/-- The anonymous scopes of a file as they are stored, one behind another. -/
def storedScopes (f : SymbolFile) : Except Error (List AnonymousScope) :=
  (Reader.replicate f.header.anonymousScopeCount.toNat AnonymousScope.read).eval f.data
    f.header.anonymousScopeTableOffset.toNat

theorem anonymousScopes_eq (f : SymbolFile) :
    f.anonymousScopes = listedScopes <$> f.storedScopes := by
  rw [anonymousScopes, scopeTable, storedScopes, Reader.eval, Reader.eval, readScopes,
    Reader.bind_apply]
  rcases Reader.replicate _ _ f.data _ with ⟨e | stored, q⟩ <;> rfl

theorem length_storedScopes {f : SymbolFile} (h : f.storedScopes = .ok stored) :
    stored.length = f.header.anonymousScopeCount.toNat :=
  Reader.length_of_indexed (Prod.ext h rfl)

end SymbolFile

end Scopes

namespace Store

/-- Over any bytes that open, and after any queries: sources, compile units and methods are listed
as many as the store counts, with a key each, if they are listed at all.  Of the anonymous scopes
that are stored under one id the last one is listed, and so they are as many as are counted exactly
if no two of them are stored under one id. -/
theorem listed_entries {data : Bytes} {s : Store} (h : Store.open? data = .ok s)
    (history : List Query) :
    let t := s.afterQueries history
    (∀ sources, (t.ask .sources).1 = .ok sources →
      ListsAll SourceFile.index t.sourceCount sources) ∧
    (∀ units, (t.ask .units).1 = .ok units →
      ListsAll CompileUnit.index t.compileUnitCount units) ∧
    (∀ methods, (t.ask .methods).1 = .ok methods →
      ListsAll MethodSummary.token t.methodCount methods) ∧
    ∀ scopes, (t.ask .scopes).1 = .ok scopes → ∃ f stored,
      SymbolFile.open? data = .ok f ∧ f.storedScopes = .ok stored ∧
      stored.length = t.anonymousScopeCount.toNat ∧
      (∀ x, x ∈ scopes ↔ (stored.reverse.find? fun y => y.id == x.id) = some x) ∧
      scopes.Pairwise (fun x y => x.id < y.id) ∧
      (ListsAll AnonymousScope.id t.anonymousScopeCount scopes ↔
        (stored.map (·.id)).Nodup) := by
  obtain ⟨f, hf, rfl⟩ := open?_eq_ok h
  intro t
  obtain ⟨b, hb, hext⟩ := afterQueries_bound (Bound.coherent_of_file f) history
  have hfile : b.file = f := hext.file_eq
  have hask (q : Query) : (t.ask q).1 = f.answer q := ask_afterQueries_bound f history q
  have ht : t = bound b := hb
  simp only [ht, sourceCount, compileUnitCount, methodCount, anonymousScopeCount, count, hfile]
  simp only [ht] at hask
  refine ⟨fun sources hs => ?_, fun units hu => ?_, fun methods hm => ?_, fun scopes hs => ?_⟩
  · have hsources := (hask .sources).symm.trans hs
    exact listsAll_of_collect hsources fun _ _ => SymbolFile.sourceFile_index
  · have hunits := (hask .units).symm.trans hu
    exact listsAll_of_collect hunits fun _ _ => SymbolFile.compileUnit_index
  · obtain ⟨ms, hms, rfl⟩ := map_ok_iff.1 ((hask .methods).symm.trans hm)
    refine ⟨(List.length_map _).trans (collectRecords_length hms), ?_⟩
    rw [List.map_map]
    exact SymbolFile.methods_nodup hms
  · have hscopes : f.anonymousScopes = .ok scopes := (hask .scopes).symm.trans hs
    rw [SymbolFile.anonymousScopes_eq] at hscopes
    obtain ⟨stored, hstored, rfl⟩ := map_ok_iff.1 hscopes
    have hlength := SymbolFile.length_storedScopes hstored
    exact ⟨f, stored, hf, hstored, hlength, fun x => mem_listedScopes,
      pairwise_listedScopes stored, listsAll_listedScopes_iff hlength⟩

/-- Two scopes that are stored against the order of their ids, and one source. -/
theorem listed_entries_two_scopes :
    let preamble : Preamble := { guid := .zero }
    let header : Header := {
      sourceCount := 1, sourceTableOffset := 112
      anonymousScopeCount := 2, anonymousScopeTableOffset := 123
      lineBase := -1, lineRange := 8, opcodeBase := 9 }
    let data : Bytes := (preamble.encode ++ header.encode ++ littleEndian 4 1 ++
      littleEndian 4 120 ++ [0, 0, 0] ++ [2, 0, 0] ++ [1, 0, 1, 2, 0]).toArray
    let s : Store := .bound { file := ⟨data, preamble, header, .default⟩ }
    let scopes : List AnonymousScope := [{ id := 1, scopes := [⟨2, ""⟩] }, { id := 2 }]
    Store.open? data = .ok s ∧ (s.ask .scopes).1 = .ok scopes ∧
      ListsAll AnonymousScope.id s.anonymousScopeCount scopes ∧
      ∃ sources, (s.ask .sources).1 = .ok sources ∧
        ListsAll SourceFile.index s.sourceCount sources := by
  intro preamble header data s scopes
  have hfile : SymbolFile.open? data = .ok ⟨data, preamble, header, .default⟩ := by decide +kernel
  have hopen : Store.open? data = .ok s := by
    rw [Store.open?, hfile]
    rfl
  have hstored : SymbolFile.storedScopes ⟨data, preamble, header, .default⟩ =
      .ok [{ id := 2 }, { id := 1, scopes := [⟨2, ""⟩] }] := by decide +kernel
  have hscopes : (s.ask .scopes).1 = .ok scopes := by decide +kernel
  have hsources : (s.ask .sources).1 = .ok [{ index := 1, fileName := "", checksum := [] }] := by
    decide +kernel
  obtain ⟨hlistedSources, -, -, hlistedScopes⟩ := listed_entries hopen []
  obtain ⟨f, stored, hf, hstored', -, -, -, hall⟩ := hlistedScopes scopes hscopes
  rw [hfile] at hf
  cases hf
  rw [hstored] at hstored'
  cases hstored'
  exact ⟨hopen, hscopes, hall.2 (by decide), _, hsources, hlistedSources _ hsources⟩

/-- Two scopes are stored under the id 1, both are counted, and the first one is not listed. -/
theorem scope_lost :
    let preamble : Preamble := { guid := .zero }
    let header : Header := {
      anonymousScopeCount := 2, anonymousScopeTableOffset := 112
      lineBase := -1, lineRange := 8, opcodeBase := 9 }
    let data : Bytes :=
      (preamble.encode ++ header.encode ++ [1, 0, 0] ++ [1, 0, 1, 2, 0]).toArray
    let s : Store := .bound { file := ⟨data, preamble, header, .default⟩ }
    let scopes : List AnonymousScope := [{ id := 1, scopes := [⟨2, ""⟩] }]
    Store.open? data = .ok s ∧ s.anonymousScopeCount = 2 ∧ (s.ask .scopes).1 = .ok scopes ∧
      ¬ListsAll AnonymousScope.id s.anonymousScopeCount scopes := by
  intro preamble header data s scopes
  have hfile : SymbolFile.open? data = .ok ⟨data, preamble, header, .default⟩ := by decide +kernel
  refine ⟨?_, rfl, ?_, fun hall => absurd hall.length (by decide)⟩
  · rw [Store.open?, hfile]
    rfl
  · decide +kernel

end Store

end DebugSymbols
