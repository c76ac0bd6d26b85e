import DebugSymbols.Proofs.Entries
import DebugSymbols.Proofs.Store.Authored
import DebugSymbols.Proofs.Store.Holding
import DebugSymbols.Proofs.Store.MethodTable

namespace DebugSymbols

theorem recordOffset_bind {as : List α} {start width : Nat} {index : UInt32}
    {read : Nat → Except Error α} (hstart : start < 2 ^ 32) (hlength : as.length < 2 ^ 32)
    (hread : ∀ k a, index.toNat = k + 1 → as[k]? = some a → read (start + k * width) = .ok a) :
    (Header.recordOffset (UInt32.ofNat start) (UInt32.ofNat as.length) width index >>= read) =
      entryAt as index := by
  have hbeyond : UInt32.ofNat as.length < index ↔ as.length < index.toNat := by
    rw [UInt32.lt_iff_toNat_lt, UInt32.toNat_ofNat_of_lt' hlength]
  rw [Header.recordOffset, entryAt, UInt32.toNat_ofNat_of_lt' hstart]
  by_cases hzero : index = 0
  · rw [if_pos (.inl hzero), if_pos hzero]
    rfl
  have hpos : 0 < index.toNat := Nat.pos_of_ne_zero fun h => hzero (UInt32.toNat_inj.1 h)
  rw [if_neg hzero]
  by_cases hcount : as.length < index.toNat
  · rw [if_pos (.inr (hbeyond.2 hcount)), List.getElem?_eq_none (by omega)]
    rfl
  · have hlt : index.toNat - 1 < as.length := by omega
    rw [if_neg (not_or.2 ⟨hzero, fun h => hcount (hbeyond.1 h)⟩), ok_bind,
      List.getElem?_eq_getElem hlt]
    exact hread _ _ (by omega) (List.getElem?_eq_getElem hlt)

theorem eval_readIndexed {entries : List Section} {start k : Nat} {s : Section} {data : Bytes}
    {entry : Reader α} {v : α} {index : UInt32} (hindex : index.toNat = k + 1)
    (htable : LiesAt data start (Image.indexTable entries)) (hk : entries[k]? = some s)
    (hoffset : s.offset < 2 ^ 32) (hs : LiesAt data s.offset s.bytes)
    (hentry : Reader.Reads entry s.bytes v) :
    (SymbolFile.readIndexed index entry).eval data (start + k * Header.indexRecordSize) =
      .ok v := by
  have hk' : (entries.zipIdx 1)[k]? = some (s, 1 + k) := by
    rw [List.getElem?_zipIdx, hk]
    rfl
  have hrecord := LiesAt.of_flatMap_width (w := Header.indexRecordSize)
    (by simp [length_littleEndian, Header.indexRecordSize]) htable hk'
  obtain ⟨hnumber, hplace⟩ := LiesAt.append_iff.1 hrecord
  have hfound := Reader.Reads.u32 (by have := index.toNat_lt; omega) data _ hnumber
  have hdata := Reader.Reads.u32 hoffset data _ hplace
  have heq : UInt32.ofNat (1 + k) = index := by
    rw [Nat.add_comm, ← hindex, UInt32.ofNat_toNat]
  rw [Reader.eval, SymbolFile.readIndexed, Reader.bind_apply, hfound]
  dsimp only
  rw [heq, if_neg (by simp), Reader.bind_apply, hdata]
  dsimp only [Reader.bind_apply, Reader.seek]
  rw [UInt32.toNat_ofNat_of_lt' hoffset]
  exact hentry.eval_eq hs

theorem entryAt_ofNat {as : List α} {k : Nat} {a : α} (hlt : as.length < 2 ^ 32)
    (h : as[k]? = some a) : entryAt as (UInt32.ofNat (1 + k)) = .ok a := by
  have hk := (List.getElem?_eq_some_iff.1 h).1
  have hindex : (UInt32.ofNat (1 + k)).toNat = 1 + k := UInt32.toNat_ofNat_of_lt' (by
    change 1 + k < 2 ^ 32
    omega)
  have hzero : UInt32.ofNat (1 + k) ≠ 0 := fun hzero => by
    rw [hzero] at hindex
    change 0 = 1 + k at hindex
    omega
  rw [entryAt, if_neg hzero, hindex, Nat.add_sub_cancel_left, h]

theorem collect_eq {f : UInt32 → Except Error α} {start : Nat} {as : List α}
    (h : ReadsFrom f start as) :
    collect f start as.length = .ok as := by
  induction as generalizing start with
  | nil => rfl
  | cons a as ih =>
    obtain ⟨ha, has⟩ := h.cons
    rw [List.length_cons, collect, ha, ok_bind, ih has]
    rfl

theorem findFirst_eq {f : UInt32 → Except Error α} {wanted : α → Bool} {missing : Except Error α}
    {start : Nat} {as : List α} (h : ReadsFrom f start as) :
    findFirst f wanted missing start as.length =
      match as.find? wanted with
      | some a => .ok a
      | none => missing := by
  induction as generalizing start with
  | nil => rfl
  | cons a as ih =>
    obtain ⟨ha, has⟩ := h.cons
    rw [List.length_cons, findFirst, ha, ok_bind, List.find?_cons]
    cases wanted a with
    | true => rfl
    | false => exact ih has

namespace Image

variable {a : Authoring} {guid : Guid} {i : Image} {intact : FilePart → Prop} {data : Bytes}

theorem length_indexTable (entries : List Section) :
    (indexTable entries).length = entries.length * Header.indexRecordSize := by
  simp [indexTable, List.length_flatMap, length_littleEndian, Header.indexRecordSize]

theorem length_le_indexTable (entries : List Section) :
    entries.length ≤ (indexTable entries).length := by
  rw [length_indexTable]
  exact Nat.le_mul_of_pos_right _ (by decide)

theorem eval_entry {as : List α} {entries : List Section} {table : Section}
    {encode : α → List UInt8} {entry : Reader α} {index : UInt32} {data : Bytes}
    (hbytes : entries.map Section.bytes = as.map encode) (htable : table.bytes = indexTable entries)
    (hoffset : table.offset < 2 ^ 32) (hlength : table.bytes.length < 2 ^ 32)
    (hdata : LiesAt data table.offset table.bytes)
    (hentry : ∀ k a s, index.toNat = k + 1 → as[k]? = some a → entries[k]? = some s →
      s.bytes = encode a → s.offset < 2 ^ 32 ∧ LiesAt data s.offset s.bytes ∧
        Reader.Reads entry (encode a) a) :
    (Header.recordOffset (UInt32.ofNat table.offset) (UInt32.ofNat entries.length)
        Header.indexRecordSize index >>= fun place =>
      (SymbolFile.readIndexed index entry).eval data place) = entryAt as index := by
  have hcount := Section.length_eq_of_map_bytes hbytes
  rw [htable, length_indexTable, hcount] at hlength
  rw [hcount]
  refine recordOffset_bind hoffset
    (Nat.lt_of_le_of_lt (Nat.le_mul_of_pos_right _ (by decide)) hlength) fun k a hk ha => ?_
  have hrun : (entries.map Section.bytes)[k]? = some (encode a) := by
    rw [hbytes, List.getElem?_map, ha]
    rfl
  rw [List.getElem?_map] at hrun
  obtain ⟨s, hs, hencode⟩ := Option.map_eq_some_iff.1 hrun
  obtain ⟨hplace, hheld, hread⟩ := hentry k a s hk ha hs hencode
  exact eval_readIndexed hk (htable ▸ hdata) hs hplace hheld (hencode ▸ hread)

theorem sourceFile_of_holds (h : a.SealsTo guid i) (hdata : i.Holds intact data) (index : UInt32)
    (hintact : intact (.source index.toNat)) :
    (i.openedFrom data).sourceFile index = entryAt a.sources.toList index := by
  refine eval_entry h.describes.sources h.describes.sourceTable
    (h.offset_lt mem_labelled_sourceTable) (h.length_lt mem_labelled_sourceTable)
    (hdata.frame _ mem_labelled_sourceTable) fun k source s hk hsource hs hencode => ?_
  have hmem := mem_labelled_source hs
  have hindex : source.index = index := by
    rw [h.wellFormed.sources k source (by simpa using hsource), ← hk, UInt32.ofNat_toNat]
  refine ⟨h.offset_lt hmem, hdata.part _ s hmem (hk ▸ hintact), ?_⟩
  rw [← hindex]
  exact SourceFile.reads_encode (hencode ▸ h.length_lt hmem)

theorem compileUnit_of_holds (h : a.SealsTo guid i) (hdata : i.Holds intact data) (index : UInt32)
    (hintact : intact (.unit index.toNat)) :
    (i.openedFrom data).compileUnit index = entryAt a.units.toList index := by
  refine eval_entry h.describes.units h.describes.unitTable
    (h.offset_lt mem_labelled_unitTable) (h.length_lt mem_labelled_unitTable)
    (hdata.frame _ mem_labelled_unitTable) fun k unit s hk hunit hs hencode => ?_
  have hmem := mem_labelled_unit hs
  have hindex : unit.index = index := by
    rw [h.wellFormed.units k unit (by simpa using hunit), ← hk, UInt32.ofNat_toNat]
  refine ⟨h.offset_lt hmem, hdata.part _ s hmem (hk ▸ hintact), ?_⟩
  rw [← hindex]
  exact CompileUnit.reads_encode (hencode ▸ h.length_lt hmem)

theorem toNat_length {as : List α} {entries : List Section} {table : Section}
    {encode : α → List UInt8} (hbytes : entries.map Section.bytes = as.map encode)
    (htable : table.bytes = indexTable entries) (hlength : table.bytes.length < 2 ^ 32) :
    (UInt32.ofNat entries.length).toNat = as.length ∧ as.length < 2 ^ 32 := by
  rw [htable] at hlength
  have hlt := Nat.lt_of_le_of_lt (length_le_indexTable entries) hlength
  rw [← Section.length_eq_of_map_bytes hbytes]
  exact ⟨UInt32.toNat_ofNat_of_lt' hlt, hlt⟩

theorem toNat_sourceCount (h : a.SealsTo guid i) :
    i.header.sourceCount.toNat = a.sources.toList.length ∧ a.sources.toList.length < 2 ^ 32 :=
  toNat_length h.describes.sources h.describes.sourceTable (h.length_lt mem_labelled_sourceTable)

theorem toNat_unitCount (h : a.SealsTo guid i) :
    i.header.compileUnitCount.toNat = a.units.toList.length ∧ a.units.toList.length < 2 ^ 32 :=
  toNat_length h.describes.units h.describes.unitTable (h.length_lt mem_labelled_unitTable)

theorem sourceFile_ofNat (h : a.SealsTo guid i) (hdata : i.Holds intact data)
    (hintact : ∀ index, intact (.source index)) (k : Nat) (source : SourceFile)
    (hsource : a.sources.toList[k]? = some source) :
    (i.openedFrom data).sourceFile (UInt32.ofNat (1 + k)) = .ok source := by
  rw [sourceFile_of_holds h hdata _ (hintact _)]
  exact entryAt_ofNat (toNat_sourceCount h).2 hsource

theorem sources_of_holds (h : a.SealsTo guid i) (hdata : i.Holds intact data)
    (hintact : ∀ index, intact (.source index)) :
    (i.openedFrom data).sources = .ok a.sources.toList := by
  change collect _ 1 i.header.sourceCount.toNat = _
  rw [(toNat_sourceCount h).1]
  exact collect_eq (sourceFile_ofNat h hdata hintact)

theorem findSource_of_holds (h : a.SealsTo guid i) (hdata : i.Holds intact data) (name : String)
    (hintact : ∀ index, intact (.source index)) :
    (i.openedFrom data).findSource name = a.answer (.findSource name) := by
  change findFirst _ _ _ 1 i.header.sourceCount.toNat = _
  rw [(toNat_sourceCount h).1, findFirst_eq (sourceFile_ofNat h hdata hintact), Authoring.answer]
  cases a.sources.toList.find? fun s => s.fileName == name <;> rfl

theorem compileUnits_of_holds (h : a.SealsTo guid i) (hdata : i.Holds intact data)
    (hintact : ∀ index, intact (.unit index)) :
    (i.openedFrom data).compileUnits = .ok a.units.toList := by
  change collect _ 1 i.header.compileUnitCount.toNat = _
  rw [(toNat_unitCount h).1]
  apply collect_eq
  intro k unit hunit
  rw [compileUnit_of_holds h hdata _ (hintact _)]
  exact entryAt_ofNat (toNat_unitCount h).2 hunit

end Image

section Scopes

/-- Scopes by id, as a reader collects them. -/
def scopesById (scopes : List AnonymousScope) : Std.TreeMap UInt32 AnonymousScope :=
  scopes.foldl (fun table s => table.insert s.id s) ∅

/-- Scopes as a reader lists them, in the order of their ids. -/
def listedScopes (scopes : List AnonymousScope) : List AnonymousScope :=
  (scopesById scopes).toList.map Prod.snd

variable {scopes : List AnonymousScope}

theorem getElem?_scopesById (scopes : List AnonymousScope) (id : UInt32) :
    (scopesById scopes)[id]? = scopes.reverse.find? fun s => s.id == id := by
  have hget := getElem?_foldl_insert AnonymousScope.id (fun s => s) scopes id ∅
  simpa [scopesById] using hget

theorem mem_scopesById {id : UInt32} {s : AnonymousScope} :
    (id, s) ∈ (scopesById scopes).toList ↔
      (scopes.reverse.find? fun t => t.id == id) = some s := by
  rw [Std.TreeMap.mem_toList_iff_getElem?_eq_some, getElem?_scopesById]

theorem id_of_mem_scopesById {id : UInt32} {s : AnonymousScope}
    (h : (id, s) ∈ (scopesById scopes).toList) : s.id = id := by
  simpa using List.find?_some (mem_scopesById.1 h)

theorem mem_listedScopes {s : AnonymousScope} :
    s ∈ listedScopes scopes ↔ (scopes.reverse.find? fun t => t.id == s.id) = some s := by
  rw [← mem_scopesById, listedScopes, List.mem_map]
  constructor
  · rintro ⟨⟨id, s⟩, hs, rfl⟩
    rwa [id_of_mem_scopesById hs]
  · intro hs
    exact ⟨_, hs, rfl⟩

theorem pairwise_listedScopes (scopes : List AnonymousScope) :
    (listedScopes scopes).Pairwise fun s t => s.id < t.id := by
  rw [listedScopes, List.pairwise_map]
  apply Std.TreeMap.ordered_keys_toList.imp_of_mem
  intro x y hx hy hlt
  rw [id_of_mem_scopesById hx, id_of_mem_scopesById hy]
  exact Std.compare_eq_lt.1 hlt

theorem nodup_listedScopes (scopes : List AnonymousScope) :
    ((listedScopes scopes).map (·.id)).Nodup := by
  rw [List.Nodup, List.pairwise_map]
  exact (pairwise_listedScopes scopes).imp UInt32.ne_of_lt

theorem listedScopes_of_nodup (h : (scopes.map (·.id)).Nodup) :
    listedScopes scopes = scopes.mergeSort fun s t => s.id ≤ t.id := by
  -- Both lists ascend strictly and hold the same scopes.
  refine List.Perm.eq_of_pairwise (fun s t _ _ hst hts => ?_) (pairwise_listedScopes scopes)
    (pairwise_mergeSort_of_nodup h) ?_
  · exact absurd hts (UInt32.lt_asymm hst)
  · have hperm : (listedScopes scopes).Perm scopes := by
      rw [List.perm_ext_iff_of_nodup (nodup_listedScopes scopes).of_map h.of_map]
      intro s
      rw [mem_listedScopes, find?_reverse_of_nodup h]
      exact ⟨List.mem_of_find?_eq_some, find?_key_of_mem h⟩
    exact hperm.trans (List.mergeSort_perm _ _).symm

end Scopes

namespace Image

variable {a : Authoring} {guid : Guid} {i : Image} {intact : FilePart → Prop} {data : Bytes}

theorem size_scopes_le (h : i.Describes a guid) : a.scopes.size ≤ i.scopeTable.bytes.length := by
  rw [h.scopeTable, ← Array.length_toList]
  exact length_le_flatMap fun s _ => s.length_encode_pos

theorem toNat_scopeCount (h : a.SealsTo guid i) :
    i.header.anonymousScopeCount.toNat = a.scopes.size ∧ a.scopes.size < 2 ^ 32 := by
  have hlt := Nat.lt_of_le_of_lt (size_scopes_le h.describes)
    (h.length_lt mem_labelled_scopeTable)
  have hcount : i.header.anonymousScopeCount = UInt32.ofNat a.scopes.size :=
    congrArg UInt32.ofNat h.describes.scopeCount
  rw [hcount]
  exact ⟨UInt32.toNat_ofNat_of_lt' hlt, hlt⟩

theorem scopeTable_of_holds (h : a.SealsTo guid i) (hdata : i.Holds intact data)
    (hintact : intact .scopes) :
    (i.openedFrom data).scopeTable = .ok (scopesById a.scopes.toList) := by
  have hlength := h.length_lt mem_labelled_scopeTable
  rw [h.describes.scopeTable] at hlength
  have hplace : i.header.anonymousScopeTableOffset.toNat = i.scopeTable.offset :=
    UInt32.toNat_ofNat_of_lt' (h.offset_lt mem_labelled_scopeTable)
  have hscopes : Reader.Reads (Reader.replicate a.scopes.toList.length AnonymousScope.read)
      (a.scopes.toList.flatMap AnonymousScope.encode) a.scopes.toList :=
    Reader.Reads.replicate _ fun s hs =>
      AnonymousScope.reads_encode (Nat.lt_of_le_of_lt (length_le_of_mem hs) hlength)
  have hheld := hdata.part _ _ mem_labelled_scopeTable hintact
  rw [h.describes.scopeTable] at hheld
  change (SymbolFile.readScopes i.header.anonymousScopeCount).eval data
    i.header.anonymousScopeTableOffset.toNat = _
  rw [SymbolFile.readScopes, (toNat_scopeCount h).1, hplace]
  exact (hscopes.bind_pure rfl).eval_eq hheld

theorem anonymousScopes_of_holds (h : a.SealsTo guid i) (hdata : i.Holds intact data)
    (hintact : intact .scopes) : (i.openedFrom data).anonymousScopes = .ok a.sortedScopes := by
  rw [SymbolFile.anonymousScopes, scopeTable_of_holds h hdata hintact, Authoring.sortedScopes,
    ← listedScopes_of_nodup h.wellFormed.scopes_nodup]
  rfl

theorem anonymousScope_of_holds (h : a.SealsTo guid i) (hdata : i.Holds intact data) (id : UInt32)
    (hintact : intact .scopes) :
    (i.openedFrom data).anonymousScope id = a.answer (.scope id) := by
  rw [SymbolFile.anonymousScope, scopeTable_of_holds h hdata hintact, ok_bind,
    getElem?_scopesById, find?_reverse_of_nodup h.wellFormed.scopes_nodup, Authoring.answer]
  cases a.scopes.toList.find? fun s => s.id == id <;> rfl

end Image

end DebugSymbols
