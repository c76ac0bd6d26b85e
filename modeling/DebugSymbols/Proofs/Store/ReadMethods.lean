import DebugSymbols.Proofs.Entries
import DebugSymbols.Proofs.Store.Authored
import DebugSymbols.Proofs.Store.Holding
import DebugSymbols.Proofs.Store.MethodTable
import DebugSymbols.Proofs.Store.ReadEntries

namespace DebugSymbols

namespace Image

variable {a : Authoring} {guid : Guid} {i : Image} {intact : FilePart → Prop} {data : Bytes}
  {d : MethodDefinition} {k : Nat} {m : MethodImage}

def laidOut (i : Image) (a : Authoring) : List ((MethodDefinition × Nat) × MethodImage) :=
  a.numberedMethods.zip i.methods

/-- What the file says of a method. -/
def recordOf : (MethodDefinition × Nat) × MethodImage → MethodRecord
  | ((d, k), m) => ⟨d.token, UInt32.ofNat k, UInt32.ofNat m.lines.offset, m.trailerOf d⟩

def records (i : Image) (a : Authoring) : List MethodRecord := (i.laidOut a).map recordOf

theorem length_methods (h : i.Describes a guid) : i.methods.length = a.numberedMethods.length := by
  rw [Authoring.numberedMethods, List.length_zipIdx]
  exact h.methods.length_eq.symm

theorem laidOut_getElem? (h : i.Describes a guid) {j : Nat}
    (hj : (i.laidOut a)[j]? = some ((d, k), m)) :
    k = j + 1 ∧ d ∈ a.sortedMethods ∧ i.methods[j]? = some m ∧
      MethodImage.Describes a.options.parameters d m := by
  rw [laidOut, List.getElem?_zip_eq_some, Authoring.numberedMethods, List.getElem?_zipIdx] at hj
  obtain ⟨hd, hm⟩ := hj
  obtain ⟨e, he, heq⟩ := Option.map_eq_some_iff.1 hd
  cases heq
  exact ⟨Nat.add_comm 1 j, List.mem_of_getElem? he, hm, List.forall₂_zip h.methods
    (List.mem_of_getElem? (List.getElem?_zip_eq_some.2 ⟨he, hm⟩))⟩

theorem length_record (m : MethodImage) : m.record.length = Header.methodRecordSize := by
  simp [MethodImage.record, length_littleEndian, Header.methodRecordSize]

theorem length_methods_le (h : i.Describes a guid) :
    i.methods.length ≤ i.methodTable.bytes.length := by
  rw [h.methodTable]
  refine length_le_flatMap fun m _ => ?_
  rw [length_record]
  decide

theorem length_methods_lt (h : a.SealsTo guid i) : i.methods.length < 2 ^ 32 :=
  Nat.lt_of_le_of_lt (length_methods_le h.describes) (h.length_lt mem_labelled_methodTable)

theorem toNat_methodCount (h : a.SealsTo guid i) :
    i.header.methodCount.toNat = (i.records a).length ∧ (i.records a).length < 2 ^ 32 := by
  have hlength : (i.records a).length = i.methods.length := by
    simp [records, laidOut, length_methods h.describes]
  have hlt := length_methods_lt h
  rw [hlength]
  exact ⟨UInt32.toNat_ofNat_of_lt' hlt, hlt⟩

theorem eval_methodRecord (h : a.SealsTo guid i) (hdata : i.Holds intact data) {index : UInt32}
    {j : Nat} (hindex : index.toNat = j + 1) (hj : (i.laidOut a)[j]? = some ((d, k), m)) :
    (MethodRecord.read index).eval data (i.methodTable.offset + j * Header.methodRecordSize) =
      .ok (recordOf ((d, k), m)) := by
  obtain ⟨rfl, -, hm, hdescribes⟩ := laidOut_getElem? h.describes hj
  have hrecord := LiesAt.of_flatMap_width length_record
    (h.describes.methodTable ▸ hdata.frame _ mem_labelled_methodTable) hm
  obtain ⟨hrecord, hlines⟩ := LiesAt.append_iff.1 hrecord
  obtain ⟨htoken, htrailer⟩ := LiesAt.append_iff.1 hrecord
  have htrailerLt := h.offset_lt (mem_labelled_trailer hm)
  have htoken := Reader.Reads.u32 m.token.value.toNat_lt data _ htoken
  have htrailer := Reader.Reads.u32 htrailerLt data _ htrailer
  have hlines := Reader.Reads.u32 (h.offset_lt (mem_labelled_part hm .lines)) data _ hlines
  have hheld := hdata.frame _ (mem_labelled_trailer hm)
  rw [hdescribes.trailer] at hheld
  have hread := MethodTrailer.reads_encode (m.trailerOf d) data _ hheld
  rw [Reader.eval, MethodRecord.read, Reader.bind_apply, htoken]
  dsimp only
  rw [Reader.bind_apply, htrailer]
  dsimp only
  rw [List.length_append, ← Nat.add_assoc] at hlines
  rw [Reader.bind_apply, hlines]
  dsimp only [Reader.bind_apply, Reader.seek]
  rw [UInt32.toNat_ofNat_of_lt' htrailerLt, hread, UInt32.ofNat_toNat, hdescribes.token, recordOf,
    ← hindex, UInt32.ofNat_toNat]
  rfl

theorem methodRecord_of_holds (h : a.SealsTo guid i) (hdata : i.Holds intact data)
    (index : UInt32) :
    (i.openedFrom data).methodRecord index = entryAt (i.records a) index := by
  obtain ⟨hcount, hlt⟩ := toNat_methodCount h
  have hplace : (i.openedFrom data).methodPlace index =
      Header.recordOffset (UInt32.ofNat i.methodTable.offset)
        (UInt32.ofNat (i.records a).length) Header.methodRecordSize index := by
    rw [← hcount, UInt32.ofNat_toNat]
    rfl
  rw [SymbolFile.methodRecord, hplace]
  apply recordOffset_bind (h.offset_lt mem_labelled_methodTable) hlt
  intro j r hindex hr
  rw [records, List.getElem?_map] at hr
  obtain ⟨⟨⟨d, k⟩, m⟩, hj, rfl⟩ := Option.map_eq_some_iff.1 hr
  exact eval_methodRecord h hdata hindex hj

theorem map_fst_laidOut (h : a.SealsTo guid i) : (i.laidOut a).map Prod.fst = a.numberedMethods :=
  List.map_fst_zip (Nat.le_of_eq (length_methods h.describes).symm)

theorem map_token_records (h : a.SealsTo guid i) :
    (i.records a).map (·.token) = a.sortedMethods.map (·.token) := by
  have htokens : (i.records a).map (·.token) =
      ((i.laidOut a).map Prod.fst).map fun entry => entry.1.token := by
    simp [records, recordOf, Function.comp_def]
  rw [htokens, map_fst_laidOut h, Authoring.numberedMethods]
  rw [← List.zipIdx_map_fst 1 a.sortedMethods, List.map_map]
  simp

theorem methods_of_holds (h : a.SealsTo guid i) (hdata : i.Holds intact data) :
    (i.openedFrom data).methods = .ok (i.records a) := by
  obtain ⟨hcount, hlt⟩ := toNat_methodCount h
  change collectRecords _ ∅ 1 i.header.methodCount.toNat = _
  rw [hcount]
  refine collectRecords_eq (fun k r hr => ?_) ?_ (by simp)
  · rw [methodRecord_of_holds h hdata]
    exact entryAt_ofNat hlt hr
  · rw [map_token_records h]
    exact Authoring.sortedMethods_nodup h.wellFormed

theorem pick_of_holds (h : a.SealsTo guid i) (hdata : i.Holds intact data) (key : MethodKey) :
    (i.openedFrom data).pick key =
      recordOf <$> pickAmong (fun entry => entry.1.1.token) (i.laidOut a) key := by
  rw [SymbolFile.pick_eq (methods_of_holds h hdata), records, pickAmong_map]
  rfl

/-- A key picks in the file what it picks in the store. -/
theorem pick_laidOut (h : a.SealsTo guid i) (key : MethodKey) :
    a.pick key =
      Prod.fst <$> pickAmong (fun entry => entry.1.1.token) (i.laidOut a) key := by
  rw [Authoring.pick, ← map_fst_laidOut h, pickAmong_map]

theorem knownPart?_recordOf (h : a.SealsTo guid i) {j : Nat}
    (hj : (i.laidOut a)[j]? = some ((d, k), m)) {part : MethodPart} {v : part.Value}
    (hv : (recordOf ((d, k), m)).knownPart? part = some v) : v = d.part part := by
  obtain ⟨rfl, -, hm, -⟩ := laidOut_getElem? h.describes hj
  have hmem : (some (.method (j + 1) .realName), m.realName) ∈ i.labelled :=
    mem_labelled_part hm .realName
  cases part with
  | realName =>
    cases hname : d.realName with
    | none =>
      simp only [MethodRecord.knownPart?, recordOf, MethodImage.trailerOf, hname] at hv
      cases hv
      exact hname.symm
    | some name =>
      -- A name that is there, also an empty one, lies behind the front and not at 0.
      have hzero : UInt32.ofNat m.realName.offset ≠ 0 := by
        intro hzero
        have hoffset := congrArg UInt32.toNat hzero
        rw [UInt32.toNat_ofNat_of_lt' (h.offset_lt hmem)] at hoffset
        have hfront := h.dataOffset_le hmem
        exact absurd (hoffset ▸ hfront) (by decide)
      simp only [MethodRecord.knownPart?, recordOf, MethodImage.trailerOf, hname,
        Option.isSome_some, if_true, if_neg hzero] at hv
      cases hv
  | locals | blocks | scopeVariables | lines => cases hv

theorem reads_part (h : a.SealsTo guid i) {j : Nat} (hj : (i.laidOut a)[j]? = some ((d, k), m))
    (part : MethodPart) (hpart : (recordOf ((d, k), m)).knownPart? part = none) :
    ((recordOf ((d, k), m)).partOffset part).toNat = (m.part part).offset ∧
      Reader.Reads ((recordOf ((d, k), m)).readPart a.options.parameters part) (m.part part).bytes
        (d.part part) := by
  obtain ⟨rfl, hd, hm, hdescribes⟩ := laidOut_getElem? h.describes hj
  have hvalid : d.damage? = none := h.wellFormed.methods d
    (Array.mem_toList_iff.1 (a.sortedMethods_perm.mem_iff.1 hd))
  have hmem := mem_labelled_part hm part
  have hoffset := UInt32.toNat_ofNat_of_lt' (h.offset_lt hmem)
  have hlength := h.length_lt hmem
  cases part with
  | locals =>
    rw [MethodImage.part, hdescribes.locals] at hlength ⊢
    exact ⟨hoffset, Reader.Reads.counted hlength (fun v _ => v.length_encode_pos)
      fun _ _ hv => LocalVariable.reads_encode hv⟩
  | blocks =>
    rw [MethodImage.part, hdescribes.blocks] at hlength ⊢
    exact ⟨hoffset, CodeBlock.reads_table hlength (d.index_block hvalid)⟩
  | scopeVariables =>
    rw [MethodImage.part, hdescribes.scopeVariables] at hlength ⊢
    exact ⟨hoffset, Reader.Reads.counted hlength (fun v _ => v.length_encode_pos)
      fun v _ _ => ScopeVariable.reads_encode v⟩
  | lines =>
    refine ⟨hoffset, ?_⟩
    -- Columns and ends are read as the trailer says, which they were written by.
    have hflags : (recordOf ((d, j + 1), m)).flags = d.flags := MethodFlags.ofBits_bits d.flags
    rw [MethodRecord.readPart, hflags]
    exact d.reads_lines hvalid hdescribes.lines
  | realName =>
    cases hname : d.realName with
    | none =>
      simp only [MethodRecord.knownPart?, recordOf, MethodImage.trailerOf, hname] at hpart
      cases hpart
    | some name =>
      rw [MethodImage.part, hdescribes.realName, hname] at hlength ⊢
      refine ⟨?_, ?_⟩
      · simp only [MethodRecord.partOffset, recordOf, MethodImage.trailerOf, hname,
          Option.isSome_some, if_true]
        exact hoffset
      · rw [MethodDefinition.part, hname]
        exact (Reader.Reads.text hlength).map some

theorem part_of_holds (h : a.SealsTo guid i) (hdata : i.Holds intact data) {j : Nat}
    (hj : (i.laidOut a)[j]? = some ((d, k), m)) (part : MethodPart)
    (hintact : intact (.method k part)) :
    (i.openedFrom data).part (recordOf ((d, k), m)) part = .ok (d.part part) := by
  rw [SymbolFile.part]
  cases hpart : (recordOf ((d, k), m)).knownPart? part with
  | some v => rw [knownPart?_recordOf h hj hpart]
  | none =>
    obtain ⟨hplace, hread⟩ := reads_part h hj part hpart
    obtain ⟨rfl, -, hm, -⟩ := laidOut_getElem? h.describes hj
    have hparameters : (i.openedFrom data).parameters = a.options.parameters :=
      congrArg StoreOptions.parameters h.describes.options
    dsimp only
    rw [hparameters, hplace]
    exact hread.eval_eq (hdata.part _ _ (mem_labelled_part hm part) hintact)

end Image

end DebugSymbols
