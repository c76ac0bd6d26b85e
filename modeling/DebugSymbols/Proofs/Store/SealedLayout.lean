import DebugSymbols.Proofs.Store.RoundTrip

namespace DebugSymbols

/-- The trailer `t` of the method `d` says where the parts of its payload `m` begin. -/
structure MethodTrailer.PointsInto (d : MethodDefinition) (m : MethodImage) (t : MethodTrailer) :
    Prop where
  compileUnit : t.compileUnit = d.compileUnit
  namespaceId : t.namespaceId = d.namespaceId
  flags : t.flags = d.flags.bits
  locals : t.localsOffset.toNat = m.locals.offset
  blocks : t.blocksOffset.toNat = m.blocks.offset
  scopeVariables : t.scopeVariablesOffset.toNat = m.scopeVariables.offset
  realName : t.realNameOffset.toNat = if d.realName.isSome then m.realName.offset else 0

/-- What the header of a file says of its sections: they follow each other from the end of the front
on, and hold so many entries. -/
structure Header.Describes (a : Authoring) (h : Header) : Prop where
  dataSection : h.dataSectionOffset.toNat = 112
  methodTable : h.methodTableOffset.toNat = h.dataSectionOffset.toNat + h.dataSectionSize.toNat
  sourceTable : h.sourceTableOffset.toNat = h.methodTableOffset.toNat + h.methodTableSize.toNat
  unitTable : h.compileUnitTableOffset.toNat =
    h.sourceTableOffset.toNat + h.sourceTableSize.toNat
  scopeTable : h.anonymousScopeTableOffset.toNat =
    h.compileUnitTableOffset.toNat + h.compileUnitTableSize.toNat
  total : h.totalFileSize.toNat =
    h.anonymousScopeTableOffset.toNat + h.anonymousScopeTableSize.toNat
  methods : h.methodCount.toNat = a.methods.size ∧ h.methodTableSize.toNat = a.methods.size * 12
  sources : h.sourceCount.toNat = a.sources.size ∧ h.sourceTableSize.toNat = a.sources.size * 8
  units : h.compileUnitCount.toNat = a.units.size ∧
    h.compileUnitTableSize.toNat = a.units.size * 8
  scopes : h.anonymousScopeCount.toNat = a.scopes.size

/-- The file of a store with its payloads: those of sources, compile units and methods. -/
structure FileLayout (a : Authoring) (guid : Guid) (h : Header) (data : Bytes)
    (sources units : List Section) (methods : List MethodImage) : Prop where
  preamble : LiesAt data 0 ({ guid := guid } : Preamble).encode
  header : LiesAt data 32 h.encode ∧ h.encode.length = 112 - 32
  frame : h.Describes a
  sources_bytes : sources.map Section.bytes = a.sources.toList.map SourceFile.encode
  units_bytes : units.map Section.bytes = a.units.toList.map CompileUnit.encode
  /-- Each method has the payload of its parts in this order: locals, blocks, scope variables, the
  real name, the line program, and the trailer. -/
  methods_bytes : List.Forall₂ (MethodImage.Describes a.options.parameters) a.sortedMethods methods
  /-- The payloads lie one behind another and fill the data section. -/
  contiguous : Section.Contiguous h.dataSectionOffset.toNat
    (sources ++ units ++ methods.flatMap MethodImage.parts)
  full : h.dataSectionSize.toNat =
    ((sources ++ units ++ methods.flatMap MethodImage.parts).flatMap Section.bytes).length
  payloads : ∀ s ∈ sources ++ units ++ methods.flatMap MethodImage.parts,
    LiesAt data s.offset s.bytes ∧ s.stop ≤ h.methodTableOffset.toNat
  trailers : List.Forall₂ (fun d m => ∃ t : MethodTrailer,
    m.trailer.bytes = t.encode ∧ t.PointsInto d m) a.sortedMethods methods
  method_records : ∀ k m, methods[k]? = some m →
    LiesAt data (h.methodTableOffset.toNat + k * 12)
      (littleEndian 4 m.token.value.toNat ++ littleEndian 4 m.trailer.offset ++
        littleEndian 4 m.lines.offset)
  source_records : ∀ k s, sources[k]? = some s →
    LiesAt data (h.sourceTableOffset.toNat + k * 8)
      (littleEndian 4 (k + 1) ++ littleEndian 4 s.offset)
  unit_records : ∀ k s, units[k]? = some s →
    LiesAt data (h.compileUnitTableOffset.toNat + k * 8)
      (littleEndian 4 (k + 1) ++ littleEndian 4 s.offset)
  scope_table : LiesAt data h.anonymousScopeTableOffset.toNat
      (a.scopes.toList.flatMap AnonymousScope.encode) ∧
    h.anonymousScopeTableSize.toNat = (a.scopes.toList.flatMap AnonymousScope.encode).length

namespace Image

variable {a : Authoring} {guid : Guid} {i : Image} {data : Bytes}

theorem toNat_section (h : a.SealsTo guid i) {l : Option FilePart} {s : Section}
    (hs : (l, s) ∈ i.labelled) : (UInt32.ofNat s.offset).toNat = s.offset ∧
      (UInt32.ofNat s.bytes.length).toNat = s.bytes.length :=
  ⟨UInt32.toNat_ofNat_of_lt' (h.offset_lt hs), UInt32.toNat_ofNat_of_lt' (h.length_lt hs)⟩

theorem length_methodTable (h : i.Describes a guid) :
    i.methodTable.bytes.length = a.methods.size * 12 := by
  have hcount : i.methods.length = a.methods.size := by
    rw [← h.methods.length_eq, a.sortedMethods_perm.length_eq, Array.length_toList]
  rw [h.methodTable, List.length_flatMap]
  simp [length_record, Header.methodRecordSize, hcount]

theorem length_table_of_entries {table : Section} {entries : List Section} {as : Array α}
    {f : α → List UInt8} (htable : table.bytes = indexTable entries)
    (hentries : entries.map Section.bytes = as.toList.map f) :
    table.bytes.length = as.size * 8 := by
  rw [htable, length_indexTable, Section.length_eq_of_map_bytes hentries, Array.length_toList,
    Header.indexRecordSize]

theorem header_describes (h : a.SealsTo guid i) : i.header.Describes a := by
  have hd := h.describes
  obtain ⟨-, hmethodTable, hsourceTable, hunitTable, hscopeTable⟩ := hd.contiguous_parts
  obtain ⟨hmethods, hmethodSize⟩ := toNat_section h mem_labelled_methodTable
  obtain ⟨hsources, hsourceSize⟩ := toNat_section h mem_labelled_sourceTable
  obtain ⟨hunits, hunitSize⟩ := toNat_section h mem_labelled_unitTable
  obtain ⟨hscopes, hscopeSize⟩ := toNat_section h mem_labelled_scopeTable
  have hstart : i.header.dataSectionOffset.toNat = dataOffset := rfl
  have hdata : i.header.dataSectionSize.toNat = i.dataBytes.length := by
    refine UInt32.toNat_ofNat_of_lt' (Nat.lt_of_le_of_lt ?_ (h.offset_lt mem_labelled_methodTable))
    rw [hmethodTable]
    exact Nat.le_add_left _ _
  have htotal : i.header.totalFileSize.toNat = i.scopeTable.stop :=
    UInt32.toNat_ofNat_of_lt'
      (Nat.lt_of_le_of_lt (h.stop_le mem_labelled_scopeTable) h.fits)
  -- Each section starts where the one before it stops, in the header as in the file.
  refine ⟨rfl, ?_, ?_, ?_, ?_, ?_, ⟨(toNat_recordCount h).1, ?_⟩, ⟨(toNat_sourceCount h).1, ?_⟩,
    ⟨(toNat_unitCount h).1, ?_⟩, (toNat_scopeCount h).1⟩
  · rw [hstart, hdata]
    exact hmethods.trans hmethodTable
  · exact hsources.trans (hsourceTable.trans (congrArg₂ (· + ·) hmethods hmethodSize).symm)
  · exact hunits.trans (hunitTable.trans (congrArg₂ (· + ·) hsources hsourceSize).symm)
  · exact hscopes.trans (hscopeTable.trans (congrArg₂ (· + ·) hunits hunitSize).symm)
  · exact htotal.trans (congrArg₂ (· + ·) hscopes hscopeSize).symm
  · exact hmethodSize.trans (length_methodTable hd)
  · exact hsourceSize.trans (length_table_of_entries hd.sourceTable hd.sources)
  · exact hunitSize.trans (length_table_of_entries hd.unitTable hd.units)

theorem toNat_totalFileSize (h : a.SealsTo guid i) :
    i.header.totalFileSize.toNat = i.bytes.length := by
  rw [h.describes.length_bytes]
  exact UInt32.toNat_ofNat_of_lt' (h.describes.length_bytes ▸ h.fits)

/-- An offset in a trailer is that of the part, as all parts lie in the file. -/
theorem trailer_pointsInto (h : a.SealsTo guid i) {d : MethodDefinition} {m : MethodImage}
    (hm : m ∈ i.methods) : (m.trailerOf d).PointsInto d m := by
  obtain ⟨k, hk⟩ := List.mem_iff_getElem?.1 hm
  have hoffset (part : MethodPart) : (UInt32.ofNat (m.part part).offset).toNat =
      (m.part part).offset := (toNat_section h (mem_labelled_part hk part)).1
  refine ⟨rfl, rfl, rfl, hoffset .locals, hoffset .blocks, hoffset .scopeVariables, ?_⟩
  unfold MethodImage.trailerOf
  dsimp only
  split
  · exact hoffset .realName
  · rfl

/-- Everything in a stream that the file of a store stands at the beginning of. -/
theorem fileLayout (h : a.SealsTo guid i) (hdata : LiesAt data 0 i.bytes) :
    FileLayout a guid i.header data i.sources i.units i.methods := by
  have hd := h.describes
  have hframe := header_describes h
  obtain ⟨hcontiguous, hmethodTable, -⟩ := hd.contiguous_parts
  have hmethodOffset := (toNat_section h mem_labelled_methodTable).1
  have hsection {l : Option FilePart} {s : Section} (hs : (l, s) ∈ i.labelled) :
      LiesAt data s.offset s.bytes := liesAt_of_mem_sections h hdata (mem_sections hs)
  obtain ⟨hpreamble, hheader⟩ := LiesAt.append_iff.1 (hsection mem_labelled_front)
  rw [Preamble.length_encode] at hheader
  -- The records of the tables, each at the multiple of its width.
  have hrecords := hsection mem_labelled_methodTable
  rw [hd.methodTable, ← hmethodOffset] at hrecords
  have hindexRecords {entries : List Section} {table : Section} {l : Option FilePart}
      (htable : (l, table) ∈ i.labelled) (hbytes : table.bytes = indexTable entries) {k : Nat}
      {s : Section} (hs : entries[k]? = some s) :
      LiesAt data ((UInt32.ofNat table.offset).toNat + k * 8)
        (littleEndian 4 (k + 1) ++ littleEndian 4 s.offset) := by
    have hlies := hsection htable
    rw [hbytes, ← (toNat_section h htable).1] at hlies
    have hentry : (entries.zipIdx 1)[k]? = some (s, k + 1) := by
      rw [List.getElem?_zipIdx, hs, Nat.add_comm]
      rfl
    exact LiesAt.of_flatMap_width (by simp [length_littleEndian]) hlies hentry
  refine ⟨hd.guid ▸ hpreamble, ⟨hheader, Header.length_encode _⟩, hframe, hd.sources, hd.units,
    hd.methods, hcontiguous, ?_, fun s hs => ⟨?_, ?_⟩, ?_, fun k m hm => ?_,
    fun k s hs => hindexRecords mem_labelled_sourceTable hd.sourceTable hs,
    fun k s hs => hindexRecords mem_labelled_unitTable hd.unitTable hs, ?_, ?_⟩
  · rw [flatMap_bytes_contents]
    have := hframe.methodTable
    rw [hframe.dataSection] at this
    change (UInt32.ofNat i.methodTable.offset).toNat = dataOffset + _ at this
    omega
  · refine liesAt_of_mem_sections h hdata ?_
    simp only [sections_eq, List.mem_append] at hs ⊢
    exact .inl (hs.imp_left fun hs => hs.imp_left .inr)
  · rw [hcontiguous] at hs
    have hstop := Section.stop_le_of_mem_layOut hs
    rwa [← List.flatMap_def, flatMap_bytes_contents, ← hmethodTable, ← hmethodOffset] at hstop
  · refine List.forall₂_iff_zip.2 ⟨hd.methods.length_eq, fun hmem => ?_⟩
    exact ⟨_, (List.forall₂_zip hd.methods hmem).trailer,
      trailer_pointsInto h (List.of_mem_zip hmem).2⟩
  · exact LiesAt.of_flatMap_width length_record hrecords hm
  · have hscopes := hsection mem_labelled_scopeTable
    rwa [hd.scopeTable, ← (toNat_section h mem_labelled_scopeTable).1] at hscopes
  · exact (toNat_section h mem_labelled_scopeTable).2.trans (congrArg List.length hd.scopeTable)

end Image

namespace Store

theorem contents?_eq_some {s : Store} : s.contents? = some a ↔ s = authoring a := by
  cases s <;> simp [contents?]

/-- A store that was filled by any run of calls, and that was sealed over a stream in memory, has a
file form that fits, and the stream begins with it. -/
theorem exists_sealsTo_of_sealOver [Sink σ] {options : StoreOptions} {calls : List (StoreCall σ)}
    {a : Authoring} (ha : (Store.new options).after calls = authoring a) {guid : Guid}
    {o file : Output} {left : Store}
    (hseal : (authoring a).sealOver o guid = (.ok (), file, left)) :
    ∃ i, a.SealsTo guid i ∧ file.data = overlay o.data 0 i.bytes := by
  have hwf := wellFormed_of_after ha
  obtain ⟨i, hi⟩ := hwf.exists_image guid
  have hfits := (sealOver_eq_ok_iff hwf hi o).1 (congrArg Prod.fst hseal)
  have h : a.SealsTo guid i := ⟨hwf, Authoring.image_eq_ok hi, hfits⟩
  rw [sealOver_of_lt h hi] at hseal
  have hfile := congrArg (fun answer => answer.2.1.data) hseal
  exact ⟨i, h, hfile.symm⟩

/-- Whatever a store was filled with, by calls of which some may fail: over any stream in memory a
file of less than 4 GiB is written, whose sections, payloads and offsets are laid out as the header
says, methods by strictly ascending tokens.  Sums with the line base are taken modulo `2 ^ 32`. -/
theorem sealed_layout [Sink σ] (options : StoreOptions) (calls : List (StoreCall σ))
    {a : Authoring} (ha : (Store.new options).after calls = authoring a) (guid : Guid)
    (hsize : (authoring a).fileSize guid < 2 ^ 32) (o : Output) :
    ∃ file h sources units methods,
      (authoring a).sealOver o guid = (.ok (), file, sealed h) ∧
      FileLayout a guid h file.data sources units methods ∧
      file.data.size = max o.data.size h.totalFileSize.toNat ∧
      a.sortedMethods.Perm a.methods.toList ∧
      a.sortedMethods.Pairwise (fun d e => d.token.value < e.token.value) := by
  obtain ⟨i, hi, h⟩ := exists_sealsTo ha hsize
  refine ⟨_, i.header, i.sources, i.units, i.methods, sealOver_of_lt h hi o,
    Image.fileLayout h (LiesAt.overlay_self (Nat.zero_le _) i.bytes), ?_, a.sortedMethods_perm,
    Authoring.sortedMethods_pairwise h.wellFormed⟩
  rw [Image.toNat_totalFileSize h]
  exact size_overlay_zero o.data i.bytes

/-- A source, a compile unit and a method, after a call that failed, over a stream that is not
empty. -/
theorem sealed_layout_one_method :
    let calls : List (StoreCall LimitedOutput) := [
      .fill (.addUnit 1), .fill (.addSource { index := 0, fileName := "a.cs", checksum := [] }),
      .fill (.addUnit 1), .fill (.defineMethod { token := ⟨7⟩, compileUnit := 1 })]
    ∃ a file h sources units methods, (Store.new {}).after calls = authoring a ∧
      (authoring a).fileSize .zero < 2 ^ 32 ∧
      (authoring a).sealOver (⟨#[1, 2, 3], 1⟩ : Output) .zero = (.ok (), file, sealed h) ∧
      FileLayout a .zero h file.data sources units methods ∧ h.methodTableSize.toNat = 12 := by
  intro calls
  have hrun : ∃ a, (Store.new {}).after calls = authoring a ∧ a.methods.size = 1 :=
    ⟨_, rfl, rfl⟩
  obtain ⟨a, ha, hcount⟩ := hrun
  have hsize : ((Store.new {}).after calls).fileSize .zero < 2 ^ 32 := by decide +kernel
  rw [ha] at hsize
  obtain ⟨file, h, sources, units, methods, hseal, hlayout, -⟩ :=
    sealed_layout {} calls ha .zero hsize ⟨#[1, 2, 3], 1⟩
  refine ⟨a, file, h, sources, units, methods, ha, hsize, hseal, hlayout, ?_⟩
  rw [hlayout.frame.methods.2, hcount]

end Store

end DebugSymbols
