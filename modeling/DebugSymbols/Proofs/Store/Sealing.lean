import DebugSymbols.Proofs.Store.ReadMethods
import DebugSymbols.Proofs.Writers

namespace DebugSymbols

open Writing

theorem littleEndian_mod (width n : Nat) :
    littleEndian width (n % 256 ^ width) = littleEndian width n := by
  induction width generalizing n with
  | zero => rfl
  | succ w ih =>
    have hlow : UInt8.ofNat (n % 256 ^ (w + 1)) = UInt8.ofNat n := by
      rw [← UInt8.toNat_inj, UInt8.toNat_ofNat', UInt8.toNat_ofNat', Nat.pow_succ']
      exact Nat.mod_mul_right_mod n (2 ^ 8) (256 ^ w)
    have hhigh : n % 256 ^ (w + 1) / 256 = n / 256 % 256 ^ w := by
      rw [Nat.pow_succ', Nat.mod_mul_right_div_self]
    rw [littleEndian, littleEndian, hlow, hhigh, ih]

theorem littleEndian_ofNat (n : Nat) :
    littleEndian 4 (UInt32.ofNat n).toNat = littleEndian 4 n := by
  rw [UInt32.toNat_ofNat']
  exact littleEndian_mod 4 n

def withOffsets (as : List α) (sections : List Section) : List (α × UInt32) :=
  as.zip (sections.map fun s => UInt32.ofNat s.offset)

theorem writes_placed {w : α → Writing Output Unit} {f : α → List UInt8}
    (h : ∀ a start, Writes (w a) start (f a) ()) (as : List α) (start : Nat) :
    Writes (as.mapM (placed w)) start (as.map f).flatten
      (withOffsets as (Section.layOut start (as.map f))) := by
  induction as generalizing start with
  | nil => exact Writes.pure []
  | cons a as ih =>
    rw [List.mapM_cons, List.map_cons, List.flatten_cons]
    exact (Writes.placed (h a start)).bind ((ih _).bind_nil (Writes.pure _))

theorem length_withOffsets {as : List α} {sections : List Section}
    (h : as.length = sections.length) : (withOffsets as sections).length = sections.length := by
  simp [withOffsets, h]

theorem writes_indexTable {index : α → UInt32} {as : List α} {sections : List Section}
    (hindex : ∀ k a, as[k]? = some a → index a = UInt32.ofNat (k + 1))
    (hlength : as.length = sections.length) (start : Nat) :
    Writes ((withOffsets as sections).forM fun placed =>
      Authoring.writeIndexRecord (index placed.1) placed.2) start (Image.indexTable sections)
      () := by
  have hrecord (placed : α × UInt32) (start : Nat) :
      Writes (Authoring.writeIndexRecord (index placed.1) placed.2) start
        (littleEndian 4 (index placed.1).toNat ++ littleEndian 4 placed.2.toNat) () :=
    (Writes.u32 _).bind (Writes.u32 _)
  refine (Writes.forM hrecord _ start).congr ?_
  rw [Image.indexTable, List.flatMap_def, List.flatMap_def]
  congr 1
  apply List.ext_getElem
  · simp [withOffsets, hlength]
  · intro k h _
    have hk : k < as.length := by
      simp only [withOffsets, List.length_map, List.length_zip] at h
      omega
    simp only [withOffsets, List.getElem_map, List.getElem_zip, List.getElem_zipIdx,
      hindex k _ (List.getElem?_eq_getElem hk), littleEndian_ofNat, Nat.add_comm k 1]

namespace MethodImage

variable {p : LineParameters} {d : MethodDefinition} {m : MethodImage} {start : Nat}

def place (m : MethodImage) : MethodPlace :=
  ⟨m.token, UInt32.ofNat m.trailer.offset, UInt32.ofNat m.lines.offset⟩

theorem writes_record (m : MethodImage) (start : Nat) :
    Writes m.place.write start m.record () := by
  rw [record, List.append_assoc, ← littleEndian_ofNat m.trailer.offset,
    ← littleEndian_ofNat m.lines.offset]
  exact (Writes.u32 _).bind ((Writes.u32 _).bind (Writes.u32 _))

theorem writes_table (ms : List MethodImage) (start : Nat) :
    Writes ((ms.map place).forM MethodPlace.write) start (ms.flatMap record) () := by
  have hmap : (ms.map place).forM (MethodPlace.write (σ := Output)) =
      ms.forM fun m => m.place.write := List.forM_map ..
  rw [hmap]
  exact Writes.forM writes_record ms start

/-- Every offset is taken where its part begins. -/
theorem writes_method (h : ofDefinition p start d = .ok m) :
    Writes (d.write p) start m.bytes m.place := by
  obtain ⟨program, hprogram, h⟩ := bind_ok_iff.1 h
  cases h
  simp only [bytes, parts, List.flatMap_cons, List.flatMap_nil, List.append_nil]
  refine Writes.position.bind_silent
    ((Writes.counted LocalVariable.writes_encode fun v _ => v.length_encode_pos).bind
    (Writes.position.bind_silent
    ((Writes.counted CodeBlock.writes_encode fun b _ => b.length_encode_pos).bind
    (Writes.position.bind_silent
    ((Writes.counted ScopeVariable.writes_encode fun v _ => v.length_encode_pos).bind
    ((MethodDefinition.writes_realName d.realName _).bind
    (Writes.position.bind_silent ((Writes.lift hprogram).bind_silent ((Writes.raw program).bind
    (Writes.position.bind_silent ((MethodTrailer.writes_encode _ _).bind_nil
    (Writes.pure _))))))))))))

theorem writes_methods {ds : List MethodDefinition} {ms : List MethodImage}
    (h : layOut p start ds = .ok ms) :
    Writes (ds.mapM (MethodDefinition.write p)) start (ms.flatMap bytes) (ms.map place) := by
  induction ds generalizing start ms with
  | nil =>
    cases h
    exact Writes.pure []
  | cons d ds ih =>
    obtain ⟨m, rest, hm, hrest, rfl⟩ := layOut_cons_eq_ok h
    rw [(ofDefinition_eq_ok hm).2.2] at hrest
    rw [List.mapM_cons, List.flatMap_cons]
    exact (writes_method hm).bind ((ih hrest).bind_nil (Writes.pure _))

end MethodImage

namespace Authoring

variable {a : Authoring} {guid : Guid} {i : Image}

theorem writes_data (h : a.image guid = .ok i) :
    Writes a.sorted.writeData Image.dataOffset i.dataBytes
      (withOffsets a.sources.toList i.sources, withOffsets a.units.toList i.units,
        i.methods.map MethodImage.place) := by
  obtain ⟨methods, hmethods, h⟩ := bind_ok_iff.1 h
  cases h
  dsimp only [Image.dataBytes]
  rw [Section.flatMap_bytes_layOut, Section.flatMap_bytes_layOut, List.append_assoc]
  exact (writes_placed SourceFile.writes_encode _ _).bind
    ((writes_placed CompileUnit.writes_encode _ _).bind
    ((MethodImage.writes_methods hmethods).bind_nil (Writes.pure _)))

/-- The bytes of the file with room for its header. -/
def frameless (i : Image) : List UInt8 :=
  i.dataBytes ++ (i.methodTable.bytes ++ (i.sourceTable.bytes ++ (i.unitTable.bytes ++
    i.scopeTable.bytes)))

theorem writes_around (hwf : a.WellFormed) (hi : a.image guid = .ok i) :
    Writes (a.sorted.writeAround guid) 0
      (({ guid := guid } : Preamble).encode ++ (List.replicate Header.size 0 ++ frameless i))
      i.header := by
  have hd := image_eq_ok hi
  obtain ⟨-, hmethods, hsources, hunits, hscopes⟩ := hd.contiguous_parts
  have hsourceLength : a.sources.toList.length = i.sources.length :=
    (Section.length_eq_of_map_bytes hd.sources).symm
  have hunitLength : a.units.toList.length = i.units.length :=
    (Section.length_eq_of_map_bytes hd.units).symm
  have hmethodTable : Writes ((i.methods.map MethodImage.place).forM MethodPlace.write)
      i.methodTable.offset i.methodTable.bytes () := by
    rw [hd.methodTable]
    exact MethodImage.writes_table i.methods _
  have hsourceTable : Writes ((withOffsets a.sources.toList i.sources).forM fun placed =>
      writeIndexRecord placed.1.index placed.2) i.sourceTable.offset i.sourceTable.bytes () := by
    rw [hd.sourceTable]
    refine writes_indexTable (fun k s hs => ?_) hsourceLength _
    exact hwf.sources k s (Array.getElem?_toList.symm.trans hs)
  have hunitTable : Writes ((withOffsets a.units.toList i.units).forM fun placed =>
      writeIndexRecord placed.1.index placed.2) i.unitTable.offset i.unitTable.bytes () := by
    rw [hd.unitTable]
    refine writes_indexTable (fun k u hu => ?_) hunitLength _
    exact hwf.units k u (Array.getElem?_toList.symm.trans hu)
  have hscopeTable : Writes (a.scopes.toList.forM AnonymousScope.write) i.scopeTable.offset
      i.scopeTable.bytes () := by
    rw [hd.scopeTable]
    exact Writes.forM AnonymousScope.writes_encode _ _
  -- No table has more entries than bytes.
  refine (Writes.raw _).bind ((Writes.raw _).bind_at ?_ ((writes_data hi).measured.bind_at hmethods
    (Writes.tableLength_bind ?_ fun _ => hmethodTable.measured.bind_at hsources
    (Writes.tableLength_bind ?_ fun _ => hsourceTable.measured.bind_at hunits
    (Writes.tableLength_bind ?_ fun _ => hunitTable.measured.bind_at hscopes
    (Writes.tableLength_bind ?_ fun _ =>
      hscopeTable.measured.bind_nil (Writes.position.bind_silent ?_)))))))
  · rw [Nat.zero_add, Preamble.length_encode, List.length_replicate, Image.dataOffset]
  · rw [List.length_map, List.length_append]
    exact Nat.le_add_right_of_le (Image.length_methods_le hd)
  · rw [length_withOffsets hsourceLength, List.length_append, hd.sourceTable]
    exact Nat.le_add_right_of_le (Image.length_le_indexTable i.sources)
  · rw [length_withOffsets hunitLength, List.length_append, hd.unitTable]
    exact Nat.le_add_right_of_le (Image.length_le_indexTable i.units)
  · change a.scopes.size ≤ _
    exact Image.size_scopes_le hd
  · -- The header of the sections, field for field.
    rw [length_withOffsets hsourceLength, length_withOffsets hunitLength, List.length_map,
      Image.header, hd.typeCount, hd.scopeCount, hd.options]
    exact Writes.pure _

theorem bytes_eq (hd : i.Describes a guid) :
    i.bytes = ({ guid := guid } : Preamble).encode ++ (i.header.encode ++ frameless i) := by
  simp only [Image.bytes, frameless, hd.guid, List.append_assoc]

theorem length_room (i : Image) :
    (List.replicate Header.size (0 : UInt8)).length = i.header.encode.length := by
  rw [List.length_replicate, Header.length_encode]

theorem length_around (hd : i.Describes a guid) :
    (({ guid := guid } : Preamble).encode ++
      (List.replicate Header.size 0 ++ frameless i)).length = i.bytes.length := by
  rw [bytes_eq hd]
  simp only [List.length_append, length_room i]

/-- The header is laid over the room that was left for it. -/
theorem run_writeFile (h : a.SealsTo guid i) (hi : a.image guid = .ok i) (o : Output) :
    (a.sorted.writeFile guid).run o =
      (.ok i.header, ((o.seek 0).write i.bytes).seekEnd) := by
  have haround := (writes_around h.wellFormed hi).run_of_fits (o.seek 0) rfl (Nat.zero_le _) (by
    rw [length_around h.describes, Nat.zero_add]
    exact h.fits)
  have hpatch := overlay_overlay o.data ({ guid := guid } : Preamble).encode
    (List.replicate Header.size 0) (frameless i) (length_room i)
  rw [Preamble.length_encode] at hpatch
  rw [writeFile, Step.run_bind]
  change (a.sorted.writeAround guid >>= _).run (o.seek 0) = _
  rw [Step.run_bind, haround]
  change (Except.ok i.header, Output.seekEnd ((Output.seek _ Preamble.size).write _)) = _
  simp only [Output.seekEnd, Output.seek, Output.write, hpatch, bytes_eq h.describes]

/-- The header records where the file ends, which a file that is too long has no number for. -/
theorem endsInReach_writeAround (a : Authoring) (guid : Guid) :
    EndsInReach (a.writeAround guid) :=
  .bind fun _ => .bind fun _ => .bind fun (_, _, _, _) =>
    .bind fun _ => .bind fun (_, ()) => .bind fun _ => .bind fun (_, ()) =>
    .bind fun _ => .bind fun (_, ()) => .bind fun _ => .bind fun (_, ()) => .position_bind _

theorem fits_of_writeFile (hwf : a.WellFormed) (hi : a.image guid = .ok i) {o o' : Output}
    {header : Header} (hrun : (a.sorted.writeFile guid).run o = (.ok header, o')) :
    i.bytes.length < 2 ^ 32 := by
  obtain ⟨_, sought, hseek, hrest⟩ := Step.run_bind_eq_ok.1 hrun
  cases hseek
  obtain ⟨header', around, haround, -⟩ := Step.run_bind_eq_ok.1 hrest
  have hreach := endsInReach_writeAround a.sorted guid _ _ _ haround
  obtain ⟨-, rfl⟩ := (writes_around hwf hi).eq_of_run (o.seek 0) rfl (Nat.zero_le _) _ _ haround
  change 0 + List.length _ < 2 ^ 32 at hreach
  rwa [length_around (image_eq_ok hi), Nat.zero_add] at hreach

end Authoring

end DebugSymbols
