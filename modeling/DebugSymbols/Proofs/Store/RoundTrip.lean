import DebugSymbols.Proofs.Bytes.Overlay
import DebugSymbols.Proofs.Store.Accepted
import DebugSymbols.Proofs.Store.FileSize
import DebugSymbols.Proofs.Store.Sealing

namespace DebugSymbols

/-- The parts of a file that a query reads, besides its frame.  A text may stand anywhere. -/
def Query.reads (a : Authoring) : Query → FilePart → Prop
  | .source index, read => read = .source index.toNat
  | .sources, read | .findSource _, read => ∃ index, read = .source index
  | .unit index, read => read = .unit index.toNat
  | .units, read => ∃ index, read = .unit index
  | .method _, _ | .methods, _ => False
  | .part key p, read => ∃ d index, a.pick key = .ok (d, index) ∧ read = .method index p
  | .scope _, read | .scopes, read => read = .scopes
  | .textAt _, _ => True

namespace Image

variable {a : Authoring} {guid : Guid} {i : Image} {intact : FilePart → Prop} {data : Bytes}

theorem summary_recordOf (d : MethodDefinition) (k : Nat) (m : MethodImage) :
    (recordOf ((d, k), m)).summary = d.summary k := by
  have hflags : (recordOf ((d, k), m)).flags = d.flags := MethodFlags.ofBits_bits d.flags
  rw [MethodRecord.summary, hflags]
  rfl

theorem map_summary_records (h : a.SealsTo guid i) :
    (i.records a).map MethodRecord.summary =
      a.numberedMethods.map fun (d, index) => d.summary index := by
  rw [← map_fst_laidOut h, records, List.map_map, List.map_map]
  exact List.map_congr_left fun entry _ =>
    summary_recordOf entry.1.1 entry.1.2 entry.2

theorem part_answer_of_holds (h : a.SealsTo guid i) (hdata : i.Holds intact data) (key : MethodKey)
    (part : MethodPart)
    (hintact : ∀ d index, a.pick key = .ok (d, index) → intact (.method index part)) :
    (i.openedFrom data).answer (.part key part) = a.answer (.part key part) := by
  rw [SymbolFile.answer, Authoring.answer, pick_of_holds h hdata, pick_laidOut h]
  rw [pick_laidOut h] at hintact
  cases hentry : pickAmong (fun entry => entry.1.1.token) (i.laidOut a) key with
  | error e => rfl
  | ok entry =>
    obtain ⟨⟨d, k⟩, m⟩ := entry
    obtain ⟨j, hj⟩ := List.mem_iff_getElem?.1 (mem_of_pickAmong hentry)
    rw [hentry] at hintact
    exact part_of_holds h hdata hj part (hintact d k rfl)

/-- A query is answered from the contents of the store if the parts that it reads are intact. -/
theorem answer_of_holds (h : a.SealsTo guid i) (hdata : i.Holds intact data) {q : Query}
    (hq : ∀ offset, q ≠ .textAt offset) (hintact : ∀ part, q.reads a part → intact part) :
    (i.openedFrom data).answer q = a.answer q := by
  cases q with
  | source index => exact sourceFile_of_holds h hdata index (hintact _ rfl)
  | sources => exact sources_of_holds h hdata fun index => hintact _ ⟨index, rfl⟩
  | findSource name => exact findSource_of_holds h hdata name fun index => hintact _ ⟨index, rfl⟩
  | unit index => exact compileUnit_of_holds h hdata index (hintact _ rfl)
  | units => exact compileUnits_of_holds h hdata fun index => hintact _ ⟨index, rfl⟩
  | method key =>
    rw [SymbolFile.answer, Authoring.answer, pick_of_holds h hdata, pick_laidOut h]
    cases pickAmong (fun entry => entry.1.1.token) (i.laidOut a) key with
    | error e => rfl
    | ok entry => exact congrArg Except.ok (summary_recordOf entry.1.1 entry.1.2 entry.2)
  | methods =>
    rw [SymbolFile.answer, methods_of_holds h hdata]
    exact congrArg Except.ok (map_summary_records h)
  | part key p =>
    exact part_answer_of_holds h hdata key p fun d index hpick => hintact _ ⟨d, index, hpick, rfl⟩
  | scope id => exact anonymousScope_of_holds h hdata id (hintact _ rfl)
  | scopes => exact anonymousScopes_of_holds h hdata (hintact _ rfl)
  | textAt offset => exact absurd rfl (hq offset)

theorem liesAt_of_mem_sections (h : a.SealsTo guid i) (hdata : LiesAt data 0 i.bytes) {s : Section}
    (hs : s ∈ i.sections) : LiesAt data s.offset s.bytes := by
  rw [h.describes.contiguous] at hs
  refine Section.liesAt_of_mem_layOut ?_ hs
  rwa [← List.flatMap_def, flatMap_bytes_sections]

theorem holds_of_liesAt (h : a.SealsTo guid i) (hdata : LiesAt data 0 i.bytes) :
    i.Holds (fun _ => True) data where
  size := by simpa using hdata.length_le
  frame _ hs := liesAt_of_mem_sections h hdata (mem_sections hs)
  part _ _ hs _ := liesAt_of_mem_sections h hdata (mem_sections hs)

/-- A file holds all its parts, whatever the stream held that it was written over. -/
theorem holds_overlay (h : a.SealsTo guid i) (data : Bytes) :
    i.Holds (fun _ => True) (overlay data 0 i.bytes) :=
  holds_of_liesAt h (LiesAt.overlay_self (Nat.zero_le _) i.bytes)

theorem toNat_recordCount (h : a.SealsTo guid i) :
    i.header.methodCount.toNat = a.methods.size ∧ a.methods.size < 2 ^ 32 := by
  have hlength : (i.records a).length = a.methods.size := by
    have hperm := a.sortedMethods_perm.length_eq
    have htokens := congrArg List.length (map_token_records h)
    simpa [hperm] using htokens
  exact hlength ▸ toNat_methodCount h

end Image

namespace Store

def contents? : Store → Option Authoring
  | authoring a => some a
  | sealed _ | bound _ => none

/-- The sections that a store is written as, if it is still filled. -/
def image? (s : Store) (guid : Guid) : Option Image :=
  s.contents?.bind fun a => (a.image guid).toOption

def fileSize (s : Store) (guid : Guid) : Nat := (s.image? guid).elim 0 fun i => i.bytes.length

theorem fileSize_le (a : Authoring) (guid : Guid) : (authoring a).fileSize guid ≤ a.sizeBound := by
  rw [fileSize, image?, contents?, Option.bind_some]
  cases hi : a.image guid with
  | error e => exact Nat.zero_le _
  | ok i => exact (Authoring.image_eq_ok hi).length_bytes_le

/-- A bound store shows the identity, the settings and the contents of the store `a`, whatever it
was asked before. -/
structure Shows (s : Store) (guid : Guid) (a : Authoring) : Prop where
  guid : s.guid = .ok guid
  parameters : s.parameters = a.options.parameters
  fileFlags : s.fileFlags = FileFlags.truncate a.options.fileFlags.bits
  sourceCount : s.sourceCount = (authoring a).sourceCount
  compileUnitCount : s.compileUnitCount = (authoring a).compileUnitCount
  methodCount : s.methodCount = (authoring a).methodCount
  anonymousScopeCount : s.anonymousScopeCount = (authoring a).anonymousScopeCount
  typeCount : s.typeCount = (authoring a).typeCount
  answers : ∀ history q, (∀ offset, q ≠ .textAt offset) →
    ((s.afterQueries history).ask q).1 = a.answer q

variable {a : Authoring} {guid : Guid} {i : Image} {intact : FilePart → Prop} {data : Bytes}

theorem sealOver_of_lt (h : a.SealsTo guid i) (hi : a.image guid = .ok i) (o : Output) :
    (authoring a).sealOver o guid =
      (.ok (), ((o.seek 0).write i.bytes).seekEnd, sealed i.header) := by
  rw [sealOver, Authoring.run_writeFile h hi]

/-- Over a stream in memory a store is sealed exactly if its file fits. -/
theorem sealOver_eq_ok_iff (hwf : a.WellFormed) (hi : a.image guid = .ok i) (o : Output) :
    ((authoring a).sealOver o guid).1 = .ok () ↔ i.bytes.length < 2 ^ 32 := by
  constructor
  · intro hseal
    rw [sealOver] at hseal
    rcases hrun : (a.sorted.writeFile guid).run o with ⟨e | header, file⟩
    · rw [hrun] at hseal
      cases hseal
    · exact Authoring.fits_of_writeFile hwf hi hrun
  · intro hfits
    rw [sealOver_of_lt ⟨hwf, Authoring.image_eq_ok hi, hfits⟩ hi]

theorem wellFormed_of_after [Sink σ] {options : StoreOptions} {calls : List (StoreCall σ)}
    (ha : (Store.new options).after calls = authoring a) : a.WellFormed := by
  have hsound := (Initial.new options).sound.after calls
  rwa [ha] at hsound

/-- A store that was filled by any run of calls, and whose file fits, has a file form. -/
theorem exists_sealsTo [Sink σ] {options : StoreOptions} {calls : List (StoreCall σ)}
    (ha : (Store.new options).after calls = authoring a)
    (hsize : (authoring a).fileSize guid < 2 ^ 32) :
    ∃ i, a.image guid = .ok i ∧ a.SealsTo guid i := by
  have hwf := wellFormed_of_after ha
  obtain ⟨i, hi⟩ := hwf.exists_image guid
  have himage : (authoring a).image? guid = some i := congrArg Except.toOption hi
  rw [fileSize, himage] at hsize
  exact ⟨i, hi, hwf, Authoring.image_eq_ok hi, hsize⟩

theorem afterCalls_eq_after (σ : Type) [Sink σ] (s : Store) (calls : List AuthoringCall) :
    s.afterCalls calls = s.after (calls.map (StoreCall.fill (σ := σ))) := by
  rw [after, List.foldl_map]
  rfl

/-- A store that was filled by calls and whose file fits is sealed over any stream. -/
theorem exists_sealInto (options : StoreOptions) (calls : List AuthoringCall) (guid : Guid)
    (hsize : ((Store.new options).afterCalls calls).fileSize guid < 2 ^ 32) :
    ∃ a i, (Store.new options).afterCalls calls = authoring a ∧ a.options = options ∧
      (authoring a).image? guid = some i ∧ a.SealsTo guid i ∧
      ∀ o, ∃ file, (authoring a).sealInto o guid = .ok (file, sealed i.header) ∧
        file.data = overlay o.data 0 i.bytes := by
  obtain ⟨a, ha, -, hoptions⟩ := afterCalls_new options calls
  obtain ⟨i, hi, h⟩ := exists_sealsTo (afterCalls_eq_after Output _ calls ▸ ha) (ha ▸ hsize)
  refine ⟨a, i, ha, hoptions, congrArg Except.toOption hi, h, fun o => ?_⟩
  rw [sealInto, sealOver_of_lt h hi]
  exact ⟨_, rfl, rfl⟩

theorem openFor?_of_holds (h : a.SealsTo guid i) (hdata : i.Holds intact data) :
    Store.openFor? data guid = .ok (bound { file := i.openedFrom data }) := by
  have hguid : (i.openedFrom data).preamble.guid = guid := h.describes.guid
  rw [Store.openFor?, SymbolFile.openFor?, Image.open?_of_holds h hdata, ok_bind, if_pos hguid]
  rfl

theorem ofNat_min {n : Nat} {shown : UInt32} (h : shown.toNat = n ∧ n < 2 ^ 32) :
    shown = UInt32.ofNat (min n 0xFFFFFFFF) := by
  rw [Nat.min_eq_left (by omega), ← h.1, UInt32.ofNat_toNat]

theorem shows_of_holds (h : a.SealsTo guid i) (hdata : i.Holds (fun _ => True) data) :
    (bound { file := i.openedFrom data }).Shows guid a where
  guid := congrArg Except.ok h.describes.guid
  parameters := congrArg StoreOptions.parameters h.describes.options
  fileFlags := congrArg (fun o : StoreOptions => FileFlags.truncate o.fileFlags.bits)
    h.describes.options
  sourceCount := ofNat_min (Image.toNat_sourceCount h)
  compileUnitCount := ofNat_min (Image.toNat_unitCount h)
  methodCount := ofNat_min (Image.toNat_recordCount h)
  anonymousScopeCount := ofNat_min (Image.toNat_scopeCount h)
  typeCount := ofNat_min ⟨congrArg UInt32.toNat h.describes.typeCount, a.lastType.toNat_lt⟩
  answers history q hq := by
    rw [ask_afterQueries_bound]
    exact Image.answer_of_holds h hdata hq fun _ _ => trivial

end Store

end DebugSymbols
