import DebugSymbols.Proofs.Bytes.Reading
import DebugSymbols.Proofs.Definition
import DebugSymbols.Proofs.Header
import DebugSymbols.Proofs.Store.Calls
import DebugSymbols.Proofs.Store.Image

namespace DebugSymbols

namespace Section

variable {start : Nat} {s : Section} {runs a b : List (List UInt8)}

theorem layOut_append :
    layOut start (a ++ b) = layOut start a ++ layOut (start + a.flatten.length) b := by
  induction a generalizing start with
  | nil => rfl
  | cons bytes a ih =>
    rw [List.cons_append, layOut, layOut, ih, List.cons_append, List.flatten_cons,
      List.length_append, Nat.add_assoc]

@[simp] theorem map_bytes_layOut : (layOut start runs).map bytes = runs := by
  induction runs generalizing start with
  | nil => rfl
  | cons bytes runs ih => rw [layOut, List.map_cons, ih]

@[simp] theorem length_layOut : (layOut start runs).length = runs.length := by
  rw [← List.length_map (f := bytes), map_bytes_layOut]

theorem length_eq_of_map_bytes {entries : List Section} {as : List α} {f : α → List UInt8}
    (h : entries.map bytes = as.map f) : entries.length = as.length := by
  simpa using congrArg List.length h

theorem flatMap_bytes_of_map_bytes {entries : List Section} {as : List α} {f : α → List UInt8}
    (h : entries.map bytes = as.map f) : entries.flatMap bytes = as.flatMap f := by
  rw [List.flatMap_def, h, ← List.flatMap_def]

theorem flatMap_bytes_layOut : (layOut start runs).flatMap bytes = runs.flatten := by
  rw [List.flatMap_def, map_bytes_layOut]

theorem start_le_of_mem_layOut (h : s ∈ layOut start runs) : start ≤ s.offset := by
  induction runs generalizing start with
  | nil => cases h
  | cons bytes runs ih =>
    rcases List.mem_cons.1 h with rfl | h
    · exact Nat.le_refl start
    · exact Nat.le_trans (Nat.le_add_right start bytes.length) (ih h)

theorem stop_le_of_mem_layOut (h : s ∈ layOut start runs) :
    s.stop ≤ start + runs.flatten.length := by
  induction runs generalizing start with
  | nil => cases h
  | cons bytes runs ih =>
    rw [List.flatten_cons, List.length_append, ← Nat.add_assoc]
    rcases List.mem_cons.1 h with rfl | h
    · exact Nat.le_add_right _ _
    · exact ih h

theorem pairwise_layOut (start : Nat) (runs : List (List UInt8)) :
    (layOut start runs).Pairwise fun s t => s.stop ≤ t.offset := by
  induction runs generalizing start with
  | nil => exact List.Pairwise.nil
  | cons bytes runs ih =>
    exact List.pairwise_cons.2 ⟨fun t ht => start_le_of_mem_layOut ht, ih _⟩

theorem liesAt_of_mem_layOut {data : Bytes} (hdata : LiesAt data start runs.flatten)
    (h : s ∈ layOut start runs) : LiesAt data s.offset s.bytes := by
  induction runs generalizing start with
  | nil => cases h
  | cons bytes runs ih =>
    obtain ⟨hfirst, hrest⟩ := LiesAt.append_iff.1 (List.flatten_cons ▸ hdata)
    rcases List.mem_cons.1 h with rfl | h
    · exact hfirst
    · exact ih hrest h

/-- Sections that lie one behind another from `start` on, without gaps. -/
def Contiguous (start : Nat) (sections : List Section) : Prop :=
  sections = layOut start (sections.map bytes)

theorem contiguous_layOut : Contiguous start (layOut start runs) := by
  rw [Contiguous, map_bytes_layOut]

theorem Contiguous.append {ss ts : List Section} {next : Nat} (hs : Contiguous start ss)
    (ht : Contiguous next ts) (hnext : next = start + (ss.flatMap bytes).length) :
    Contiguous start (ss ++ ts) := by
  rw [Contiguous, List.map_append, layOut_append, ← List.flatMap_def, ← hs, ← hnext, ← ht]

theorem contiguous_cons {ss : List Section} (h : Contiguous s.stop ss) :
    Contiguous s.offset (s :: ss) := by
  rw [Contiguous, List.map_cons, layOut]
  exact congrArg (s :: ·) h

theorem Contiguous.append_iff {ss ts : List Section} : Contiguous start (ss ++ ts) ↔
    Contiguous start ss ∧ Contiguous (start + (ss.flatMap bytes).length) ts := by
  refine ⟨fun h => ?_, fun h => h.1.append h.2 rfl⟩
  rw [Contiguous, List.map_append, layOut_append, ← List.flatMap_def] at h
  have hlength : ss.length = (layOut start (ss.map bytes)).length := by
    rw [length_layOut, List.length_map]
  exact List.append_inj h hlength

theorem contiguous_cons_iff {ss : List Section} : Contiguous start (s :: ss) ↔
    s.offset = start ∧ Contiguous s.stop ss := by
  constructor
  · intro h
    obtain ⟨hs, hss⟩ := List.cons_eq_cons.1 h
    have hoffset : s.offset = start := congrArg offset hs
    exact ⟨hoffset, by rw [stop, hoffset]; exact hss⟩
  · rintro ⟨rfl, h⟩
    exact contiguous_cons h

theorem Contiguous.stop_eq {ss : List Section} (h : Contiguous start (ss ++ [s])) :
    s.stop = start + ((ss ++ [s]).flatMap bytes).length := by
  rw [Contiguous, List.map_append, layOut_append] at h
  have hlast := (List.append_inj' h rfl).2
  rw [List.map_singleton, layOut, layOut, List.singleton_inj, ← List.flatMap_def] at hlast
  rw [stop, congrArg offset hlast, List.flatMap_append, List.length_append, List.flatMap_singleton,
    Nat.add_assoc]

end Section

namespace MethodImage

variable {p : LineParameters} {d : MethodDefinition} {m : MethodImage} {start : Nat}

/-- The trailer of a definition whose parts begin where those of `m` do. -/
def trailerOf (m : MethodImage) (d : MethodDefinition) : MethodTrailer where
  compileUnit := d.compileUnit
  localsOffset := UInt32.ofNat m.locals.offset
  namespaceId := d.namespaceId
  blocksOffset := UInt32.ofNat m.blocks.offset
  scopeVariablesOffset := UInt32.ofNat m.scopeVariables.offset
  realNameOffset := if d.realName.isSome then UInt32.ofNat m.realName.offset else 0
  flags := d.flags.bits

/-- `m` is the payload of the method `d`. -/
structure Describes (p : LineParameters) (d : MethodDefinition) (m : MethodImage) : Prop where
  token : m.token = d.token
  locals : m.locals.bytes = encodeCounted LocalVariable.encode d.locals
  blocks : m.blocks.bytes = encodeCounted CodeBlock.encode d.blocks
  scopeVariables : m.scopeVariables.bytes = encodeCounted ScopeVariable.encode d.scopeVariables
  realName : m.realName.bytes = d.realName.elim [] encodeText
  lines : LineProgram.encode p d.flags.columns d.flags.ends d.lines = .ok m.lines.bytes
  trailer : m.trailer.bytes = (m.trailerOf d).encode

theorem ofDefinition_eq_ok (h : ofDefinition p start d = .ok m) :
    Describes p d m ∧ Section.Contiguous start m.parts ∧
      m.trailer.stop = start + m.bytes.length := by
  obtain ⟨program, hprogram, h⟩ := bind_ok_iff.1 h
  cases h
  refine ⟨⟨rfl, rfl, rfl, rfl, rfl, hprogram, rfl⟩, rfl, ?_⟩
  simp only [Section.stop, bytes, parts, List.flatMap_cons, List.flatMap_nil, List.length_append,
    List.length_nil]
  omega

theorem exists_ofDefinition (h : d.damage? = none) (p : LineParameters) (start : Nat) :
    ∃ m, ofDefinition p start d = .ok m := by
  obtain ⟨program, hprogram⟩ := d.exists_encode_lines h p d.flags.columns d.flags.ends
  unfold ofDefinition
  rw [hprogram]
  exact ⟨_, rfl⟩

/-- One method on: it was laid out, and the others behind it. -/
theorem layOut_cons_eq_ok {ds : List MethodDefinition} {ms : List MethodImage}
    (h : layOut p start (d :: ds) = .ok ms) :
    ∃ m rest, ofDefinition p start d = .ok m ∧ layOut p m.trailer.stop ds = .ok rest ∧
      ms = m :: rest := by
  obtain ⟨m, hm, h⟩ := bind_ok_iff.1 h
  obtain ⟨rest, hrest, h⟩ := bind_ok_iff.1 h
  cases h
  exact ⟨m, rest, hm, hrest, rfl⟩

theorem layOut_eq_ok {ds : List MethodDefinition} {ms : List MethodImage}
    (h : layOut p start ds = .ok ms) :
    List.Forall₂ (Describes p) ds ms ∧ Section.Contiguous start (ms.flatMap parts) := by
  induction ds generalizing start ms with
  | nil =>
    cases h
    exact ⟨.nil, rfl⟩
  | cons d ds ih =>
    obtain ⟨m, rest, hm, hrest, rfl⟩ := layOut_cons_eq_ok h
    obtain ⟨hdescribes, hparts, hstop⟩ := ofDefinition_eq_ok hm
    obtain ⟨hall, hcontiguous⟩ := ih hrest
    exact ⟨.cons hdescribes hall, hparts.append hcontiguous hstop⟩

/-- Valid definitions can be laid out, in whatever order they stand. -/
theorem exists_layOut {ds : List MethodDefinition} (h : ∀ d ∈ ds, d.damage? = none)
    (p : LineParameters) (start : Nat) : ∃ ms, layOut p start ds = .ok ms := by
  induction ds generalizing start with
  | nil => exact ⟨[], rfl⟩
  | cons d ds ih =>
    obtain ⟨hd, hds⟩ := List.forall_mem_cons.1 h
    obtain ⟨m, hm⟩ := exists_ofDefinition hd p start
    obtain ⟨rest, hrest⟩ := ih hds m.trailer.stop
    refine ⟨m :: rest, ?_⟩
    rw [layOut, hm]
    change (layOut p m.trailer.stop ds >>= fun rest => _) = _
    rw [hrest]
    rfl

end MethodImage

inductive FilePart where
  | source (index : Nat)
  | unit (index : Nat)
  | method (index : Nat) (part : MethodPart)
  | scopes
deriving DecidableEq, Repr

def MethodImage.part (m : MethodImage) : MethodPart → Section
  | .locals => m.locals
  | .blocks => m.blocks
  | .scopeVariables => m.scopeVariables
  | .lines => m.lines
  | .realName => m.realName

def MethodDefinition.payload (d : MethodDefinition) (p : LineParameters) : MethodPart → List UInt8
  | .locals => encodeCounted LocalVariable.encode d.locals
  | .blocks => encodeCounted CodeBlock.encode d.blocks
  | .scopeVariables => encodeCounted ScopeVariable.encode d.scopeVariables
  | .lines => (LineProgram.encode p d.flags.columns d.flags.ends d.lines).toOption.getD []
  | .realName => d.realName.elim [] encodeText

theorem MethodImage.Describes.bytes_part {p : LineParameters} {d : MethodDefinition}
    {m : MethodImage} (h : m.Describes p d) (part : MethodPart) :
    (m.part part).bytes = d.payload p part := by
  cases part with
  | locals => exact h.locals
  | blocks => exact h.blocks
  | scopeVariables => exact h.scopeVariables
  | lines =>
    rw [MethodDefinition.payload, h.lines]
    rfl
  | realName => exact h.realName

theorem MethodImage.map_bytes_part {p : LineParameters} {ds : List MethodDefinition}
    {ms : List MethodImage} (h : List.Forall₂ (Describes p) ds ms) (part : MethodPart) :
    ms.map (fun m => (m.part part).bytes) = ds.map fun d => d.payload p part := by
  induction h with
  | nil => rfl
  | cons hd _ ih => rw [List.map_cons, List.map_cons, hd.bytes_part, ih]

/-- The sections of a method, those of its parts under their names. -/
def MethodImage.labelled (m : MethodImage) (index : Nat) : List (Option FilePart × Section) :=
  [(some (.method index .locals), m.locals), (some (.method index .blocks), m.blocks),
    (some (.method index .scopeVariables), m.scopeVariables),
    (some (.method index .realName), m.realName), (some (.method index .lines), m.lines),
    (none, m.trailer)]

namespace Image

def front (i : Image) : Section :=
  ⟨0, ({ guid := i.guid : Preamble }).encode ++ i.header.encode⟩

/-- All sections in file order, those of the contents under the names of their parts. -/
def labelled (i : Image) : List (Option FilePart × Section) :=
  [(none, i.front)] ++
    (i.sources.zipIdx 1).map (fun (s, k) => (some (.source k), s)) ++
    (i.units.zipIdx 1).map (fun (s, k) => (some (.unit k), s)) ++
    (i.methods.zipIdx 1).flatMap (fun (m, k) => m.labelled k) ++
    [(none, i.methodTable), (none, i.sourceTable), (none, i.unitTable),
      (some .scopes, i.scopeTable)]

def sections (i : Image) : List Section := i.labelled.map Prod.snd

theorem sections_eq (i : Image) :
    i.sections = [i.front] ++ i.sources ++ i.units ++ i.methods.flatMap MethodImage.parts ++
      [i.methodTable, i.sourceTable, i.unitTable, i.scopeTable] := by
  have hmethods : ((i.methods.zipIdx 1).flatMap fun (m, k) => m.labelled k).map Prod.snd =
      i.methods.flatMap MethodImage.parts := by
    rw [List.map_flatMap]
    change (i.methods.zipIdx 1).flatMap (fun entry => entry.1.parts) = _
    rw [← List.flatMap_map, List.zipIdx_map_fst]
  simp only [sections, labelled, List.map_append, List.map_map, hmethods, Function.comp_def,
    List.zipIdx_map_fst, List.map_cons, List.map_nil]

theorem flatMap_bytes_sections (i : Image) : i.sections.flatMap Section.bytes = i.bytes := by
  rw [sections_eq]
  simp only [List.flatMap_append, List.flatMap_cons, List.flatMap_nil, List.append_nil,
    List.flatMap_assoc, bytes, dataBytes, front, List.append_assoc]
  rfl

/-- `i` is the file form of the store `a` for the module `guid`. -/
structure Describes (a : Authoring) (guid : Guid) (i : Image) : Prop where
  guid : i.guid = guid
  options : i.options = a.options
  typeCount : i.typeCount = a.lastType
  scopeCount : i.scopeCount = a.scopes.size
  sources : i.sources.map Section.bytes = a.sources.toList.map SourceFile.encode
  units : i.units.map Section.bytes = a.units.toList.map CompileUnit.encode
  methods : List.Forall₂ (MethodImage.Describes a.options.parameters) a.sortedMethods i.methods
  methodTable : i.methodTable.bytes = i.methods.flatMap MethodImage.record
  sourceTable : i.sourceTable.bytes = indexTable i.sources
  unitTable : i.unitTable.bytes = indexTable i.units
  scopeTable : i.scopeTable.bytes = a.scopes.toList.flatMap AnonymousScope.encode
  contiguous : Section.Contiguous 0 i.sections

theorem stop_front (i : Image) : i.front.stop = dataOffset := by
  simp [front, Section.stop, dataOffset, Preamble.length_encode, Header.length_encode]

/-- The contents lie behind the front, kind by kind, and the tables behind the contents. -/
theorem contiguous_sections {i : Image} (hsources : Section.Contiguous dataOffset i.sources)
    (hunits : Section.Contiguous (dataOffset + (i.sources.flatMap Section.bytes).length) i.units)
    (hmethods : Section.Contiguous (dataOffset + (i.sources.flatMap Section.bytes).length +
      (i.units.flatMap Section.bytes).length) (i.methods.flatMap MethodImage.parts))
    (hmethodTable : i.methodTable.offset = dataOffset + i.dataBytes.length)
    (hsourceTable : i.sourceTable.offset = i.methodTable.stop)
    (hunitTable : i.unitTable.offset = i.sourceTable.stop)
    (hscopeTable : i.scopeTable.offset = i.unitTable.stop) :
    Section.Contiguous 0 i.sections := by
  have hfront : Section.Contiguous 0 [i.front] := rfl
  have htables : Section.Contiguous i.methodTable.offset
      [i.methodTable, i.sourceTable, i.unitTable, i.scopeTable] := by
    apply Section.contiguous_cons
    rw [← hsourceTable]
    apply Section.contiguous_cons
    rw [← hunitTable]
    apply Section.contiguous_cons
    rw [← hscopeTable]
    exact Section.contiguous_cons rfl
  have hlength : ([i.front].flatMap Section.bytes).length = dataOffset := by
    rw [List.flatMap_singleton, ← i.stop_front, Section.stop]
    exact (Nat.zero_add _).symm
  -- Each kind begins behind the bytes of those before it.
  rw [sections_eq]
  refine (((hfront.append hsources ?_).append hunits ?_).append hmethods ?_).append htables ?_
  · rw [hlength, Nat.zero_add]
  · rw [List.flatMap_append, List.length_append, hlength, Nat.zero_add]
  · rw [List.flatMap_append, List.flatMap_append, List.length_append, List.length_append, hlength,
      Nat.zero_add]
  · rw [hmethodTable, dataBytes, List.flatMap_append, List.flatMap_append, List.flatMap_append,
      List.flatMap_assoc]
    simp only [List.length_append, hlength, Nat.zero_add, Nat.add_assoc]
    rfl

variable {a : Authoring} {guid : Guid} {i : Image}

theorem flatMap_bytes_contents (i : Image) :
    (i.sources ++ i.units ++ i.methods.flatMap MethodImage.parts).flatMap Section.bytes =
      i.dataBytes := by
  rw [List.flatMap_append, List.flatMap_append, List.flatMap_assoc, dataBytes]
  rfl

theorem Describes.contiguous_parts (h : i.Describes a guid) :
    Section.Contiguous dataOffset
        (i.sources ++ i.units ++ i.methods.flatMap MethodImage.parts) ∧
      i.methodTable.offset = dataOffset + i.dataBytes.length ∧
      i.sourceTable.offset = i.methodTable.stop ∧ i.unitTable.offset = i.sourceTable.stop ∧
      i.scopeTable.offset = i.unitTable.stop := by
  have hcontiguous := h.contiguous
  have hfront : ([i.front].flatMap Section.bytes).length = dataOffset := by
    rw [List.flatMap_singleton, ← i.stop_front, Section.stop]
    exact (Nat.zero_add _).symm
  rw [sections_eq, List.append_assoc, List.append_assoc, List.append_assoc,
    Section.Contiguous.append_iff, hfront, Nat.zero_add, ← List.append_assoc, ← List.append_assoc,
    Section.Contiguous.append_iff, flatMap_bytes_contents] at hcontiguous
  obtain ⟨-, hcontents, htables⟩ := hcontiguous
  simp only [Section.contiguous_cons_iff] at htables
  exact ⟨hcontents, htables.1, htables.2.1, htables.2.2.1, htables.2.2.2.1⟩

theorem Describes.length_bytes (h : i.Describes a guid) : i.bytes.length = i.scopeTable.stop := by
  have hcontiguous := h.contiguous
  rw [sections_eq] at hcontiguous
  have hsplit : [i.methodTable, i.sourceTable, i.unitTable, i.scopeTable] =
      [i.methodTable, i.sourceTable, i.unitTable] ++ [i.scopeTable] := rfl
  rw [hsplit, ← List.append_assoc] at hcontiguous
  rw [hcontiguous.stop_eq, Nat.zero_add, ← flatMap_bytes_sections, sections_eq, hsplit,
    ← List.append_assoc]

end Image

namespace Authoring

variable {a : Authoring} {guid : Guid} {i : Image}

theorem image_eq_ok (h : a.image guid = .ok i) : i.Describes a guid := by
  obtain ⟨methods, hmethods, h⟩ := bind_ok_iff.1 h
  cases h
  obtain ⟨hall, hcontiguous⟩ := MethodImage.layOut_eq_ok hmethods
  refine ⟨rfl, rfl, rfl, rfl, Section.map_bytes_layOut, Section.map_bytes_layOut, hall, rfl, rfl,
    rfl, rfl, ?_⟩
  refine Image.contiguous_sections Section.contiguous_layOut ?_ ?_ ?_ rfl rfl rfl
  · dsimp only
    rw [Section.flatMap_bytes_layOut]
    exact Section.contiguous_layOut
  · dsimp only
    rw [Section.flatMap_bytes_layOut, Section.flatMap_bytes_layOut]
    exact hcontiguous
  · dsimp only [Image.dataBytes]
    rw [Section.flatMap_bytes_layOut, Section.flatMap_bytes_layOut, List.length_append,
      List.length_append, Nat.add_assoc, Nat.add_assoc, Nat.add_assoc]

theorem WellFormed.exists_image (ha : a.WellFormed) (guid : Guid) :
    ∃ i, a.image guid = .ok i := by
  have hvalid : ∀ d ∈ a.sortedMethods, d.damage? = none := fun d hd =>
    ha.methods d (Array.mem_toList_iff.1 (List.mem_mergeSort.1 hd))
  obtain ⟨methods, hmethods⟩ := MethodImage.exists_layOut hvalid a.options.parameters
    (Image.dataOffset + (a.sources.toList.map SourceFile.encode).flatten.length +
      (a.units.toList.map CompileUnit.encode).flatten.length)
  unfold image
  dsimp only
  rw [hmethods]
  exact ⟨_, rfl⟩

end Authoring

end DebugSymbols
