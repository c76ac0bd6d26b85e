import DebugSymbols.Proofs.Store.Layout
import DebugSymbols.SymbolFile

/-!
Bytes that hold a file: its frame, which is the front, the tables and the trailers of methods, and
those parts of its contents that are intact.  Whatever the rest of the bytes, they are opened.
-/
namespace DebugSymbols

namespace Image

variable {i : Image} {k : Nat} {s : Section} {m : MethodImage}

theorem mem_labelled_source (h : i.sources[k]? = some s) :
    (some (.source (k + 1)), s) ∈ i.labelled := by
  have hmem : (s, k + 1) ∈ i.sources.zipIdx 1 :=
    List.mk_mem_zipIdx_iff_le_and_getElem?_sub.2 ⟨by omega, h⟩
  simp only [labelled, List.mem_append, List.mem_map]
  exact .inl (.inl (.inl (.inr ⟨_, hmem, rfl⟩)))

theorem mem_labelled_unit (h : i.units[k]? = some s) :
    (some (.unit (k + 1)), s) ∈ i.labelled := by
  have hmem : (s, k + 1) ∈ i.units.zipIdx 1 :=
    List.mk_mem_zipIdx_iff_le_and_getElem?_sub.2 ⟨by omega, h⟩
  simp only [labelled, List.mem_append, List.mem_map]
  exact .inl (.inl (.inr ⟨_, hmem, rfl⟩))

theorem mem_labelled_method (h : i.methods[k]? = some m) {entry : Option FilePart × Section}
    (hentry : entry ∈ m.labelled (k + 1)) : entry ∈ i.labelled := by
  have hmem : (m, k + 1) ∈ i.methods.zipIdx 1 :=
    List.mk_mem_zipIdx_iff_le_and_getElem?_sub.2 ⟨by omega, h⟩
  simp only [labelled, List.mem_append, List.mem_flatMap]
  exact .inl (.inr ⟨_, hmem, hentry⟩)

theorem mem_labelled_part (h : i.methods[k]? = some m) (part : MethodPart) :
    (some (.method (k + 1) part), m.part part) ∈ i.labelled := by
  apply mem_labelled_method h
  cases part <;> simp [MethodImage.labelled, MethodImage.part]

theorem mem_labelled_trailer (h : i.methods[k]? = some m) : (none, m.trailer) ∈ i.labelled :=
  mem_labelled_method h (by simp [MethodImage.labelled])

theorem mem_labelled_front : (none, i.front) ∈ i.labelled := by simp [labelled]

theorem mem_labelled_methodTable : (none, i.methodTable) ∈ i.labelled := by simp [labelled]

theorem mem_labelled_sourceTable : (none, i.sourceTable) ∈ i.labelled := by simp [labelled]

theorem mem_labelled_unitTable : (none, i.unitTable) ∈ i.labelled := by simp [labelled]

theorem mem_labelled_scopeTable : (some .scopes, i.scopeTable) ∈ i.labelled := by simp [labelled]

theorem mem_sections {entry : Option FilePart × Section} (h : entry ∈ i.labelled) :
    entry.2 ∈ i.sections := List.mem_map.2 ⟨entry, h, rfl⟩

structure Holds (i : Image) (intact : FilePart → Prop) (data : Bytes) : Prop where
  size : i.bytes.length ≤ data.size
  frame : ∀ s, (none, s) ∈ i.labelled → LiesAt data s.offset s.bytes
  part : ∀ part s, (some part, s) ∈ i.labelled → intact part → LiesAt data s.offset s.bytes

end Image

/-- `i` is the file form of a store that was filled by calls, and its offsets fit the format. -/
structure Authoring.SealsTo (a : Authoring) (guid : Guid) (i : Image) : Prop where
  wellFormed : a.WellFormed
  describes : i.Describes a guid
  fits : i.bytes.length < 2 ^ 32

namespace Authoring.SealsTo

variable {a : Authoring} {guid : Guid} {i : Image} {l : Option FilePart} {s : Section}

theorem stop_le (h : a.SealsTo guid i) (hs : (l, s) ∈ i.labelled) : s.stop ≤ i.bytes.length := by
  have hmem := Image.mem_sections hs
  rw [h.describes.contiguous] at hmem
  have := Section.stop_le_of_mem_layOut hmem
  rwa [Nat.zero_add, ← List.flatMap_def, Image.flatMap_bytes_sections] at this

theorem offset_lt (h : a.SealsTo guid i) (hs : (l, s) ∈ i.labelled) : s.offset < 2 ^ 32 :=
  Nat.lt_of_le_of_lt (Nat.le_trans (Nat.le_add_right _ _) (h.stop_le hs)) h.fits

theorem length_lt (h : a.SealsTo guid i) (hs : (l, s) ∈ i.labelled) : s.bytes.length < 2 ^ 32 :=
  Nat.lt_of_le_of_lt (Nat.le_trans (Nat.le_add_left _ _) (h.stop_le hs)) h.fits

theorem pairwise_labelled (h : a.SealsTo guid i) :
    i.labelled.Pairwise fun x y => x.2.stop ≤ y.2.offset := by
  have hpairwise := Section.pairwise_layOut 0 (i.sections.map Section.bytes)
  rwa [← h.describes.contiguous, Image.sections, List.pairwise_map] at hpairwise

theorem dataOffset_le (h : a.SealsTo guid i) {part : FilePart} (hs : (some part, s) ∈ i.labelled) :
    Image.dataOffset ≤ s.offset := by
  have hpairwise := h.pairwise_labelled
  have hfront : i.labelled = (none, i.front) :: i.labelled.tail := rfl
  rw [hfront, List.pairwise_cons] at hpairwise
  rw [hfront] at hs
  rcases List.mem_cons.1 hs with heq | hs
  · cases heq
  · rw [← i.stop_front]
    exact hpairwise.1 _ hs

end Authoring.SealsTo

namespace Image

def openedFrom (i : Image) (data : Bytes) : SymbolFile :=
  ⟨data, { guid := i.guid }, i.header, i.options.parameters⟩

variable {a : Authoring} {guid : Guid} {i : Image} {intact : FilePart → Prop} {data : Bytes}

theorem open?_of_holds (h : a.SealsTo guid i) (hdata : i.Holds intact data) :
    SymbolFile.open? data = .ok (i.openedFrom data) := by
  obtain ⟨hpreamble, hheader⟩ := LiesAt.append_iff.1 (hdata.frame _ mem_labelled_front)
  have hp := (Reader.Reads.bytes _).eval_eq hpreamble
  have hh := (Reader.Reads.bytes _).eval_eq hheader
  rw [Preamble.length_encode] at hp hh
  rw [Header.length_encode] at hh
  rw [show i.front.offset = 0 from rfl] at hp hh
  rw [Nat.zero_add] at hh
  have hparameters : i.header.parameters = .ok i.options.parameters :=
    LineParameters.ofHeader_self i.options.parameters
  have hsize : ¬data.size < i.header.totalFileSize.toNat := by
    -- The declared size is that of the file alone; more bytes may follow.
    have hstop : i.header.totalFileSize = UInt32.ofNat i.bytes.length :=
      congrArg UInt32.ofNat h.describes.length_bytes.symm
    rw [hstop, UInt32.toNat_ofNat_of_lt' h.fits]
    exact Nat.not_lt.2 hdata.size
  rw [SymbolFile.open?, hp, ok_bind, Preamble.decode_encode, ok_bind, hh, ok_bind,
    Header.decode_encode, ok_bind, hparameters, ok_bind, if_neg hsize]
  rfl

end Image

end DebugSymbols
