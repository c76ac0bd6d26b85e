import DebugSymbols.Proofs.Bytes.Values
import DebugSymbols.Proofs.Store.ReadMethods
import Mathlib.Algebra.GroupWithZero.Nat

namespace DebugSymbols

theorem Varint.length_flatMap_encode_le (vs : List UInt32) :
    (vs.flatMap Varint.encode).length ≤ vs.length * 5 := by
  induction vs with
  | nil => exact Nat.le_refl 0
  | cons v vs ih =>
    have hv := Varint.length_encode_le v
    rw [List.flatMap_cons, List.length_append, List.length_cons]
    omega

theorem MethodTrailer.length_encode_le (t : MethodTrailer) : t.encode.length ≤ 7 * 5 :=
  Varint.length_flatMap_encode_le _

/-- What a method takes in a file at most: its parts, a trailer of seven numbers and a record. -/
def MethodDefinition.sizeBound (d : MethodDefinition) (p : LineParameters) : Nat :=
  ([.locals, .blocks, .scopeVariables, .realName, .lines].map fun part =>
    (d.payload p part).length).sum + 7 * 5 + Header.methodRecordSize

namespace MethodImage

variable {p : LineParameters}

theorem Describes.length_bytes_le {d : MethodDefinition} {m : MethodImage} (h : m.Describes p d) :
    m.bytes.length + m.record.length ≤ d.sizeBound p := by
  have htrailer := MethodTrailer.length_encode_le (m.trailerOf d)
  rw [← h.trailer] at htrailer
  simp only [MethodDefinition.sizeBound, List.map_cons, List.map_nil, ← h.bytes_part, part, bytes,
    parts, List.flatMap_cons, List.flatMap_nil, List.length_append, List.length_nil,
    Image.length_record, List.sum_cons, List.sum_nil]
  omega

theorem length_bytes_le {ds : List MethodDefinition} {ms : List MethodImage}
    (h : List.Forall₂ (Describes p) ds ms) :
    (ms.flatMap bytes).length + (ms.flatMap record).length ≤ (ds.map (·.sizeBound p)).sum := by
  induction h with
  | nil => exact Nat.le_refl 0
  | cons hd _ ih =>
    have hfirst := hd.length_bytes_le
    simp only [List.flatMap_cons, List.length_append, List.map_cons, List.sum_cons]
    omega

end MethodImage

/-- What the file of a store takes at most.  The methods are counted as they were defined, since
the file only arranges them. -/
def Authoring.sizeBound (a : Authoring) : Nat :=
  Image.dataOffset + (a.sources.toList.flatMap SourceFile.encode).length +
    (a.units.toList.flatMap CompileUnit.encode).length +
    (a.methods.toList.map (·.sizeBound a.options.parameters)).sum +
    (a.sources.size + a.units.size) * Header.indexRecordSize +
    (a.scopes.toList.flatMap AnonymousScope.encode).length

theorem Image.Describes.length_bytes_le {a : Authoring} {guid : Guid} {i : Image}
    (h : i.Describes a guid) : i.bytes.length ≤ a.sizeBound := by
  have hmethods := MethodImage.length_bytes_le h.methods
  rw [(a.sortedMethods_perm.map _).sum_nat] at hmethods
  have hsources : i.sources.length = a.sources.size := Section.length_eq_of_map_bytes h.sources
  have hunits : i.units.length = a.units.size := Section.length_eq_of_map_bytes h.units
  have hfront : i.bytes.length = dataOffset + i.dataBytes.length + i.methodTable.bytes.length +
      i.sourceTable.bytes.length + i.unitTable.bytes.length + i.scopeTable.bytes.length := by
    simp only [bytes, List.length_append, Preamble.length_encode, Header.length_encode, dataOffset]
  rw [hfront, dataBytes, Section.flatMap_bytes_of_map_bytes h.sources,
    Section.flatMap_bytes_of_map_bytes h.units, h.methodTable, h.sourceTable, h.unitTable,
    h.scopeTable, length_indexTable, length_indexTable, hsources, hunits, List.length_append,
    List.length_append, Authoring.sizeBound, Nat.add_mul]
  omega

end DebugSymbols
