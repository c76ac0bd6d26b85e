import DebugSymbols.Proofs.LineProgram.Overflow
import DebugSymbols.Store.Lifecycle

namespace DebugSymbols

variable [Build]

theorem LineProgram.encode_eq_release_of_lt {p : LineParameters} (h : p.exactLimit < 0x80000000) :
    encode p = @encode .release p := by
  funext columns ends entries
  exact encode_eq_release (.inl h)

theorem LineProgram.read_eq_release_of_le {p : LineParameters} (h : p.exactLimit ≤ 0x80000000) :
    read p = @read .release p := by
  funext columns ends data start
  exact read_eq_release (not_meetsLastRow h data start)

variable [Sink σ]

theorem MethodDefinition.write_eq_release {p : LineParameters} (h : p.exactLimit < 0x80000000) :
    (write p : MethodDefinition → Writing σ MethodPlace) = @write σ .release _ p := by
  funext d
  unfold write
  rw [LineProgram.encode_eq_release_of_lt h]

theorem Authoring.writeFile_eq_release {a : Authoring}
    (h : a.options.parameters.exactLimit < 0x80000000) (guid : Guid) :
    (a.writeFile guid : Writing σ Header) = @writeFile σ .release _ a guid := by
  unfold writeFile writeAround writeData
  rw [MethodDefinition.write_eq_release h]

/-- Where the row deltas that special opcodes express end among the rows, every build seals a store
as a release build does. -/
theorem Store.sealOver_eq_release {s : Store} (h : s.parameters.exactLimit < 0x80000000) (o : σ)
    (guid : Guid) : s.sealOver o guid = @sealOver σ .release _ s o guid := by
  cases s with
  | authoring a =>
    have hsorted : a.sorted.options.parameters.exactLimit < 0x80000000 := h
    unfold sealOver
    dsimp only
    rw [Authoring.writeFile_eq_release hsorted]
  | sealed header => rfl
  | bound b => rfl

/-- So does every build read the parts of methods. -/
theorem SymbolFile.part_eq_release {f : SymbolFile} (h : f.parameters.exactLimit ≤ 0x80000000)
    (m : MethodRecord) (part : MethodPart) : f.part m part = @SymbolFile.part .release f m part := by
  cases part with
  | lines =>
    unfold SymbolFile.part MethodRecord.readPart
    rw [LineProgram.read_eq_release_of_le h]
  | _ => rfl

end DebugSymbols
