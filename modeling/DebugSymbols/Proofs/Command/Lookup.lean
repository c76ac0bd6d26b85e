import DebugSymbols.Proofs.Command.Runs
import DebugSymbols.Proofs.LineProgram.Lookup

namespace DebugSymbols

theorem LineTable.mem_of_find?_eq_some {t : LineTable} {offset : UInt32} {e : LineEntry}
    (h : t.find? offset = some e) : e ∈ t.entries :=
  (List.takeWhile_sublist _).subset (List.mem_of_mem_filter (List.mem_of_getLast? h))

namespace Report

variable {f : SymbolFile}

/-- Names looked up so far are those of the sources. -/
def FileNames.Sound (f : SymbolFile) (names : FileNames) : Prop :=
  ∀ (index : UInt32) (name : String), names[index]? = some name →
    SourceFile.fileName <$> f.sourceFile index = .ok name

theorem FileNames.sound_empty (f : SymbolFile) : FileNames.Sound f ∅ := by
  intro index name h
  rw [Std.TreeMap.getElem?_emptyc] at h
  cases h

theorem FileNames.Sound.insert {names : FileNames} (h : names.Sound f) {index : UInt32}
    {s : SourceFile} (hs : f.sourceFile index = .ok s) :
    FileNames.Sound f (names.insert index s.fileName) := by
  intro other name hname
  rw [Std.TreeMap.getElem?_insert] at hname
  split_ifs at hname with heq
  · cases Std.LawfulEqOrd.eq_of_compare heq
    cases hname
    rw [hs]
    rfl
  · exact h other name hname

namespace Position

def nameOf (f : SymbolFile) (index : UInt32) : String :=
  match f.sourceFile index with
  | .ok s => s.fileName
  | .error _ => ""

def shown (f : SymbolFile) (e : LineEntry) : Position := ofEntry e (nameOf f e.file)

/-- The position `p` is the last one that is not hidden ahead of the first one beyond an offset. -/
def InForce (ps : List Position) (offset : UInt32) (p : Position) : Prop :=
  ∃ before hidden beyond, ps = before ++ p :: hidden ++ beyond ∧
    (∀ q ∈ before ++ p :: hidden, q.offset ≤ offset) ∧ (∀ q ∈ beyond.head?, offset < q.offset) ∧
    p.hidden = false ∧ ∀ q ∈ hidden, q.hidden = true

end Position

section Lookup

variable [Build] {token offset : String} {m : MethodRecord} {table : LineTable} {o : UInt32}

end Lookup

end Report

namespace Outcome

end Outcome

end DebugSymbols
