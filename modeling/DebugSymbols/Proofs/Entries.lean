import DebugSymbols.AnonymousScope
import DebugSymbols.CompileUnit
import DebugSymbols.Method.Record
import DebugSymbols.Proofs.Bytes.Values
import DebugSymbols.SourceFile

namespace DebugSymbols

open Reader

theorem SourceFile.reads_encode {f : SourceFile} (h : f.encode.length < 2 ^ 32) :
    Reads (SourceFile.read f.index) f.encode f := by
  simp only [encode, List.length_append] at h
  rw [encode, List.append_assoc]
  refine (Reads.text (by omega)).bind ((Reads.prefixedBytes (by omega)).bind
    ((Reads.u8 _).bind_pure ?_))
  cases f with
  | mk index fileName checksum autoGenerated => cases autoGenerated <;> rfl

theorem Namespace.reads_encode {n : Namespace} (h : n.encode.length < 2 ^ 32) :
    Reads Namespace.read n.encode n := by
  simp only [encode, List.length_append] at h
  simp only [encode, List.append_assoc]
  exact (Reads.text (by omega)).bind ((Reads.varint _).bind ((Reads.varint _).bind
    ((Reads.counted (by omega) (fun s _ => length_encodeText_pos s)
      (fun _ _ hs => Reads.text hs)).bind_pure rfl)))

theorem Namespace.length_encode_pos (n : Namespace) : 0 < n.encode.length := by
  have := length_encodeText_pos n.name
  simp only [encode, List.length_append]
  omega

theorem CompileUnit.reads_encode {u : CompileUnit} (h : u.encode.length < 2 ^ 32) :
    Reads (CompileUnit.read u.index) u.encode u := by
  simp only [encode, List.length_append] at h
  simp only [encode, List.append_assoc]
  exact (Reads.varint _).bind
    ((Reads.counted (f := Varint.encode) (by omega) (fun v _ => Varint.length_encode_pos v)
      (fun v _ _ => Reads.varint v)).bind
    ((Reads.counted (f := Namespace.encode) (by omega) (fun n _ => n.length_encode_pos)
      (fun _ _ hn => Namespace.reads_encode hn)).bind_pure rfl))

section Captures

theorem CaptureKind.ofCode?_code (k : CaptureKind) : ofCode? k.code = some k := by
  cases k <;> rfl

theorem CapturedVariable.reads_encode (scope : UInt32) {v : CapturedVariable}
    (h : v.encode.length < 2 ^ 32) : Reads (CapturedVariable.read scope) v.encode v := by
  simp only [encode, List.length_append] at h
  simp only [encode, List.append_assoc]
  refine (Reads.text (by omega)).bind ((Reads.text (by omega)).bind
    ((Reads.u8 v.kind.code).bind_nil ?_))
  simp only [CaptureKind.ofCode?_code]
  exact Reads.pure v

theorem CapturedVariable.length_encode_pos (v : CapturedVariable) : 0 < v.encode.length := by
  have := length_encodeText_pos v.name
  simp only [encode, List.length_append]
  omega

theorem CapturedScope.reads_encode {s : CapturedScope} (h : s.encode.length < 2 ^ 32) :
    Reads CapturedScope.read s.encode s := by
  simp only [encode, List.length_append] at h
  exact (Reads.varint _).bind ((Reads.text (by omega)).bind_pure rfl)

theorem CapturedScope.length_encode_pos (s : CapturedScope) : 0 < s.encode.length := by
  have := Varint.length_encode_pos s.scope
  simp only [encode, List.length_append]
  omega

theorem AnonymousScope.reads_encode {s : AnonymousScope} (h : s.encode.length < 2 ^ 32) :
    Reads AnonymousScope.read s.encode s := by
  simp only [encode, List.length_append] at h
  simp only [encode, List.append_assoc]
  exact (Reads.varint _).bind
    ((Reads.counted (f := CapturedVariable.encode) (by omega) (fun v _ => v.length_encode_pos)
      (fun _ _ hv => CapturedVariable.reads_encode s.id hv)).bind
    ((Reads.counted (f := CapturedScope.encode) (by omega) (fun c _ => c.length_encode_pos)
      (fun _ _ hc => CapturedScope.reads_encode hc)).bind_pure rfl))

theorem AnonymousScope.length_encode_pos (s : AnonymousScope) : 0 < s.encode.length := by
  have := Varint.length_encode_pos s.id
  simp only [encode, List.length_append]
  omega

end Captures

section MethodParts

theorem LocalVariable.reads_encode {v : LocalVariable} (h : v.encode.length < 2 ^ 32) :
    Reads LocalVariable.read v.encode v := by
  simp only [encode, List.length_append] at h
  simp only [encode, List.append_assoc]
  exact (Reads.varint _).bind ((Reads.text (by omega)).bind ((Reads.varint _).bind_pure rfl))

theorem LocalVariable.length_encode_pos (v : LocalVariable) : 0 < v.encode.length := by
  have := Varint.length_encode_pos v.index
  simp only [encode, List.length_append]
  omega

theorem ScopeVariable.reads_encode (v : ScopeVariable) :
    Reads ScopeVariable.read v.encode v :=
  (Reads.varint _).bind ((Reads.varint _).bind_pure rfl)

theorem ScopeVariable.length_encode_pos (v : ScopeVariable) : 0 < v.encode.length := by
  have := Varint.length_encode_pos v.scope
  simp only [encode, List.length_append]
  omega

theorem BlockKind.ofCode?_code (k : BlockKind) : ofCode? k.code = some k := by
  cases k <;> rfl

theorem CodeBlock.reads_encode (b : CodeBlock) : Reads (CodeBlock.read b.index) b.encode b := by
  simp only [encode, List.append_assoc]
  apply (Reads.varint _).bind
  simp only [BlockKind.ofCode?_code]
  exact (Reads.signedVarint _).bind ((Reads.varint _).bind ((Reads.varint _).bind_pure rfl))

theorem CodeBlock.length_encode_pos (b : CodeBlock) : 0 < b.encode.length := by
  have := Varint.length_encode_pos b.kind.code
  simp only [encode, List.length_append]
  omega

theorem CodeBlock.reads_table {bs : List CodeBlock}
    (h : (encodeCounted CodeBlock.encode bs).length < 2 ^ 32)
    (hindex : ∀ k (hk : k < bs.length), bs[k].index = UInt32.ofNat (1 + k)) :
    Reads CodeBlock.readTable (encodeCounted CodeBlock.encode bs) bs := by
  have hlen := Nat.lt_trans (length_lt_of_encodeCounted fun b _ => length_encode_pos b) h
  apply (Reads.varint _).bind
  rw [UInt32.toNat_ofNat_of_lt' hlen]
  apply Reads.indexed 1 bs
  intro k hk
  rw [← hindex k hk]
  exact reads_encode bs[k]

theorem CodeBlock.read_index {index : UInt32} {data : Bytes} {p q : Nat} {b : CodeBlock}
    (h : CodeBlock.read index data p = (.ok b, q)) : b.index = index := by
  obtain ⟨code, _, -, h⟩ := bind_eq_ok.1 h
  cases hkind : BlockKind.ofCode? code with
  | none =>
    rw [hkind] at h
    exact absurd h fail_ne_ok
  | some kind =>
  rw [hkind] at h
  obtain ⟨parent, _, -, h⟩ := bind_eq_ok.1 h
  obtain ⟨startOffset, _, -, h⟩ := bind_eq_ok.1 h
  obtain ⟨endOffset, _, -, h⟩ := bind_eq_ok.1 h
  cases h
  rfl

/-- In a table that was read each block has the index of its place, whatever the bytes are. -/
theorem CodeBlock.toNat_index_of_readTable {data : Bytes} {p q : Nat} {bs : List CodeBlock}
    (h : CodeBlock.readTable data p = (.ok bs, q)) (k : Nat) (hk : k < bs.length) :
    bs[k].index.toNat = 1 + k := by
  obtain ⟨count, m, -, h⟩ := bind_eq_ok.1 h
  obtain ⟨_, _, hread⟩ := exists_read_of_indexed h k hk
  rw [length_of_indexed h] at hk
  have hcount := count.toNat_lt
  rw [read_index hread, UInt32.toNat_ofNat_of_lt' (by change 1 + k < 2 ^ 32; omega)]

theorem MethodTrailer.reads_encode (t : MethodTrailer) :
    Reads MethodTrailer.read t.encode t := by
  simp only [encode, List.flatMap_cons, List.flatMap_nil]
  refine (Reads.varint _).bind ((Reads.varint _).bind ((Reads.varint _).bind
    ((Reads.varint _).bind ((Reads.varint _).bind ((Reads.varint _).bind ?_)))))
  rw [List.append_nil]
  exact (Reads.varint _).bind_pure rfl

theorem MethodFlags.ofBits_bits (f : MethodFlags) : ofBits f.bits = f := by
  obtain ⟨ambiguousLocals, columns, ends⟩ := f
  cases ambiguousLocals <;> cases columns <;> cases ends <;> rfl

end MethodParts

end DebugSymbols
