import DebugSymbols.Proofs.Bytes.Writing
import DebugSymbols.Proofs.Entries
import DebugSymbols.Store.Sealing

namespace DebugSymbols

open Writing

theorem SourceFile.writes_encode (f : SourceFile) (start : Nat) :
    Writes f.write start f.encode () := by
  rw [encode, List.append_assoc]
  exact (Writes.text _).bind ((Writes.prefixedBytes _).bind (Writes.u8 _))

theorem Namespace.writes_encode (n : Namespace) (start : Nat) :
    Writes n.write start n.encode () := by
  simp only [encode, List.append_assoc]
  exact (Writes.text _).bind ((Writes.varint _).bind ((Writes.varint _).bind
    (Writes.counted (fun s _ => Writes.text s) fun s _ => length_encodeText_pos s)))

theorem CompileUnit.writes_encode (u : CompileUnit) (start : Nat) :
    Writes u.write start u.encode () := by
  rw [encode, List.append_assoc]
  exact (Writes.varint _).bind
    ((Writes.counted (fun v _ => Writes.varint v) fun v _ => Varint.length_encode_pos v).bind
    (Writes.counted Namespace.writes_encode fun n _ => n.length_encode_pos))

section Captures

theorem CapturedVariable.writes_encode (v : CapturedVariable) (start : Nat) :
    Writes v.write start v.encode () := by
  rw [encode, List.append_assoc]
  exact (Writes.text _).bind ((Writes.text _).bind (Writes.u8 _))

theorem CapturedScope.writes_encode (s : CapturedScope) (start : Nat) :
    Writes s.write start s.encode () := (Writes.varint _).bind (Writes.text _)

theorem AnonymousScope.writes_encode (s : AnonymousScope) (start : Nat) :
    Writes s.write start s.encode () := by
  rw [encode, List.append_assoc]
  exact (Writes.varint _).bind
    ((Writes.counted CapturedVariable.writes_encode fun v _ => v.length_encode_pos).bind
    (Writes.counted CapturedScope.writes_encode fun c _ => c.length_encode_pos))

end Captures

section MethodParts

theorem LocalVariable.writes_encode (v : LocalVariable) (start : Nat) :
    Writes v.write start v.encode () := by
  rw [encode, List.append_assoc]
  exact (Writes.varint _).bind ((Writes.text _).bind (Writes.varint _))

theorem ScopeVariable.writes_encode (v : ScopeVariable) (start : Nat) :
    Writes v.write start v.encode () := (Writes.varint _).bind (Writes.varint _)

theorem CodeBlock.writes_encode (b : CodeBlock) (start : Nat) :
    Writes b.write start b.encode () := by
  simp only [encode, List.append_assoc]
  exact (Writes.varint _).bind ((Writes.signedVarint _).bind ((Writes.varint _).bind
    (Writes.varint _)))

theorem MethodTrailer.writes_encode (t : MethodTrailer) (start : Nat) :
    Writes t.write start t.encode () := by
  simp only [encode, List.flatMap_cons, List.flatMap_nil]
  refine (Writes.varint _).bind ((Writes.varint _).bind ((Writes.varint _).bind
    ((Writes.varint _).bind ((Writes.varint _).bind ((Writes.varint _).bind ?_)))))
  rw [List.append_nil]
  exact Writes.varint _

/-- The real name is written behind its length; without one the offset is 0. -/
theorem MethodDefinition.writes_realName (name : Option String) (start : Nat) :
    Writes (writeRealName name) start (name.elim [] encodeText)
      (if name.isSome then UInt32.ofNat start else 0) := by
  cases name with
  | none => exact Writes.pure 0
  | some name => exact Writes.position.bind_silent ((Writes.text name).bind_nil (Writes.pure _))

end MethodParts

end DebugSymbols
