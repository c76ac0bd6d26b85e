import DebugSymbols.Bytes.Varint

namespace DebugSymbols

/-- An error for which the bytes of a stream are the cause. -/
def Error.OfStream (e : Error) : Prop := e = .outOfBounds ∨ ∃ damage, e = .malformed damage

theorem Error.ofStream_outOfBounds : Error.outOfBounds.OfStream := .inl rfl

theorem Error.ofStream_malformed (damage : Damage) : (Error.malformed damage).OfStream :=
  .inr ⟨damage, rfl⟩

namespace Reader

/-- If the reader fails, the stream is the cause. -/
def FailsByStream (r : Reader α) : Prop :=
  ∀ (data : Bytes) (p q : Nat) (e : Error), r data p = (.error e, q) → e.OfStream

namespace FailsByStream

variable {r : Reader α} {f : α → Reader β}

theorem pure (a : α) : FailsByStream (Pure.pure a) := by
  rintro data p q e ⟨⟩

theorem malformed (damage : Damage) :
    FailsByStream (Reader.fail (.malformed damage) : Reader α) := by
  rintro data p q e ⟨⟩
  exact Error.ofStream_malformed damage

theorem position : FailsByStream Reader.position := by
  rintro data p q e ⟨⟩

theorem seek (target : Nat) : FailsByStream (Reader.seek target) := by
  rintro data p q e ⟨⟩

theorem bind (hr : FailsByStream r) (hf : ∀ a, FailsByStream (f a)) :
    FailsByStream (r >>= f) := by
  intro data p q e h
  rw [bind_apply] at h
  rcases hread : r data p with ⟨e' | a, m⟩
  · rw [hread] at h
    cases h
    exact hr data p _ e hread
  · rw [hread] at h
    exact hf a data m q e h

theorem map (g : α → β) (hr : FailsByStream r) : FailsByStream (g <$> r) :=
  hr.bind fun a => pure (g a)

theorem exact (width : Nat) : FailsByStream (Reader.exact width) := by
  intro data p q e h
  unfold Reader.exact at h
  split at h
  · cases h
  · cases h
    exact Error.ofStream_outOfBounds

theorem u8 : FailsByStream Reader.u8 := ((exact 1).map ofLittleEndian).map UInt8.ofNat

theorem u32 : FailsByStream Reader.u32 := ((exact 4).map ofLittleEndian).map UInt32.ofNat

theorem groups (more : Nat) : FailsByStream (Varint.groups more) := by
  induction more with
  | zero =>
    apply u8.bind
    intro b
    split
    · exact malformed _
    · exact pure _
  | succ more ih =>
    apply u8.bind
    intro b
    split
    · exact pure _
    · exact ih.bind fun high => pure _

theorem varint : FailsByStream Reader.varint := (groups 4).map UInt32.ofNat

theorem signedVarint : FailsByStream Reader.signedVarint := varint.map UInt32.toInt32

theorem traverse {f : α → Reader β} (hf : ∀ a, FailsByStream (f a)) (as : List α) :
    FailsByStream (Reader.traverse f as) := by
  induction as with
  | nil => exact pure _
  | cons a as ih => exact (hf a).bind fun b => ih.bind fun bs => pure _

end FailsByStream

end Reader

end DebugSymbols
