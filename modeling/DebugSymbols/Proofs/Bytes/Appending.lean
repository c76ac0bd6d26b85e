import DebugSymbols.Bytes.Varint

namespace DebugSymbols

namespace Reader

/-- What the reader answers from a stream it also answers when bytes are appended to the stream. -/
def Stable (r : Reader α) : Prop :=
  ∀ (data appended : Bytes) (p q : Nat) (a : α),
    r data p = (.ok a, q) → r (data ++ appended) p = (.ok a, q)

theorem extract_append_of_le {data appended : Bytes} {p q : Nat} (h : q ≤ data.size ∨ q = p) :
    (data ++ appended).extract p q = data.extract p q := by
  rw [Array.extract_append]
  have hempty : appended.extract (p - data.size) (q - data.size) = #[] := by
    apply Array.extract_empty_of_stop_le_start
    omega
  rw [hempty, Array.append_empty]

namespace Stable

variable {r : Reader α} {f : α → Reader β}

theorem pure (a : α) : Stable (Pure.pure a) := by
  intro data appended p q b h
  exact h

theorem fail (e : Error) : Stable (Reader.fail e : Reader α) := by
  intro data appended p q a h
  exact absurd h fail_ne_ok

theorem position : Stable Reader.position := by
  intro data appended p q a h
  exact h

theorem bind (hr : Stable r) (hf : ∀ a, Stable (f a)) : Stable (r >>= f) := by
  intro data appended p q b h
  obtain ⟨a, m, ha, hb⟩ := bind_eq_ok.1 h
  rw [bind_apply, hr data appended p m a ha]
  exact hf a data appended m q b hb

theorem map (g : α → β) (hr : Stable r) : Stable (g <$> r) := hr.bind fun a => pure (g a)

theorem exact (width : Nat) : Stable (Reader.exact width) := by
  intro data appended p q bs h
  obtain ⟨hsize, hbytes, hend⟩ := exact_eq_ok.1 h
  apply exact_eq_ok.2
  rw [extract_append_of_le (.inl hsize), Array.size_append]
  exact ⟨by omega, hbytes, hend⟩

theorem bytes (count : Nat) : Stable (Reader.bytes count) := by
  intro data appended p q bs h
  unfold Reader.bytes at h ⊢
  by_cases hsize : count ≤ data.size - p
  · rw [if_pos hsize] at h
    rw [Array.size_append, if_pos (by omega), extract_append_of_le (by omega)]
    exact h
  · rw [if_neg hsize] at h
    simp at h

theorem u8 : Stable Reader.u8 := ((exact 1).map ofLittleEndian).map UInt8.ofNat

theorem groups (more : Nat) : Stable (Varint.groups more) := by
  induction more with
  | zero =>
    apply u8.bind
    intro b
    by_cases hlarge : b > 0x0F
    · rw [if_pos hlarge]
      exact fail _
    · rw [if_neg hlarge]
      exact pure _
  | succ more ih =>
    apply u8.bind
    intro b
    by_cases hlast : b < 0x80
    · rw [if_pos hlast]
      exact pure _
    · rw [if_neg hlast]
      exact ih.bind fun high => pure _

theorem prefixedBytes : Stable Reader.prefixedBytes :=
  ((groups 4).map UInt32.ofNat).bind fun length => bytes length.toNat

theorem text : Stable Reader.text := by
  apply position.bind
  intro start
  apply prefixedBytes.bind
  intro run
  cases Utf8.decode run with
  | ok s => exact pure s
  | error fault => exact fail _

theorem textAt (target : Nat) : Stable (Reader.textAt target) := by
  intro data appended p q s h
  unfold Reader.textAt at h ⊢
  rw [bind_apply] at h ⊢
  simp only [Reader.size] at h ⊢
  by_cases hinside : target < data.size
  · rw [if_pos hinside] at h
    rw [Array.size_append, if_pos (by omega)]
    simp only [readAt, Prod.mk.injEq] at h ⊢
    have hread : Reader.text data target = (.ok s, (Reader.text data target).2) := Prod.ext h.1 rfl
    rw [text data appended target _ s hread]
    exact ⟨rfl, h.2⟩
  · rw [if_neg hinside] at h
    exact absurd h fail_ne_ok

end Stable

end Reader

end DebugSymbols
