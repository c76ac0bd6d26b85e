import DebugSymbols.Bytes.Varint

namespace DebugSymbols

namespace Reader

/-- What the reader finds behind `front` it also finds behind `front'`, if the same follows. -/
def Movable (r : Reader α) : Prop :=
  ∀ (front front' back : List UInt8) (k q : Nat) (a : α),
    r (front ++ back).toArray (front.length + k) = (.ok a, q) →
    ∃ j, q = front.length + j ∧
      r (front' ++ back).toArray (front'.length + k) = (.ok a, front'.length + j)

theorem toList_extract_behind (front back : List UInt8) (k width : Nat) :
    ((front ++ back).toArray.extract (front.length + k) (front.length + k + width)).toList =
      (back.drop k).take width := by
  rw [Array.toList_extract, List.extract_eq_take_drop, Nat.add_sub_cancel_left,
    List.drop_length_add_append]

namespace Movable

variable {r : Reader α} {f : α → Reader β}

theorem pure (a : α) : Movable (Pure.pure a) := by
  rintro front front' back k q b ⟨⟩
  exact ⟨k, rfl, rfl⟩

theorem fail (e : Error) : Movable (Reader.fail e : Reader α) := by
  intro front front' back k q a h
  exact absurd h fail_ne_ok

theorem bind (hr : Movable r) (hf : ∀ a, Movable (f a)) : Movable (r >>= f) := by
  intro front front' back k q b h
  obtain ⟨a, m, ha, hb⟩ := bind_eq_ok.1 h
  obtain ⟨i, rfl, ha'⟩ := hr front front' back k m a ha
  obtain ⟨j, rfl, hb'⟩ := hf a front front' back i q b hb
  exact ⟨j, rfl, bind_eq_ok.2 ⟨a, _, ha', hb'⟩⟩

theorem map (g : α → β) (hr : Movable r) : Movable (g <$> r) := hr.bind fun a => pure (g a)

theorem exact (width : Nat) : Movable (Reader.exact width) := by
  intro front front' back k q bytes h
  obtain ⟨hsize, hbytes, rfl⟩ := exact_eq_ok.1 h
  rw [List.size_toArray, List.length_append] at hsize
  rw [toList_extract_behind] at hbytes
  refine ⟨k + width, Nat.add_assoc .., exact_eq_ok.2 ⟨?_, ?_, (Nat.add_assoc ..).symm⟩⟩
  · rw [List.size_toArray, List.length_append]
    omega
  · rw [toList_extract_behind, hbytes]

theorem u8 : Movable Reader.u8 := ((exact 1).map ofLittleEndian).map UInt8.ofNat

theorem groups (more : Nat) : Movable (Varint.groups more) := by
  induction more with
  | zero =>
    apply u8.bind
    intro b
    split
    · exact fail _
    · exact pure _
  | succ more ih =>
    apply u8.bind
    intro b
    split
    · exact pure _
    · exact ih.bind fun high => pure _

theorem varint : Movable Reader.varint := (groups 4).map UInt32.ofNat

theorem signedVarint : Movable Reader.signedVarint := varint.map UInt32.toInt32

theorem traverse {f : α → Reader β} (hf : ∀ a, Movable (f a)) (as : List α) :
    Movable (Reader.traverse f as) := by
  induction as with
  | nil => exact pure []
  | cons a as ih => exact (hf a).bind fun b => ih.bind fun bs => pure (b :: bs)

end Movable

end Reader

end DebugSymbols
