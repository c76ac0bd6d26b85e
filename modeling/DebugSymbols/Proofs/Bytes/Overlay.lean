import DebugSymbols.Proofs.Bytes.Reading

namespace DebugSymbols

variable {data : Bytes} {p q : Nat} {bytes run : List UInt8}

theorem toList_overlay_padded (data : Bytes) (p : Nat) (bytes : List UInt8) :
    (overlay data p bytes).toList =
      (data.toList.take p).rightpad p 0 ++ bytes ++ data.toList.drop (p + bytes.length) := by
  simp only [overlay, Array.rightpad, Array.take_eq_extract, Array.drop_eq_extract,
    Array.size_extract, Nat.sub_zero, Array.toList_append, Array.toList_extract,
    Array.toList_replicate, Array.toList_appendList, List.extract_eq_take_drop, List.drop_zero,
    List.rightpad, List.length_take, Array.length_toList]
  rw [List.take_of_length_le (l := data.toList.drop (p + bytes.length)) (by simp)]

@[simp] theorem length_padded (front : List UInt8) (p : Nat) :
    ((front.take p).rightpad p 0).length = p := by
  rw [List.length_rightpad, List.length_take]
  omega

theorem toList_overlay (hp : p ≤ data.size) (bytes : List UInt8) :
    (overlay data p bytes).toList =
      data.toList.take p ++ bytes ++ data.toList.drop (p + bytes.length) := by
  have hfull : p - (data.toList.take p).length = 0 := by
    rw [List.length_take, Array.length_toList]
    omega
  rw [toList_overlay_padded, List.rightpad, hfull, List.replicate_zero, List.append_nil]

theorem size_overlay_eq_max (data : Bytes) (p : Nat) (bytes : List UInt8) :
    (overlay data p bytes).size = max data.size (p + bytes.length) := by
  rw [← Array.length_toList, toList_overlay_padded]
  simp only [List.length_append, length_padded, List.length_drop, Array.length_toList]
  omega

theorem size_overlay (h : p + bytes.length ≤ data.size) :
    (overlay data p bytes).size = data.size := by
  rw [size_overlay_eq_max, Nat.max_eq_left h]

theorem size_overlay_zero (data : Bytes) (bytes : List UInt8) :
    (overlay data 0 bytes).size = max data.size bytes.length := by
  rw [size_overlay_eq_max, Nat.zero_add]

theorem getElem?_overlay_before {k : Nat} (h : k < p) :
    (overlay data p bytes)[k]? = some (data[k]?.getD 0) := by
  rw [← Array.getElem?_toList, toList_overlay_padded, List.append_assoc,
    List.getElem?_append_left (by rwa [length_padded]), List.rightpad]
  by_cases hk : k < data.size
  · have htake : k < (data.toList.take p).length := by
      rw [List.length_take, Array.length_toList]
      omega
    rw [List.getElem?_append_left htake, List.getElem?_take_of_lt h, Array.getElem?_toList,
      Array.getElem?_eq_getElem hk, Option.getD_some]
  · -- The stream ended before, so that a zero of the filling stands here.
    have htake : (data.toList.take p).length ≤ k := by
      rw [List.length_take, Array.length_toList]
      omega
    rw [List.getElem?_append_right htake, List.getElem?_replicate, if_pos (by omega),
      Array.getElem?_eq_none (Nat.not_lt.1 hk), Option.getD_none]

theorem getElem?_overlay_behind {k : Nat} (h : p + bytes.length ≤ k) :
    (overlay data p bytes)[k]? = data[k]? := by
  rw [← Array.getElem?_toList, toList_overlay_padded,
    List.getElem?_append_right (by rwa [List.length_append, length_padded]), List.length_append,
    length_padded, List.getElem?_drop, Nat.add_sub_cancel' h, Array.getElem?_toList]

theorem getElem?_overlay (hp : p ≤ data.size) {k : Nat} (h : k < p ∨ p + bytes.length ≤ k) :
    (overlay data p bytes)[k]? = data[k]? := by
  rcases h with hbefore | hbehind
  · rw [getElem?_overlay_before hbefore, Array.getElem?_eq_getElem (Nat.lt_of_lt_of_le hbefore hp),
      Option.getD_some]
  · exact getElem?_overlay_behind hbehind

/-- Bytes that were left out of a file can be laid over their place later. -/
theorem overlay_overlay (data : Bytes) (front gap rest : List UInt8)
    (hlength : gap.length = bytes.length) :
    overlay (overlay data 0 (front ++ (gap ++ rest))) front.length bytes =
      overlay data 0 (front ++ (bytes ++ rest)) := by
  have htoList (bs : List UInt8) : (overlay data 0 bs).toList =
      bs ++ data.toList.drop bs.length := by
    rw [toList_overlay (Nat.zero_le _), List.take_zero, List.nil_append, Nat.zero_add]
  have hsize : front.length ≤ (overlay data 0 (front ++ (gap ++ rest))).size := by
    rw [← Array.length_toList, htoList]
    simp only [List.length_append]
    omega
  rw [← Array.toList_inj, toList_overlay hsize, htoList, htoList, List.append_assoc front,
    List.take_left, List.drop_length_add_append, List.append_assoc gap, ← hlength, List.drop_left]
  simp only [List.length_append, List.append_assoc, hlength]

namespace LiesAt

theorem iff_getElem? :
    LiesAt data p bytes ↔ ∀ k (hk : k < bytes.length), data[p + k]? = some bytes[k] := by
  unfold LiesAt
  rw [List.prefix_iff_getElem?]
  simp only [List.getElem?_drop, Array.getElem?_toList]

theorem overlay_self (hp : p ≤ data.size) (bytes : List UInt8) :
    LiesAt (overlay data p bytes) p bytes := by
  have h := of_toList_eq (toList_overlay hp bytes)
  rwa [List.length_take, Array.length_toList, Nat.min_eq_left hp] at h

theorem overlay_of_disjoint (h : LiesAt data q run) (hp : p ≤ data.size)
    (hdisjoint : q + run.length ≤ p ∨ p + bytes.length ≤ q) :
    LiesAt (overlay data p bytes) q run := by
  rw [iff_getElem?] at h ⊢
  intro k hk
  rw [getElem?_overlay hp (by omega)]
  exact h k hk

theorem append_right (h : LiesAt data q run) (appended : Bytes) :
    LiesAt (data ++ appended) q run := by
  rw [iff_getElem?] at h ⊢
  intro k hk
  have hlt := (Array.getElem?_eq_some_iff.1 (h k hk)).1
  rw [Array.getElem?_append_left hlt]
  exact h k hk

end LiesAt

end DebugSymbols
