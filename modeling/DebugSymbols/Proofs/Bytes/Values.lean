import DebugSymbols.Proofs.Bytes.Reading

namespace DebugSymbols

theorem Varint.length_encodeNat_pos (n : Nat) : 0 < (Varint.encodeNat n).length := by
  rw [Varint.encodeNat]
  split <;> simp

@[simp] theorem Varint.length_encode_pos (v : UInt32) : 0 < (Varint.encode v).length :=
  Varint.length_encodeNat_pos v.toNat

theorem Varint.length_encodeNat_le {more n : Nat} (hn : n < 128 ^ (more + 1)) :
    (Varint.encodeNat n).length ≤ more + 1 := by
  induction more generalizing n with
  | zero =>
    rw [Varint.encodeNat, if_pos (by simpa using hn)]
    simp
  | succ more ih =>
    rw [Varint.encodeNat]
    split
    · simp
    · have := ih (n := n / 128) (by rw [Nat.pow_succ] at hn; omega)
      simpa using this

theorem Varint.length_encode_le (v : UInt32) : (Varint.encode v).length ≤ 4 + 1 :=
  Varint.length_encodeNat_le (Nat.lt_trans v.toNat_lt (by decide))

theorem length_encodeText_pos (s : String) : 0 < (encodeText s).length := by
  have := Varint.length_encode_pos (UInt32.ofNat (Utf8.encode s).length)
  simp only [encodeText, encodeRun, List.length_append]
  omega

theorem length_le_flatMap {f : α → List UInt8} {as : List α} (hf : ∀ a ∈ as, 0 < (f a).length) :
    as.length ≤ (as.flatMap f).length := by
  induction as with
  | nil => simp
  | cons a as ih =>
    have ⟨ha, has⟩ := List.forall_mem_cons.1 hf
    simp only [List.length_cons, List.flatMap_cons, List.length_append]
    have := ih has
    omega

theorem length_lt_of_encodeCounted {f : α → List UInt8} {as : List α}
    (hf : ∀ a ∈ as, 0 < (f a).length) : as.length < (encodeCounted f as).length := by
  have := length_le_flatMap hf
  have := Varint.length_encode_pos (UInt32.ofNat as.length)
  simp only [encodeCounted, List.length_append]
  omega

theorem length_le_of_mem {f : α → List UInt8} {as : List α} {a : α} (ha : a ∈ as) :
    (f a).length ≤ (as.flatMap f).length := by
  obtain ⟨before, after, rfl⟩ := List.append_of_mem ha
  simp only [List.length_append, List.flatMap_append, List.flatMap_cons]
  omega

theorem length_le_encodeCounted {f : α → List UInt8} {as : List α} {a : α} (ha : a ∈ as) :
    (f a).length ≤ (encodeCounted f as).length := by
  have := length_le_of_mem (f := f) ha
  simp only [encodeCounted, List.length_append]
  omega

theorem Utf8.decode_encode (s : String) : Utf8.decode (Utf8.encode s) = .ok s := by
  have h : String.fromUTF8? s.toUTF8 = some s := dif_pos s.isValidUTF8
  simp only [Utf8.decode, Utf8.encode, Array.toArray_toList, h]

namespace Reader.Reads

theorem groups {more n : Nat} (hn : n < 16 * 128 ^ more) :
    Reads (Varint.groups more) (Varint.encodeNat n) n := by
  induction more generalizing n with
  | zero =>
    have hb : (UInt8.ofNat n).toNat = n := by
      rw [UInt8.toNat_ofNat']
      omega
    rw [Varint.encodeNat, if_pos (by omega)]
    have hle : ¬UInt8.ofNat n > 0x0F := by
      rw [gt_iff_lt, UInt8.lt_iff_toNat_lt, hb, show (0x0F : UInt8).toNat = 15 from rfl]
      omega
    exact (u8 (UInt8.ofNat n)).bind (by rw [if_neg hle, hb]; exact Reads.pure n)
  | succ more ih =>
    rw [Varint.encodeNat]
    split_ifs with h
    · have hb : (UInt8.ofNat n).toNat = n := by
        rw [UInt8.toNat_ofNat']
        omega
      have hlt : UInt8.ofNat n < 0x80 := by
        rw [UInt8.lt_iff_toNat_lt, hb]
        exact h
      exact (u8 (UInt8.ofNat n)).bind (by rw [if_pos hlt, hb]; exact Reads.pure n)
    · -- Seven bits behind the mark that more follow; the rest has one group less.
      have hb : (UInt8.ofNat (n % 128 + 128)).toNat = n % 128 + 128 := by
        rw [UInt8.toNat_ofNat']
        omega
      have hge : ¬UInt8.ofNat (n % 128 + 128) < 0x80 := by
        rw [UInt8.lt_iff_toNat_lt, hb, show (0x80 : UInt8).toNat = 128 from rfl]
        omega
      apply (u8 (UInt8.ofNat (n % 128 + 128))).bind
      rw [if_neg hge, hb]
      refine (ih (n := n / 128) ?_).bind_pure (by omega)
      rw [Nat.pow_succ] at hn
      omega

theorem varint (v : UInt32) : Reads Reader.varint (Varint.encode v) v := by
  have hgroups : Reads (Varint.groups 4) (Varint.encode v) v.toNat := groups v.toNat_lt
  have h := hgroups.map UInt32.ofNat
  rwa [UInt32.ofNat_toNat] at h

theorem signedVarint (v : Int32) : Reads Reader.signedVarint (Varint.encodeSigned v) v := by
  have h := (varint v.toUInt32).map UInt32.toInt32
  rwa [Int32.toInt32_toUInt32] at h

theorem run_of_lt {bs : List UInt8} (h : bs.length < 2 ^ 32) :
    Reads Reader.prefixedBytes (encodeRun bs) bs := by
  apply (varint _).bind
  rw [UInt32.toNat_ofNat_of_lt' h]
  exact Reads.bytes bs

theorem text_of_lt {s : String} (h : (Utf8.encode s).length < 2 ^ 32) :
    Reads Reader.text (encodeText s) s := by
  intro data p hp
  have hread := run_of_lt h data p hp
  unfold Reader.text
  rw [bind_apply]
  dsimp only [Reader.position]
  rw [bind_apply, hread]
  simp [Utf8.decode_encode, encodeText]

theorem prefixedBytes {bs : List UInt8} (h : (encodeRun bs).length < 2 ^ 32) :
    Reads Reader.prefixedBytes (encodeRun bs) bs := by
  refine run_of_lt ?_
  simp only [encodeRun, List.length_append] at h
  omega

theorem text {s : String} (h : (encodeText s).length < 2 ^ 32) :
    Reads Reader.text (encodeText s) s := by
  refine text_of_lt ?_
  simp only [encodeText, encodeRun, List.length_append] at h
  omega

/-- A table is read back if each of its elements is and takes at least one byte. -/
theorem counted {r : Reader α} {f : α → List UInt8} {as : List α}
    (h : (encodeCounted f as).length < 2 ^ 32) (hf : ∀ a ∈ as, 0 < (f a).length)
    (hr : ∀ a ∈ as, (f a).length < 2 ^ 32 → Reads r (f a) a) :
    Reads (Reader.counted r) (encodeCounted f as) as := by
  have hlen : as.length < 2 ^ 32 := Nat.lt_trans (length_lt_of_encodeCounted hf) h
  apply (varint _).bind
  rw [UInt32.toNat_ofNat_of_lt' hlen]
  exact replicate as fun a ha => hr a ha (Nat.lt_of_le_of_lt (length_le_encodeCounted ha) h)

end Reader.Reads

end DebugSymbols
