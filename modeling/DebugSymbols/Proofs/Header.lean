import DebugSymbols.Header
import DebugSymbols.Proofs.Bytes.Reading

namespace DebugSymbols

theorem fieldAt_append_left (width n : Nat) (rest : List UInt8) (hn : n < 256 ^ width) :
    fieldAt (littleEndian width n ++ rest) 0 width = n := by
  have htake : (littleEndian width n ++ rest).take width = littleEndian width n :=
    List.take_left' (length_littleEndian width n)
  rw [fieldAt, List.drop_zero, htake, ofLittleEndian_littleEndian, Nat.mod_eq_of_lt hn]

theorem fieldAt_append_right (front rest : List UInt8) (offset width : Nat) :
    fieldAt (front ++ rest) (front.length + offset) width = fieldAt rest offset width := by
  rw [fieldAt, fieldAt, List.drop_length_add_append]

theorem wordAt_append (front : List UInt8) (v : UInt32) (rest : List UInt8) :
    wordAt (front ++ (littleEndian 4 v.toNat ++ rest)) front.length = v := by
  have hright := fieldAt_append_right front (littleEndian 4 v.toNat ++ rest) 0 4
  rw [Nat.add_zero] at hright
  rw [wordAt, hright, fieldAt_append_left 4 _ _ v.toNat_lt, UInt32.ofNat_toNat]

theorem wordAt_flatMap {ws : List UInt32} {k : Nat} {w : UInt32} (hw : ws[k]? = some w) :
    wordAt (ws.flatMap fun w => littleEndian 4 w.toNat) (4 * k) = w := by
  induction ws generalizing k with
  | nil => simp at hw
  | cons first ws ih =>
    rw [List.flatMap_cons]
    cases k with
    | zero =>
      cases hw
      exact wordAt_append [] w _
    | succ k =>
      have hright := fieldAt_append_right (littleEndian 4 first.toNat)
        (ws.flatMap fun w => littleEndian 4 w.toNat) (4 * k) 4
      rw [length_littleEndian, Nat.add_comm, ← Nat.mul_succ] at hright
      rw [wordAt, hright]
      exact ih hw

theorem littleEndian_ofLittleEndian (bytes : List UInt8) :
    littleEndian bytes.length (ofLittleEndian bytes) = bytes := by
  induction bytes with
  | nil => rfl
  | cons b bytes ih =>
    have hb := b.toNat_lt
    have hcons : ofLittleEndian (b :: bytes) = b.toNat + 256 * ofLittleEndian bytes := rfl
    have hlow : UInt8.ofNat (b.toNat + 256 * ofLittleEndian bytes) = b := by
      rw [← UInt8.toNat_inj, UInt8.toNat_ofNat']
      omega
    have hhigh : (b.toNat + 256 * ofLittleEndian bytes) / 256 = ofLittleEndian bytes := by omega
    rw [List.length_cons, littleEndian, hcons, hlow, hhigh, ih]

theorem ofLittleEndian_lt (bytes : List UInt8) : ofLittleEndian bytes < 256 ^ bytes.length := by
  have h := ofLittleEndian_littleEndian bytes.length (ofLittleEndian bytes)
  rw [littleEndian_ofLittleEndian] at h
  rw [h]
  exact Nat.mod_lt _ (Nat.pow_pos (by decide))

theorem fieldAt_lt (data : List UInt8) (offset width : Nat) :
    fieldAt data offset width < 256 ^ width :=
  Nat.lt_of_lt_of_le (ofLittleEndian_lt _)
    (Nat.pow_le_pow_right (by decide) (List.length_take_le _ _))

theorem fieldAt_eq_iff {data : Bytes} {offset width n : Nat} (hsize : offset + width ≤ data.size)
    (hn : n < 256 ^ width) :
    fieldAt data.toList offset width = n ↔ LiesAt data offset (littleEndian width n) := by
  have hlength : ((data.toList.drop offset).take width).length = width := by
    rw [List.length_take, List.length_drop, Array.length_toList]
    omega
  have hbytes := littleEndian_ofLittleEndian ((data.toList.drop offset).take width)
  rw [hlength] at hbytes
  rw [LiesAt, List.prefix_iff_eq_take, length_littleEndian]
  constructor
  · rintro rfl
    exact hbytes
  · intro h
    rw [fieldAt, ← h, ofLittleEndian_littleEndian, Nat.mod_eq_of_lt hn]

theorem fieldAt_extract {data : Bytes} {start stop offset width : Nat}
    (h : start + offset + width ≤ stop) :
    fieldAt (data.extract start stop).toList offset width =
      fieldAt data.toList (start + offset) width := by
  rw [fieldAt, fieldAt, Array.toList_extract, List.extract_eq_take_drop, List.drop_take,
    List.take_take, List.drop_drop, Nat.min_eq_left (by omega)]

section Lists

variable {data : List UInt8} {offset width : Nat}

theorem fieldAt_append_of_le (h : offset + width ≤ data.length) (rest : List UInt8) :
    fieldAt (data ++ rest) offset width = fieldAt data offset width := by
  have hroom : width ≤ (data.drop offset).length := by
    rw [List.length_drop]
    omega
  rw [fieldAt, fieldAt, List.drop_append_of_le_length (by omega),
    List.take_append_of_le_length hroom]

theorem wordAt_append_of_le (h : offset + 4 ≤ data.length) (rest : List UInt8) :
    wordAt (data ++ rest) offset = wordAt data offset :=
  congrArg UInt32.ofNat (fieldAt_append_of_le h rest)

theorem littleEndian_fieldAt (h : offset + width ≤ data.length) :
    littleEndian width (fieldAt data offset width) = (data.drop offset).take width := by
  have hlength : ((data.drop offset).take width).length = width := by
    rw [List.length_take, List.length_drop]
    omega
  have hbytes := littleEndian_ofLittleEndian ((data.drop offset).take width)
  rwa [hlength] at hbytes

theorem littleEndian_wordAt (h : offset + 4 ≤ data.length) :
    littleEndian 4 (wordAt data offset).toNat = (data.drop offset).take 4 := by
  rw [wordAt, UInt32.toNat_ofNat_of_lt' (fieldAt_lt data offset 4), littleEndian_fieldAt h]

theorem flatMap_take_drop (data : List UInt8) (width count : Nat) :
    ((List.range count).flatMap fun k => (data.drop (width * k)).take width) =
      data.take (width * count) := by
  induction count with
  | zero => rfl
  | succ count ih =>
    rw [List.range_succ, List.flatMap_append, ih, List.flatMap_singleton, Nat.mul_succ,
      List.take_add]

end Lists

namespace Preamble

theorem length_encode (p : Preamble) : p.encode.length = size := by
  simp [encode, length_littleEndian, p.guid.length_bytes, size]

theorem decode_encode (guid : Guid) :
    decode ({ guid := guid } : Preamble).encode = .ok { guid := guid } := by
  have hguid : Guid.ofBytes? ((({ guid := guid } : Preamble).encode.drop 16).take 16) =
      some guid := by
    have hdrop : ({ guid := guid } : Preamble).encode.drop 16 = guid.bytes := rfl
    rw [hdrop, ← guid.length_bytes, List.take_length, Guid.ofBytes?, dif_pos guid.length_bytes]
  have hmagic : fieldAt ({ guid := guid } : Preamble).encode 0 8 = magic.toNat := by
    simp only [encode, List.append_assoc]
    exact fieldAt_append_left 8 magic.toNat _ magic.toNat_lt
  have hmajor : wordAt ({ guid := guid } : Preamble).encode 8 = 50 := by
    simp only [encode, List.append_assoc]
    exact wordAt_append (littleEndian 8 magic.toNat) 50 _
  have hminor : wordAt ({ guid := guid } : Preamble).encode 12 = 0 := by
    simp only [encode]
    rw [List.append_assoc]
    exact wordAt_append (littleEndian 8 magic.toNat ++ littleEndian 4 (50 : UInt32).toNat) 0 _
  rw [decode, hguid, hmagic, hmajor, hminor, UInt64.ofNat_toNat]
  rfl

theorem decode_append {front : List UInt8} (h : size ≤ front.length) (rest : List UInt8) :
    decode (front ++ rest) = decode front := by
  change 32 ≤ front.length at h
  have hguid : ((front ++ rest).drop 16).take 16 = (front.drop 16).take 16 := by
    rw [List.drop_append_of_le_length (by omega),
      List.take_append_of_le_length (by rw [List.length_drop]; omega)]
  rw [decode, decode, hguid, fieldAt_append_of_le (by omega), wordAt_append_of_le (by omega),
    wordAt_append_of_le (by omega)]

/-- A preamble is read exactly from its written form, if it is of the supported version. -/
theorem decode_eq_ok_iff {data : List UInt8} {p : Preamble} :
    decode data = .ok p ↔ p.encode = data.take size ∧ p.major = 50 ∧ p.minor = 0 := by
  constructor
  · intro h
    rw [decode, Guid.ofBytes?] at h
    by_cases hlength : ((data.drop 16).take 16).length = 16
    · rw [dif_pos hlength] at h
      dsimp only at h
      split_ifs at h with hmagic hversion
      cases h
      rw [List.length_take, List.length_drop] at hlength
      have hfields : data.take size = data.take 8 ++ (data.drop 8).take 4 ++
          (data.drop 12).take 4 ++ (data.drop 16).take 16 := by
        rw [← List.take_add, ← List.take_add, ← List.take_add]
        rfl
      have hfirst : littleEndian 8 magic.toNat = data.take 8 := by
        rw [← not_not.1 hmagic, UInt64.toNat_ofNat_of_lt' (fieldAt_lt data 0 8),
          littleEndian_fieldAt (by omega), List.drop_zero]
      refine ⟨?_, not_or.1 hversion |>.imp not_not.1 not_not.1⟩
      rw [encode, hfirst, UInt32.toUInt32_toInt32, UInt32.toUInt32_toInt32,
        littleEndian_wordAt (by omega), littleEndian_wordAt (by omega), hfields]
    · rw [dif_neg hlength] at h
      cases h
  · rintro ⟨hencode, hmajor, hminor⟩
    have hp : p = { guid := p.guid } := by
      obtain ⟨major, minor, guid⟩ := p
      cases hmajor
      cases hminor
      rfl
    have hlong : size ≤ data.length := by
      have := congrArg List.length hencode
      rw [length_encode, List.length_take] at this
      omega
    rw [← List.take_append_drop size data, decode_append (by rw [List.length_take]; omega),
      ← hencode, hp]
    exact decode_encode p.guid

end Preamble

namespace Header

theorem length_encode (h : Header) : h.encode.length = size := by
  simp [encode, words, length_littleEndian, size]

theorem decode_encode (h : Header) : decode h.encode = .ok h := by
  have hword (k : Nat) (w : UInt32) (hw : h.words[k]? = some w) : wordAt h.encode (4 * k) = w :=
    wordAt_flatMap hw
  rw [decode, if_neg (by rw [length_encode]; exact Nat.lt_irrefl size), hword 0 _ rfl,
    hword 1 _ rfl, hword 2 _ rfl, hword 3 _ rfl, hword 4 _ rfl, hword 5 _ rfl, hword 6 _ rfl,
    hword 7 _ rfl, hword 8 _ rfl, hword 9 _ rfl, hword 10 _ rfl, hword 11 _ rfl, hword 12 _ rfl,
    hword 13 _ rfl, hword 14 _ rfl, hword 15 _ rfl, hword 16 _ rfl, hword 17 _ rfl,
    hword 18 _ rfl, hword 19 _ rfl]
  simp only [Int32.toInt32_toUInt32]

theorem decode_append {front : List UInt8} (h : size ≤ front.length) (rest : List UInt8) :
    decode (front ++ rest) = decode front := by
  change 80 ≤ front.length at h
  have hlong : ¬front.length < size := Nat.not_lt.2 h
  have hlonger : ¬(front ++ rest).length < size := by
    rw [List.length_append]
    omega
  rw [decode, decode, if_neg hlong, if_neg hlonger]
  simp (disch := omega) only [wordAt_append_of_le]

theorem words_of_decode {data : List UInt8} {h : Header} (hh : decode data = .ok h) :
    h.words = (List.range 20).map fun k => wordAt data (4 * k) := by
  rw [decode] at hh
  split_ifs at hh
  cases hh
  simp only [words, UInt32.toUInt32_toInt32]
  rfl

theorem exists_decode_iff {data : List UInt8} :
    (∃ h, decode data = .ok h) ↔ size ≤ data.length := by
  unfold decode
  by_cases hshort : data.length < size
  · rw [if_pos hshort]
    exact ⟨nofun, fun h => absurd hshort (Nat.not_lt.2 h)⟩
  · rw [if_neg hshort]
    exact ⟨fun _ => Nat.not_lt.1 hshort, fun _ => ⟨_, rfl⟩⟩

/-- A header is read exactly from its written form. -/
theorem decode_eq_ok_iff {data : List UInt8} {h : Header} :
    decode data = .ok h ↔ h.encode = data.take size := by
  constructor
  · intro hread
    have hlong : 80 ≤ data.length := exists_decode_iff.1 ⟨h, hread⟩
    calc
      h.encode = ((List.range 20).map fun k => wordAt data (4 * k)).flatMap
          fun w => littleEndian 4 w.toNat := by rw [encode, words_of_decode hread]
      _ = (List.range 20).flatMap fun k => (data.drop (4 * k)).take 4 := by
        rw [List.flatMap_map]
        refine List.flatMap_congr fun k hk => ?_
        exact littleEndian_wordAt (by have := List.mem_range.1 hk; omega)
      _ = data.take size := flatMap_take_drop data 4 20
  · intro hencode
    have hlong : size ≤ data.length := by
      have := congrArg List.length hencode
      rw [length_encode, List.length_take] at this
      omega
    rw [← List.take_append_drop size data, decode_append (by rw [List.length_take]; omega),
      ← hencode]
    exact decode_encode h

end Header

/-- Header and preamble are read exactly from their written forms, whatever stands behind these.
Any bytes are the written form of a header if there are enough of them; of the written forms of
preambles only those of the supported version are read. -/
theorem front_read_iff_written :
    (∀ (h : Header) (rest : List UInt8), Header.decode (h.encode ++ rest) = .ok h) ∧
    (∀ data h, Header.decode data = .ok h ↔ h.encode = data.take Header.size) ∧
    (∀ data, (∃ h, Header.decode data = .ok h) ↔ Header.size ≤ data.length) ∧
    (∀ (guid : Guid) (rest : List UInt8),
      Preamble.decode (({ guid := guid } : Preamble).encode ++ rest) = .ok ⟨50, 0, guid⟩) ∧
    ∀ data p, Preamble.decode data = .ok p ↔
      p.encode = data.take Preamble.size ∧ p.major = 50 ∧ p.minor = 0 := by
  refine ⟨fun h rest => ?_, fun data h => Header.decode_eq_ok_iff,
    fun data => Header.exists_decode_iff, fun guid rest => ?_,
    fun data p => Preamble.decode_eq_ok_iff⟩
  · rw [Header.decode_append (Nat.le_of_eq h.length_encode.symm), Header.decode_encode]
  · rw [Preamble.decode_append (Nat.le_of_eq (Preamble.length_encode _).symm),
      Preamble.decode_encode]

namespace LineParameters

theorem byte?_toInt32 (v : UInt8) : byte? v.toUInt32.toInt32 = some v := by
  have := v.toNat_lt
  rw [byte?, toInt_byte, if_pos (by omega), Int.toNat_natCast, UInt8.ofNat_toNat]

theorem make_self (p : LineParameters) : make p.lineBase p.lineRange p.opcodeBase = .ok p := by
  have := p.room
  rw [make, dif_neg p.lineRange_ne_zero, dif_neg (UInt8.not_lt.2 p.nine_le_opcodeBase),
    dif_neg (by omega)]

/-- The header records parameters so that they are accepted and come back. -/
theorem ofHeader_self (p : LineParameters) :
    ofHeader p.lineBase p.lineRange.toUInt32.toInt32 p.opcodeBase.toUInt32.toInt32 = .ok p := by
  rw [ofHeader, byte?_toInt32, byte?_toInt32]
  simp only [make_self]

end LineParameters

end DebugSymbols
