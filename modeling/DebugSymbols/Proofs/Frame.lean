import DebugSymbols.Proofs.Header
import DebugSymbols.SymbolFile

namespace DebugSymbols

/-- A condition, and the error where it does not hold. -/
structure Check where
  passes : Bool
  error : Error

namespace Check

/-- The error of the first check that fails. -/
def fault? (cs : List Check) : Option Error := (cs.find? fun c => !c.passes).map Check.error

theorem fault?_append (cs ds : List Check) : fault? (cs ++ ds) = (fault? cs).or (fault? ds) := by
  rw [fault?, List.find?_append]
  cases hfind : cs.find? fun c => !c.passes <;> simp [fault?, hfind]

theorem fault?_cons (c : Check) (cs : List Check) :
    fault? (c :: cs) = if c.passes then fault? cs else some c.error := by
  rw [fault?, List.find?_cons]
  cases c.passes <;> rfl

theorem fault?_eq_none_iff {cs : List Check} : fault? cs = none ↔ ∀ c ∈ cs, c.passes = true := by
  rw [fault?, Option.map_eq_none_iff, List.find?_eq_none]
  simp

def Guard (cs : List Check) (answer : Except Error α) : Prop :=
  ∀ e, answer = .error e ↔ fault? cs = some e

namespace Guard

variable {cs ds : List Check} {answer : Except Error α} {f : α → Except Error β}

theorem ok (a : α) : Guard [] (.ok a) := by
  intro e
  simp [fault?]

theorem cons {c : Bool} {e : Error} (h : c = true → Guard cs answer) :
    Guard (⟨c, e⟩ :: cs) (if c = true then answer else .error e) := by
  intro e'
  rw [fault?_cons]
  by_cases hc : c = true
  · rw [if_pos hc, if_pos hc]
    exact h hc e'
  · simp [hc]

theorem bind (h : Guard cs answer) (hf : ∀ a, answer = .ok a → Guard ds (f a)) :
    Guard (cs ++ ds) (answer >>= f) := by
  intro e
  rw [fault?_append]
  cases answer with
  | error e' =>
    have hfault := (h e').1 rfl
    rw [hfault, Option.some_or, Option.some.injEq]
    exact ⟨fun h => Except.error.inj h, fun h => congrArg Except.error h⟩
  | ok a =>
    have hnone : fault? cs = none := by
      refine Option.eq_none_iff_forall_ne_some.2 fun e' he' => ?_
      cases (h e').2 he'
    rw [hnone, Option.none_or]
    exact hf a rfl e

theorem ok_iff (h : Guard cs answer) : (∃ a, answer = .ok a) ↔ fault? cs = none := by
  rw [Option.eq_none_iff_forall_ne_some]
  constructor
  · rintro ⟨a, rfl⟩ e he
    cases (h e).2 he
  · intro hnone
    cases answer with
    | error e => exact absurd ((h e).1 rfl) (hnone e)
    | ok a => exact ⟨a, rfl⟩

end Guard

end Check

namespace LineParameters

/-- What is asked of the parameters in a header: they are bytes, the range is not zero, special
opcodes lie behind the standard ones, and there are enough of them. -/
def checks (lineRange opcodeBase : Int32) : List Check :=
  let range := UInt8.ofNat lineRange.toInt.toNat
  let base := UInt8.ofNat opcodeBase.toInt.toNat
  [⟨decide ((0 ≤ lineRange.toInt ∧ lineRange.toInt < 256) ∧
      0 ≤ opcodeBase.toInt ∧ opcodeBase.toInt < 256),
      .malformed (.parametersNotBytes lineRange opcodeBase)⟩,
    ⟨decide (lineRange.toInt ≠ 0), .malformed (.parametersRejected .rangeZero)⟩,
    ⟨decide (9 ≤ opcodeBase.toInt), .malformed (.parametersRejected (.overlapsStandard base))⟩,
    ⟨decide (opcodeBase.toInt + lineRange.toInt ≤ 255),
      .malformed (.parametersRejected (.noSpecialOpcodes base range))⟩]

theorem toNat_byte {v : Int32} (h : 0 ≤ v.toInt ∧ v.toInt < 256) :
    ((UInt8.ofNat v.toInt.toNat).toNat : Int) = v.toInt := by
  rw [UInt8.toNat_ofNat']
  omega

theorem guard_ofHeader (lineBase lineRange opcodeBase : Int32) :
    Check.Guard (checks lineRange opcodeBase) (ofHeader lineBase lineRange opcodeBase) := by
  intro e
  rw [ofHeader, checks]
  simp only [Check.fault?_cons, decide_eq_true_eq]
  by_cases hbytes : (0 ≤ lineRange.toInt ∧ lineRange.toInt < 256) ∧
      0 ≤ opcodeBase.toInt ∧ opcodeBase.toInt < 256
  · have hrange := toNat_byte hbytes.1
    have hbase := toNat_byte hbytes.2
    rw [byte?, byte?, if_pos hbytes.1, if_pos hbytes.2, if_pos hbytes]
    dsimp only
    generalize UInt8.ofNat lineRange.toInt.toNat = range at hrange ⊢
    generalize UInt8.ofNat opcodeBase.toInt.toNat = base at hbase ⊢
    have hzero : range = 0 ↔ lineRange.toInt = 0 := by
      rw [← UInt8.toNat_inj, ← hrange]
      exact Int.natCast_eq_zero.symm
    have hnine : base < 9 ↔ ¬9 ≤ opcodeBase.toInt := by
      rw [UInt8.lt_iff_toNat_lt, ← hbase, show (9 : UInt8).toNat = 9 from rfl]
      omega
    have hroom : 255 < base.toNat + range.toNat ↔
        ¬opcodeBase.toInt + lineRange.toInt ≤ 255 := by omega
    unfold make
    by_cases h0 : range = 0
    · simp [h0, hzero.1 h0]
    by_cases h9 : base < 9
    · simp [h0, h9, mt hzero.2 h0, hnine.1 h9]
    by_cases h255 : 255 < base.toNat + range.toNat
    · simp [h0, h9, h255, mt hzero.2 h0, not_not.1 (mt hnine.2 h9), hroom.1 h255]
    · simp [h0, h9, h255, mt hzero.2 h0, not_not.1 (mt hnine.2 h9), not_not.1 (mt hroom.2 h255),
        Check.fault?]
  · have hnone : byte? lineRange = none ∨ byte? opcodeBase = none := by
      rcases not_and_or.1 hbytes with h | h
      · exact .inl (if_neg h)
      · exact .inr (if_neg h)
    rw [if_neg hbytes, Option.some.injEq]
    rcases hnone with h | h
    · rw [h]
      exact ⟨Except.error.inj, congrArg Except.error⟩
    · rw [h]
      cases byte? lineRange <;> exact ⟨Except.error.inj, congrArg Except.error⟩

end LineParameters

/-- The signed word at an offset of a stream. -/
def intAt (data : Bytes) (offset : Nat) : Int32 := (wordAt data.toList offset).toInt32

theorem wordAt_eq_iff {data : Bytes} {offset : Nat} (h : offset + 4 ≤ data.size) {v : UInt32} :
    wordAt data.toList offset = v ↔ LiesAt data offset (littleEndian 4 v.toNat) := by
  rw [← fieldAt_eq_iff h v.toNat_lt, wordAt, ← UInt32.toNat_inj,
    UInt32.toNat_ofNat_of_lt' (fieldAt_lt _ _ 4)]

theorem intAt_eq_iff {data : Bytes} {offset : Nat} (h : offset + 4 ≤ data.size) {v : Int32} :
    intAt data offset = v ↔ LiesAt data offset (littleEndian 4 v.toUInt32.toNat) := by
  rw [← wordAt_eq_iff h, intAt]
  exact ⟨fun h => h ▸ (UInt32.toUInt32_toInt32 _).symm, fun h => h ▸ Int32.toInt32_toUInt32 _⟩

namespace Preamble

def checks (data : Bytes) : List Check :=
  let found := UInt64.ofNat (fieldAt data.toList 0 8)
  [⟨decide (found = magic), .malformed (.wrongMagic found)⟩,
    ⟨decide (intAt data 8 = 50 ∧ intAt data 12 = 0),
      .unsupportedVersion (intAt data 8) (intAt data 12)⟩]

theorem wordAt_extract {data : Bytes} {start stop offset : Nat}
    (h : start + offset + 4 ≤ stop) :
    wordAt (data.extract start stop).toList offset = wordAt data.toList (start + offset) :=
  congrArg UInt32.ofNat (fieldAt_extract h)

theorem ofBytes?_extract {data : Bytes} (h : size ≤ data.size) :
    ∃ guid, Guid.ofBytes? (((data.extract 0 size).toList.drop 16).take 16) = some guid ∧
      LiesAt data 16 guid.bytes := by
  have hbytes : ((data.extract 0 size).toList.drop 16).take 16 =
      (data.extract 16 size).toList := by
    rw [Array.toList_extract, Array.toList_extract, List.extract_eq_take_drop,
      List.extract_eq_take_drop, List.drop_zero, List.drop_take, List.take_take]
    rfl
  have hlength : (data.extract 16 size).toList.length = 16 := by
    rw [Array.length_toList, Array.size_extract, Nat.min_eq_left h]
    rfl
  rw [hbytes, Guid.ofBytes?, dif_pos hlength]
  exact ⟨_, rfl, .extract data 16 size⟩

theorem guard_decode {data : Bytes} (h : size ≤ data.size) :
    Check.Guard (checks data) (decode (data.extract 0 size).toList) := by
  obtain ⟨guid, hguid, -⟩ := ofBytes?_extract h
  intro e
  rw [decode, hguid, fieldAt_extract (by decide), wordAt_extract (by decide),
    wordAt_extract (by decide), Nat.zero_add, Nat.zero_add, Nat.zero_add, checks]
  simp only [Check.fault?_cons, decide_eq_true_eq, intAt]
  by_cases hmagic : UInt64.ofNat (fieldAt data.toList 0 8) = magic
  · by_cases hversion : (wordAt data.toList 8).toInt32 = 50 ∧ (wordAt data.toList 12).toInt32 = 0
    · simp [hmagic, hversion, Check.fault?]
    · simp [hmagic, hversion, ← not_and_or]
  · simp [hmagic]

theorem guid_of_decode {data : Bytes} {p : Preamble} (h : size ≤ data.size)
    (hp : decode (data.extract 0 size).toList = .ok p) : LiesAt data 16 p.guid.bytes := by
  obtain ⟨guid, hguid, hlies⟩ := ofBytes?_extract h
  rw [decode, hguid] at hp
  dsimp only at hp
  split_ifs at hp
  cases hp
  exact hlies

end Preamble

namespace Header

theorem decode_extract {data : Bytes} (h : 112 ≤ data.size) :
    ∃ header, decode (data.extract 32 112).toList = .ok header ∧
      header.totalFileSize = wordAt data.toList 32 ∧
      header.lineRange = intAt data 100 ∧ header.opcodeBase = intAt data 104 := by
  have hlength : ¬(data.extract 32 112).toList.length < size := by
    rw [Array.length_toList, Array.size_extract, Nat.min_eq_left h]
    decide
  refine ⟨_, if_neg hlength, ?_, ?_, ?_⟩
  · exact Preamble.wordAt_extract (by decide)
  · exact congrArg UInt32.toInt32 (Preamble.wordAt_extract (by decide))
  · exact congrArg UInt32.toInt32 (Preamble.wordAt_extract (by decide))

end Header

namespace Reader

theorem guard_bytes (count : Nat) (data : Bytes) (p : Nat) (hp : p ≤ data.size) :
    Check.Guard [⟨decide (p + count ≤ data.size), .outOfBounds⟩]
      ((Reader.bytes count).eval data p) := by
  have hiff : count ≤ data.size - p ↔ p + count ≤ data.size := by omega
  intro e
  rw [Reader.eval, Reader.bytes, Check.fault?_cons]
  simp only [hiff, decide_eq_true_eq]
  split
  · simp [Check.fault?]
  · simp

theorem eval_bytes_eq_ok {count p : Nat} {data : Bytes} {bs : List UInt8} :
    (Reader.bytes count).eval data p = .ok bs ↔
      count ≤ data.size - p ∧ bs = (data.extract p (p + count)).toList := by
  rw [Reader.eval, Reader.bytes]
  by_cases h : count ≤ data.size - p
  · simp [h, eq_comm]
  · simp [h]

end Reader

namespace SymbolFile

/-- What is asked of a stream that is opened, in this order: room for a preamble, the preamble, room
for a header, the line parameters, and the size. -/
def frameChecks (data : Bytes) : List Check :=
  let total := wordAt data.toList 32
  [⟨decide (32 ≤ data.size), .outOfBounds⟩] ++ (Preamble.checks data ++
    ([⟨decide (112 ≤ data.size), .outOfBounds⟩] ++
      (LineParameters.checks (intAt data 100) (intAt data 104) ++
        [⟨decide (total.toNat ≤ data.size), .malformed (.sizeBeyondStream total data.size)⟩])))

/-- A stream with the frame of a symbol file. -/
structure WellFramed (data : Bytes) : Prop where
  front : 112 ≤ data.size
  magic : LiesAt data 0 (littleEndian 8 Preamble.magic.toNat)
  version : LiesAt data 8 (littleEndian 4 50 ++ littleEndian 4 0)
  lineRange : 1 ≤ (intAt data 100).toInt ∧ (intAt data 100).toInt ≤ 255
  opcodeBase : 9 ≤ (intAt data 104).toInt ∧ (intAt data 104).toInt ≤ 255
  room : (intAt data 100).toInt + (intAt data 104).toInt ≤ 255
  total : (wordAt data.toList 32).toNat ≤ data.size

theorem guard_open? (data : Bytes) : Check.Guard (frameChecks data) (open? data) := by
  refine (Reader.guard_bytes Preamble.size data 0 (Nat.zero_le _)).bind fun front hfront => ?_
  obtain ⟨h32, rfl⟩ := Reader.eval_bytes_eq_ok.1 hfront
  refine (Preamble.guard_decode h32).bind fun preamble _ => ?_
  refine (Reader.guard_bytes Header.size data Preamble.size h32).bind fun rest hrest => ?_
  obtain ⟨h80, rfl⟩ := Reader.eval_bytes_eq_ok.1 hrest
  have h112 : 112 ≤ data.size := by
    change 32 ≤ data.size at h32
    change 80 ≤ data.size - 32 at h80
    omega
  obtain ⟨header, hheader, htotal, hrange, hbase⟩ := Header.decode_extract h112
  change Check.Guard _ (Header.decode (data.extract 32 112).toList >>= _)
  rw [hheader, ok_bind, ← hrange, ← hbase, ← htotal]
  refine (LineParameters.guard_ofHeader _ _ _).bind fun parameters _ => ?_
  intro e
  simp only [Check.fault?_cons, decide_eq_true_eq]
  by_cases hsize : header.totalFileSize.toNat ≤ data.size
  · rw [if_neg (Nat.not_lt.2 hsize), if_pos hsize]
    exact Check.Guard.ok _ e
  · rw [if_pos (Nat.not_le.1 hsize), if_neg hsize]
    exact ⟨fun h => congrArg some (Except.error.inj h), fun h => congrArg _ (Option.some.inj h)⟩

theorem magic_iff {data : Bytes} (h : 8 ≤ data.size) :
    UInt64.ofNat (fieldAt data.toList 0 8) = Preamble.magic ↔
      LiesAt data 0 (littleEndian 8 Preamble.magic.toNat) := by
  rw [← fieldAt_eq_iff (by omega) Preamble.magic.toNat_lt, ← UInt64.toNat_inj,
    UInt64.toNat_ofNat_of_lt' (fieldAt_lt _ _ 8)]

theorem version_iff {data : Bytes} (h : 16 ≤ data.size) :
    intAt data 8 = 50 ∧ intAt data 12 = 0 ↔
      LiesAt data 8 (littleEndian 4 50 ++ littleEndian 4 0) := by
  rw [intAt_eq_iff (by omega), intAt_eq_iff (by omega), LiesAt.append_iff, length_littleEndian]
  exact Iff.rfl

/-- All checks pass exactly on a well-framed stream. -/
theorem fault?_frameChecks_eq_none_iff {data : Bytes} :
    Check.fault? (frameChecks data) = none ↔ WellFramed data := by
  rw [Check.fault?_eq_none_iff]
  simp only [frameChecks, Preamble.checks, LineParameters.checks, List.cons_append,
    List.nil_append, List.forall_mem_cons, decide_eq_true_eq]
  constructor
  · rintro ⟨-, hmagic, hversion, h112, hbytes, hrange, hbase, hroom, htotal, -⟩
    exact ⟨h112, (magic_iff (by omega)).1 hmagic, (version_iff (by omega)).1 hversion, by omega,
      by omega, by omega, htotal⟩
  · rintro ⟨h112, hmagic, hversion, hrange, hbase, hroom, htotal⟩
    exact ⟨by omega, (magic_iff (by omega)).2 hmagic, (version_iff (by omega)).2 hversion, h112,
      by omega, by omega, by omega, by omega, htotal, List.forall_mem_nil _⟩

theorem wellFramed_iff {data : Bytes} : (∃ f, open? data = .ok f) ↔ WellFramed data :=
  (guard_open? data).ok_iff.trans fault?_frameChecks_eq_none_iff

theorem guid_of_open? {data : Bytes} {f : SymbolFile} (h : open? data = .ok f) :
    LiesAt data 16 f.preamble.guid.bytes := by
  obtain ⟨front, hfront, h⟩ := bind_ok_iff.1 h
  obtain ⟨h32, rfl⟩ := Reader.eval_bytes_eq_ok.1 hfront
  obtain ⟨preamble, hpreamble, h⟩ := bind_ok_iff.1 h
  obtain ⟨rest, -, h⟩ := bind_ok_iff.1 h
  obtain ⟨header, -, h⟩ := bind_ok_iff.1 h
  obtain ⟨parameters, -, h⟩ := bind_ok_iff.1 h
  split_ifs at h
  cases h
  exact Preamble.guid_of_decode h32 hpreamble

theorem totalFileSize_of_open? {data : Bytes} {f : SymbolFile} (h : open? data = .ok f) :
    f.header.totalFileSize = wordAt data.toList 32 := by
  have h112 := (wellFramed_iff.1 ⟨f, h⟩).front
  obtain ⟨front, -, h⟩ := bind_ok_iff.1 h
  obtain ⟨preamble, -, h⟩ := bind_ok_iff.1 h
  obtain ⟨rest, hrest, h⟩ := bind_ok_iff.1 h
  obtain ⟨-, rfl⟩ := Reader.eval_bytes_eq_ok.1 hrest
  obtain ⟨header, hheader, h⟩ := bind_ok_iff.1 h
  obtain ⟨parameters, -, h⟩ := bind_ok_iff.1 h
  split_ifs at h
  cases h
  obtain ⟨found, hfound, htotal, -⟩ := Header.decode_extract h112
  cases hfound.symm.trans hheader
  exact htotal

theorem fault?_extract {data : Bytes} (h : WellFramed data) {n : Nat} (hn : n ≤ data.size)
    (hcut : n < (wordAt data.toList 32).toNat) :
    Check.fault? (frameChecks (data.extract 0 n)) = some (if n < 112 then .outOfBounds else
      .malformed (.sizeBeyondStream (wordAt data.toList 32) n)) := by
  have hsize : (data.extract 0 n).size = n := by
    rw [Array.size_extract, Nat.min_eq_left hn, Nat.sub_zero]
  have hfield {offset width : Nat} (hle : offset + width ≤ n) :
      fieldAt (data.extract 0 n).toList offset width = fieldAt data.toList offset width := by
    rw [fieldAt_extract (by omega), Nat.zero_add]
  have hword {offset : Nat} (hle : offset + 4 ≤ n) :
      wordAt (data.extract 0 n).toList offset = wordAt data.toList offset :=
    congrArg UInt32.ofNat (hfield hle)
  have hint {offset : Nat} (hle : offset + 4 ≤ n) :
      intAt (data.extract 0 n) offset = intAt data offset := congrArg UInt32.toInt32 (hword hle)
  -- The checks that pass on the whole stream pass on what is left of it.
  have hnone := fault?_frameChecks_eq_none_iff.2 h
  simp only [frameChecks, Check.fault?_append, Option.or_eq_none_iff] at hnone
  obtain ⟨-, hpreamble, -, hparameters, -⟩ := hnone
  have hpreamble' (h16 : 16 ≤ n) : Preamble.checks (data.extract 0 n) = Preamble.checks data := by
    simp only [Preamble.checks]
    rw [hfield (by omega), hint (by omega), hint (by omega)]
  rw [frameChecks, hsize]
  simp only [Check.fault?_append, Check.fault?_cons, decide_eq_true_eq]
  by_cases h32 : 32 ≤ n
  · rw [if_pos h32, hpreamble' (by omega), hpreamble]
    by_cases h112 : 112 ≤ n
    · rw [if_pos h112, hint (by omega), hint (by omega), hparameters, hword (by omega),
        if_neg (Nat.not_le.2 hcut), if_neg (Nat.not_lt.2 h112)]
      rfl
    · rw [if_neg h112, if_pos (Nat.not_le.1 h112)]
      rfl
  · have h112 : n < 112 := by omega
    rw [if_neg h32, if_pos h112]
    rfl

/-- The room that is left for a header reads as parameters of zero. -/
theorem intAt_of_room {data : Bytes}
    (h : LiesAt data Preamble.size (List.replicate Header.size 0)) :
    112 ≤ data.size ∧ intAt data 100 = 0 ∧ intAt data 104 = 0 := by
  have hlength : 80 ≤ data.size - 32 := h.length_le
  have hsplit : List.replicate Header.size (0 : UInt8) = List.replicate 68 0 ++
      (littleEndian 4 (0 : Int32).toUInt32.toNat ++
        (littleEndian 4 (0 : Int32).toUInt32.toNat ++ List.replicate 4 0)) := by decide
  rw [hsplit] at h
  obtain ⟨hrange, hrest⟩ := LiesAt.append_iff.1 (LiesAt.append_iff.1 h).2
  have hbase := (LiesAt.append_iff.1 hrest).1
  exact ⟨by omega, (intAt_eq_iff (by omega)).2 hrange, (intAt_eq_iff (by omega)).2 hbase⟩

theorem not_wellFramed_of_room {data : Bytes}
    (h : LiesAt data Preamble.size (List.replicate Header.size 0)) : ¬WellFramed data := by
  intro hframed
  have hone := hframed.lineRange.1
  rw [(intAt_of_room h).2.1] at hone
  exact absurd hone (by decide)

/-- A file whose header is still to be written states a line range of zero. -/
theorem fault?_of_room {data : Bytes} {guid : Guid} (h : LiesAt data 0
      (({ guid := guid } : Preamble).encode ++ List.replicate Header.size 0)) :
    Check.fault? (frameChecks data) = some (.malformed (.parametersRejected .rangeZero)) := by
  obtain ⟨hpreamble, hroom⟩ := LiesAt.append_iff.1 h
  rw [Preamble.length_encode, Nat.zero_add] at hroom
  obtain ⟨h112, hrange, hbase⟩ := intAt_of_room hroom
  rw [Preamble.encode, List.append_assoc, List.append_assoc, LiesAt.append_iff] at hpreamble
  obtain ⟨hmagic, hrest⟩ := hpreamble
  rw [← List.append_assoc] at hrest
  have hmagic' := (magic_iff (by omega)).2 hmagic
  have hversion := (version_iff (by omega)).2 (LiesAt.append_iff.1 hrest).1
  have hpassed : Check.fault? (Preamble.checks data) = none := by
    rw [Check.fault?_eq_none_iff]
    simp only [Preamble.checks, List.forall_mem_cons, decide_eq_true_eq]
    exact ⟨hmagic', hversion, List.forall_mem_nil _⟩
  have hrefused : Check.fault? (LineParameters.checks 0 0) =
      some (.malformed (.parametersRejected .rangeZero)) := by decide
  rw [frameChecks, hrange, hbase]
  simp only [Check.fault?_append, Check.fault?_cons, decide_eq_true_eq]
  rw [if_pos (by omega), if_pos h112, hpassed, hrefused]
  rfl

end SymbolFile

end DebugSymbols
