import DebugSymbols.Proofs.Bytes.Groups
import DebugSymbols.Proofs.LineProgram.Trace

namespace DebugSymbols

namespace Instruction

inductive Operands : UInt8 → List UInt8 → Instruction → Prop
  | setSource {bytes : List UInt8} {n : Nat} (file : Varint.Form 4 bytes n) :
    Operands 0x04 bytes (.setSource (UInt32.ofNat n))
  | toggleHidden : Operands 0x40 [] .toggleHidden
  | reserved {opcode : UInt8} (range : 0x41 ≤ opcode ∧ opcode ≤ 0x7F) :
    Operands opcode [] (.reserved opcode)

/-- The bytes of a complete instruction, other than the end of the sequence. -/
inductive Form (p : LineParameters) : List UInt8 → Instruction → Prop
  | copy : Form p [1] .copy
  | advanceOffset {bytes : List UInt8} {n : Nat} (delta : Varint.Form 4 bytes n) :
    Form p (2 :: bytes) (.advanceOffset (UInt32.ofNat n))
  | advanceRow {bytes : List UInt8} {n : Nat} (delta : Varint.Form 4 bytes n) :
    Form p (3 :: bytes) (.advanceRow (UInt32.ofNat n).toInt32)
  | setFile {bytes : List UInt8} {n : Nat} (file : Varint.Form 4 bytes n) :
    Form p (4 :: bytes) (.setFile (UInt32.ofNat n))
  | advanceMax : Form p [8] .advanceMax
  | special {opcode : UInt8} (base : p.opcodeBase ≤ opcode) : Form p [opcode] (.special opcode)
  | extended {length opcode : UInt8} {operands padding : List UInt8} {i : Instruction}
    (operation : Operands opcode operands i)
    (covers : length.toNat = 1 + operands.length + padding.length) :
    Form p (0 :: length :: opcode :: (operands ++ padding)) i

variable {p : LineParameters} {bytes operands padding : List UInt8} {opcode length : UInt8}
  {i : Instruction}

theorem Operands.ne_endSequence (h : Operands opcode operands i) : i ≠ .endSequence := by
  cases h <;> exact nofun

theorem Form.ne_endSequence (h : Form p bytes i) : i ≠ .endSequence := by
  cases h with
  | extended operation => exact operation.ne_endSequence
  | _ => exact nofun

theorem reads_number {n : Nat} (h : Varint.Form 4 bytes n) :
    Reader.Reads Reader.varint bytes (UInt32.ofNat n) := h.reads.map UInt32.ofNat

theorem Operands.reads (h : Operands opcode operands i) :
    Reader.Reads (readExtendedOperands opcode) operands i := by
  cases h with
  | setSource file => exact (reads_number file).map _
  | toggleHidden => exact .pure _
  | reserved range =>
    rw [readExtendedOperands, if_neg (ne_of_reserved range (by decide)),
      if_neg (ne_of_reserved range (by decide)), if_neg (ne_of_reserved range (by decide)),
      if_pos range]
    exact .pure _

theorem readExtended_apply (data : Bytes) (start : Nat) :
    readExtended data start =
      match (do
          let length ← Reader.u8
          let opcode ← Reader.u8
          let i ← readExtendedOperands opcode
          pure (length, i) : Reader (UInt8 × Instruction)) data start with
      | (.ok (length, i), m) =>
        (.ok i, if i = .endSequence then m else start + 1 + length.toNat)
      | (.error e, m) => (.error e, m) := by
  rw [readExtended, Reader.bind_apply, Reader.bind_apply]
  rcases hlength : Reader.u8 data start with ⟨e | length, m⟩
  · rfl
  obtain ⟨-, rfl⟩ := Reader.u8_end hlength
  dsimp only
  rw [Reader.bind_apply, Reader.bind_apply]
  dsimp only [Reader.position]
  rw [Reader.bind_apply]
  rcases Reader.u8 data (start + 1) with ⟨e | opcode, m⟩
  · rfl
  dsimp only
  rw [readOperands_apply, Reader.bind_apply]
  rcases readExtendedOperands opcode data m with ⟨e | i, m⟩ <;> rfl

theorem Operands.reads_extended (h : Operands opcode operands i)
    (covers : length.toNat = 1 + operands.length + padding.length) :
    Reader.Reads readExtended (length :: opcode :: (operands ++ padding)) i := by
  intro data start hlies
  obtain ⟨hlength, hlies⟩ := LiesAt.cons_iff.1 hlies
  obtain ⟨hopcode, hlies⟩ := LiesAt.cons_iff.1 hlies
  rw [readExtended_apply, Reader.bind_apply, Reader.u8_eq_ok.2 ⟨hlength, rfl⟩]
  dsimp only
  rw [Reader.bind_apply, Reader.u8_eq_ok.2 ⟨hopcode, rfl⟩]
  dsimp only
  rw [Reader.bind_apply, h.reads data _ (LiesAt.append_iff.1 hlies).1]
  simp only [Reader.pure_apply, h.ne_endSequence, if_false, List.length_cons, List.length_append]
  congr 1
  omega

theorem Form.reads (h : Form p bytes i) : Reader.Reads (read p) bytes i := by
  cases h with
  | copy => exact reads_standard (by decide) (by decide) (.pure _)
  | advanceOffset delta => exact reads_standard (by decide) (by decide) ((reads_number delta).map _)
  | advanceRow delta =>
    exact reads_standard (by decide) (by decide) (((reads_number delta).map _).map _)
  | setFile file => exact reads_standard (by decide) (by decide) ((reads_number file).map _)
  | advanceMax => exact reads_standard (by decide) (by decide) (.pure _)
  | special base => exact reads_special base
  | extended operation covers => exact reads_first (operation.reads_extended covers)

theorem exists_number {data : Bytes} {start q : Nat} {v : UInt32}
    (h : Reader.varint data start = (.ok v, q)) :
    ∃ bytes n, Varint.Form 4 bytes n ∧ UInt32.ofNat n = v ∧ LiesAt data start bytes ∧
      q = start + bytes.length := by
  obtain ⟨n, hn, hv⟩ := Reader.map_eq_ok.1 h
  obtain ⟨bytes, hform, hlies, hq⟩ := Varint.exists_form hn
  exact ⟨bytes, n, hform, hv, hlies, hq⟩

theorem exists_operands {data : Bytes} {start q : Nat}
    (h : readExtendedOperands opcode data start = (.ok i, q)) (hi : i ≠ .endSequence) :
    ∃ operands, Operands opcode operands i ∧ LiesAt data start operands ∧
      q = start + operands.length := by
  have hnil : LiesAt data start [] := List.nil_prefix
  unfold readExtendedOperands at h
  split_ifs at h with hend hopcode hopcode hrange
  · cases h
    exact absurd rfl hi
  · obtain ⟨file, hfile, rfl⟩ := Reader.map_eq_ok.1 h
    obtain ⟨bytes, n, hform, rfl, hlies, hq⟩ := exists_number hfile
    exact ⟨bytes, hopcode ▸ .setSource hform, hlies, hq⟩
  · cases h
    exact ⟨[], hopcode ▸ .toggleHidden, hnil, rfl⟩
  · cases h
    exact ⟨[], .reserved hrange, hnil, rfl⟩
  · exact absurd h Reader.fail_ne_ok

theorem exists_form_standard {data : Bytes} {start q : Nat} (hbyte : data[start]? = some opcode)
    (h : readStandard opcode data (start + 1) = (.ok i, q)) :
    ∃ bytes, Form p bytes i ∧ LiesAt data start bytes ∧ q = start + bytes.length := by
  have single : LiesAt data start [opcode] := LiesAt.singleton_iff.2 hbyte
  -- The number behind the opcode, for the instructions that have one.
  have number {v : UInt32} {m : Nat} (hv : Reader.varint data (start + 1) = (.ok v, m)) :
      ∃ bytes n, Varint.Form 4 bytes n ∧ UInt32.ofNat n = v ∧
        LiesAt data start (opcode :: bytes) ∧ m = start + (opcode :: bytes).length := by
    obtain ⟨bytes, n, hform, hn, hlies, rfl⟩ := exists_number hv
    refine ⟨bytes, n, hform, hn, LiesAt.cons_iff.2 ⟨hbyte, hlies⟩, ?_⟩
    rw [List.length_cons, Nat.add_assoc, Nat.add_comm 1]
  unfold readStandard at h
  split_ifs at h with hopcode hopcode hopcode hopcode hopcode
  · cases h
    exact ⟨[opcode], hopcode ▸ .copy, single, rfl⟩
  · obtain ⟨delta, hdelta, rfl⟩ := Reader.map_eq_ok.1 h
    obtain ⟨bytes, n, hform, rfl, hlies, hq⟩ := number hdelta
    exact ⟨opcode :: bytes, hopcode ▸ .advanceOffset hform, hlies, hq⟩
  · obtain ⟨delta, hdelta, rfl⟩ := Reader.map_eq_ok.1 h
    obtain ⟨v, hv, rfl⟩ := Reader.map_eq_ok.1 hdelta
    obtain ⟨bytes, n, hform, rfl, hlies, hq⟩ := number hv
    exact ⟨opcode :: bytes, hopcode ▸ .advanceRow hform, hlies, hq⟩
  · obtain ⟨file, hfile, rfl⟩ := Reader.map_eq_ok.1 h
    obtain ⟨bytes, n, hform, rfl, hlies, hq⟩ := number hfile
    exact ⟨opcode :: bytes, hopcode ▸ .setFile hform, hlies, hq⟩
  · cases h
    exact ⟨[opcode], hopcode ▸ .advanceMax, single, rfl⟩
  · exact absurd h Reader.fail_ne_ok

/-- Every instruction that was executed has a form, if its declared length covers its operands and
does not lead out of the stream. -/
theorem exists_form_of_readExecuted {data : Bytes} {start q : Nat} {x : Executed}
    (h : readExecuted p data start = (.ok x, q)) (hcovered : x.Covered)
    (hnext : x.next ≤ data.size) (hne : x.instruction ≠ .endSequence) :
    ∃ bytes, Form p bytes x.instruction ∧ LiesAt data start bytes ∧
      x.next = start + bytes.length := by
  rw [Executed.covered_iff hne] at hcovered
  obtain ⟨s, m, hs, h⟩ := Reader.bind_eq_ok.1 h
  cases hs
  obtain ⟨opcode, m, hread, h⟩ := Reader.bind_eq_ok.1 h
  obtain ⟨hopcode, rfl⟩ := Reader.u8_eq_ok.1 hread
  by_cases hzero : opcode = 0
  · rw [if_pos hzero] at h
    rw [hzero] at hopcode
    obtain ⟨length, m, hread, h⟩ := Reader.bind_eq_ok.1 h
    obtain ⟨hlength, rfl⟩ := Reader.u8_eq_ok.1 hread
    obtain ⟨h, hx⟩ := noting_eq_ok.1 h
    obtain ⟨extension, m, hread, h⟩ := Reader.bind_eq_ok.1 h
    obtain ⟨hextension, rfl⟩ := Reader.u8_eq_ok.1 hread
    obtain ⟨operands, hoperands, hlies, rfl⟩ := exists_operands h hne
    have hend : x.next = start + 2 + length.toNat := by
      rw [hx]
      exact if_neg hne
    have hstop : x.stop = start + 1 + 1 + 1 + operands.length := by rw [hx]
    -- What the length covers behind the operands is padding.
    let padding := (data.extract x.stop x.next).toList
    have hpadding : padding.length = x.next - x.stop := by
      rw [Array.length_toList, Array.size_extract, Nat.min_eq_left hnext]
    refine ⟨0 :: length :: extension :: (operands ++ padding), .extended hoperands (by omega),
      ?_, ?_⟩
    · rw [LiesAt.cons_iff, LiesAt.cons_iff, LiesAt.cons_iff, LiesAt.append_iff, ← hstop]
      exact ⟨hopcode, hlength, hextension, hlies, .extract data x.stop x.next⟩
    · simp only [List.length_cons, List.length_append]
      omega
  · rw [if_neg hzero] at h
    obtain ⟨h, hx⟩ := noting_eq_ok.1 h
    have hend : x.next = q := by rw [hx]; rfl
    rw [hend]
    split_ifs at h with hbase
    · exact exists_form_standard hopcode h
    · simp only [Reader.pure_apply, Prod.mk.injEq, Except.ok.injEq] at h
      obtain ⟨hspecial, rfl⟩ := h
      exact ⟨[opcode], hspecial ▸ .special (UInt8.not_lt.1 hbase),
        LiesAt.singleton_iff.2 hopcode, rfl⟩

end Instruction

end DebugSymbols
