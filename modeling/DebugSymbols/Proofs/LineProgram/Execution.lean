import DebugSymbols.LineProgram.Decode
import DebugSymbols.Proofs.Build
import DebugSymbols.Proofs.Bytes.Values

namespace DebugSymbols

/-- The registers after an instruction, where all sums wrap. -/
def Registers.next (p : LineParameters) (r : Registers) : Instruction → Registers
  | .advanceOffset delta => { r with offset := r.offset + delta }
  | .advanceRow delta => { r with row := r.row + delta }
  | .setFile file | .setSource file => { r with file := file }
  | .advanceMax => { r with offset := r.offset + p.maxIncrement }
  | .toggleHidden => { r with hidden := !r.hidden }
  | .special opcode =>
    let place := opcode - p.opcodeBase
    { r with
      offset := r.offset + (place / p.lineRange).toUInt32
      row := r.row + (p.lineBase + (place % p.lineRange).toUInt32.toInt32) }
  | .copy | .reserved _ | .endSequence => r

theorem Registers.step_eq (p : LineParameters) (r : Registers) (i : Instruction) :
    r.step p i = .ok (r.next p i) := by
  cases i with
  | special opcode =>
    have hplace : UInt8.ofInt (opcode.toNat - p.opcodeBase.toNat) = opcode - p.opcodeBase := by
      have := opcode.toNat_lt
      have := p.opcodeBase.toNat_lt
      rw [← UInt8.toNat_inj, UInt8.toNat_sub, UInt8.ofInt, UInt8.toNat_ofNat']
      omega
    have hrow (place : UInt8) : Int32.ofInt (p.lineBase.toInt + place.toNat) =
        p.lineBase + place.toUInt32.toInt32 := by
      rw [← toInt_byte, Int32.ofInt_add, Int32.ofInt_toInt, Int32.ofInt_toInt]
    rw [next, ← hplace, ← hrow]
    rfl
  | _ => rfl

namespace Instruction

/-- The instructions whose bytes are read back as themselves. -/
def WellFormed (p : LineParameters) : Instruction → Prop
  | special opcode => p.opcodeBase ≤ opcode
  | reserved opcode => 0x41 ≤ opcode ∧ opcode ≤ 0x7F
  | _ => True

/-- An extended instruction whose operands fill its declared length. -/
theorem reads_extended {opcode : UInt8} {operands : List UInt8} {i : Instruction}
    (hlen : operands.length < 255)
    (h : ∀ data p, LiesAt data p operands →
      readOperands (p + operands.length) opcode data p = (.ok i, p + operands.length)) :
    Reader.Reads readExtended (UInt8.ofNat (operands.length + 1) :: opcode :: operands) i := by
  intro data p hp
  obtain ⟨hlength, hp⟩ := LiesAt.append_iff.1
    (show LiesAt data p ([UInt8.ofNat (operands.length + 1)] ++ ([opcode] ++ operands)) from hp)
  obtain ⟨hopcode, hp⟩ := LiesAt.append_iff.1 hp
  have hn : (UInt8.ofNat (operands.length + 1)).toNat = operands.length + 1 := by
    rw [UInt8.toNat_ofNat']
    omega
  unfold readExtended
  rw [Reader.bind_apply, Reader.Reads.u8 _ data p hlength]
  dsimp only
  rw [Reader.bind_apply]
  dsimp only [Reader.position]
  rw [Reader.bind_apply, Reader.Reads.u8 _ data _ hopcode]
  -- The operands end where the declared length says.
  have := h data _ hp
  simp only [List.length_cons, List.length_nil, Nat.zero_add] at this ⊢
  rw [hn, show p + 1 + (operands.length + 1) = p + 1 + 1 + operands.length by omega, this]
  congr 1
  omega

variable {p : LineParameters} {opcode : UInt8} {rest : List UInt8} {i : Instruction}

/-- The first byte tells the three forms of instructions apart. -/
theorem reads_first (h : Reader.Reads
    (if opcode = 0 then readExtended
      else if opcode < p.opcodeBase then readStandard opcode
      else pure (special opcode)) rest i) : Reader.Reads (read p) (opcode :: rest) i :=
  (Reader.Reads.u8 opcode).bind h

theorem reads_standard (h0 : opcode ≠ 0) (h9 : opcode < 9)
    (h : Reader.Reads (readStandard opcode) rest i) : Reader.Reads (read p) (opcode :: rest) i := by
  apply reads_first
  rwa [if_neg h0, if_pos (UInt8.lt_of_lt_of_le h9 p.nine_le_opcodeBase)]

theorem reads_special (h : p.opcodeBase ≤ opcode) :
    Reader.Reads (read p) [opcode] (special opcode) := by
  have h0 : opcode ≠ 0 := by
    rintro rfl
    exact absurd (UInt8.le_trans p.nine_le_opcodeBase h) (by decide)
  apply reads_first
  rw [if_neg h0, if_neg (UInt8.not_lt.2 h)]
  exact Reader.Reads.pure _

theorem ne_of_reserved {k : UInt8} (h : 0x41 ≤ opcode ∧ opcode ≤ 0x7F) (hk : k < 0x41) :
    opcode ≠ k := by
  rintro rfl
  exact absurd h.1 (UInt8.not_le.2 hk)

theorem readOperands_reserved (h : 0x41 ≤ opcode ∧ opcode ≤ 0x7F) (stop : Nat) (data : Bytes)
    (q : Nat) : readOperands stop opcode data q = (.ok (reserved opcode), stop) := by
  rw [readOperands, if_neg (ne_of_reserved h (by decide)), if_neg (ne_of_reserved h (by decide)),
    if_neg (ne_of_reserved h (by decide)), if_pos h]
  rfl

theorem reads_encode (hi : i.WellFormed p) : Reader.Reads (read p) i.encode i := by
  cases i with
  | copy => exact reads_standard (by decide) (by decide) (Reader.Reads.pure _)
  | advanceOffset delta =>
    exact reads_standard (by decide) (by decide) ((Reader.Reads.varint delta).map _)
  | advanceRow delta =>
    exact reads_standard (by decide) (by decide) ((Reader.Reads.signedVarint delta).map _)
  | setFile file => exact reads_standard (by decide) (by decide) ((Reader.Reads.varint file).map _)
  | advanceMax => exact reads_standard (by decide) (by decide) (Reader.Reads.pure _)
  | special opcode => exact reads_special hi
  | setSource file =>
    refine reads_first (reads_extended ?_ ?_)
    · have := Varint.length_encode_le file
      omega
    · intro data q hq
      rw [readOperands, if_neg (by decide), if_pos rfl, Reader.bind_apply,
        Reader.Reads.varint file data q hq]
      rfl
  | toggleHidden => exact reads_first (reads_extended (by decide) fun _ _ _ => rfl)
  | reserved opcode =>
    exact reads_first (reads_extended (by decide) fun data q _ =>
      readOperands_reserved hi _ data q)
  | endSequence => exact reads_first (reads_extended (by decide) fun _ _ _ => rfl)

end Instruction

namespace LineProgram

/-- What instructions record, and the registers after them. -/
def execute (p : LineParameters) (r : Registers) : List Instruction → List LineEntry × Registers
  | [] => ([], r)
  | i :: is =>
    let r' := r.next p i
    let (entries, last) := execute p r' is
    (if i.records then r'.entry :: entries else entries, last)

theorem execute_append (p : LineParameters) (r : Registers) (is js : List Instruction) :
    execute p r (is ++ js) =
      ((execute p r is).1 ++ (execute p (execute p r is).2 js).1,
        (execute p (execute p r is).2 js).2) := by
  induction is generalizing r with
  | nil => rfl
  | cons i is ih =>
    simp only [List.cons_append, execute, ih]
    split <;> rfl

theorem run_of_read_step [Build] {p : LineParameters} {r : Registers} {data : Bytes} {start q : Nat}
    {i : Instruction} (h : Instruction.read p data start = (.ok i, q)) :
    run p r data start =
      if i = .endSequence then (.ok [], q)
      else match r.step p i with
        | .error e => (.error e, q)
        | .ok r' =>
          match run p r' data q with
          | (.ok entries, q') => (.ok (if i.records then r'.entry :: entries else entries), q')
          | (.error e, q') => (.error e, q') := by
  rw [run]
  split
  case h_1 e m h' => rw [h] at h'; cases h'
  case h_2 j m h' =>
    rw [h] at h'
    cases h'
    rfl

theorem run_of_read {p : LineParameters} {r : Registers} {data : Bytes} {start q : Nat}
    {i : Instruction} (h : Instruction.read p data start = (.ok i, q)) :
    run p r data start =
      if i = .endSequence then (.ok [], q)
      else match run p (r.next p i) data q with
        | (.ok entries, q') =>
          (.ok (if i.records then (r.next p i).entry :: entries else entries), q')
        | (.error e, q') => (.error e, q') := by
  rw [run_of_read_step h, r.step_eq]

theorem run_of_read_error [Build] {p : LineParameters} {r : Registers} {data : Bytes}
    {start q : Nat} {e : Error} (h : Instruction.read p data start = (.error e, q)) :
    run p r data start = (.error e, q) := by
  rw [run]
  split
  case h_1 e' m h' =>
    rw [h] at h'
    cases h'
    rfl
  case h_2 j m h' => rw [h] at h'; cases h'

/-- What a run answers, behind entries that were recorded before it. -/
def behind (recorded : List LineEntry) (result : Except Error (List LineEntry) × Nat) :
    Except Error (List LineEntry) × Nat :=
  ((recorded ++ ·) <$> result.1, result.2)

theorem behind_nil (result : Except Error (List LineEntry) × Nat) : behind [] result = result := by
  rcases result with ⟨e | entries, q⟩ <;> rfl

theorem behind_behind (first second : List LineEntry)
    (result : Except Error (List LineEntry) × Nat) :
    behind first (behind second result) = behind (first ++ second) result := by
  rcases result with ⟨e | entries, q⟩ <;> simp [behind]

theorem run_of_read_next {p : LineParameters} {r : Registers} {data : Bytes} {start q : Nat}
    {i : Instruction} (h : Instruction.read p data start = (.ok i, q)) (hne : i ≠ .endSequence) :
    run p r data start =
      behind (if i.records then [(r.next p i).entry] else []) (run p (r.next p i) data q) := by
  rw [run_of_read h, if_neg hne]
  rcases run p (r.next p i) data q with ⟨e | entries, q'⟩
  · rfl
  · cases i.records <;> rfl

/-- Bytes with the instruction that they are. -/
abbrev Piece := List UInt8 × Instruction

/-- A run over bytes of which one instruction after another is read executes the instructions and
goes on behind them. -/
theorem run_pieces {p : LineParameters} {pieces : List Piece}
    (h : ∀ x ∈ pieces, Reader.Reads (Instruction.read p) x.1 x.2 ∧ x.2 ≠ .endSequence)
    (r : Registers) {data : Bytes} {start : Nat}
    (hlies : LiesAt data start (pieces.flatMap Prod.fst)) :
    let executed := execute p r (pieces.map Prod.snd)
    run p r data start =
      behind executed.1 (run p executed.2 data (start + (pieces.flatMap Prod.fst).length)) := by
  induction pieces generalizing r start with
  | nil => exact (behind_nil _).symm
  | cons x pieces ih =>
    have ⟨⟨hread, hne⟩, hrest⟩ := List.forall_mem_cons.1 h
    rw [List.flatMap_cons, LiesAt.append_iff] at hlies
    dsimp only
    rw [run_of_read_next (hread data start hlies.1) hne, ih hrest _ hlies.2, behind_behind,
      List.map_cons, List.flatMap_cons, List.length_append, ← Nat.add_assoc, execute]
    dsimp only
    split <;> rfl

theorem reads_run {p : LineParameters} (is : List Instruction)
    (his : ∀ i ∈ is, i.WellFormed p ∧ i ≠ .endSequence) (r : Registers) :
    Reader.Reads (run p r) (is.flatMap Instruction.encode ++ Instruction.endSequence.encode)
      (execute p r is).1 := by
  induction is generalizing r with
  | nil =>
    intro data start h
    have hend : Instruction.endSequence.WellFormed p := trivial
    rw [run_of_read (Instruction.reads_encode hend data start h)]
    rfl
  | cons i is ih =>
    have ⟨⟨hi, hne⟩, his⟩ := List.forall_mem_cons.1 his
    intro data start h
    rw [List.flatMap_cons, List.append_assoc, LiesAt.append_iff] at h
    rw [run_of_read (Instruction.reads_encode hi data start h.1), if_neg hne,
      ih his (r.next p i) data _ h.2]
    simp only [execute, List.flatMap_cons, List.append_assoc, List.length_append, Nat.add_assoc]

end LineProgram

end DebugSymbols
