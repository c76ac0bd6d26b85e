import DebugSymbols.Proofs.Header
import DebugSymbols.Proofs.LineProgram.Progress

namespace DebugSymbols

namespace LineParameters

/-- The end of the row deltas that special opcodes express, exactly. -/
def exactLimit (p : LineParameters) : Int := p.lineBase.toInt + p.lineRange.toNat

/-- The row delta of a special opcode, exactly. -/
def exactRowAdvance (p : LineParameters) (opcode : UInt8) : Int :=
  p.lineBase.toInt + ((opcode - p.opcodeBase) % p.lineRange).toNat

theorem exactRowAdvance_lt (p : LineParameters) (opcode : UInt8) :
    p.exactRowAdvance opcode < p.exactLimit := by
  have hpos : 0 < p.lineRange.toNat :=
    Nat.pos_of_ne_zero fun h => p.lineRange_ne_zero (UInt8.toNat_inj.1 h)
  have := Nat.mod_lt (opcode - p.opcodeBase).toNat hpos
  rw [exactRowAdvance, exactLimit, UInt8.toNat_mod]
  omega

end LineParameters

namespace LineProgram

variable [Build] {p : LineParameters}

theorem reaches_eq_error (hchecks : Build.checksOverflow = true)
    (hlimit : 0x80000000 ≤ p.exactLimit) {d : Int32} (hd : p.lineBase ≤ d) :
    reaches p d = .error (.overflow .rowLimit) := by
  rw [LineParameters.exactLimit] at hlimit
  rw [reaches, if_neg (Int32.not_lt.2 hd), Build.signed_eq_error hchecks hlimit]
  rfl

/-- The end of the row deltas that special opcodes express is exact, or not looked at. -/
theorem reaches_eq_of_lt {d : Int32} (h : p.exactLimit < 0x80000000 ∨ d < p.lineBase) :
    reaches p d = .ok !decide (OutOfReach p d) := by
  rw [reaches]
  by_cases hd : d < p.lineBase
  · rw [if_pos hd, decide_eq_true (.inl hd)]
    rfl
  · have hlimit := h.resolve_right hd
    have hvalue : (p.lineBase + p.lineRange.toUInt32.toInt32).toInt =
        p.lineBase.toInt + p.lineRange.toNat := by
      have := p.lineBase.le_toInt
      rw [LineParameters.exactLimit] at hlimit
      rw [Int32.toInt_add, toInt_byte, Int.bmod_eq_of_le (by omega) (by omega)]
    rw [if_neg hd, Build.signed_eq_ok hvalue]
    simp only [OutOfReach, hd, false_or, ← Int32.not_lt, decide_not, Bool.not_not]
    rfl

theorem recording_eq_error (hchecks : Build.checksOverflow = true)
    (hlimit : 0x80000000 ≤ p.exactLimit) {d : Int32} (hd : p.lineBase ≤ d) (delta : UInt32) :
    recording p d delta = .error (.overflow .rowLimit) := by
  rw [recording, reaches_eq_error hchecks hlimit hd]
  rfl

theorem recording_eq_release {d : Int32} {delta : UInt32}
    (h : p.exactLimit < 0x80000000 ∨ d < p.lineBase) (hdelta : delta < p.maxIncrement) :
    recording p d delta = @recording .release p d delta :=
  (recording_of_reaches (reaches_eq_of_lt h) hdelta).trans
    (@recording_of_reaches .release p d delta (reaches_eq p d) hdelta).symm

theorem instructions_of_lt {r : Registers} {e : LineEntry} (h : e.offset < r.offset) :
    instructions p r e = .error (.malformed (.offsetPrecedes e.offset r.offset)) :=
  if_pos h

theorem instructions_of_le {r : Registers} {e : LineEntry} (h : r.offset ≤ e.offset) :
    instructions p r e = (do
      let (lead, rest) ← leadOffset p (e.offset - r.offset)
      let last ← recording p (e.row - r.row) rest
      pure ((if e.file = r.file then [] else [.setSource e.file]) ++
        (if e.hidden = r.hidden then [] else [.toggleHidden]) ++ lead ++ last)) :=
  if_neg (UInt32.not_lt.2 h)

theorem instructions_eq_error (hchecks : Build.checksOverflow = true)
    (hlimit : 0x80000000 ≤ p.exactLimit) {r : Registers} {e : LineEntry}
    (hoffset : r.offset ≤ e.offset) (hd : p.lineBase ≤ e.row - r.row) :
    instructions p r e = .error (.overflow .rowLimit) := by
  obtain ⟨lead, rest, -, hlead, -⟩ := emits_leadOffset p r (e.offset - r.offset)
  rw [instructions_of_le hoffset, hlead, ok_bind]
  dsimp only
  rw [recording_eq_error hchecks hlimit hd]
  rfl

theorem instructions_eq_release {r : Registers} {e : LineEntry} (hoffset : r.offset ≤ e.offset)
    (h : p.exactLimit < 0x80000000 ∨ e.row - r.row < p.lineBase) :
    instructions p r e = @instructions .release p r e := by
  obtain ⟨lead, rest, -, hlead, hrest, -⟩ := emits_leadOffset p r (e.offset - r.offset)
  have hrelease : @leadOffset .release p (e.offset - r.offset) = .ok (lead, rest) :=
    (@leadOffset_eq .release p _).trans ((leadOffset_eq p _).symm.trans hlead)
  rw [instructions_of_le hoffset, @instructions_of_le .release p r e hoffset, hlead, hrelease,
    ok_bind, ok_bind]
  dsimp only
  rw [recording_eq_release h hrest]

/-- Some point comes up for encoding, ahead of any that goes back, whose row delta is not below the
line base. -/
def MeetsBase (p : LineParameters) (r : Registers) : List LineEntry → Prop
  | [] => False
  | e :: es =>
    r.offset ≤ e.offset ∧ (p.lineBase ≤ e.row - r.row ∨ MeetsBase p (registersAt e) es)

theorem program_cons (r : Registers) (e : LineEntry) (es : List LineEntry) :
    program p r (e :: es) = (do
      let first ← instructions p r e
      let rest ← program p (registersAt e) es
      pure (first ++ rest)) := rfl

theorem program_eq_overflow (hchecks : Build.checksOverflow = true)
    (hlimit : 0x80000000 ≤ p.exactLimit) {r : Registers} {es : List LineEntry}
    (hmeets : MeetsBase p r es) : program p r es = .error (.overflow .rowLimit) := by
  induction es generalizing r with
  | nil => exact hmeets.elim
  | cons e es ih =>
    obtain ⟨hoffset, hrow⟩ := hmeets
    rw [program_cons]
    by_cases hd : p.lineBase ≤ e.row - r.row
    · rw [instructions_eq_error hchecks hlimit hoffset hd]
      rfl
    · obtain ⟨first, hfirst, -⟩ := emits_instructions (p := p) hoffset
      rw [instructions_eq_release hoffset (.inr (Int32.not_le.1 hd)), hfirst, ok_bind,
        ih (hrow.resolve_left hd)]
      rfl

theorem program_eq_release {r : Registers} {es : List LineEntry}
    (h : p.exactLimit < 0x80000000 ∨ ¬MeetsBase p r es) :
    program p r es = @program .release p r es := by
  induction es generalizing r with
  | nil => rfl
  | cons e es ih =>
    rw [program_cons, @program_cons .release]
    by_cases hoffset : e.offset < r.offset
    · rw [instructions_of_lt hoffset, @instructions_of_lt .release _ _ _ hoffset]
      rfl
    · have hle := UInt32.not_lt.1 hoffset
      have hnone (hmeets : ¬MeetsBase p r (e :: es)) :
          e.row - r.row < p.lineBase ∧ ¬MeetsBase p (registersAt e) es := by
        rw [MeetsBase, not_and] at hmeets
        exact ⟨Int32.not_le.1 fun hd => hmeets hle (.inl hd), fun hrest => hmeets hle (.inr hrest)⟩
      rw [instructions_eq_release hle (h.imp_right fun h => (hnone h).1),
        ih (h.imp_right fun h => (hnone h).2)]

theorem encode_eq (columns ends : Bool) (entries : List LineEntry) :
    encode p columns ends entries = (do
      let is ← program p {} entries
      pure (is.flatMap Instruction.encode ++
        (if columns then entries.flatMap fun e => Varint.encodeSigned e.column else []) ++
        (if ends then entries.flatMap encodeEnd else []))) := rfl

theorem encode_eq_overflow (hchecks : Build.checksOverflow = true) {columns ends : Bool}
    {entries : List LineEntry} (hlimit : 0x80000000 ≤ p.exactLimit)
    (hmeets : MeetsBase p {} entries) :
    encode p columns ends entries = .error (.overflow .rowLimit) := by
  rw [encode_eq, program_eq_overflow hchecks hlimit hmeets]
  rfl

theorem encode_eq_release {columns ends : Bool} {entries : List LineEntry}
    (h : p.exactLimit < 0x80000000 ∨ ¬MeetsBase p {} entries) :
    encode p columns ends entries = @encode .release p columns ends entries := by
  rw [encode_eq, program_eq_release h]
  rfl

end LineProgram

/-- A special opcode whose row delta lies beyond the last row. -/
def Instruction.LeavesRows (p : LineParameters) : Instruction → Prop
  | special opcode => 0x80000000 ≤ p.exactRowAdvance opcode
  | _ => False

namespace Registers

variable [Build] {p : LineParameters}

theorem step_special (r : Registers) {opcode : UInt8} (h : p.opcodeBase ≤ opcode) :
    r.step p (.special opcode) =
      (Build.signed .rowAdvance (p.exactRowAdvance opcode) >>= fun rowDelta => pure { r with
        offset := r.offset + ((opcode - p.opcodeBase) / p.lineRange).toUInt32
        row := r.row + rowDelta }) := by
  have hplace : ((opcode - p.opcodeBase).toNat : Int) = opcode.toNat - p.opcodeBase.toNat := by
    rw [UInt8.toNat_sub_of_le _ _ h]
    rw [UInt8.le_iff_toNat_le] at h
    omega
  rw [step, Build.byte_eq_ok hplace]
  rfl

theorem step_eq_error (hchecks : Build.checksOverflow = true) (r : Registers) {i : Instruction}
    (hi : i.WellFormed p) (h : i.LeavesRows p) :
    r.step p i = .error (.overflow .rowAdvance) := by
  cases i with
  | special opcode =>
    rw [r.step_special hi, Build.signed_eq_error hchecks h]
    rfl
  | _ => exact h.elim

/-- An instruction that keeps to the rows does in every build what it does in a release build. -/
theorem step_eq_ok (r : Registers) {i : Instruction} (hi : i.WellFormed p) (h : ¬i.LeavesRows p) :
    r.step p i = .ok (r.next p i) := by
  cases i with
  | special opcode =>
    have hvalue : (p.lineBase + ((opcode - p.opcodeBase) % p.lineRange).toUInt32.toInt32).toInt =
        p.exactRowAdvance opcode := by
      have := p.lineBase.le_toInt
      rw [Instruction.LeavesRows, LineParameters.exactRowAdvance] at h
      rw [Int32.toInt_add, toInt_byte, LineParameters.exactRowAdvance,
        Int.bmod_eq_of_le (by omega) (by omega)]
    rw [r.step_special hi, Build.signed_eq_ok hvalue]
    rfl
  | _ => rfl

end Registers

namespace Instruction

variable {p : LineParameters}

theorem wellFormed_of_readExtendedOperands {opcode : UInt8} {data : Bytes} {start q : Nat}
    {i : Instruction} (h : readExtendedOperands opcode data start = (.ok i, q)) :
    i.WellFormed p := by
  rw [readExtendedOperands] at h
  split_ifs at h with hend hsource htoggle hrange
  · cases h
    trivial
  · obtain ⟨file, -, rfl⟩ := Reader.map_eq_ok.1 h
    trivial
  · cases h
    trivial
  · cases h
    exact hrange
  · exact absurd h Reader.fail_ne_ok

theorem wellFormed_of_readOperands {next : Nat} {opcode : UInt8} {data : Bytes} {start q : Nat}
    {i : Instruction} (h : readOperands next opcode data start = (.ok i, q)) : i.WellFormed p := by
  rw [readOperands_apply] at h
  rcases hread : readExtendedOperands opcode data start with ⟨e | j, m⟩
  · rw [hread] at h
    cases h
  · rw [hread] at h
    cases h
    exact wellFormed_of_readExtendedOperands hread

theorem wellFormed_of_readStandard {opcode : UInt8} {data : Bytes} {start q : Nat} {i : Instruction}
    (h : readStandard opcode data start = (.ok i, q)) : i.WellFormed p := by
  unfold readStandard at h
  split at h
  · cases h
    trivial
  split at h
  · obtain ⟨v, -, rfl⟩ := Reader.map_eq_ok.1 h
    trivial
  split at h
  · obtain ⟨v, -, rfl⟩ := Reader.map_eq_ok.1 h
    trivial
  split at h
  · obtain ⟨v, -, rfl⟩ := Reader.map_eq_ok.1 h
    trivial
  split at h
  · cases h
    trivial
  · exact absurd h Reader.fail_ne_ok

theorem wellFormed_of_read {data : Bytes} {start q : Nat} {i : Instruction}
    (h : read p data start = (.ok i, q)) : i.WellFormed p := by
  obtain ⟨opcode, m, -, h⟩ := Reader.bind_eq_ok.1 h
  split at h
  · obtain ⟨length, m, -, h⟩ := Reader.bind_eq_ok.1 h
    obtain ⟨first, m, -, h⟩ := Reader.bind_eq_ok.1 h
    obtain ⟨opcode, m, -, h⟩ := Reader.bind_eq_ok.1 h
    exact wellFormed_of_readOperands h
  split_ifs at h with hbase
  · exact wellFormed_of_readStandard h
  · cases h
    exact UInt8.not_lt.1 hbase

theorem LeavesRows.ne_endSequence {i : Instruction} (h : i.LeavesRows p) : i ≠ .endSequence := by
  rintro rfl
  exact h

end Instruction

namespace LineProgram

variable {p : LineParameters}

/-- Some instruction that is executed leads beyond the last row. -/
inductive MeetsLastRow (p : LineParameters) (data : Bytes) : Nat → Prop
  | here {start q : Nat} {i : Instruction} (read : Instruction.read p data start = (.ok i, q))
    (leaves : i.LeavesRows p) : MeetsLastRow p data start
  | later {start q : Nat} {i : Instruction} (read : Instruction.read p data start = (.ok i, q))
    (notLast : i ≠ .endSequence) (rest : MeetsLastRow p data q) : MeetsLastRow p data start

section AnyBuild

variable [Build]

theorem run_of_leavesRows (hchecks : Build.checksOverflow = true) {r : Registers} {data : Bytes}
    {start q : Nat} {i : Instruction} (h : Instruction.read p data start = (.ok i, q))
    (leaves : i.LeavesRows p) : run p r data start = (.error (.overflow .rowAdvance), q) := by
  rw [run_of_read_step h, if_neg leaves.ne_endSequence,
    r.step_eq_error hchecks (Instruction.wellFormed_of_read h) leaves]

theorem run_eq_error (hchecks : Build.checksOverflow = true) {data : Bytes} {start : Nat}
    (h : MeetsLastRow p data start) (r : Registers) :
    ∃ q, run p r data start = (.error (.overflow .rowAdvance), q) := by
  induction h generalizing r with
  | here read leaves => exact ⟨_, run_of_leavesRows hchecks read leaves⟩
  | @later start q i read notLast rest ih =>
    by_cases leaves : i.LeavesRows p
    · exact ⟨_, run_of_leavesRows hchecks read leaves⟩
    · obtain ⟨q', hrest⟩ := ih (r.next p i)
      rw [run_of_read_step read, if_neg notLast,
        r.step_eq_ok (Instruction.wellFormed_of_read read) leaves]
      dsimp only
      rw [hrest]
      exact ⟨q', rfl⟩

theorem run_eq_release {data : Bytes} {start : Nat} (h : ¬MeetsLastRow p data start)
    (r : Registers) : run p r data start = @run .release p r data start := by
  have stays {start q : Nat} {i : Instruction} {r : Registers}
      (hread : Instruction.read p data start = (.ok i, q)) (h : ¬MeetsLastRow p data start) :
      r.step p i = .ok (r.next p i) :=
    r.step_eq_ok (Instruction.wellFormed_of_read hread) fun leaves => h (.here hread leaves)
  fun_induction run p r data start with
  | case1 r start e q hread => exact (@run_of_read_error .release _ _ _ _ _ _ hread).symm
  | case2 r start q hread => exact (@run_of_read_step .release _ _ _ _ _ _ hread).symm
  | case3 r start q i hread hne e hstep =>
    rw [stays hread h] at hstep
    cases hstep
  | case4 r start q i hread hne r' hstep entries q' hrest ih =>
    rw [stays hread h] at hstep
    cases hstep
    rw [@run_of_read_step .release _ _ _ _ _ _ hread, if_neg hne, @Registers.step_eq]
    dsimp only
    rw [← ih fun rest => h (.later hread hne rest), hrest]
  | case5 r start q i hread hne r' hstep e q' hrest ih =>
    rw [stays hread h] at hstep
    cases hstep
    rw [@run_of_read_step .release _ _ _ _ _ _ hread, if_neg hne, @Registers.step_eq]
    dsimp only
    rw [← ih fun rest => h (.later hread hne rest), hrest]

theorem read_eq_overflow (hchecks : Build.checksOverflow = true) {columns ends : Bool}
    {data : Bytes} {start : Nat} (h : MeetsLastRow p data start) :
    (read p columns ends).eval data start = .error (.overflow .rowAdvance) := by
  obtain ⟨q, hrun⟩ := run_eq_error hchecks h {}
  rw [Reader.eval, read_eq, Reader.bind_apply, hrun]

theorem read_eq_release {columns ends : Bool} {data : Bytes} {start : Nat}
    (h : ¬MeetsLastRow p data start) :
    (read p columns ends).run data start = (@read .release p columns ends).run data start := by
  change read p columns ends data start = @read .release p columns ends data start
  rw [read_eq, @read_eq .release, Reader.bind_apply, Reader.bind_apply, run_eq_release h]

end AnyBuild

theorem not_meetsLastRow (hlimit : p.exactLimit ≤ 0x80000000) (data : Bytes) (start : Nat) :
    ¬MeetsLastRow p data start := by
  intro h
  induction h with
  | @here start q i read leaves =>
    cases i with
    | special opcode =>
      have hlt := p.exactRowAdvance_lt opcode
      exact absurd leaves (by rw [Instruction.LeavesRows]; omega)
    | _ => exact leaves
  | later read notLast rest ih => exact ih

/-- The special opcode that expresses the greatest row delta without an offset. -/
theorem meetsLastRow_of_lt (hlimit : 0x80000000 < p.exactLimit) :
    MeetsLastRow p #[p.opcodeBase + (p.lineRange - 1)] 0 := by
  have hroom := p.room
  have hpos : 0 < p.lineRange.toNat :=
    Nat.pos_of_ne_zero fun h => p.lineRange_ne_zero (UInt8.toNat_inj.1 h)
  have hrange : (p.lineRange - 1).toNat = p.lineRange.toNat - 1 :=
    UInt8.toNat_sub_of_le _ _ (UInt8.le_iff_toNat_le.2 hpos)
  have hbase : p.opcodeBase ≤ p.opcodeBase + (p.lineRange - 1) := by
    rw [UInt8.le_iff_toNat_le, UInt8.toNat_add, hrange]
    omega
  have hadvance : p.exactRowAdvance (p.opcodeBase + (p.lineRange - 1)) = p.exactLimit - 1 := by
    rw [LineParameters.exactRowAdvance, LineParameters.exactLimit, UInt8.add_comm,
      UInt8.add_sub_cancel, UInt8.toNat_mod, hrange, Nat.mod_eq_of_lt (by omega)]
    omega
  refine .here (Instruction.reads_special hbase _ 0 (List.prefix_refl _)) ?_
  rw [Instruction.LeavesRows, hadvance]
  omega

theorem meetsBase_singleton (p : LineParameters) :
    MeetsBase p {} [{ file := 1, row := 1 + p.lineBase, offset := 0 }] :=
  ⟨UInt32.le_refl 0, .inl (Int32.le_of_eq (Int32.add_comm 1 _ ▸ (Int32.add_sub_cancel _ 1).symm))⟩

/-- No sum of a release build keeps a table from being encoded. -/
theorem encode_ne_overflow (columns ends : Bool) (entries : List LineEntry) (op : Operation) :
    encode p columns ends entries ≠ .error (.overflow op) := by
  intro h
  obtain ⟨a, b, -, -, herror⟩ := encode_eq_error h
  cases herror

theorem read_ne_overflow (columns ends : Bool) (data : Bytes) (start : Nat) (op : Operation) :
    (read p columns ends).eval data start ≠ .error (.overflow op) := by
  intro h
  obtain h | ⟨damage, h⟩ := failsByStream_read p columns ends data start _ _ (Prod.ext h rfl)
  · cases h
  · cases h

/-- Of all operations of the codec, two sums with the line base alone can leave their type.  Where
a debug build does not stop at one of them it answers as a release build does, in which no operation
stops.  Encoding stops if it meets a row delta not below the line base while the end of the row
deltas, which is computed then, lies beyond the last row; decoding, if a special opcode leads beyond
the last row.  So no encoding ever stops exactly if the row deltas that special opcodes express end
below `2 ^ 31`, and no decoding exactly if they end at most there.  Parameters with any line base are
accepted. -/
theorem overflows_exactly (p : LineParameters) (columns ends : Bool) :
    LineParameters.make p.lineBase p.lineRange p.opcodeBase = .ok p ∧
      LineParameters.ofHeader p.lineBase p.lineRange.toUInt32.toInt32
        p.opcodeBase.toUInt32.toInt32 = .ok p ∧
      p.lineRange ≠ 0 ∧
      p.maxIncrement.toNat = (255 - p.opcodeBase.toNat) / p.lineRange.toNat ∧
      (∀ entries,
        (0x80000000 ≤ p.exactLimit ∧ MeetsBase p {} entries →
          @encode .debug p columns ends entries = .error (.overflow .rowLimit)) ∧
        (¬(0x80000000 ≤ p.exactLimit ∧ MeetsBase p {} entries) →
          @encode .debug p columns ends entries = @encode .release p columns ends entries) ∧
        ∀ op, @encode .release p columns ends entries ≠ .error (.overflow op)) ∧
      (∀ data start,
        (MeetsLastRow p data start →
          (@read .debug p columns ends).eval data start = .error (.overflow .rowAdvance)) ∧
        (¬MeetsLastRow p data start →
          (@read .debug p columns ends).run data start =
            (@read .release p columns ends).run data start) ∧
        ∀ op, (@read .release p columns ends).eval data start ≠ .error (.overflow op)) ∧
      ((∀ entries op, @encode .debug p columns ends entries ≠ .error (.overflow op)) ↔
        p.exactLimit < 0x80000000) ∧
      ((∀ data start op,
          (@read .debug p columns ends).eval data start ≠ .error (.overflow op)) ↔
        p.exactLimit ≤ 0x80000000) := by
  have hencode (entries : List LineEntry)
      (h : ¬(0x80000000 ≤ p.exactLimit ∧ MeetsBase p {} entries)) :
      @encode .debug p columns ends entries = @encode .release p columns ends entries := by
    rw [not_and_or, Int.not_le] at h
    exact @encode_eq_release .debug p columns ends entries h
  refine ⟨p.make_self, p.ofHeader_self, p.lineRange_ne_zero, p.toNat_maxIncrement,
    fun entries => ⟨fun h => @encode_eq_overflow .debug p rfl columns ends entries h.1 h.2,
      hencode entries, encode_ne_overflow columns ends entries⟩,
    fun data start => ⟨@read_eq_overflow p .debug rfl columns ends data start,
      @read_eq_release p .debug columns ends data start, read_ne_overflow columns ends data start⟩,
    ⟨fun hall => ?_, fun hlimit entries op => ?_⟩, ⟨fun hall => ?_, fun hlimit data start op => ?_⟩⟩
  · by_contra hlimit
    exact hall _ _ (@encode_eq_overflow .debug p rfl columns ends _ (Int.not_lt.1 hlimit)
      (meetsBase_singleton p))
  · rw [hencode entries fun h => absurd h.1 (Int.not_le.2 hlimit)]
    exact encode_ne_overflow columns ends entries op
  · by_contra hlimit
    exact hall _ _ _ (@read_eq_overflow p .debug rfl columns ends _ _
      (meetsLastRow_of_lt (Int.not_le.1 hlimit)))
  · have hrun := @read_eq_release p .debug columns ends data start
      (not_meetsLastRow hlimit data start)
    intro h
    exact read_ne_overflow columns ends data start op ((congrArg Prod.fst hrun).symm.trans h)

/-- With the greatest line base the second special opcode leads beyond the last row, and a row delta
that is the line base cannot be compared with the end of those that special opcodes express. -/
theorem greatest_line_base_overflows :
    let p : LineParameters := { lineBase := 0x7FFFFFFF, lineRange := 8, opcodeBase := 9 }
    LineParameters.make 0x7FFFFFFF 8 9 = .ok p ∧
      LineParameters.ofHeader 0x7FFFFFFF 8 9 = .ok p ∧
      (@read .debug p false false).eval #[10, 0, 1, 1] 0 = .error (.overflow .rowAdvance) ∧
      (@read .release p false false).run #[10, 0, 1, 1] 0 =
        (.ok ⟨[{ file := 1, row := -0x7FFFFFFF, offset := 0 }]⟩, 4) ∧
      @encode .debug p false false [{ file := 1, row := -0x80000000, offset := 0 }] =
        .error (.overflow .rowLimit) := by
  intro p
  have hread : Instruction.read p #[10, 0, 1, 1] 0 = (.ok (.special 10), 1) := rfl
  have hrow : p.exactRowAdvance 10 = 0x80000000 := by decide
  exact ⟨rfl, rfl, @read_eq_overflow p .debug rfl false false _ _
    (.here hread (Int.le_of_eq hrow.symm)), by cbv, by decide⟩

end LineProgram

end DebugSymbols
