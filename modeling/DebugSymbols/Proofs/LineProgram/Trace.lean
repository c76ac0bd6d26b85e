import DebugSymbols.LineProgram.Encode
import DebugSymbols.Proofs.LineProgram.RoundTrip

/-!
The instructions that a run executes, with the bytes that were read of each.  Behind an extended
instruction the run goes on where the declared length ends, and that need not be where its operands
end.
-/
namespace DebugSymbols

/-- An instruction that was executed, the bytes `start`, …, `stop - 1` that were read of it, and the
length that an extended one declares. -/
structure Executed where
  instruction : Instruction
  start : Nat
  stop : Nat
  declared : Option UInt8
deriving DecidableEq, Repr

namespace Executed

/-- Where the run goes on.  A declared length counts from behind its own byte; that of the end of
the sequence is not looked at. -/
def next (x : Executed) : Nat :=
  match x.declared with
  | none => x.stop
  | some length => if x.instruction = .endSequence then x.stop else x.start + 2 + length.toNat

/-- A declared length reaches to the end of what was read. -/
def Covered (x : Executed) : Prop :=
  ∀ length ∈ x.declared, x.stop ≤ x.start + 2 + length.toNat

instance (x : Executed) : Decidable x.Covered :=
  decidable_of_iff (x.declared.all fun length => decide (x.stop ≤ x.start + 2 + length.toNat))
    (by simp [Covered, Option.all_eq_true, Option.mem_def])

def Reads (x : Executed) (k : Nat) : Prop := x.start ≤ k ∧ k < x.stop

instance (x : Executed) (k : Nat) : Decidable (x.Reads k) :=
  inferInstanceAs (Decidable (x.start ≤ k ∧ k < x.stop))

/-- Before the end of the sequence, covered instructions are those behind which the run goes on. -/
theorem covered_iff {x : Executed} (h : x.instruction ≠ .endSequence) :
    x.Covered ↔ x.stop ≤ x.next := by
  unfold Covered next
  cases x.declared with
  | none => simp
  | some length => simp [h, Option.mem_def]

end Executed

namespace Instruction

/-- Notes which bytes are read of an instruction that begins at `start`. -/
def noting (start : Nat) (declared : Option UInt8) (r : Reader Instruction) : Reader Executed := do
  let i ← r
  let stop ← Reader.position
  pure ⟨i, start, stop, declared⟩

/-- The instruction of an extended opcode, by its operands alone. -/
def readExtendedOperands (opcode : UInt8) : Reader Instruction :=
  if opcode = 0x01 then pure endSequence
  else if opcode = 0x04 then setSource <$> Reader.varint
  else if opcode = 0x40 then pure toggleHidden
  else if 0x41 ≤ opcode ∧ opcode ≤ 0x7F then pure (reserved opcode)
  else Reader.fail (.malformed (.unknownExtendedOpcode opcode))

/-- Reads an instruction and stops behind its operands. -/
def readExecuted (p : LineParameters) : Reader Executed := do
  let start ← Reader.position
  let opcode ← Reader.u8
  if opcode = 0 then
    let length ← Reader.u8
    noting start (some length) (Reader.u8 >>= readExtendedOperands)
  else
    noting start none
      (if opcode < p.opcodeBase then readStandard opcode else pure (special opcode))

theorem noting_eq_ok {start : Nat} {declared : Option UInt8} {r : Reader Instruction} {data : Bytes}
    {p q : Nat} {x : Executed} :
    noting start declared r data p = (.ok x, q) ↔
      r data p = (.ok x.instruction, q) ∧ x = ⟨x.instruction, start, q, declared⟩ := by
  unfold noting
  rw [Reader.bind_apply]
  rcases r data p with ⟨e | i, m⟩
  · simp
  · change (Except.ok (Executed.mk i start m declared), m) = _ ↔ _
    constructor
    · rintro ⟨⟩
      exact ⟨rfl, rfl⟩
    · rintro ⟨⟨⟩, hx⟩
      rw [← hx]

theorem readOperands_apply (next : Nat) (opcode : UInt8) (data : Bytes) (q : Nat) :
    readOperands next opcode data q =
      match readExtendedOperands opcode data q with
      | (.ok i, m) => (.ok i, if i = .endSequence then m else next)
      | (.error e, m) => (.error e, m) := by
  unfold readOperands readExtendedOperands
  split
  · rfl
  split
  · rw [Reader.bind_apply, Reader.map_apply]
    rcases Reader.varint data q with ⟨e | file, m⟩ <;> rfl
  split
  · rfl
  split <;> rfl

/-- Reading an instruction is reading its bytes and going on behind its declared length. -/
theorem read_apply (p : LineParameters) (data : Bytes) (start : Nat) :
    read p data start =
      match readExecuted p data start with
      | (.ok x, _) => (.ok x.instruction, x.next)
      | (.error e, m) => (.error e, m) := by
  rw [read, readExecuted, Reader.bind_apply, Reader.bind_apply]
  dsimp only [Reader.position]
  rw [Reader.bind_apply]
  rcases hopcode : Reader.u8 data start with ⟨e | opcode, m⟩
  · rfl
  obtain ⟨-, rfl⟩ := Reader.u8_end hopcode
  dsimp only
  split
  · rw [readExtended, Reader.bind_apply, Reader.bind_apply]
    rcases hlength : Reader.u8 data (start + 1) with ⟨e | length, m⟩
    · rfl
    obtain ⟨-, rfl⟩ := Reader.u8_end hlength
    dsimp only
    rw [Reader.bind_apply, noting, Reader.bind_apply, Reader.bind_apply]
    dsimp only [Reader.position]
    rw [Reader.bind_apply]
    rcases Reader.u8 data (start + 1 + 1) with ⟨e | opcode, m⟩
    · rfl
    dsimp only
    rw [readOperands_apply]
    rcases readExtendedOperands opcode data m with ⟨e | i, m⟩ <;> rfl
  rw [noting, Reader.bind_apply]
  split
  · rcases readStandard opcode data (start + 1) with ⟨e | i, m⟩ <;> rfl
  · rfl

theorem read_of_readExecuted {p : LineParameters} {data : Bytes} {start q : Nat} {x : Executed}
    (h : readExecuted p data start = (.ok x, q)) :
    read p data start = (.ok x.instruction, x.next) := by
  rw [read_apply, h]

theorem read_of_readExecuted_error {p : LineParameters} {data : Bytes} {start q : Nat} {e : Error}
    (h : readExecuted p data start = (.error e, q)) : read p data start = (.error e, q) := by
  rw [read_apply, h]

theorem readExtendedOperands_end {opcode : UInt8} {data : Bytes} {start q : Nat} {i : Instruction}
    (h : readExtendedOperands opcode data start = (.ok i, q)) : start ≤ q := by
  unfold readExtendedOperands at h
  split at h
  · simp only [Reader.pure_apply, Prod.mk.injEq] at h
    omega
  split at h
  · obtain ⟨file, h, -⟩ := Reader.map_eq_ok.1 h
    exact Nat.le_of_lt (Reader.varint_advances h)
  split at h
  · simp only [Reader.pure_apply, Prod.mk.injEq] at h
    omega
  split at h
  · simp only [Reader.pure_apply, Prod.mk.injEq] at h
    omega
  · exact absurd h Reader.fail_ne_ok

theorem readExecuted_end {p : LineParameters} {data : Bytes} {start q : Nat} {x : Executed}
    (h : readExecuted p data start = (.ok x, q)) : x.start = start ∧ x.start < x.stop := by
  obtain ⟨s, m, hs, h⟩ := Reader.bind_eq_ok.1 h
  simp only [Reader.position, Prod.mk.injEq, Except.ok.injEq] at hs
  obtain ⟨rfl, rfl⟩ := hs
  obtain ⟨opcode, m, hopcode, h⟩ := Reader.bind_eq_ok.1 h
  obtain ⟨-, rfl⟩ := Reader.u8_end hopcode
  -- Operands never move back, so that the opcode alone makes the stretch nonempty.
  have hle : start + 1 ≤ q ∧ x.start = start ∧ x.stop = q := by
    split at h
    · obtain ⟨length, m, hlength, h⟩ := Reader.bind_eq_ok.1 h
      obtain ⟨-, rfl⟩ := Reader.u8_end hlength
      obtain ⟨hi, hx⟩ := noting_eq_ok.1 h
      obtain ⟨opcode, m, hopcode, hi⟩ := Reader.bind_eq_ok.1 hi
      obtain ⟨-, rfl⟩ := Reader.u8_end hopcode
      have := readExtendedOperands_end hi
      rw [hx]
      exact ⟨by omega, rfl, rfl⟩
    · obtain ⟨hi, hx⟩ := noting_eq_ok.1 h
      rw [hx]
      refine ⟨?_, rfl, rfl⟩
      split at hi
      · exact readStandard_end hi
      · simp only [Reader.pure_apply, Prod.mk.injEq] at hi
        omega
  omega

theorem readExecuted_next {p : LineParameters} {data : Bytes} {start q : Nat} {x : Executed}
    (h : readExecuted p data start = (.ok x, q)) : start < data.size ∧ start < x.next :=
  read_advances (read_of_readExecuted h)

end Instruction

namespace LineProgram

/-- The instructions that a run from a position on executes, up to the end of the sequence. -/
def trace (p : LineParameters) : Reader (List Executed) := fun data start =>
  match _h : Instruction.readExecuted p data start with
  | (.error e, q) => (.error e, q)
  | (.ok x, _) =>
    if x.instruction = .endSequence then (.ok [x], x.next)
    else
      match trace p data x.next with
      | (.ok xs, q) => (.ok (x :: xs), q)
      | (.error e, q) => (.error e, q)
termination_by data start => data.size - start
decreasing_by
  have := Instruction.readExecuted_next _h
  omega

theorem run_apply (p : LineParameters) (r : Registers) (data : Bytes) (start : Nat) :
    run p r data start =
      match trace p data start with
      | (.ok xs, q) => (.ok (execute p r (xs.map Executed.instruction)).1, q)
      | (.error e, q) => (.error e, q) := by
  fun_induction trace p data start generalizing r with
  | case1 start e q h => exact run_of_read_error (Instruction.read_of_readExecuted_error h)
  | case2 start x q h hend =>
    rw [run_of_read (Instruction.read_of_readExecuted h), if_pos hend]
    simp only [List.map_cons, List.map_nil, execute, hend]
    rfl
  | case3 start x q h hne xs q' hrest ih =>
    rw [run_of_read (Instruction.read_of_readExecuted h), if_neg hne, ih, hrest]
    rfl
  | case4 start x q h hne e q' hrest ih =>
    rw [run_of_read (Instruction.read_of_readExecuted h), if_neg hne, ih, hrest]

/-- Instructions that were executed one behind another, from `start` until one of them ended the
sequence at `stop`. -/
inductive Course : Nat → List Executed → Nat → Prop
  | last {x : Executed} (bytes : x.start < x.stop) (ends : x.instruction = .endSequence) :
    Course x.start [x] x.next
  | next {x : Executed} {xs : List Executed} {stop : Nat} (bytes : x.start < x.stop)
    (goesOn : x.instruction ≠ .endSequence) (forward : x.start < x.next)
    (rest : Course x.next xs stop) : Course x.start (x :: xs) stop

theorem course_of_trace {p : LineParameters} {data : Bytes} {start stop : Nat} {xs : List Executed}
    (h : trace p data start = (.ok xs, stop)) : Course start xs stop := by
  fun_induction trace p data start generalizing xs with
  | case1 | case4 => cases h
  | case2 start x q hx hend =>
    obtain ⟨rfl, hbytes⟩ := Instruction.readExecuted_end hx
    cases h
    exact .last hbytes hend
  | case3 start x q hx hne xs q' hrest ih =>
    obtain ⟨rfl, hbytes⟩ := Instruction.readExecuted_end hx
    have hforward := (Instruction.readExecuted_next hx).2
    cases h
    exact .next hbytes hne hforward (ih hrest)

namespace Course

variable {start stop : Nat} {xs : List Executed}

theorem start_le (h : Course start xs stop) : ∀ x ∈ xs, start ≤ x.start := by
  induction h with
  | last => simp
  | next bytes goesOn forward rest ih =>
    refine List.forall_mem_cons.2 ⟨Nat.le_refl _, fun x hx => ?_⟩
    exact Nat.le_of_lt (Nat.lt_of_lt_of_le forward (ih x hx))

theorem exists_reads_start (h : Course start xs stop) : ∃ x ∈ xs, x.Reads start := by
  cases h with
  | last bytes | next bytes => exact ⟨_, List.mem_cons_self, Nat.le_refl _, bytes⟩

/-- No byte is read twice exactly if all declared lengths cover what they have to count. -/
theorem pairwise_reads_iff (h : Course start xs stop) :
    (xs.Pairwise fun x y => ∀ k, ¬(x.Reads k ∧ y.Reads k)) ↔
      ∀ x ∈ xs, x.instruction ≠ .endSequence → x.Covered := by
  induction h with
  | last bytes ends => simp [ends]
  | @next x xs stop bytes goesOn forward rest ih =>
    rw [List.pairwise_cons, List.forall_mem_cons, ih]
    refine and_congr_left fun _ => ⟨fun hdisjoint _ => ?_, fun hcovered y hy k hk => ?_⟩
    · -- The byte at which the run goes on is read of what follows.
      obtain ⟨y, hy, hreads⟩ := rest.exists_reads_start
      have hnot := hdisjoint y hy x.next
      rw [Executed.covered_iff goesOn]
      by_contra hlt
      exact hnot ⟨⟨Nat.le_of_lt forward, Nat.not_le.1 hlt⟩, hreads⟩
    · have hstop := (Executed.covered_iff goesOn).1 (hcovered goesOn)
      have hstart := rest.start_le y hy
      exact absurd hk.1.2 (Nat.not_lt.2 (hstop.trans (hstart.trans hk.2.1)))

end Course

theorem map_traverse {f : α → Reader β} {g : α → γ} {g' : β → γ}
    (hf : ∀ a data p b q, f a data p = (.ok b, q) → g' b = g a) {as : List α} {bs : List β}
    {data : Bytes} {p q : Nat} (h : Reader.traverse f as data p = (.ok bs, q)) :
    bs.map g' = as.map g := by
  induction as generalizing p bs with
  | nil =>
    cases h
    rfl
  | cons a as ih =>
    obtain ⟨b, m, hb, h⟩ := Reader.bind_eq_ok.1 h
    obtain ⟨bs, m, hbs, h⟩ := Reader.bind_eq_ok.1 h
    cases h
    rw [List.map_cons, List.map_cons, hf a data _ b _ hb, ih hbs]

theorem registersAt_of_readColumn {e e' : LineEntry} {data : Bytes} {start q : Nat}
    (h : readColumn e data start = (.ok e', q)) : registersAt e' = registersAt e := by
  obtain ⟨column, m, -, h⟩ := Reader.bind_eq_ok.1 h
  cases h
  rfl

theorem registersAt_of_readEnd {e e' : LineEntry} {data : Bytes} {start q : Nat}
    (h : readEnd e data start = (.ok e', q)) : registersAt e' = registersAt e := by
  obtain ⟨distance, m, -, h⟩ := Reader.bind_eq_ok.1 h
  split at h
  · cases h
    rfl
  · obtain ⟨column, m, -, h⟩ := Reader.bind_eq_ok.1 h
    cases h
    rfl

/-- The points of a table that was read are those that its program recorded, up to the columns and
ends that stand behind it. -/
theorem trace_of_read {p : LineParameters} {columns ends : Bool} {data : Bytes} {start q : Nat}
    {t : LineTable} (h : read p columns ends data start = (.ok t, q)) :
    ∃ executed stop, trace p data start = (.ok executed, stop) ∧
      t.entries.map registersAt =
        (execute p {} (executed.map Executed.instruction)).1.map registersAt := by
  rw [read_eq] at h
  obtain ⟨es, m, hrun, h⟩ := Reader.bind_eq_ok.1 h
  obtain ⟨es', m', hcolumns, h⟩ := Reader.bind_eq_ok.1 h
  obtain ⟨es'', m'', hends, h⟩ := Reader.bind_eq_ok.1 h
  cases h
  have hcolumns : es'.map registersAt = es.map registersAt := by
    split at hcolumns
    · exact map_traverse (f := readColumn) (fun _ _ _ _ _ => registersAt_of_readColumn) hcolumns
    · cases hcolumns
      rfl
  have hends : es''.map registersAt = es'.map registersAt := by
    split at hends
    · exact map_traverse (f := readEnd) (fun _ _ _ _ _ => registersAt_of_readEnd) hends
    · cases hends
      rfl
  rw [run_apply] at hrun
  rcases htrace : trace p data start with ⟨e | executed, stop⟩
  · rw [htrace] at hrun
    cases hrun
  · rw [htrace] at hrun
    cases hrun
    exact ⟨executed, m, rfl, hends.trans hcolumns⟩

/-- Whenever a table is read, its instructions were executed one behind another, each extended one
from where the declared length of another ended.  No byte was read as part of two of them exactly if
every declared length covers the opcode and the operands behind it. -/
theorem bytes_read_once_iff {p : LineParameters} {columns ends : Bool} {data : Bytes}
    {start q : Nat} {t : LineTable} (h : (read p columns ends).run data start = (.ok t, q)) :
    ∃ executed stop, (trace p).run data start = (.ok executed, stop) ∧
      t.entries.map registersAt =
        (execute p {} (executed.map Executed.instruction)).1.map registersAt ∧
      Course start executed stop ∧
      ((executed.Pairwise fun x y => ∀ k, ¬(x.Reads k ∧ y.Reads k)) ↔
        ∀ x ∈ executed, x.instruction ≠ .endSequence → x.Covered) := by
  obtain ⟨executed, stop, htrace, hentries⟩ := trace_of_read h
  have hcourse := course_of_trace htrace
  exact ⟨executed, stop, htrace, hentries, hcourse, hcourse.pairwise_reads_iff⟩

/-- A reserved instruction may declare more than its opcode, which is skipped. -/
theorem bytes_read_once_iff_reserved :
    let data : Bytes := #[0, 2, 4, 5, 0, 3, 65, 170, 187, 10, 0, 1, 1]
    let executed : List Executed := [⟨.setSource 5, 0, 4, some 2⟩, ⟨.reserved 65, 4, 7, some 3⟩,
      ⟨.special 10, 9, 10, none⟩, ⟨.endSequence, 10, 13, some 1⟩]
    (read .default false false).run data 0 = (.ok ⟨[{ file := 5, row := 1, offset := 0 }]⟩, 13) ∧
      Course 0 executed 13 ∧ executed.Pairwise fun x y => ∀ k, ¬(x.Reads k ∧ y.Reads k) := by
  intro data executed
  have hread : (read .default false false).run data 0 =
      (.ok ⟨[{ file := 5, row := 1, offset := 0 }]⟩, 13) := by cbv
  have htrace : (trace .default).run data 0 = (.ok executed, 13) := by cbv
  obtain ⟨executed', stop, htrace', -, hcourse, hiff⟩ := bytes_read_once_iff hread
  rw [htrace] at htrace'
  cases htrace'
  exact ⟨hread, hcourse, hiff.2 (by decide)⟩

/-- The length of the first instruction leaves out its operand, which is then executed as an
instruction of its own. -/
theorem operand_read_twice :
    let data : Bytes := #[0, 1, 4, 1, 0, 1, 1]
    let setSource : Executed := ⟨.setSource 1, 0, 4, some 1⟩
    let copy : Executed := ⟨.copy, 3, 4, none⟩
    (read .default false false).run data 0 = (.ok ⟨[{ file := 1, row := 1, offset := 0 }]⟩, 7) ∧
      (trace .default).run data 0 = (.ok [setSource, copy, ⟨.endSequence, 4, 7, some 1⟩], 7) ∧
      ¬setSource.Covered ∧ setSource.Reads 3 ∧ copy.Reads 3 := by
  intro data setSource copy
  exact ⟨by cbv, by cbv, by decide, by decide, by decide⟩

end LineProgram

end DebugSymbols
