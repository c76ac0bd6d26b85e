import DebugSymbols.Proofs.Bytes.Failing
import DebugSymbols.Proofs.LineProgram.RoundTrip
import DebugSymbols.Proofs.LineProgram.Trace

namespace DebugSymbols

open Reader (FailsByStream)

namespace Instruction

theorem failsByStream_readOperands (next : Nat) (opcode : UInt8) :
    FailsByStream (readOperands next opcode) := by
  have jump (i : Instruction) : FailsByStream (do Reader.seek next; pure i) :=
    (FailsByStream.seek next).bind fun _ => .pure i
  unfold readOperands
  split
  · exact .pure _
  split
  · exact FailsByStream.varint.bind fun file => jump _
  split
  · exact jump _
  split
  · exact jump _
  · exact .malformed _

theorem failsByStream_readStandard (opcode : UInt8) : FailsByStream (readStandard opcode) := by
  unfold readStandard
  split
  · exact .pure _
  split
  · exact FailsByStream.varint.map _
  split
  · exact FailsByStream.signedVarint.map _
  split
  · exact FailsByStream.varint.map _
  split
  · exact .pure _
  · exact .malformed _

theorem failsByStream_read (p : LineParameters) : FailsByStream (read p) := by
  apply FailsByStream.u8.bind
  intro opcode
  split
  · exact FailsByStream.u8.bind fun length => FailsByStream.position.bind fun start =>
      FailsByStream.u8.bind fun opcode => failsByStream_readOperands _ opcode
  split
  · exact failsByStream_readStandard opcode
  · exact .pure _

/-- Behind an extended instruction the stream stands where its declared length says, wherever its
operands end. -/
theorem read_extended_end {p : LineParameters} {data : Bytes} {start q : Nat} {i : Instruction}
    {length : UInt8} (hzero : data[start]? = some 0) (hlength : data[start + 1]? = some length)
    (h : read p data start = (.ok i, q)) (hi : i ≠ .endSequence) :
    q = start + 2 + length.toNat := by
  rw [read, Reader.bind_apply, Reader.u8_eq_ok.2 ⟨hzero, rfl⟩] at h
  dsimp only at h
  rw [if_pos rfl, readExtended, Reader.bind_apply, Reader.u8_eq_ok.2 ⟨hlength, rfl⟩] at h
  dsimp only at h
  obtain ⟨s, m, hs, h⟩ := Reader.bind_eq_ok.1 h
  cases hs
  obtain ⟨opcode, m, -, h⟩ := Reader.bind_eq_ok.1 h
  rw [readOperands_apply] at h
  split at h
  · cases h
    exact if_neg hi
  · cases h

end Instruction

namespace LineProgram

/-- The loop between two iterations: where it stands, its registers, and what it has recorded. -/
structure Decoding where
  position : Nat
  registers : Registers := {}
  recorded : List LineEntry := []

namespace Decoding

variable {p : LineParameters} {data : Bytes} {s t u : Decoding} {n : Nat}

/-- The loop after an instruction behind which it goes on at `position`. -/
def execute (p : LineParameters) (s : Decoding) (i : Instruction) (position : Nat) : Decoding :=
  let registers := s.registers.next p i
  ⟨position, registers, if i.records then s.recorded ++ [registers.entry] else s.recorded⟩

/-- An iteration that does not end the decoding. -/
inductive Iteration (p : LineParameters) (data : Bytes) : Decoding → Decoding → Prop
  | goesOn {s : Decoding} {i : Instruction} {q : Nat}
    (read : Instruction.read p data s.position = (.ok i, q)) (notLast : i ≠ .endSequence) :
    Iteration p data s (s.execute p i q)

inductive Iterations (p : LineParameters) (data : Bytes) : Nat → Decoding → Decoding → Prop
  | none (s : Decoding) : Iterations p data 0 s s
  | more {n : Nat} {s t u : Decoding} (first : Iteration p data s t)
    (rest : Iterations p data n t u) : Iterations p data (n + 1) s u

/-- An iteration that ends the decoding, with what was recorded or with an error. -/
inductive Ends (p : LineParameters) (data : Bytes) (s : Decoding) :
    Except Error (List LineEntry) × Nat → Prop
  | sequence {q : Nat} (read : Instruction.read p data s.position = (.ok .endSequence, q)) :
    Ends p data s (.ok s.recorded, q)
  | failure {e : Error} {q : Nat} (read : Instruction.read p data s.position = (.error e, q)) :
    Ends p data s (.error e, q)

/-- No iteration stays where it began or goes back, and each records one entry at most. -/
theorem Iteration.advances (h : Iteration p data s t) :
    s.position < data.size ∧ s.position < t.position ∧
      (t.recorded = s.recorded ∨ ∃ e, t.recorded = s.recorded ++ [e]) := by
  obtain ⟨read, -⟩ := h
  obtain ⟨hsize, hforward⟩ := Instruction.read_advances read
  refine ⟨hsize, hforward, ?_⟩
  unfold execute
  dsimp only
  split
  · exact .inr ⟨_, rfl⟩
  · exact .inl rfl

/-- Each iteration takes a byte of its own off what is left of the stream. -/
theorem Iterations.le_remaining (h : Iterations p data n s t) :
    n ≤ data.size - s.position ∧ s.position + n ≤ t.position ∧
      t.recorded.length ≤ s.recorded.length + n := by
  induction h with
  | none s => exact ⟨Nat.zero_le _, Nat.le_refl _, Nat.le_refl _⟩
  | @more n s t u first rest ih =>
    obtain ⟨hsize, hforward, hrecorded⟩ := first.advances
    obtain ⟨hcount, hposition, hlength⟩ := ih
    have hone : t.recorded.length ≤ s.recorded.length + 1 := by
      rcases hrecorded with h | ⟨e, h⟩ <;> simp [h]
    omega

theorem exists_ends (p : LineParameters) (registers : Registers) (data : Bytes) (start : Nat)
    (recorded : List LineEntry) :
    ∃ n s, Iterations p data n ⟨start, registers, recorded⟩ s ∧
      Ends p data s (behind recorded (run p registers data start)) := by
  fun_induction run p registers data start generalizing recorded with
  | case1 registers start e q hread => exact ⟨0, _, .none _, .failure hread⟩
  | case2 registers start q hread =>
    have hrecorded : behind recorded (.ok [], q) = (.ok recorded, q) := by simp [behind]
    refine ⟨0, _, .none _, ?_⟩
    rw [hrecorded]
    exact .sequence hread
  | case3 registers start i q hread hne e hstep =>
    rw [registers.step_eq] at hstep
    cases hstep
  | case4 registers start i q hread hne registers' hstep entries q' hrest ih =>
    rw [registers.step_eq] at hstep
    cases hstep
    obtain ⟨n, s, hrun, hends⟩ := ih (execute p ⟨start, registers, recorded⟩ i q).recorded
    have hrecorded : behind recorded
        (.ok (if i.records then (registers.next p i).entry :: entries else entries), q') =
        behind (execute p ⟨start, registers, recorded⟩ i q).recorded (.ok entries, q') := by
      unfold execute
      dsimp only
      split <;> simp [behind]
    rw [hrest] at hends
    rw [hrecorded]
    exact ⟨n + 1, s, .more (.goesOn hread hne) hrun, hends⟩
  | case5 registers start i q hread hne registers' hstep e q' hrest ih =>
    rw [registers.step_eq] at hstep
    cases hstep
    obtain ⟨n, s, hrun, hends⟩ := ih (execute p ⟨start, registers, recorded⟩ i q).recorded
    rw [hrest] at hends
    exact ⟨n + 1, s, .more (.goesOn hread hne) hrun, hends⟩

end Decoding

open Decoding (Iteration Iterations Ends)

theorem failsByStream_run (p : LineParameters) (r : Registers) : FailsByStream (run p r) := by
  intro data start q e h
  obtain ⟨n, s, -, hends⟩ := Decoding.exists_ends p r data start []
  rw [behind_nil, h] at hends
  cases hends with
  | failure hread => exact Instruction.failsByStream_read p _ _ _ _ hread

/-- No sum of a release build keeps a table from being read. -/
theorem failsByStream_read (p : LineParameters) (columns ends : Bool) :
    FailsByStream (read p columns ends) := by
  have hcolumn (e : LineEntry) : FailsByStream (readColumn e) :=
    FailsByStream.signedVarint.bind fun column => .pure _
  have hend (e : LineEntry) : FailsByStream (readEnd e) := by
    apply FailsByStream.varint.bind
    intro distance
    split
    · exact .pure _
    · exact FailsByStream.signedVarint.bind fun column => .pure _
  rw [read_eq]
  refine (failsByStream_run p {}).bind fun es => FailsByStream.bind ?_ fun es =>
    FailsByStream.bind ?_ fun es => .pure _
  · cases columns with
    | true => exact .traverse hcolumn es
    | false => exact .pure _
  · cases ends with
    | true => exact .traverse hend es
    | false => exact .pure _

/-- Wherever the decoding of whatever stream begins: each iteration that does not end it leaves the
stream beyond where it found it, also if the length that an extended instruction declares is too
short or leads out of the stream; so there are no more of them than bytes, none of them records more
than one entry, and behind the last one the sequence ends or the decoding fails.  Where no end of
the sequence is executed, decoding fails because of the stream.  The sum with the line base is taken
modulo `2 ^ 32`. -/
theorem decoding_progresses (p : LineParameters) (columns ends : Bool) (data : Bytes)
    (start : Nat) :
    let begin : Decoding := { position := start }
    (∀ n s t, Iterations p data n begin s → Iteration p data s t →
      s.position < t.position ∧
      (t.recorded = s.recorded ∨ ∃ e, t.recorded = s.recorded ++ [e]) ∧
      ∀ length, data[s.position]? = some 0 → data[s.position + 1]? = some length →
        t.position = s.position + 2 + length.toNat) ∧
    (∀ n s, Iterations p data n begin s → n ≤ data.size - start ∧ s.recorded.length ≤ n) ∧
    (∀ n s i q, Iterations p data n begin s →
      (Instruction.read p).run data s.position = (.ok i, q) → n + 1 ≤ data.size - start) ∧
    (∃ n s, Iterations p data n begin s ∧ Ends p data s ((run p {}).run data start)) ∧
    ((∀ n s, Iterations p data n begin s →
        (Instruction.read p).eval data s.position ≠ .ok .endSequence) →
      ∃ e : Error, e.OfStream ∧ (read p columns ends).eval data start = .error e) := by
  intro begin
  have hfinal : ∃ n s, Iterations p data n begin s ∧ Ends p data s ((run p {}).run data start) := by
    have hends := Decoding.exists_ends p {} data start []
    rwa [behind_nil] at hends
  refine ⟨fun n s t hs ht => ?_, fun n s hs => ?_, fun n s i q hs hread => ?_, hfinal,
    fun hnever => ?_⟩
  · obtain ⟨-, hforward, hrecorded⟩ := ht.advances
    refine ⟨hforward, hrecorded, fun length hzero hlength => ?_⟩
    obtain ⟨hread, hne⟩ := ht
    exact Instruction.read_extended_end hzero hlength hread hne
  · obtain ⟨hcount, -, hlength⟩ := hs.le_remaining
    change _ ≤ 0 + n at hlength
    exact ⟨hcount, hlength.trans_eq (Nat.zero_add n)⟩
  · have hsize := (Instruction.read_advances hread).1
    have hposition := hs.le_remaining.2.1
    change start + n ≤ _ at hposition
    omega
  · obtain ⟨n, s, hs, hends⟩ := hfinal
    generalize hrun : (run p {}).run data start = result at hends
    cases hends with
    | sequence hread => exact absurd (congrArg Prod.fst hread) (hnever n s hs)
    | @failure e q hread =>
      refine ⟨e, Instruction.failsByStream_read p _ _ _ _ hread, ?_⟩
      change run p {} data start = _ at hrun
      rw [Reader.eval, read_eq, Reader.bind_apply, hrun]

/-- A declared length of zero leads back to the opcode that was read behind it, which is then
executed as an instruction of its own. -/
example : (read .default false false).run #[0, 0, 0x41, 0, 1, 1] 0 =
    (.ok ⟨[{ file := 1, row := 0, offset := 7 }]⟩, 6) := by
  cbv

end LineProgram

end DebugSymbols
