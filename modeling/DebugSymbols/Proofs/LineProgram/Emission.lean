import DebugSymbols.LineProgram.Encode
import DebugSymbols.Proofs.LineProgram.Execution
import Mathlib.Data.List.Chain

namespace DebugSymbols

theorem Int32.add_sub_self (a b : Int32) : a + (b - a) = b := by
  rw [Int32.add_comm, Int32.sub_add_cancel]

theorem LineParameters.toNat_maxIncrement_le (p : LineParameters) :
    p.maxIncrement.toNat ≤ 255 := by
  rw [toNat_maxIncrement]
  exact (Nat.div_le_self _ _).trans (Nat.sub_le _ _)

namespace LineProgram

/-- No special opcode expresses the row delta; the end of those that one expresses wraps. -/
abbrev OutOfReach (p : LineParameters) (d : Int32) : Prop :=
  d < p.lineBase ∨ p.lineBase + p.lineRange.toUInt32.toInt32 ≤ d

/-- A row delta that a special opcode expresses lies less than the line range above the line base,
also where the upper bound wraps. -/
theorem toNat_rowDelta_lt {p : LineParameters} {d : Int32} (h : ¬OutOfReach p d) :
    (d - p.lineBase).toUInt32.toNat < p.lineRange.toNat := by
  have hsub : ((d - p.lineBase).toUInt32.toNat : Int).bmod 0x100000000 =
      (d.toInt - p.lineBase.toInt).bmod 0x100000000 := by
    rw [← toInt_toInt32, Int32.toInt32_toUInt32, Int32.toInt_sub]
  have hrange := toInt_byte p.lineRange
  rw [not_or, Int32.not_lt, Int32.not_le, Int32.le_iff_toInt_le, Int32.lt_iff_toInt_lt,
    Int32.toInt_add, hrange] at h
  have := (d - p.lineBase).toUInt32.toNat_lt
  have := p.lineRange.toNat_lt
  have := d.toInt_lt
  have := d.le_toInt
  have := p.lineBase.toInt_lt
  have := p.lineBase.le_toInt
  -- Where the upper bound wraps, no row lies between the bounds.
  simp only [Int.bmod_def] at hsub h
  omega

/-- The row deltas that a special opcode expresses are not so far from the line base that their
distances wrap. -/
theorem toInt_rowPlace {p : LineParameters} {d : Int32} (h : ¬OutOfReach p d) :
    (d - p.lineBase).toInt = d.toInt - p.lineBase.toInt := by
  have hplace := toNat_rowDelta_lt h
  have hrange := p.lineRange.toNat_lt
  have hvalue : (d - p.lineBase).toInt = (d - p.lineBase).toUInt32.toNat := by
    conv_lhs => rw [← Int32.toInt32_toUInt32 (d - p.lineBase), toInt_toInt32]
    exact Int.bmod_eq_of_le (by omega) (by omega)
  have hsub := Int32.toInt_sub d p.lineBase
  rw [hvalue] at hsub ⊢
  have hd := Int32.le_iff_toInt_le.1 (Int32.not_lt.1 (not_or.1 h).1)
  have := d.toInt_lt
  have := p.lineBase.le_toInt
  simp only [Int.bmod_def] at hsub
  omega

theorem toNat_special {p : LineParameters} {x delta : UInt32} (hx : x.toNat < p.lineRange.toNat)
    (hdelta : delta < p.maxIncrement) :
    (p.opcodeBase.toUInt32 + x + p.lineRange.toUInt32 * delta).toNat =
        p.opcodeBase.toNat + x.toNat + p.lineRange.toNat * delta.toNat ∧
      p.opcodeBase.toNat + x.toNat + p.lineRange.toNat * delta.toNat < 256 := by
  have hroom := p.room
  have hmax : p.lineRange.toNat * (delta.toNat + 1) ≤ 255 - p.opcodeBase.toNat := by
    rw [UInt32.lt_iff_toNat_lt, LineParameters.toNat_maxIncrement] at hdelta
    exact Nat.le_trans (Nat.mul_le_mul_left _ hdelta) (Nat.mul_div_le _ _)
  rw [Nat.mul_succ] at hmax
  have hlt : p.opcodeBase.toNat + x.toNat + p.lineRange.toNat * delta.toNat < 256 := by omega
  have hmul : (p.lineRange.toUInt32 * delta).toNat = p.lineRange.toNat * delta.toNat := by
    rw [UInt32.toNat_mul, UInt8.toNat_toUInt32, Nat.mod_eq_of_lt (by omega)]
  refine ⟨?_, hlt⟩
  rw [UInt32.toNat_add, UInt32.toNat_add, UInt8.toNat_toUInt32, hmul]
  omega

/-- The reader takes a special opcode apart into the deltas from which it was made. -/
theorem next_special {p : LineParameters} (r : Registers) {d : Int32} {delta : UInt32}
    {opcode : UInt8} (hd : (d - p.lineBase).toUInt32.toNat < p.lineRange.toNat)
    (hopcode : opcode.toNat =
      p.opcodeBase.toNat + (d - p.lineBase).toUInt32.toNat + p.lineRange.toNat * delta.toNat) :
    r.next p (.special opcode) = { r with row := r.row + d, offset := r.offset + delta } := by
  have hadjusted : (opcode - p.opcodeBase).toNat =
      (d - p.lineBase).toUInt32.toNat + p.lineRange.toNat * delta.toNat := by
    rw [UInt8.toNat_sub_of_le _ _ (UInt8.le_iff_toNat_le.2 (by omega))]
    omega
  have hdiv : ((opcode - p.opcodeBase) / p.lineRange).toUInt32 = delta := by
    rw [← UInt32.toNat_inj, UInt8.toNat_toUInt32, UInt8.toNat_div, hadjusted,
      Nat.add_mul_div_left _ _ (by omega), Nat.div_eq_of_lt hd, Nat.zero_add]
  have hmod : ((opcode - p.opcodeBase) % p.lineRange).toUInt32 = (d - p.lineBase).toUInt32 := by
    rw [← UInt32.toNat_inj, UInt8.toNat_toUInt32, UInt8.toNat_mod, hadjusted,
      Nat.add_mul_mod_self_left, Nat.mod_eq_of_lt hd]
  simp only [Registers.next, hdiv, hmod, Int32.toInt32_toUInt32, Int32.add_sub_self]

/-- What an encoder may emit for registers `r`: instructions that are read back, record `entries`
and leave the registers at `last`. -/
structure Emits (p : LineParameters) (r : Registers) (is : List Instruction)
    (entries : List LineEntry) (last : Registers) : Prop where
  wellFormed : ∀ i ∈ is, i.WellFormed p ∧ i ≠ .endSequence
  execute_eq : execute p r is = (entries, last)

namespace Emits

variable {p : LineParameters} {r s t : Registers} {is js : List Instruction}
  {entries others : List LineEntry}

theorem nil : Emits p r [] [] r := ⟨by simp, rfl⟩

theorem append (h : Emits p r is entries s) (h' : Emits p s js others t) :
    Emits p r (is ++ js) (entries ++ others) t where
  wellFormed := List.forall_mem_append.2 ⟨h.wellFormed, h'.wellFormed⟩
  execute_eq := by rw [execute_append, h.execute_eq, h'.execute_eq]

theorem move {i : Instruction} (hi : i.WellFormed p) (hne : i ≠ .endSequence)
    (hrec : i.records = false) : Emits p r [i] [] (r.next p i) where
  wellFormed := by simpa using ⟨hi, hne⟩
  execute_eq := by simp [execute, hrec]

theorem record {i : Instruction} (hi : i.WellFormed p) (hne : i ≠ .endSequence)
    (hrec : i.records = true) : Emits p r [i] [(r.next p i).entry] (r.next p i) where
  wellFormed := by simpa using ⟨hi, hne⟩
  execute_eq := by simp [execute, hrec]

end Emits

theorem toNat_two_maxIncrement (p : LineParameters) :
    (2 * p.maxIncrement).toNat = 2 * p.maxIncrement.toNat := by
  have := p.toNat_maxIncrement_le
  rw [UInt32.toNat_mul, show (2 : UInt32).toNat = 2 from rfl, Nat.mod_eq_of_lt (by omega)]

theorem leadOffset_eq [Build] (p : LineParameters) (delta : UInt32) :
    leadOffset p delta = .ok (if delta < p.maxIncrement then ([], delta)
      else if delta < 2 * p.maxIncrement then ([.advanceMax], delta - p.maxIncrement)
      else ([.advanceOffset delta], 0)) := by
  have hdouble := toNat_two_maxIncrement p
  rw [leadOffset]
  by_cases hlt : delta < p.maxIncrement
  · rw [if_pos hlt, if_pos hlt]
    rfl
  rw [if_neg hlt, if_neg hlt, Build.word_eq_ok (v := 2 * p.maxIncrement) (by omega), ok_bind]
  by_cases htwo : delta < 2 * p.maxIncrement
  · have hge := UInt32.not_lt.1 hlt
    have hleft : (delta - p.maxIncrement).toNat = delta.toNat - p.maxIncrement.toNat :=
      UInt32.toNat_sub_of_le _ _ hge
    rw [UInt32.le_iff_toNat_le] at hge
    rw [if_pos htwo, if_pos htwo, Build.word_eq_ok (v := delta - p.maxIncrement) (by omega)]
    rfl
  · rw [if_neg htwo, if_neg htwo]
    rfl

/-- The lead leaves less than the constant advance to the recording instruction. -/
theorem emits_leadOffset [Build] (p : LineParameters) (r : Registers) (delta : UInt32) :
    ∃ lead rest offset, leadOffset p delta = .ok (lead, rest) ∧ rest < p.maxIncrement ∧
      offset + rest = r.offset + delta ∧ Emits p r lead [] { r with offset := offset } := by
  have hpos := p.maxIncrement_pos
  rw [leadOffset_eq]
  by_cases hlt : delta < p.maxIncrement
  · rw [if_pos hlt]
    exact ⟨[], delta, r.offset, rfl, hlt, rfl, .nil⟩
  rw [if_neg hlt]
  by_cases htwo : delta < 2 * p.maxIncrement
  · -- One constant advance is left of less than two.
    rw [if_pos htwo]
    refine ⟨_, _, r.offset + p.maxIncrement, rfl, ?_, by grind, .move trivial (by simp) rfl⟩
    have hge := UInt32.not_lt.1 hlt
    rw [UInt32.lt_iff_toNat_lt, toNat_two_maxIncrement] at htwo
    rw [UInt32.lt_iff_toNat_lt, UInt32.toNat_sub_of_le _ _ hge]
    rw [UInt32.le_iff_toNat_le] at hge
    omega
  · rw [if_neg htwo]
    exact ⟨_, _, r.offset + delta, rfl, hpos, by grind, .move trivial (by simp) rfl⟩

theorem specialOpcode_eq [Build] {p : LineParameters} {d : Int32} {delta : UInt32}
    (hd : ¬OutOfReach p d) (hdelta : delta < p.maxIncrement) :
    specialOpcode p d delta = .ok
      (p.opcodeBase.toUInt32 + (d - p.lineBase).toUInt32 + p.lineRange.toUInt32 * delta) := by
  obtain ⟨hsum, hlt⟩ := toNat_special (toNat_rowDelta_lt hd) hdelta
  have hrow : (p.opcodeBase.toUInt32 + (d - p.lineBase).toUInt32).toNat =
      p.opcodeBase.toNat + (d - p.lineBase).toUInt32.toNat := by
    rw [UInt32.toNat_add, UInt8.toNat_toUInt32, Nat.mod_eq_of_lt (by omega)]
  have hoffset : (p.lineRange.toUInt32 * delta).toNat = p.lineRange.toNat * delta.toNat := by
    rw [UInt32.toNat_mul, UInt8.toNat_toUInt32, Nat.mod_eq_of_lt (by omega)]
  rw [specialOpcode, Build.signed_eq_ok (toInt_rowPlace hd), ok_bind,
    Build.word_eq_ok (v := p.opcodeBase.toUInt32 + (d - p.lineBase).toUInt32) (by omega), ok_bind,
    Build.word_eq_ok (v := p.lineRange.toUInt32 * delta)
      (by rw [hoffset]; exact Int.natCast_mul _ _), ok_bind]
  exact Build.word_eq_ok (by omega)

theorem reaches_eq (p : LineParameters) (d : Int32) :
    reaches p d = .ok !decide (OutOfReach p d) := by
  have hlimit : Int32.ofInt (p.lineBase.toInt + p.lineRange.toNat) =
      p.lineBase + p.lineRange.toUInt32.toInt32 := by
    rw [← toInt_byte, Int32.ofInt_add, Int32.ofInt_toInt, Int32.ofInt_toInt]
  rw [reaches]
  by_cases hd : d < p.lineBase
  · rw [if_pos hd, decide_eq_true (.inl hd)]
    rfl
  · rw [if_neg hd, Build.signed_release, ok_bind, hlimit]
    simp only [OutOfReach, hd, false_or, ← Int32.not_lt, decide_not, Bool.not_not]
    rfl

/-- What is recorded, in a build that can tell whether the row delta is within reach. -/
theorem recording_of_reaches [Build] {p : LineParameters} {d : Int32} {delta : UInt32}
    (h : reaches p d = .ok !decide (OutOfReach p d)) (hdelta : delta < p.maxIncrement) :
    recording p d delta = .ok (if OutOfReach p d then
      .advanceRow d :: (if delta = 0 then [] else [.advanceOffset delta]) ++ [.copy]
    else [.special (p.opcodeBase.toUInt32 + (d - p.lineBase).toUInt32 +
      p.lineRange.toUInt32 * delta).toUInt8]) := by
  rw [recording, h, ok_bind]
  by_cases hd : OutOfReach p d
  · rw [if_pos hd, decide_eq_true hd]
    rfl
  · -- The opcode fits in a byte, so that the check of the encoder never fails.
    obtain ⟨heq, hlt⟩ := toNat_special (toNat_rowDelta_lt hd) hdelta
    rw [if_neg hd, decide_eq_false hd, Bool.not_false, if_pos rfl, specialOpcode_eq hd hdelta,
      ok_bind, if_pos (by rw [UInt32.lt_iff_toNat_lt, heq]; exact hlt)]
    rfl

/-- One special opcode or the spelled out advances, they record the same. -/
theorem emits_recording {p : LineParameters} (r : Registers) (d : Int32) {delta : UInt32}
    (hdelta : delta < p.maxIncrement) :
    ∃ is, recording p d delta = .ok is ∧
      Emits p r is [{ r with row := r.row + d, offset := r.offset + delta : Registers }.entry]
        { r with row := r.row + d, offset := r.offset + delta } := by
  refine ⟨_, recording_of_reaches (reaches_eq p d) hdelta, ?_⟩
  by_cases hd : OutOfReach p d
  · -- The row delta is out of reach: the advances are spelled out and the row is copied.
    rw [if_pos hd]
    have hrow : Emits p r [.advanceRow d] [] { r with row := r.row + d } :=
      .move trivial (by simp) rfl
    have hcopy (s : Registers) : Emits p s [.copy] [s.entry] s := .record trivial (by simp) rfl
    by_cases h0 : delta = 0
    · subst h0
      simpa using hrow.append (hcopy _)
    · rw [if_neg h0]
      have hoffset : Emits p { r with row := r.row + d } [.advanceOffset delta] []
          { r with row := r.row + d, offset := r.offset + delta } := .move trivial (by simp) rfl
      exact hrow.append (hoffset.append (hcopy _))
  · have hd' := toNat_rowDelta_lt hd
    obtain ⟨heq, hlt⟩ := toNat_special hd' hdelta
    rw [if_neg hd]
    have hopcode : (p.opcodeBase.toUInt32 + (d - p.lineBase).toUInt32 +
        p.lineRange.toUInt32 * delta).toUInt8.toNat =
        p.opcodeBase.toNat + (d - p.lineBase).toUInt32.toNat +
          p.lineRange.toNat * delta.toNat := by
      rw [UInt32.toNat_toUInt8, heq]
      exact Nat.mod_eq_of_lt hlt
    rw [← next_special r hd' hopcode]
    refine .record ?_ (by simp) rfl
    rw [Instruction.WellFormed, UInt8.le_iff_toNat_le, hopcode]
    omega

/-- An entry that does not go back has instructions, and they lead to it and record it. -/
theorem emits_instructions {p : LineParameters} {r : Registers} {e : LineEntry}
    (h : r.offset ≤ e.offset) :
    ∃ is, instructions p r e = .ok is ∧ Emits p r is [(registersAt e).entry] (registersAt e) := by
  have hfile : Emits p r (if e.file = r.file then [] else [Instruction.setSource e.file]) []
      { r with file := e.file } := by
    split_ifs with heq
    · rw [heq]
      exact .nil
    · exact .move trivial (by simp) rfl
  have htoggle : Emits p { r with file := e.file }
      (if e.hidden = r.hidden then [] else [Instruction.toggleHidden]) []
      { r with file := e.file, hidden := e.hidden } := by
    split_ifs with heq
    · rw [heq]
      exact .nil
    · rw [show e.hidden = !r.hidden by cases h : e.hidden <;> cases h' : r.hidden <;> simp_all]
      exact .move trivial (by simp) rfl
  obtain ⟨lead, rest, offset, hsplit, hrest, hoffset, hlead⟩ := emits_leadOffset p
    { r with file := e.file, hidden := e.hidden } (e.offset - r.offset)
  obtain ⟨is, his, hrecord⟩ := emits_recording (p := p)
    { r with file := e.file, hidden := e.hidden, offset := offset } (e.row - r.row) hrest
  -- The lead and the recording instruction make up the whole offset between them.
  have hreach : Registers.mk e.file (r.row + (e.row - r.row))
      (offset + rest) e.hidden = registersAt e := by
    rw [Int32.add_sub_self, hoffset, UInt32.add_comm, UInt32.sub_add_cancel]
    rfl
  rw [← hreach]
  refine ⟨_, ?_, ((hfile.append htoggle).append hlead).append hrecord⟩
  rw [instructions, if_neg (UInt32.not_lt.2 h)]
  rw [hsplit, ok_bind]
  dsimp only
  rw [his]
  rfl

theorem emits_program {p : LineParameters} {r : Registers} {es : List LineEntry}
    (h : (r.offset :: es.map (·.offset)).IsChain (· ≤ ·)) :
    ∃ is last, program p r es = .ok (is ++ [.endSequence]) ∧
      Emits p r is (es.map fun e => (registersAt e).entry) last := by
  induction es generalizing r with
  | nil => exact ⟨[], r, rfl, .nil⟩
  | cons e es ih =>
    rw [List.map_cons, List.isChain_cons_cons] at h
    obtain ⟨first, hfirst, hemit⟩ := emits_instructions (p := p) h.1
    obtain ⟨rest, last, hrest, hemits⟩ := ih (r := registersAt e) h.2
    refine ⟨first ++ rest, last, ?_, hemit.append hemits⟩
    rw [program, hfirst, hrest]
    exact congrArg Except.ok (List.append_assoc _ _ _).symm

/-- The first entry that goes back is what keeps entries from having a program. -/
theorem program_eq_error {p : LineParameters} {r : Registers} {es : List LineEntry} {err : Error}
    (h : program p r es = .error err) :
    ∃ a b, [a, b] <:+: r.offset :: es.map (·.offset) ∧ b < a ∧
      err = .malformed (.offsetPrecedes b a) := by
  induction es generalizing r with
  | nil => simp [program] at h
  | cons e es ih =>
    rw [List.map_cons]
    by_cases hlt : e.offset < r.offset
    · rw [program, instructions, if_pos hlt] at h
      cases h
      exact ⟨_, _, ⟨[], _, rfl⟩, hlt, rfl⟩
    · obtain ⟨first, hfirst, -⟩ := emits_instructions (p := p) (UInt32.not_lt.1 hlt)
      rw [program, hfirst] at h
      cases hrest : program p (registersAt e) es with
      | ok rest =>
        rw [hrest] at h
        cases h
      | error err' =>
        rw [hrest] at h
        cases h
        obtain ⟨a, b, hab, hback, heq⟩ := ih hrest
        exact ⟨a, b, hab.trans (List.infix_cons (List.infix_refl _)), hback, heq⟩

theorem isChain_of_program {p : LineParameters} {r : Registers} {es : List LineEntry}
    {is : List Instruction} (h : program p r es = .ok is) :
    (r.offset :: es.map (·.offset)).IsChain (· ≤ ·) := by
  induction es generalizing r is with
  | nil => exact List.isChain_singleton _
  | cons e es ih =>
    rw [List.map_cons, List.isChain_cons_cons]
    by_cases hlt : e.offset < r.offset
    · rw [program, instructions, if_pos hlt] at h
      cases h
    · refine ⟨UInt32.not_lt.1 hlt, ?_⟩
      obtain ⟨first, hfirst, -⟩ := emits_instructions (p := p) (UInt32.not_lt.1 hlt)
      rw [program, hfirst] at h
      cases hrest : program p (registersAt e) es with
      | ok rest => exact ih hrest
      | error err =>
        rw [hrest] at h
        cases h

end LineProgram

end DebugSymbols
