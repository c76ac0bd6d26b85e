import DebugSymbols.Method.Definition
import DebugSymbols.Proofs.LineProgram.RoundTrip

namespace DebugSymbols.MethodDefinition

theorem pointDamage?_eq_none_iff {token : Token} {position : Nat} {last : UInt32}
    {es : List LineEntry} :
    pointDamage? token position last es = none ↔
      (∀ e ∈ es, e.isNull = false) ∧ (last :: es.map (·.offset)).IsChain (· ≤ ·) ∧
        ∀ e ∈ es, e.hasEnd → e.endDistance ≠ LineEntry.absentEnd := by
  induction es generalizing position last with
  | nil => simp [pointDamage?]
  | cons e es ih =>
    rw [pointDamage?, List.map_cons, List.isChain_cons_cons, List.forall_mem_cons,
      List.forall_mem_cons]
    split_ifs with hnull hback hreserved
    · simp [hnull]
    · simp [UInt32.not_le.2 hback]
    · simp [hreserved]
    have hsome : e.isNull = false := Bool.eq_false_iff.2 hnull
    have htold : e.hasEnd → e.endDistance ≠ LineEntry.absentEnd := not_and.1 hreserved
    rw [ih, and_iff_right hsome, and_iff_right (UInt32.not_lt.1 hback), and_iff_right htold]

theorem pointDamage?_ne_pointGoesBack {token : Token} {position : Nat} {last : UInt32}
    {es : List LineEntry} (h : (last :: es.map (·.offset)).IsChain (· ≤ ·)) (token' : Token)
    (position' : Nat) (before next : UInt32) :
    pointDamage? token position last es ≠ some (.pointGoesBack token' position' before next) := by
  induction es generalizing position last with
  | nil => exact nofun
  | cons e es ih =>
    obtain ⟨hle, hchain⟩ := List.isChain_cons_cons.1 h
    rw [pointDamage?, if_neg (UInt32.not_lt.2 hle)]
    split
    · exact nofun
    · split
      · exact nofun
      · exact ih hchain

theorem blockDamage?_eq_none_iff {token : Token} {position : Nat} {bs : List CodeBlock} :
    blockDamage? token position bs = none ↔
      ∀ k (hk : k < bs.length), bs[k].index.toNat = position + k := by
  induction bs generalizing position with
  | nil => simp [blockDamage?]
  | cons b bs ih =>
    rw [blockDamage?]
    constructor
    · intro h k hk
      split_ifs at h with hindex
      cases k with
      | zero => exact hindex
      | succ k =>
        rw [List.getElem_cons_succ, ih.1 h k (Nat.lt_of_succ_lt_succ hk), Nat.add_assoc,
          Nat.add_comm 1]
    · intro h
      have hindex : b.index.toNat = position := h 0 (Nat.zero_lt_succ _)
      rw [if_pos hindex, ih]
      intro k hk
      have := h (k + 1) (Nat.succ_lt_succ hk)
      rwa [List.getElem_cons_succ, ← Nat.add_assoc, Nat.add_right_comm] at this

theorem eq_blockIndex_of_blockDamage? {token : Token} {position : Nat} {bs : List CodeBlock}
    {damage : Damage} (h : blockDamage? token position bs = some damage) :
    ∃ position index, damage = .blockIndex token position index := by
  induction bs generalizing position with
  | nil => cases h
  | cons b bs ih =>
    rw [blockDamage?] at h
    split at h
    · exact ih h
    · cases h
      exact ⟨_, _, rfl⟩

variable {d : MethodDefinition}

theorem pointDamage?_eq_none (h : d.damage? = none) : pointDamage? d.token 0 0 d.lines = none :=
  (Option.or_eq_none_iff.1 h).1

theorem validate_ne_pointGoesBack (h : (d.lines.map (·.offset)).Pairwise (· ≤ ·)) (token : Token)
    (position : Nat) (last next : UInt32) :
    d.validate ≠ .error (.malformed (.pointGoesBack token position last next)) := by
  have hchain : (0 :: d.lines.map (·.offset)).IsChain (· ≤ ·) :=
    (List.pairwise_cons.2 ⟨fun _ _ => UInt32.zero_le, h⟩).isChain
  intro hvalidate
  rw [validate] at hvalidate
  cases hdamage : d.damage? with
  | none =>
    rw [hdamage] at hvalidate
    cases hvalidate
  | some damage =>
    rw [hdamage] at hvalidate
    cases hvalidate
    rcases Option.or_eq_some_iff.1 hdamage with hpoint | ⟨-, hblock⟩
    · exact pointDamage?_ne_pointGoesBack hchain token position last next hpoint
    · obtain ⟨_, _, heq⟩ := eq_blockIndex_of_blockDamage? hblock
      cases heq

theorem index_block (h : d.damage? = none) (k : Nat) (hk : k < d.blocks.length) :
    d.blocks[k].index = UInt32.ofNat (1 + k) := by
  rw [← blockDamage?_eq_none_iff.1 (Option.or_eq_none_iff.1 h).2 k hk, UInt32.ofNat_toNat]

/-- Columns and ends are left out only where no point has one. -/
theorem map_kept_lines (d : MethodDefinition) :
    d.lines.map (·.kept d.flags.columns d.flags.ends) = d.lines := by
  refine (List.map_congr_left fun e he => ?_).trans d.lines.map_id
  have hcolumn : (if d.flags.columns then e.column else -1) = e.column := by
    split_ifs with hsome
    · rfl
    · have habsent := List.any_eq_false.1 (Bool.not_eq_true _ ▸ hsome) e he
      simp only [LineEntry.hasColumn, bne_iff_ne, ne_eq, Decidable.not_not] at habsent
      exact habsent.symm
  have hend : (if d.flags.ends then e.endRow else -1) = e.endRow ∧
      (if d.flags.ends then e.endColumn else -1) = e.endColumn := by
    split_ifs with hsome
    · exact ⟨rfl, rfl⟩
    · have habsent := List.any_eq_false.1 (Bool.not_eq_true _ ▸ hsome) e he
      simp only [LineEntry.hasEnd, Bool.or_eq_true, bne_iff_ne, ne_eq, not_or,
        Decidable.not_not] at habsent
      exact ⟨habsent.1.symm, habsent.2.symm⟩
  rw [LineEntry.kept, hcolumn, hend.1, hend.2]
  rfl

theorem exists_encode_lines (h : d.damage? = none) (p : LineParameters) (columns ends : Bool) :
    ∃ bytes, LineProgram.encode p columns ends d.lines = .ok bytes := by
  cases hencode : LineProgram.encode p columns ends d.lines with
  | ok bytes => exact ⟨bytes, rfl⟩
  | error e =>
    obtain ⟨a, b, hab, hback, -⟩ := LineProgram.encode_eq_error hencode
    -- Encoding fails only at an offset that goes back, and a valid definition has none.
    have hchain := (pointDamage?_eq_none_iff.1 (pointDamage?_eq_none h)).2.1.tail
    have hpair : [a.offset, b.offset] <:+: d.lines.map (·.offset) :=
      hab.map LineEntry.offset
    have hle := List.IsChain.infix hchain hpair
    exact absurd (List.isChain_pair.1 hle) (UInt32.not_le.2 hback)

theorem reads_lines (h : d.damage? = none) {p : LineParameters} {bytes : List UInt8}
    (hencode : LineProgram.encode p d.flags.columns d.flags.ends d.lines = .ok bytes) :
    Reader.Reads (LineProgram.read p d.flags.columns d.flags.ends) bytes ⟨d.lines⟩ := by
  have hread := LineProgram.reads_encode hencode
    fun _ => (pointDamage?_eq_none_iff.1 (pointDamage?_eq_none h)).2.2
  rwa [map_kept_lines] at hread

end DebugSymbols.MethodDefinition
