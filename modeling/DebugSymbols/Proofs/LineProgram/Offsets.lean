import DebugSymbols.Proofs.LineProgram.Lookup
import DebugSymbols.Proofs.LineProgram.Trace

namespace DebugSymbols

/-- How far an instruction advances the offset. -/
def Instruction.offsetAdvance (p : LineParameters) : Instruction → Nat
  | .advanceOffset delta => delta.toNat
  | .advanceMax => p.maxIncrement.toNat
  | .special opcode => ((opcode - p.opcodeBase) / p.lineRange).toNat
  | .copy | .advanceRow _ | .setFile _ | .setSource _ | .toggleHidden | .reserved _
  | .endSequence => 0

theorem Registers.toNat_offset_next (p : LineParameters) (r : Registers) (i : Instruction) :
    (r.next p i).offset.toNat = (r.offset.toNat + i.offsetAdvance p) % 2 ^ 32 := by
  cases i with
  | advanceOffset delta => exact UInt32.toNat_add _ _
  | advanceMax => exact UInt32.toNat_add _ _
  | special opcode =>
    rw [next, UInt32.toNat_add, UInt8.toNat_toUInt32]
    rfl
  | copy | advanceRow | setFile | setSource | toggleHidden | reserved | endSequence =>
    exact (Nat.mod_eq_of_lt r.offset.toNat_lt).symm

namespace LineProgram

/-- The offsets, not wrapped, at which instructions record when they begin at offset `n`. -/
def reachedOffsets (p : LineParameters) (n : Nat) : List Instruction → List Nat
  | [] => []
  | i :: is =>
    let n' := n + i.offsetAdvance p
    if i.records then n' :: reachedOffsets p n' is else reachedOffsets p n' is

theorem isChain_reachedOffsets (p : LineParameters) (n : Nat) (is : List Instruction) :
    (n :: reachedOffsets p n is).IsChain (· ≤ ·) := by
  induction is generalizing n with
  | nil => exact List.isChain_singleton n
  | cons i is ih =>
    have hle : n ≤ n + i.offsetAdvance p := Nat.le_add_right _ _
    rw [reachedOffsets]
    split
    · exact (ih _).cons_cons hle
    · exact (ih _).imp_head fun h => hle.trans h

/-- What the register records is what is reached, wrapped. -/
theorem map_offset_execute {p : LineParameters} {r : Registers} {n : Nat}
    (h : r.offset.toNat = n % 2 ^ 32) (is : List Instruction) :
    (execute p r is).1.map (·.offset.toNat) = (reachedOffsets p n is).map (· % 2 ^ 32) := by
  induction is generalizing r n with
  | nil => rfl
  | cons i is ih =>
    have hnext : (r.next p i).offset.toNat = (n + i.offsetAdvance p) % 2 ^ 32 := by
      rw [Registers.toNat_offset_next, h, Nat.mod_add_mod]
    rw [execute, reachedOffsets]
    dsimp only
    split
    · rw [List.map_cons, List.map_cons, ih hnext]
      congr 1
    · exact ih hnext

/-- On its way from `m` to `n` the register comes out lower if the way, less whole turns, carries it
over its end. -/
theorem mod_le_mod_iff {m n : Nat} (h : m ≤ n) :
    m % 2 ^ 32 ≤ n % 2 ^ 32 ↔ m % 2 ^ 32 + (n - m) % 2 ^ 32 < 2 ^ 32 := by
  omega

theorem isChain_iff_neighbours {R : α → α → Prop} {as : List α} :
    as.IsChain R ↔ ∀ a b, [a, b] <:+: as → R a b := by
  constructor
  · intro h a b hab
    have hpair := List.IsChain.infix h hab
    exact List.isChain_pair.1 hpair
  · intro h
    exact (List.isChain_isInfix as).imp fun a b => h a b

/-- The offsets of a table that is read are those that its program reaches, wrapped.  The table is
ordered exactly if between no two neighbours the register is carried over its end, besides by whole
turns; so it is if the register does not pass its end between them at all. -/
theorem ordered_iff_not_carried {p : LineParameters} {columns ends : Bool} {data : Bytes}
    {start q : Nat} {t : LineTable} (h : (read p columns ends).run data start = (.ok t, q)) :
    ∃ executed stop reached, (trace p).run data start = (.ok executed, stop) ∧
      reached = reachedOffsets p 0 (executed.map Executed.instruction) ∧
      reached.IsChain (· ≤ ·) ∧ t.entries.map (·.offset.toNat) = reached.map (· % 2 ^ 32) ∧
      (t.Ordered ↔
        ∀ m n, [m, n] <:+: reached → m % 2 ^ 32 + (n - m) % 2 ^ 32 < 2 ^ 32) ∧
      ((∀ m n, [m, n] <:+: reached → m / 2 ^ 32 = n / 2 ^ 32) → t.Ordered) := by
  obtain ⟨executed, stop, htrace, hentries⟩ := trace_of_read h
  have hchain := (isChain_reachedOffsets p 0 (executed.map Executed.instruction)).tail
  have hoffsets : t.entries.map (·.offset.toNat) =
      (reachedOffsets p 0 (executed.map Executed.instruction)).map (· % 2 ^ 32) := by
    have hregisters := congrArg (List.map fun r : Registers => r.offset.toNat) hentries
    rw [List.map_map, List.map_map] at hregisters
    exact hregisters.trans (map_offset_execute rfl _)
  have hordered : t.Ordered ↔
      ∀ m n, [m, n] <:+: reachedOffsets p 0 (executed.map Executed.instruction) →
        m % 2 ^ 32 + (n - m) % 2 ^ 32 < 2 ^ 32 := by
    rw [LineTable.ordered_iff_isChain, hoffsets, List.isChain_map, isChain_iff_neighbours]
    refine forall_congr' fun m => forall_congr' fun n => imp_congr_right fun hmn => ?_
    exact mod_le_mod_iff (isChain_iff_neighbours.1 hchain m n hmn)
  refine ⟨executed, stop, _, htrace, rfl, hchain, hoffsets, hordered, fun hsame => ?_⟩
  refine hordered.2 fun m n hmn => ?_
  rw [← mod_le_mod_iff (isChain_iff_neighbours.1 hchain m n hmn)]
  have hle := isChain_iff_neighbours.1 hchain m n hmn
  have hturn := hsame m n hmn
  omega

/-- The last offset of all is recorded, and the register passes its end only behind it. -/
theorem ordered_iff_not_carried_last_offset :
    let data : Bytes := #[1, 2, 255, 255, 255, 255, 15, 1, 2, 2, 0, 1, 1]
    let t : LineTable := ⟨[{ file := 1, row := 1, offset := 0 },
      { file := 1, row := 1, offset := 4294967295 }]⟩
    (read .default false false).run data 0 = (.ok t, 13) ∧ t.Ordered := by
  intro data t
  have hread : (read .default false false).run data 0 = (.ok t, 13) := by cbv
  obtain ⟨executed, stop, reached, htrace, hreached, -, -, -, hordered⟩ :=
    ordered_iff_not_carried hread
  have hvalues : ((fun xs => reachedOffsets .default 0 (xs.map Executed.instruction)) <$>
      (trace .default).eval data 0) = .ok [0, 4294967295] := by cbv
  have hlist : reached = [0, 4294967295] := by
    have htrace : (trace .default).eval data 0 = .ok executed := congrArg Prod.fst htrace
    rw [htrace] at hvalues
    exact hreached.trans (Except.ok.inj hvalues)
  refine ⟨hread, hordered fun m n hmn => ?_⟩
  have hturn : ∀ k ∈ [m, n], k / 2 ^ 32 = 0 := by
    intro k hk
    have hmem := hmn.subset hk
    rw [hlist] at hmem
    rcases List.mem_pair.1 hmem with rfl | rfl <;> rfl
  rw [hturn m (by simp), hturn n (by simp)]

/-- Behind the last offset of all the register begins again.  A look-up stops at the first of the
two points and so does not find the second, which begins where it looks. -/
theorem table_goes_back :
    let data : Bytes := #[2, 255, 255, 255, 255, 15, 1, 2, 2, 1, 0, 1, 1]
    let first : LineEntry := { file := 1, row := 1, offset := 4294967295 }
    let second : LineEntry := { file := 1, row := 1, offset := 1 }
    (read .default false false).run data 0 = (.ok ⟨[first, second]⟩, 13) ∧
      ¬LineTable.Ordered ⟨[first, second]⟩ ∧ LineTable.find? ⟨[first, second]⟩ 1 = none := by
  intro data first second
  refine ⟨by cbv, ?_, by decide⟩
  intro h
  exact absurd (List.rel_of_pairwise_cons h (List.mem_singleton.2 rfl)) (by decide)

end LineProgram

end DebugSymbols
