import DebugSymbols.Proofs.Definition
import DebugSymbols.Proofs.Writers

namespace DebugSymbols.MethodDefinition

/-- The blocks as they are read back where their table was written. -/
def blocksBack (d : MethodDefinition) (o : Output) : Except Error (List CodeBlock) :=
  match (Writing.counted CodeBlock.write d.blocks).run o with
  | (.ok _, written) => CodeBlock.readTable.eval written.data o.position
  | (.error e, _) => .error e

variable {d : MethodDefinition} {p : LineParameters} {bytes : List UInt8}

theorem validate_eq_ok_iff : d.validate = .ok () ↔ d.damage? = none := by
  rw [validate]
  cases d.damage? <;> simp

/-- Points that are encoded, and read back as they are from some place, are free of damage unless
one is null. -/
theorem pointDamage?_eq_none_of_read (hnull : ∀ e ∈ d.lines, e.isNull = false)
    (hencode : LineProgram.encode p d.flags.columns d.flags.ends d.lines = .ok bytes)
    {data : Bytes} {start : Nat} (hlies : LiesAt data start bytes)
    (hread : (LineProgram.read p d.flags.columns d.flags.ends).eval data start = .ok ⟨d.lines⟩)
    (token : Token) : pointDamage? token 0 0 d.lines = none := by
  obtain ⟨is, his, -⟩ := LineProgram.encode_eq_ok hencode
  refine pointDamage?_eq_none_iff.2 ⟨hnull, LineProgram.isChain_of_program his, ?_⟩
  cases hends : d.flags.ends with
  | false =>
    -- Without ends there is nothing to be told apart.
    exact fun e he hend => absurd hend (List.any_eq_false.1 hends e he)
  | true =>
    have hkept := d.map_kept_lines
    rw [hends] at hencode hread hkept
    rw [← congrArg LineTable.mk hkept] at hread
    exact LineProgram.endDistance_ne_of_read hencode hlies (Prod.ext hread rfl)

/-- Blocks that are read back from any table are free of damage. -/
theorem blockDamage?_eq_none_of_back {o : Output} (h : d.blocksBack o = .ok d.blocks)
    (token : Token) : blockDamage? token 1 d.blocks = none := by
  rw [blocksBack] at h
  split at h
  · exact blockDamage?_eq_none_iff.2 (CodeBlock.toNat_index_of_readTable (Prod.ext h rfl))
  · cases h

theorem blocksBack_eq_ok (h : d.damage? = none) {o : Output} (ho : o.position ≤ o.data.size)
    (hfits : o.position + (encodeCounted CodeBlock.encode d.blocks).length < 2 ^ 32) :
    d.blocksBack o = .ok d.blocks := by
  have hwrites : Writing.Writes (Writing.counted CodeBlock.write d.blocks) o.position
      (encodeCounted CodeBlock.encode d.blocks) () :=
    .counted CodeBlock.writes_encode fun b _ => b.length_encode_pos
  rw [blocksBack, hwrites.run_of_fits o rfl ho hfits]
  exact (CodeBlock.reads_table (by omega) (index_block h)).eval_eq (LiesAt.overlay_self ho _)

/-- A definition without null points that is refused loses something if it is stored all the same:
its points cannot be encoded with the flags derived from them, or they are read back otherwise
wherever they stand, or its blocks are never read back.  One that is not refused loses nothing. -/
theorem refused_exactly_if_lossy (hnull : ∀ e ∈ d.lines, e.isNull = false) (p : LineParameters) :
    let encoded := LineProgram.encode p d.flags.columns d.flags.ends d.lines
    let readBack (bytes before after : List UInt8) :=
      (LineProgram.read p d.flags.columns d.flags.ends).eval
        (before ++ bytes ++ after).toArray before.length
    (∀ err, d.validate = .error err →
      (∃ err, encoded = .error err) ∨
      (∃ bytes, encoded = .ok bytes ∧ ∀ before after, readBack bytes before after ≠ .ok ⟨d.lines⟩) ∨
      ∀ o, d.blocksBack o ≠ .ok d.blocks) ∧
    (d.validate = .ok () →
      (∃ bytes, encoded = .ok bytes ∧ ∀ before after, readBack bytes before after = .ok ⟨d.lines⟩) ∧
      ∀ o : Output, o.position ≤ o.data.size →
        o.position + (encodeCounted CodeBlock.encode d.blocks).length < 2 ^ 32 →
        d.blocksBack o = .ok d.blocks) := by
  intro encoded readBack
  constructor
  · intro err hrefused
    cases hencode : encoded with
    | error e => exact .inl ⟨e, rfl⟩
    | ok bytes =>
      refine .inr (or_iff_not_imp_left.2 fun hsame => ?_)
      -- Points that are read back somewhere leave only the blocks to be refused for.
      simp only [not_exists, not_and, not_forall, not_not] at hsame
      obtain ⟨before, after, hread⟩ := hsame bytes rfl
      intro o hback
      have hpoints := pointDamage?_eq_none_of_read hnull hencode (LiesAt.of_toList_eq rfl) hread
      have hdamage : d.damage? = none :=
        Option.or_eq_none_iff.2 ⟨hpoints d.token, blockDamage?_eq_none_of_back hback d.token⟩
      rw [validate_eq_ok_iff.2 hdamage] at hrefused
      cases hrefused
  · intro hvalid
    have hdamage := validate_eq_ok_iff.1 hvalid
    obtain ⟨bytes, hencode⟩ := exists_encode_lines hdamage p d.flags.columns d.flags.ends
    exact ⟨⟨bytes, hencode, fun before after => (reads_lines hdamage hencode).eval_eq
      (LiesAt.of_toList_eq rfl)⟩, fun o => blocksBack_eq_ok hdamage⟩

/-- A point ends as many rows behind its start as mark an absent end, and so it is read back without
one. -/
theorem refused_exactly_if_lossy_reserved_distance :
    let d : MethodDefinition :=
      { token := ⟨7⟩, compileUnit := 1, lines := [⟨1, 1, 1, 0x1000000, 2, 0, false⟩] }
    (∀ e ∈ d.lines, e.isNull = false) ∧
      d.validate = .error (.malformed (.reservedEndDistance ⟨7⟩ 0)) ∧
      ∃ bytes, LineProgram.encode .default d.flags.columns d.flags.ends d.lines = .ok bytes ∧
        ∀ before after, (LineProgram.read .default d.flags.columns d.flags.ends).eval
          (before ++ bytes ++ after).toArray before.length ≠ .ok ⟨d.lines⟩ := by
  intro d
  have hnull : ∀ e ∈ d.lines, e.isNull = false := by decide
  have hrefused : d.validate = .error (.malformed (.reservedEndDistance ⟨7⟩ 0)) := by decide
  have hencode : LineProgram.encode .default d.flags.columns d.flags.ends d.lines =
      .ok [10, 0, 1, 1, 1, 255, 255, 255, 7, 2] := by decide +kernel
  have hblocks : d.blocksBack {} = .ok d.blocks := by decide +kernel
  refine ⟨hnull, hrefused, ?_⟩
  rcases (refused_exactly_if_lossy hnull .default).1 _ hrefused with ⟨err, herr⟩ | hread | hback
  · rw [hencode] at herr
    cases herr
  · exact hread
  · exact absurd hblocks (hback {})

end DebugSymbols.MethodDefinition
