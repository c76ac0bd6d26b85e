import DebugSymbols.Proofs.LineProgram.Emission

namespace DebugSymbols

/-- What a program keeps of an entry, with or without columns and ends. -/
def LineEntry.kept (columns ends : Bool) (e : LineEntry) : LineEntry :=
  { e with
    column := if columns then e.column else -1
    endRow := if ends then e.endRow else -1
    endColumn := if ends then e.endColumn else -1 }

namespace LineProgram

theorem reads_column (e : LineEntry) :
    Reader.Reads (readColumn (e.kept false false)) (Varint.encodeSigned e.column)
      (e.kept true false) :=
  (Reader.Reads.signedVarint e.column).bind_pure rfl

theorem reads_end {columns : Bool} {e : LineEntry}
    (h : e.hasEnd → e.endDistance ≠ LineEntry.absentEnd) :
    Reader.Reads (readEnd (e.kept columns false)) (encodeEnd e) (e.kept columns true) := by
  rw [encodeEnd]
  split_ifs with hend
  · apply (Reader.Reads.varint _).bind
    rw [if_neg (h hend)]
    apply (Reader.Reads.signedVarint _).bind_pure
    simp only [LineEntry.kept, LineEntry.endDistance, Int32.toInt32_toUInt32, Int32.add_sub_self,
      if_true]
  · -- Without an end the mark stands alone.
    rw [← List.append_nil (Varint.encode _)]
    apply (Reader.Reads.varint _).bind
    rw [if_pos rfl]
    simp only [LineEntry.hasEnd, Bool.or_eq_true, bne_iff_ne, not_or, not_not] at hend
    simp only [LineEntry.kept, if_true, hend]
    exact Reader.Reads.pure _

theorem read_eq [Build] (p : LineParameters) (columns ends : Bool) :
    read p columns ends = (run p {} >>= fun es =>
      (if columns then Reader.traverse readColumn es else pure es) >>= fun es =>
      (if ends then Reader.traverse readEnd es else pure es) >>= fun es => pure ⟨es⟩) := by
  cases columns <;> cases ends <;> rfl

theorem encode_eq_ok {p : LineParameters} {columns ends : Bool} {entries : List LineEntry}
    {bytes : List UInt8} (h : encode p columns ends entries = .ok bytes) :
    ∃ is, program p {} entries = .ok is ∧ bytes = is.flatMap Instruction.encode ++
      (if columns then entries.flatMap fun e => Varint.encodeSigned e.column else []) ++
      (if ends then entries.flatMap encodeEnd else []) := by
  rw [encode] at h
  cases his : program p {} entries with
  | error err =>
    rw [his] at h
    cases h
  | ok is =>
    rw [his] at h
    cases h
    exact ⟨is, rfl, rfl⟩

theorem reads_run_of_program {p : LineParameters} {entries : List LineEntry}
    {written : List Instruction} (h : program p {} entries = .ok written) :
    Reader.Reads (run p {}) (written.flatMap Instruction.encode)
      (entries.map (·.kept false false)) := by
  obtain ⟨is, last, hprogram, hemits⟩ := emits_program (isChain_of_program h)
  cases hprogram.symm.trans h
  have hrun := reads_run is hemits.wellFormed {}
  rw [hemits.execute_eq] at hrun
  rw [List.flatMap_append, List.flatMap_singleton]
  exact hrun

theorem reads_columns (columns : Bool) (entries : List LineEntry) :
    Reader.Reads
      (if columns then Reader.traverse readColumn (entries.map (·.kept false false))
        else pure (entries.map (·.kept false false)))
      (if columns then entries.flatMap fun e => Varint.encodeSigned e.column else [])
      (entries.map (·.kept columns false)) := by
  cases columns with
  | true => exact Reader.Reads.traverse entries fun e _ => reads_column e
  | false => exact Reader.Reads.pure _

/-- The bytes of a table are read back as what they keep of its entries. -/
theorem reads_encode {p : LineParameters} {columns ends : Bool} {entries : List LineEntry}
    {bytes : List UInt8} (h : encode p columns ends entries = .ok bytes)
    (hends : ends → ∀ e ∈ entries, e.hasEnd → e.endDistance ≠ LineEntry.absentEnd) :
    Reader.Reads (read p columns ends) bytes ⟨entries.map (·.kept columns ends)⟩ := by
  obtain ⟨written, hwritten, rfl⟩ := encode_eq_ok h
  have hends : Reader.Reads
      (if ends then Reader.traverse readEnd (entries.map (·.kept columns false))
        else pure (entries.map (·.kept columns false)))
      (if ends then entries.flatMap encodeEnd else []) (entries.map (·.kept columns ends)) := by
    cases ends with
    | true => exact Reader.Reads.traverse entries fun e he => reads_end (hends rfl e he)
    | false => exact Reader.Reads.pure _
  rw [read_eq, List.append_assoc]
  exact (reads_run_of_program hwritten).bind ((reads_columns columns entries).bind
    (hends.bind_pure rfl))

/-- Where ends are read back as they are, each of them can be told from an absent one: the first
that cannot is lost, whatever is made of those behind it. -/
theorem endDistance_ne_of_traverse {columns : Bool} {es : List LineEntry} {data : Bytes}
    {p q : Nat} (hlies : LiesAt data p (es.flatMap encodeEnd))
    (hread : Reader.traverse readEnd (es.map (·.kept columns false)) data p =
      (.ok (es.map (·.kept columns true)), q)) :
    ∀ e ∈ es, e.hasEnd → e.endDistance ≠ LineEntry.absentEnd := by
  induction es generalizing p q with
  | nil => exact nofun
  | cons e es ih =>
    rw [List.flatMap_cons, LiesAt.append_iff] at hlies
    obtain ⟨e', m, hfirst, hread⟩ := Reader.bind_eq_ok.1 hread
    obtain ⟨es', m', hrest, hread⟩ := Reader.bind_eq_ok.1 hread
    obtain ⟨rfl, rfl⟩ := List.cons.inj (Except.ok.inj (congrArg Prod.fst hread))
    have htold : e.hasEnd → e.endDistance ≠ LineEntry.absentEnd := by
      intro hend hreserved
      rw [encodeEnd, if_pos hend, hreserved, LiesAt.append_iff] at hlies
      rw [readEnd, (Reader.Reads.varint _).bind_run hlies.1.1, if_pos rfl] at hfirst
      have heq := Except.ok.inj (congrArg Prod.fst hfirst)
      have hrow : -1 = e.endRow := congrArg LineEntry.endRow heq
      have hcolumn : -1 = e.endColumn := congrArg LineEntry.endColumn heq
      rw [LineEntry.hasEnd, ← hrow, ← hcolumn] at hend
      exact absurd hend (by decide)
    rw [(reads_end htold) data p hlies.1] at hfirst
    cases hfirst
    exact List.forall_mem_cons.2 ⟨htold, ih hlies.2 hrest⟩

theorem endDistance_ne_of_read {p : LineParameters} {columns : Bool} {entries : List LineEntry}
    {bytes : List UInt8} (h : encode p columns true entries = .ok bytes) {data : Bytes}
    {start stop : Nat} (hlies : LiesAt data start bytes)
    (hread : read p columns true data start = (.ok ⟨entries.map (·.kept columns true)⟩, stop)) :
    ∀ e ∈ entries, e.hasEnd → e.endDistance ≠ LineEntry.absentEnd := by
  obtain ⟨written, hwritten, rfl⟩ := encode_eq_ok h
  rw [List.append_assoc, LiesAt.append_iff, LiesAt.append_iff] at hlies
  obtain ⟨hprogram, hcolumns, hends⟩ := hlies
  rw [read_eq, (reads_run_of_program hwritten).bind_run hprogram,
    (reads_columns columns entries).bind_run hcolumns] at hread
  obtain ⟨es, m, hes, heq⟩ := Reader.bind_eq_ok.1 hread
  cases heq
  exact endDistance_ne_of_traverse hends hes

theorem program_map_kept (p : LineParameters) (columns ends : Bool) (r : Registers)
    (es : List LineEntry) :
    program p r (es.map (·.kept columns ends)) = program p r es := by
  induction es generalizing r with
  | nil => rfl
  | cons e es ih =>
    rw [List.map_cons, program, program, ← ih (registersAt e)]
    rfl

/-- What a table keeps takes the bytes of the table. -/
theorem encode_map_kept (p : LineParameters) (columns ends : Bool) (entries : List LineEntry) :
    encode p columns ends (entries.map (·.kept columns ends)) =
      encode p columns ends entries := by
  rw [encode, encode, program_map_kept]
  have hcolumns : (if columns then (entries.map (·.kept columns ends)).flatMap fun e =>
      Varint.encodeSigned e.column else []) =
      if columns then entries.flatMap fun e => Varint.encodeSigned e.column else [] := by
    cases columns
    · rfl
    · rw [if_pos rfl, if_pos rfl, List.flatMap_map]
      rfl
  have hends : (if ends then (entries.map (·.kept columns ends)).flatMap encodeEnd else []) =
      if ends then entries.flatMap encodeEnd else [] := by
    cases ends
    · rfl
    · rw [if_pos rfl, if_pos rfl, List.flatMap_map]
      rfl
  rw [hcolumns, hends]

theorem encode_eq_error {p : LineParameters} {columns ends : Bool} {entries : List LineEntry}
    {err : Error} (h : encode p columns ends entries = .error err) :
    ∃ a b, [a, b] <:+: entries ∧ b.offset < a.offset ∧
      err = .malformed (.offsetPrecedes b.offset a.offset) := by
  have hprogram : program p {} entries = .error err := by
    rw [encode] at h
    cases hprogram : program p {} entries with
    | error err' =>
      rw [hprogram] at h
      cases h
      rfl
    | ok is =>
      rw [hprogram] at h
      cases h
  obtain ⟨x, y, hxy, hback, rfl⟩ := program_eq_error hprogram
  rcases List.infix_cons_iff.1 hxy with hprefix | hinfix
  · -- Nothing precedes the offset 0 at which the registers begin.
    obtain ⟨rfl, -⟩ := List.cons_prefix_cons.1 hprefix
    exact absurd hback (UInt32.not_lt.2 UInt32.zero_le)
  · obtain ⟨l, hl, heq⟩ := List.infix_map_iff.1 hinfix
    obtain ⟨a, b, rfl⟩ := List.length_eq_two.1 (by simpa using (congrArg List.length heq).symm)
    simp only [List.map_cons, List.map_nil, List.cons.injEq, and_true] at heq
    obtain ⟨rfl, rfl⟩ := heq
    exact ⟨a, b, hl, hback, rfl⟩

/-- A table has no bytes exactly if an offset lies below the one before it, and no other error is
possible.  Bytes that it has are read back wherever they stand, up to the columns and ends that are
left out, and what is read back has the same bytes. -/
theorem table_round_trip (p : LineParameters) (columns ends : Bool) (entries : List LineEntry) :
    ((∃ err, encode p columns ends entries = .error err) ↔
      ∃ a b, [a, b] <:+: entries ∧ b.offset < a.offset) ∧
    (∀ err, encode p columns ends entries = .error err →
      ∃ a b, [a, b] <:+: entries ∧ b.offset < a.offset ∧
        err = .malformed (.offsetPrecedes b.offset a.offset)) ∧
    ∀ bytes, encode p columns ends entries = .ok bytes →
      (ends → ∀ e ∈ entries, e.hasEnd → e.endDistance ≠ LineEntry.absentEnd) →
      ∀ before after : List UInt8,
        (read p columns ends).run (before ++ bytes ++ after).toArray before.length =
          (.ok ⟨entries.map (·.kept columns ends)⟩, before.length + bytes.length) ∧
        encode p columns ends (entries.map (·.kept columns ends)) = .ok bytes := by
  refine ⟨⟨?_, ?_⟩, fun err h => encode_eq_error h, ?_⟩
  · rintro ⟨err, h⟩
    obtain ⟨a, b, hab, hback, -⟩ := encode_eq_error h
    exact ⟨a, b, hab, hback⟩
  · rintro ⟨a, b, hab, hback⟩
    cases h : encode p columns ends entries with
    | error err => exact ⟨err, rfl⟩
    | ok bytes =>
      obtain ⟨is, his, -⟩ := encode_eq_ok h
      have hchain := List.IsChain.infix (isChain_of_program his).tail (hab.map (·.offset))
      exact absurd (List.isChain_pair.1 hchain) (UInt32.not_le.2 hback)
  · intro bytes h hends before after
    have hread := reads_encode h hends (before ++ bytes ++ after).toArray before.length
      (LiesAt.of_toList_eq rfl)
    exact ⟨hread, (encode_map_kept p columns ends entries).trans h⟩

/-- A hidden point with an end and a visible one without, inside other bytes. -/
theorem table_round_trip_hidden_point :
    let entries : List LineEntry := [⟨2, -5, 7, -4, 9, 300, true⟩, ⟨2, -4, -1, -1, -1, 300, false⟩]
    let bytes : List UInt8 := [0, 2, 4, 2, 0, 1, 64, 2, 172, 2, 3, 250, 255, 255, 255, 15, 1,
      0, 1, 64, 11, 0, 1, 1, 7, 255, 255, 255, 255, 15, 1, 9, 255, 255, 255, 7]
    encode .default true true entries = .ok bytes ∧
      (true → ∀ e ∈ entries, e.hasEnd → e.endDistance ≠ LineEntry.absentEnd) ∧
      (read .default true true).run ([1, 0] ++ bytes ++ [7]).toArray 2 = (.ok ⟨entries⟩, 38) := by
  intro entries bytes
  have hencode : encode .default true true entries = .ok bytes := by decide +kernel
  have hends : true → ∀ e ∈ entries, e.hasEnd → e.endDistance ≠ LineEntry.absentEnd := by
    decide
  exact ⟨hencode, hends,
    ((table_round_trip .default true true entries).2.2 bytes hencode hends [1, 0] [7]).1⟩

end LineProgram

end DebugSymbols
