import DebugSymbols.Proofs.Bytes.Moving
import DebugSymbols.Proofs.LineProgram.Forms

namespace DebugSymbols

open Reader (Movable)

namespace Instruction

theorem movable_readExtendedOperands (opcode : UInt8) : Movable (readExtendedOperands opcode) := by
  unfold readExtendedOperands
  split
  · exact .pure _
  split
  · exact Movable.varint.map _
  split
  · exact .pure _
  split
  · exact .pure _
  · exact .fail _

theorem movable_readStandard (opcode : UInt8) : Movable (readStandard opcode) := by
  unfold readStandard
  split
  · exact .pure _
  split
  · exact Movable.varint.map _
  split
  · exact Movable.signedVarint.map _
  split
  · exact Movable.varint.map _
  split
  · exact .pure _
  · exact .fail _

/-- A declared length counts from where it stands. -/
theorem movable_readExtended : Movable readExtended := by
  have hparts : Movable (do
      let length ← Reader.u8
      let opcode ← Reader.u8
      let i ← readExtendedOperands opcode
      pure (length, i) : Reader (UInt8 × Instruction)) :=
    Movable.u8.bind fun length => Movable.u8.bind fun opcode =>
      (movable_readExtendedOperands opcode).bind fun i => .pure (length, i)
  intro front front' back k q i h
  rw [readExtended_apply] at h
  split at h
  case h_1 length j m hread =>
    obtain ⟨j', rfl, hread'⟩ := hparts front front' back k m _ hread
    cases h
    refine ⟨if i = .endSequence then j' else k + 1 + length.toNat, ?_, ?_⟩
    · split <;> omega
    · rw [readExtended_apply, hread']
      dsimp only
      congr 1
      split <;> omega
  case h_2 => cases h

theorem movable_read (p : LineParameters) : Movable (read p) := by
  apply Movable.u8.bind
  intro opcode
  split
  · exact movable_readExtended
  split
  · exact movable_readStandard opcode
  · exact .pure _

end Instruction

namespace LineProgram

theorem movable_run (p : LineParameters) (r : Registers) : Movable (run p r) := by
  intro front front' back k q entries h
  generalize hdata : (front ++ back).toArray = data at h
  generalize hstart : front.length + k = start at h
  fun_induction run p r data start generalizing k q entries with
  | case1 | case3 | case5 => cases h
  | case2 r start q' hread =>
    cases h
    subst hdata hstart
    obtain ⟨j, rfl, hread'⟩ := Instruction.movable_read p front front' back k _ _ hread
    refine ⟨j, rfl, ?_⟩
    rw [run_of_read hread', if_pos rfl]
  | case4 r start i m hread hne r' hstep rest q' hrest ih =>
    rw [r.step_eq] at hstep
    cases hstep
    cases h
    subst hdata hstart
    obtain ⟨j, rfl, hread'⟩ := Instruction.movable_read p front front' back k _ _ hread
    obtain ⟨j', rfl, hrest'⟩ := ih j q' rest rfl hrest
    refine ⟨j', rfl, ?_⟩
    rw [run_of_read hread', if_neg hne, hrest']

theorem movable_readColumn (e : LineEntry) : Movable (readColumn e) :=
  Movable.signedVarint.bind fun _ => .pure _

theorem movable_readEnd (e : LineEntry) : Movable (readEnd e) := by
  apply Movable.varint.bind
  intro distance
  split
  · exact .pure _
  · exact Movable.signedVarint.bind fun column => .pure _

def readBehind (p : LineParameters) (columns ends : Bool)
    (executed : List LineEntry × Registers) : Reader LineTable :=
  run p executed.2 >>= fun entries =>
  (if columns then Reader.traverse readColumn (executed.1 ++ entries)
    else pure (executed.1 ++ entries)) >>= fun entries =>
  (if ends then Reader.traverse readEnd entries else pure entries) >>= fun entries =>
  pure ⟨entries⟩

theorem movable_readBehind (p : LineParameters) (columns ends : Bool)
    (executed : List LineEntry × Registers) : Movable (readBehind p columns ends executed) := by
  refine (movable_run p _).bind fun entries => Movable.bind ?_ fun entries =>
    Movable.bind ?_ fun entries => .pure _
  · split
    · exact .traverse movable_readColumn _
    · exact .pure _
  · split
    · exact .traverse movable_readEnd entries
    · exact .pure _

/-- Reading a table that begins with complete instructions is executing them and reading on. -/
theorem read_of_forms {p : LineParameters} {pieces : List Piece}
    (h : ∀ x ∈ pieces, Instruction.Form p x.1 x.2) (columns ends : Bool)
    (front back : List UInt8) :
    let program := pieces.flatMap Prod.fst
    read p columns ends (front ++ program ++ back).toArray front.length =
      readBehind p columns ends (execute p {} (pieces.map Prod.snd))
        (front ++ program ++ back).toArray (front ++ program).length := by
  intro program
  have hlies : LiesAt (front ++ program ++ back).toArray front.length program :=
    LiesAt.of_toList_eq rfl
  have hrun := run_pieces (fun x hx => ⟨(h x hx).reads, (h x hx).ne_endSequence⟩) {} hlies
  rw [← List.length_append] at hrun
  rw [read_eq, readBehind, Reader.bind_apply, Reader.bind_apply, hrun]
  generalize run p _ _ _ = result
  rcases result with ⟨e | entries, m⟩ <;> rfl

theorem execute_snoc_reserved (p : LineParameters) (r : Registers) (is : List Instruction)
    (opcode : UInt8) : execute p r (is ++ [.reserved opcode]) = execute p r is := by
  rw [execute_append]
  exact Prod.ext (List.append_nil _) rfl

/-- Every instruction that is executed, and whose declared length covers its operands, has one of
the forms.  Behind any number of them, at any place of a stream, a reserved instruction may be
inserted: the table is the same, and it ends as much later as the instruction is long. -/
theorem reserved_transparent (p : LineParameters) :
    (∀ data start x q, (Instruction.readExecuted p).run data start = (.ok x, q) → x.Covered →
      x.next ≤ data.size → x.instruction ≠ .endSequence →
      ∃ bytes, Instruction.Form p bytes x.instruction ∧ LiesAt data start bytes ∧
        x.next = start + bytes.length) ∧
    ∀ (columns ends : Bool) (front back : List UInt8) (pieces : List Piece) (t : LineTable)
      (stop : Nat) (n opcode : UInt8) (payload : List UInt8),
      (∀ x ∈ pieces, Instruction.Form p x.1 x.2) →
      payload.length + 1 = n.toNat → 0x41 ≤ opcode ∧ opcode ≤ 0x7F →
      let program := pieces.flatMap Prod.fst
      let reserved := 0 :: n :: opcode :: payload
      (read p columns ends).run (front ++ program ++ back).toArray front.length =
        (.ok t, stop) →
      (read p columns ends).run (front ++ (program ++ reserved) ++ back).toArray front.length =
        (.ok t, stop + (n.toNat + 2)) := by
  refine ⟨fun data start x q => Instruction.exists_form_of_readExecuted, ?_⟩
  intro columns ends front back pieces t stop n opcode payload hpieces hpayload hopcode program
    reserved h
  have hreserved : Instruction.Form p reserved (.reserved opcode) :=
    .extended (.reserved hopcode) (by simpa [Nat.add_comm] using hpayload.symm)
  have hlength : reserved.length = n.toNat + 2 := by
    simp only [reserved, List.length_cons, hpayload]
  have hread := read_of_forms hpieces columns ends front back
  have hinserted : ∀ x ∈ pieces ++ [(reserved, .reserved opcode)], Instruction.Form p x.1 x.2 :=
    List.forall_mem_append.2 ⟨hpieces, List.forall_mem_singleton.2 hreserved⟩
  have hread' := read_of_forms hinserted columns ends front back
  -- Nothing behind the instructions in front tells the two streams apart.
  rw [List.map_append, List.map_singleton, execute_snoc_reserved, List.flatMap_append,
    List.flatMap_singleton] at hread'
  obtain ⟨j, hj, hmoved⟩ := movable_readBehind p columns ends _ (front ++ program)
    (front ++ (program ++ reserved)) back 0 stop t (hread.symm.trans h)
  refine hread'.trans (hmoved.trans ?_)
  rw [hj, List.length_append, List.length_append, List.length_append, hlength]
  congr 1
  omega

/-- A file is set with a byte of padding.  What the inserted instruction carries looks like the end
of the sequence, and columns follow the program. -/
theorem reserved_transparent_looks_like_end :
    let program : List Piece := [([0, 3, 4, 5, 7], .setSource 5), ([10], .special 10)]
    let back : List UInt8 := [35, 0, 1, 1, 2, 9]
    let t : LineTable := ⟨[{ file := 5, row := 1, column := 2, offset := 0 },
      { file := 5, row := 2, column := 9, offset := 3 }]⟩
    let data (inserted : List UInt8) : Bytes :=
      ([255] ++ (program.flatMap Prod.fst ++ inserted) ++ back).toArray
    (read .default true false).run (data []) 1 = (.ok t, 13) ∧
      (read .default true false).run (data [0, 4, 0x41, 0, 1, 1]) 1 = (.ok t, 19) := by
  intro program back t data
  have hread : (read .default true false).run (data []) 1 = (.ok t, 13) := by cbv
  have hfile : Varint.Form 4 [5] 5 := .last (b := 5) (by decide) fun h => absurd h (by decide)
  have hprogram : ∀ x ∈ program, Instruction.Form .default x.1 x.2 := by
    refine List.forall_mem_cons.2 ⟨?_, List.forall_mem_singleton.2 (.special (by decide))⟩
    exact @Instruction.Form.extended .default 3 4 [5] [7] _ (.setSource hfile) rfl
  exact ⟨hread, (reserved_transparent .default).2 true false [255] back program t 13 4 0x41
    [0, 1, 1] hprogram rfl (by decide) hread⟩

end LineProgram

end DebugSymbols
