import DebugSymbols.Bytes.Primitive
import DebugSymbols.Proofs.Bytes.Overlay
import DebugSymbols.Proofs.Bytes.Values

namespace DebugSymbols

namespace Output

variable {o : Output}

theorem write_nil (h : o.position ≤ o.data.size) : o.write [] = o := by
  have hdata : overlay o.data o.position [] = o.data := by
    rw [← Array.toList_inj, toList_overlay h, List.append_nil, List.length_nil, Nat.add_zero,
      List.take_append_drop]
  rw [write, hdata]
  rfl

theorem position_le_write (h : o.position ≤ o.data.size) (bytes : List UInt8) :
    (o.write bytes).position ≤ (o.write bytes).data.size := by
  change o.position + bytes.length ≤ (overlay o.data o.position bytes).size
  rw [← Array.length_toList, toList_overlay h]
  simp only [List.length_append, List.length_take, List.length_drop, Array.length_toList]
  omega

theorem write_append (o : Output) (a b : List UInt8) : (o.write a).write b = o.write (a ++ b) := by
  have hdata : overlay (overlay o.data o.position a) (o.position + a.length) b =
      overlay o.data o.position (a ++ b) := by
    have hle : o.position + a.length ≤ (overlay o.data o.position a).size := by
      rw [size_overlay_eq_max]
      exact Nat.le_max_right _ _
    have hfront : ((o.data.toList.take o.position).rightpad o.position 0 ++ a).length =
        o.position + a.length := by
      rw [List.length_append, length_padded]
    rw [← Array.toList_inj, toList_overlay hle, toList_overlay_padded, toList_overlay_padded,
      List.length_append, List.take_left' hfront, ← Nat.add_assoc, ← hfront,
      List.drop_length_add_append, List.drop_drop, hfront]
    simp only [List.append_assoc]
  simp only [write, hdata, List.length_append, Nat.add_assoc]

end Output

theorem tableLength_of_lt {count : Nat} (h : count < 2 ^ 32) :
    tableLength count = .ok (UInt32.ofNat count) := if_pos h

namespace Writing

theorem run_position (o : Output) : (Writing.position : Writing Output UInt32).run o =
    if o.position < 0x100000000 then (.ok (UInt32.ofNat o.position), o)
    else (.error (.malformed (.fileTooLarge o.position)), o) := by
  rw [Writing.position, Step.run_bind]
  change ((if o.position < 0x100000000 then _ else _ : Writing Output UInt32).run o) = _
  split <;> rfl

/-- From `start` on, `w` writes `bytes` and answers `a`, unless it fails; and it does not fail if
the bytes end where the format can point. -/
structure Writes (w : Writing Output α) (start : Nat) (bytes : List UInt8) (a : α) : Prop where
  run_of_fits : ∀ o : Output, o.position = start → start ≤ o.data.size →
    start + bytes.length < 2 ^ 32 → w.run o = (.ok a, o.write bytes)
  eq_of_run : ∀ o : Output, o.position = start → start ≤ o.data.size → ∀ b o',
    w.run o = (.ok b, o') → b = a ∧ o' = o.write bytes

namespace Writes

variable {start : Nat} {bytes x y : List UInt8} {a : α} {b : β}

theorem congr {w : Writing Output α} (h : Writes w start x a) (heq : x = y) :
    Writes w start y a := heq ▸ h

theorem of_run {w : Writing Output α}
    (h : ∀ o : Output, o.position = start → start ≤ o.data.size →
      w.run o = (.ok a, o.write bytes)) :
    Writes w start bytes a where
  run_of_fits o hstart hsize _ := h o hstart hsize
  eq_of_run o hstart hsize b o' hrun := by
    rw [h o hstart hsize] at hrun
    cases hrun
    exact ⟨rfl, rfl⟩

theorem pure (a : α) : Writes (Pure.pure a) start [] a := by
  refine of_run fun o hstart hsize => ?_
  rw [Output.write_nil (hstart ▸ hsize), Step.run_pure]

theorem lift {answer : Except Error α} (h : answer = .ok a) :
    Writes (liftM answer) start [] a := by
  refine of_run fun o hstart hsize => ?_
  rw [Output.write_nil (hstart ▸ hsize), Step.run_lift, h]

theorem raw (bytes : List UInt8) : Writes (Writing.raw bytes) start bytes () :=
  of_run fun _ _ _ => rfl

theorem bind {w : Writing Output α} {f : α → Writing Output β} (hw : Writes w start x a)
    (hf : Writes (f a) (start + x.length) y b) : Writes (w >>= f) start (x ++ y) b where
  run_of_fits o hstart hsize hfits := by
    rw [List.length_append] at hfits
    have hle : o.position ≤ o.data.size := hstart ▸ hsize
    have hle' := Output.position_le_write hle x
    have hposition : (o.write x).position = start + x.length := hstart ▸ rfl
    rw [Step.run_bind, hw.run_of_fits o hstart hsize (by omega)]
    dsimp only
    rw [hf.run_of_fits _ hposition (hposition ▸ hle') (by omega), Output.write_append]
  eq_of_run o hstart hsize b' o' hrun := by
    have hle : o.position ≤ o.data.size := hstart ▸ hsize
    have hle' := Output.position_le_write hle x
    have hposition : (o.write x).position = start + x.length := hstart ▸ rfl
    obtain ⟨a', t, hfirst, hnext⟩ := Step.run_bind_eq_ok.1 hrun
    obtain ⟨rfl, rfl⟩ := hw.eq_of_run o hstart hsize a' t hfirst
    obtain ⟨rfl, rfl⟩ := hf.eq_of_run _ hposition (hposition ▸ hle') b' o' hnext
    exact ⟨rfl, Output.write_append o x y⟩

theorem bind_at {w : Writing Output α} {f : α → Writing Output β} {next : Nat}
    (hw : Writes w start x a) (hnext : next = start + x.length) (hf : Writes (f a) next y b) :
    Writes (w >>= f) start (x ++ y) b := hw.bind (hnext ▸ hf)

theorem bind_silent {w : Writing Output α} {f : α → Writing Output β} (hw : Writes w start [] a)
    (hf : Writes (f a) start y b) : Writes (w >>= f) start y b := hw.bind hf

theorem bind_nil {w : Writing Output α} {f : α → Writing Output β} (hw : Writes w start x a)
    (hf : Writes (f a) (start + x.length) [] b) : Writes (w >>= f) start x b := by
  have h := hw.bind hf
  rwa [List.append_nil] at h

theorem position : Writes Writing.position start [] (UInt32.ofNat start) where
  run_of_fits o hstart hsize hfits := by
    rw [run_position, hstart, if_pos (by simpa using hfits), Output.write_nil (hstart ▸ hsize)]
  eq_of_run o hstart hsize b o' hrun := by
    rw [run_position] at hrun
    split at hrun
    · cases hrun
      exact ⟨congrArg UInt32.ofNat hstart, (Output.write_nil (hstart ▸ hsize)).symm⟩
    · cases hrun

theorem u8 (v : UInt8) : Writes (Writing.u8 v) start [v] () := raw _

theorem u32 (v : UInt32) : Writes (Writing.u32 v) start (littleEndian 4 v.toNat) () := raw _

theorem varint (v : UInt32) : Writes (Writing.varint v) start (Varint.encode v) () := raw _

theorem signedVarint (v : Int32) :
    Writes (Writing.signedVarint v) start (Varint.encodeSigned v) () := raw _

theorem guarded {w : Writing Output α} {n : Nat} {e : Error} (hn : n ≤ bytes.length)
    (hw : n < 2 ^ 32 → Writes w start bytes a) :
    Writes (if n < 0x100000000 then w else throw e) start bytes a := by
  split_ifs with h
  · exact hw h
  · refine ⟨fun o _ _ hfits => absurd hfits (by omega), fun o _ _ b o' hrun => ?_⟩
    cases hrun

theorem prefixedBytes (bytes : List UInt8) :
    Writes (Writing.prefixedBytes bytes) start (encodeRun bytes) () := by
  refine guarded ?_ fun _ => (varint _).bind (raw bytes)
  simp [encodeRun]

theorem text (s : String) : Writes (Writing.text s) start (encodeText s) () := prefixedBytes _

theorem forM {w : α → Writing Output Unit} {f : α → List UInt8}
    (h : ∀ a start, Writes (w a) start (f a) ()) (as : List α) (start : Nat) :
    Writes (as.forM w) start (as.flatMap f) () := by
  induction as generalizing start with
  | nil => exact pure ()
  | cons a as ih => exact (h a start).bind (ih _)

/-- A length is noted as it is if what follows takes at least as many bytes. -/
theorem tableLength_bind {n : Nat} {f : UInt32 → Writing Output α} (hn : n ≤ bytes.length)
    (hf : n < 2 ^ 32 → Writes (f (UInt32.ofNat n)) start bytes a) :
    Writes (liftM (tableLength n) >>= f) start bytes a := by
  by_cases hlt : n < 0x100000000
  · exact (lift (tableLength_of_lt hlt)).bind_silent (hf hlt)
  · refine ⟨fun o _ _ hfits => absurd hfits (by omega), fun o _ _ b o' hrun => ?_⟩
    rw [Step.run_bind, Step.run_lift, tableLength, if_neg hlt] at hrun
    cases hrun

theorem counted {w : α → Writing Output Unit} {f : α → List UInt8}
    (h : ∀ a start, Writes (w a) start (f a) ()) {as : List α} (hf : ∀ a ∈ as, 0 < (f a).length) :
    Writes (Writing.counted w as) start (encodeCounted f as) () :=
  tableLength_bind (Nat.le_of_lt (length_lt_of_encodeCounted hf)) fun _ =>
    (varint _).bind (forM h as _)

theorem placed {w : α → Writing Output Unit} (h : Writes (w a) start bytes ()) :
    Writes (Writing.placed w a) start bytes (a, UInt32.ofNat start) :=
  position.bind_silent (h.bind_nil (pure _))

theorem measured {w : Writing Output α} (h : Writes w start bytes a) :
    Writes (Writing.measured w) start bytes
      (⟨UInt32.ofNat start, UInt32.ofNat bytes.length⟩, a) := by
  have hsize : UInt32.ofNat (start + bytes.length) - UInt32.ofNat start =
      UInt32.ofNat bytes.length := by
    rw [UInt32.ofNat_add, UInt32.add_comm, UInt32.add_sub_cancel]
  refine position.bind_silent (h.bind_nil (position.bind_silent ?_))
  rw [hsize]
  exact pure _

end Writes

def EndsInReach (w : Writing Output α) : Prop :=
  ∀ o a o', w.run o = (.ok a, o') → o'.position < 2 ^ 32

namespace EndsInReach

theorem bind {w : Writing Output α} {f : α → Writing Output β} (hf : ∀ a, EndsInReach (f a)) :
    EndsInReach (w >>= f) := by
  intro o b o' hrun
  obtain ⟨a, t, -, hnext⟩ := Step.run_bind_eq_ok.1 hrun
  exact hf a t b o' hnext

theorem position_bind (f : UInt32 → α) :
    EndsInReach (Writing.position >>= fun offset => Pure.pure (f offset)) := by
  intro o b o' hrun
  obtain ⟨offset, t, hposition, hpure⟩ := Step.run_bind_eq_ok.1 hrun
  rw [run_position] at hposition
  split_ifs at hposition with hlt
  · cases hposition
    cases hpure
    exact hlt
  · cases hposition

end EndsInReach

end Writing

end DebugSymbols
