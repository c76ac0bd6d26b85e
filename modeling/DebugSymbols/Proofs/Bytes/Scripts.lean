import DebugSymbols.Proofs.Bytes.Writing

namespace DebugSymbols

/-- Why a run cannot be recorded behind its length. -/
def runRefusal? (bytes : List UInt8) : Option Error :=
  if bytes.length < 0x100000000 then none else some (.malformed (.runTooLong bytes.length))

theorem runRefusal?_eq_none {bytes : List UInt8} :
    runRefusal? bytes = none ↔ bytes.length < 2 ^ 32 := by
  unfold runRefusal?
  split <;> simp <;> omega

namespace Primitive

def refusal? : Primitive → Option Error
  | run bytes => runRefusal? bytes
  | text s => runRefusal? (Utf8.encode s)
  | _ => none

theorem run_prefixedBytes (bytes : List UInt8) (o : Output) :
    (Writing.prefixedBytes bytes : Writing Output Unit).run o =
      match runRefusal? bytes with
      | none => (.ok (), o.write (encodeRun bytes))
      | some e => (.error e, o) := by
  rw [Writing.prefixedBytes, runRefusal?]
  split
  · -- The length and the run are written one after the other.
    exact congrArg (Prod.mk _) (Output.write_append o _ _)
  · rfl

theorem put_eq (o : Output) (v : Primitive) :
    o.put v = match v.refusal? with
      | none => (.ok (), o.write v.encode)
      | some e => (.error e, o) := by
  cases v with
  | run bytes => exact run_prefixedBytes bytes o
  | text s => exact run_prefixedBytes (Utf8.encode s) o
  | _ => rfl

theorem reads_fixed {width n : Nat} {f : Nat → Primitive} {v : Primitive} (hw : 0 < width)
    (hn : n < 256 ^ width) (hv : f n = v) :
    Reader.Reads (f <$> Reader.fixed width) (littleEndian width n) v :=
  hv ▸ (Reader.Reads.fixed hw hn).map f

/-- A value that is not refused is read back by what is known of it. -/
theorem reads_encode {v : Primitive} (h : v.refusal? = none) :
    Reader.Reads v.shape.reader v.encode v := by
  cases v with
  | u8 v => exact reads_fixed (by decide) v.toNat_lt (by simp)
  | i8 v => exact reads_fixed (by decide) v.toUInt8.toNat_lt (by simp)
  | u16 v => exact reads_fixed (by decide) v.toNat_lt (by simp)
  | i16 v => exact reads_fixed (by decide) v.toUInt16.toNat_lt (by simp)
  | u32 v => exact reads_fixed (by decide) v.toNat_lt (by simp)
  | i32 v => exact reads_fixed (by decide) v.toUInt32.toNat_lt (by simp)
  | u64 v => exact reads_fixed (by decide) v.toNat_lt (by simp)
  | i64 v => exact reads_fixed (by decide) v.toUInt64.toNat_lt (by simp)
  | varint v => exact (Reader.Reads.varint v).map varint
  | signedVarint v => exact (Reader.Reads.signedVarint v).map signedVarint
  | raw bytes => exact (Reader.Reads.bytes bytes).map raw
  | run bytes => exact (Reader.Reads.run_of_lt (runRefusal?_eq_none.1 h)).map run
  | text s => exact (Reader.Reads.text_of_lt (runRefusal?_eq_none.1 h)).map text

def written (vs : List Primitive) : List Primitive := vs.takeWhile fun v => v.refusal?.isNone

theorem written_append {before rest : List Primitive} (h : ∀ v ∈ before, v.refusal? = none) :
    written (before ++ rest) = before ++ written rest :=
  List.takeWhile_append_of_pos fun v hv => Option.isNone_iff_eq_none.2 (h v hv)

end Primitive

namespace Output

open Primitive

/-- Writes values one after another, up to the first that is refused. -/
def putAll (o : Output) : List Primitive → Except Error Unit × Output
  | [] => (.ok (), o)
  | v :: vs =>
    match o.put v with
    | (.ok _, o') => o'.putAll vs
    | (.error e, o') => (.error e, o')

def answer (vs : List Primitive) : Except Error Unit :=
  match vs.findSome? refusal? with
  | none => .ok ()
  | some e => .error e

theorem answer_eq_ok_iff {vs : List Primitive} :
    answer vs = .ok () ↔ ∀ v ∈ vs, v.refusal? = none := by
  rw [← List.findSome?_eq_none_iff, answer]
  cases vs.findSome? refusal? <;> simp

theorem putAll_eq_foldl (o : Output) (vs : List Primitive) :
    o.putAll vs = (answer vs, ((written vs).map Primitive.encode).foldl write o) := by
  induction vs generalizing o with
  | nil => rfl
  | cons v vs ih =>
    rw [putAll, put_eq]
    cases h : v.refusal? with
    | none =>
      dsimp only
      rw [ih, answer, answer, List.findSome?_cons, h, written, written,
        List.takeWhile_cons_of_pos (by rw [h]; rfl), List.map_cons, List.foldl_cons]
    | some e =>
      rw [answer, List.findSome?_cons, h, written, List.takeWhile_cons_of_neg (by simp [h])]
      rfl

theorem foldl_write (o : Output) (first : List UInt8) (rest : List (List UInt8)) :
    rest.foldl write (o.write first) = o.write (first ++ rest.flatten) := by
  induction rest generalizing first with
  | nil => rw [List.foldl_nil, List.flatten_nil, List.append_nil]
  | cons next rest ih =>
    rw [List.foldl_cons, write_append, ih, List.flatten_cons, List.append_assoc]

/-- The forms of all values that are written are laid over the stream at once. -/
theorem putAll_snd_of_ne {o : Output} {vs : List Primitive} (h : written vs ≠ []) :
    (o.putAll vs).2 = o.write ((written vs).flatMap Primitive.encode) := by
  obtain ⟨v, rest, hvs⟩ := List.exists_cons_of_ne_nil h
  rw [putAll_eq_foldl, hvs, List.map_cons, List.foldl_cons, foldl_write, List.flatMap_cons,
    List.flatMap_def]

theorem putAll_snd_of_eq {o : Output} {vs : List Primitive} (h : written vs = []) :
    (o.putAll vs).2 = o := by
  rw [putAll_eq_foldl, h]
  rfl

theorem position_putAll (o : Output) (vs : List Primitive) :
    (o.putAll vs).2.position = o.position + ((written vs).flatMap Primitive.encode).length := by
  by_cases h : written vs = []
  · rw [putAll_snd_of_eq h, h]
    rfl
  · rw [putAll_snd_of_ne h]
    rfl

theorem liesAt_putAll (o : Output) (vs : List Primitive) :
    LiesAt (o.putAll vs).2.data o.position ((written vs).flatMap Primitive.encode) := by
  by_cases h : written vs = []
  · rw [h]
    exact List.nil_prefix
  · rw [putAll_snd_of_ne h]
    have hlies := LiesAt.of_toList_eq (toList_overlay_padded o.data o.position
      ((written vs).flatMap Primitive.encode))
    rwa [length_padded] at hlies

theorem getElem?_putAll (o : Output) (vs : List Primitive) {k : Nat}
    (h : k < o.position ∨ (o.putAll vs).2.position ≤ k) (hk : k < (o.putAll vs).2.data.size) :
    (o.putAll vs).2.data[k]? = some (o.data[k]?.getD 0) := by
  by_cases hw : written vs = []
  · rw [putAll_snd_of_eq hw] at hk ⊢
    rw [Array.getElem?_eq_getElem hk, Option.getD_some]
  · rw [putAll_snd_of_ne hw] at h hk ⊢
    rcases h with hbefore | hbehind
    · exact getElem?_overlay_before hbefore
    · have hold : k < o.data.size := by
        have hmax := size_overlay_eq_max o.data o.position ((written vs).flatMap Primitive.encode)
        change k < (overlay _ _ _).size at hk
        change o.position + _ ≤ k at hbehind
        omega
      rw [Array.getElem?_eq_getElem hold, Option.getD_some, ← Array.getElem?_eq_getElem hold]
      exact getElem?_overlay_behind hbehind

theorem size_putAll (o : Output) (vs : List Primitive) :
    (o.putAll vs).2.data.size =
      if written vs = [] then o.data.size else max o.data.size (o.putAll vs).2.position := by
  by_cases hw : written vs = []
  · rw [if_pos hw, putAll_snd_of_eq hw]
  · rw [if_neg hw, putAll_snd_of_ne hw]
    exact size_overlay_eq_max _ _ _

/-- Each part of a script that is written is read back from where the script began. -/
theorem traverse_putAll {o : Output} {vs before : List Primitive} (hbefore : before <+: vs)
    (h : ∀ v ∈ before, v.refusal? = none) :
    Reader.traverse Shape.reader (before.map Primitive.shape) (o.putAll vs).2.data o.position =
      (.ok before, (o.putAll before).2.position) := by
  obtain ⟨rest, rfl⟩ := hbefore
  have hall : written before = before :=
    calc
      written before = written (before ++ []) := by rw [List.append_nil]
      _ = before ++ [] := written_append h
      _ = before := List.append_nil before
  have hlies := liesAt_putAll o (before ++ rest)
  rw [written_append h, List.flatMap_append, LiesAt.append_iff] at hlies
  have hreads : Reader.Reads (Reader.traverse Shape.reader (before.map Primitive.shape))
      (before.flatMap Primitive.encode) (before.map id) :=
    Reader.Reads.traverse before fun v hv => reads_encode (h v hv)
  rw [position_putAll, hall, hreads _ _ hlies.1, List.map_id]

/-- A script is written up to the first value that the format cannot record, and every part of it in
front of that is read back from where it began: the values come out again, with the reader behind
each of them where the writer stood.  Around what was written the stream is as it was, and a gap in
front of it, behind the old end, is filled with zeros. -/
theorem values_read_back (o : Output) (vs : List Primitive) :
    let o' := (o.putAll vs).2
    (o.putAll vs).1 = answer vs ∧
      (∀ before, before <+: vs → (o.putAll before).1 = .ok () →
        (Reader.traverse Shape.reader (before.map Primitive.shape)).run o'.data o.position =
          (.ok before, (o.putAll before).2.position)) ∧
      (∀ k, k < o.data.size → k < o.position ∨ o'.position ≤ k → o'.data[k]? = o.data[k]?) ∧
      (∀ k, o.data.size ≤ k → k < o.position → k < o'.data.size → o'.data[k]? = some 0) ∧
      o'.data.size = if written vs = [] then o.data.size else max o.data.size o'.position := by
  intro o'
  have hsize := size_putAll o vs
  refine ⟨congrArg Prod.fst (putAll_eq_foldl o vs), fun before hbefore hok => ?_,
    fun k hk houtside => ?_, fun k hold hgap hk => ?_, hsize⟩
  · rw [putAll_eq_foldl] at hok
    exact traverse_putAll hbefore (answer_eq_ok_iff.1 hok)
  · have hlt : k < o'.data.size := by
      rw [hsize]
      split <;> omega
    rw [getElem?_putAll o vs houtside hlt, Array.getElem?_eq_getElem hk, Option.getD_some]
  · rw [getElem?_putAll o vs (.inl hgap) hk, Array.getElem?_eq_none hold, Option.getD_none]

example : (putAll ⟨#[7, 7, 7], 4⟩ [.u16 0x0102, .signedVarint (-1), .text "é"]).2 =
    ⟨#[7, 7, 7, 0, 2, 1, 255, 255, 255, 255, 15, 2, 195, 169], 14⟩ := by
  cbv

end Output

end DebugSymbols
