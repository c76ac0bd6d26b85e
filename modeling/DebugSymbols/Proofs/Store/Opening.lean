import DebugSymbols.Proofs.Frame
import DebugSymbols.Proofs.Store.Overwriting

namespace DebugSymbols

open SymbolFile

theorem LiesAt.eq_of_length_eq {data : Bytes} {p : Nat} {a b : List UInt8} (ha : LiesAt data p a)
    (hb : LiesAt data p b) (hlength : a.length = b.length) : a = b := by
  rw [← ha.take_eq, hlength, hb.take_eq]

theorem Guid.ext_of_liesAt {data : Bytes} {p : Nat} {g g' : Guid} (h : LiesAt data p g.bytes)
    (h' : LiesAt data p g'.bytes) : g = g' := by
  have hbytes := h.eq_of_length_eq h' (g.length_bytes.trans g'.length_bytes.symm)
  cases g
  cases g'
  cases hbytes
  rfl

namespace SymbolFile

variable {data : Bytes} {expected : Guid}

theorem openFor?_of_open? {f : SymbolFile} (h : open? data = .ok f) :
    openFor? data expected = if f.preamble.guid = expected then .ok f
      else .error (.guidMismatch expected f.preamble.guid) := by
  rw [openFor?, h]
  rfl

theorem openFor?_iff : (∃ f, openFor? data expected = .ok f) ↔
    WellFramed data ∧ LiesAt data 16 expected.bytes := by
  rw [← wellFramed_iff]
  constructor
  · rintro ⟨f, hf⟩
    obtain ⟨g, hg, -⟩ := bind_ok_iff.1 hf
    rw [openFor?_of_open? hg] at hf
    split_ifs at hf with hguid
    exact ⟨⟨g, hg⟩, hguid ▸ guid_of_open? hg⟩
  · rintro ⟨⟨g, hg⟩, hlies⟩
    rw [openFor?_of_open? hg, if_pos (Guid.ext_of_liesAt (guid_of_open? hg) hlies)]
    exact ⟨g, rfl⟩

theorem openFor?_eq_error_iff {e : Error} : openFor? data expected = .error e ↔
    Check.fault? (frameChecks data) = some e ∨ ∃ found, WellFramed data ∧
      LiesAt data 16 found.bytes ∧ found ≠ expected ∧ e = .guidMismatch expected found := by
  rw [← guard_open? data e]
  cases hopen : open? data with
  | error e' =>
    have hnot : ¬WellFramed data := fun h => by
      obtain ⟨f, hf⟩ := wellFramed_iff.2 h
      cases hopen.symm.trans hf
    have hrefused : openFor? data expected = .error e' := by
      rw [openFor?, hopen]
      rfl
    rw [hrefused]
    refine ⟨.inl, ?_⟩
    rintro (h | ⟨_, hframed, _⟩)
    · exact h
    · exact absurd hframed hnot
  | ok f =>
    have hguid := guid_of_open? hopen
    rw [openFor?_of_open? hopen]
    constructor
    · intro h
      split_ifs at h with hne
      exact .inr ⟨_, wellFramed_iff.1 ⟨f, hopen⟩, hguid, hne, (Except.error.inj h).symm⟩
    · rintro (⟨⟨⟩⟩ | ⟨found, -, hfound, hne, rfl⟩)
      cases Guid.ext_of_liesAt hguid hfound
      rw [if_neg hne]

end SymbolFile

namespace Image

variable {a : Authoring} {guid : Guid} {i : Image} {data : Bytes}

/-- The file of a store is well framed and states its own size. -/
theorem wellFramed (h : a.SealsTo guid i) (hdata : LiesAt data 0 i.bytes) :
    WellFramed data ∧ (wordAt data.toList 32).toNat = i.bytes.length := by
  have hopen := open?_of_holds h (holds_of_liesAt h hdata)
  have htotal : i.header.totalFileSize = wordAt data.toList 32 := totalFileSize_of_open? hopen
  exact ⟨wellFramed_iff.1 ⟨_, hopen⟩, htotal ▸ toNat_totalFileSize h⟩

end Image

namespace Store

theorem guard_open? (data : Bytes) : Check.Guard (frameChecks data) (Store.open? data) := by
  have h := (SymbolFile.guard_open? data).bind fun f _ => Check.Guard.ok (bound { file := f })
  rwa [List.append_nil] at h

theorem openFor?_eq_map (data : Bytes) (expected : Guid) : Store.openFor? data expected =
    (SymbolFile.openFor? data expected).map fun f => bound { file := f } := by
  rw [Store.openFor?]
  cases SymbolFile.openFor? data expected <;> rfl

theorem exists_authoring_of_sealOver [Sink σ] {s left : Store} {guid : Guid} {o file : σ}
    (hseal : s.sealOver o guid = (.ok (), file, left)) : ∃ a, s = authoring a := by
  cases s with
  | authoring a => exact ⟨a, rfl⟩
  | sealed _ | bound _ => cases hseal

/-- A file without its last bytes is refused. -/
theorem open?_extract {a : Authoring} {guid : Guid} {i : Image} {data : Bytes}
    (h : a.SealsTo guid i) (hdata : data = overlay #[] 0 i.bytes) {n : Nat} (hn : n < data.size) :
    Store.open? (data.extract 0 n) = .error (if n < 112 then .outOfBounds
      else .malformed (.sizeBeyondStream (UInt32.ofNat data.size) n)) := by
  have hsize : data.size = i.bytes.length := by
    rw [hdata, size_overlay_zero]
    exact Nat.zero_max _
  obtain ⟨hframed, htotal⟩ :=
    Image.wellFramed h (hdata ▸ LiesAt.overlay_self (Nat.zero_le _) i.bytes)
  rw [← hsize] at htotal
  rw [guard_open?, ← htotal, UInt32.ofNat_toNat]
  exact fault?_extract hframed (Nat.le_of_lt hn) (htotal ▸ hn)

/-- A file is refused as long as its header is not written. -/
theorem open?_of_writeAround {a : Authoring} (hwf : a.WellFormed) {guid : Guid} {o half : Output}
    {header : Header} (hrun : (a.sorted.writeAround guid).run (o.seek 0) = (.ok header, half)) :
    Store.open? half.data = .error (.malformed (.parametersRejected .rangeZero)) := by
  obtain ⟨i, hi⟩ := hwf.exists_image guid
  obtain ⟨-, hhalf⟩ := (Authoring.writes_around hwf hi).eq_of_run (o.seek 0) rfl (Nat.zero_le _) _
    _ hrun
  have hlies : LiesAt half.data 0 (({ guid := guid } : Preamble).encode ++
      (List.replicate Header.size 0 ++ Authoring.frameless i)) := by
    rw [hhalf]
    exact LiesAt.overlay_self (Nat.zero_le _) _
  rw [← List.append_assoc] at hlies
  rw [guard_open?]
  exact fault?_of_room (LiesAt.append_iff.1 hlies).1

/-- A stream is opened exactly if it is well framed, and for a module exactly if it also states that
module; any other is refused with the error of the first check that fails, or for the module that it
states instead.  So neither a sealed file that was cut short is opened, nor a stream with room for a
header that was not written, such as sealing leaves it before its last step. -/
theorem opens_exactly_wellFramed [Sink σ] :
    (∀ data, ((∃ s, Store.open? data = .ok s) ↔ WellFramed data) ∧
      ∀ e, Store.open? data = .error e ↔ Check.fault? (frameChecks data) = some e) ∧
    (∀ data expected,
      ((∃ s, Store.openFor? data expected = .ok s) ↔
        WellFramed data ∧ LiesAt data 16 expected.bytes) ∧
      ∀ e, Store.openFor? data expected = .error e ↔
        Check.fault? (frameChecks data) = some e ∨ ∃ found, WellFramed data ∧
          LiesAt data 16 found.bytes ∧ found ≠ expected ∧ e = .guidMismatch expected found) ∧
    (∀ options (calls : List (StoreCall σ)) guid (o file : Output) left, o.data = #[] →
      ((Store.new options).after calls).sealOver o guid = (.ok (), file, left) →
      ∀ n < file.data.size, Store.open? (file.data.extract 0 n) = .error (if n < 112 then
        .outOfBounds else .malformed (.sizeBeyondStream (UInt32.ofNat file.data.size) n))) ∧
    (∀ data, LiesAt data Preamble.size (List.replicate Header.size 0) →
      ∃ e, Store.open? data = .error e) ∧
    ∀ options (calls : List (StoreCall σ)) a guid (o half : Output) header,
      (Store.new options).after calls = authoring a →
      (a.sorted.writeAround guid).run (o.seek 0) = (.ok header, half) →
      Store.open? half.data = .error (.malformed (.parametersRejected .rangeZero)) := by
  refine ⟨fun data => ⟨?_, guard_open? data⟩, fun data expected => ⟨?_, fun e => ?_⟩, ?_, ?_, ?_⟩
  · exact (guard_open? data).ok_iff.trans fault?_frameChecks_eq_none_iff
  · rw [← openFor?_iff, openFor?_eq_map]
    cases SymbolFile.openFor? data expected <;> simp [Except.map]
  · rw [← openFor?_eq_error_iff, openFor?_eq_map]
    cases SymbolFile.openFor? data expected <;> simp [Except.map]
  · intro options calls guid o file left hempty hseal n hn
    obtain ⟨a, ha⟩ := exists_authoring_of_sealOver hseal
    obtain ⟨i, h, hdata⟩ := exists_sealsTo_of_sealOver ha (ha ▸ hseal)
    exact open?_extract h (hempty ▸ hdata) hn
  · intro data hroom
    cases hopen : Store.open? data with
    | error e => exact ⟨e, rfl⟩
    | ok s =>
      have hframed := fault?_frameChecks_eq_none_iff.1 ((guard_open? data).ok_iff.1 ⟨s, hopen⟩)
      exact absurd hframed (not_wellFramed_of_room hroom)
  · intro options calls a guid o half header ha hrun
    exact open?_of_writeAround (wellFormed_of_after ha) hrun

/-- The file of a store with one source, without its last byte and without all that follows the
first 111. -/
theorem opens_exactly_wellFramed_cut_short :
    let calls : List (StoreCall Output) := [
      .fill (.addSource { index := 0, fileName := "a.cs", checksum := [] })]
    ∃ file left, ((Store.new {}).after calls).sealOver ({} : Output) .zero = (.ok (), file, left) ∧
      file.data.size = 127 ∧
      Store.open? (file.data.extract 0 126) = .error (.malformed (.sizeBeyondStream 127 126)) ∧
      Store.open? (file.data.extract 0 111) = .error .outOfBounds := by
  intro calls
  have hlength : ((Store.new {}).after calls).fileSize .zero = 127 := by decide +kernel
  have hrun : ∃ a, (Store.new {}).after calls = authoring a := ⟨_, rfl⟩
  obtain ⟨a, ha⟩ := hrun
  rw [ha] at hlength
  have hfits : (authoring a).fileSize .zero < 2 ^ 32 := by omega
  obtain ⟨i, hi, h⟩ := exists_sealsTo ha hfits
  have himage : (authoring a).image? .zero = some i := congrArg Except.toOption hi
  obtain ⟨file, hseal, hdata, -⟩ := exists_sealOver h hi {}
  rw [fileSize, himage] at hlength
  have hsize : file.data.size = 127 := by
    rw [hdata, size_overlay_zero]
    exact (Nat.zero_max _).trans hlength
  rw [← ha] at hseal
  have hcut := opens_exactly_wellFramed.2.2.1 {} calls .zero {} file _ rfl hseal
  refine ⟨file, _, hseal, hsize, ?_, ?_⟩
  · rw [hcut 126 (by omega), hsize]
    rfl
  · rw [hcut 111 (by omega), hsize]
    rfl

end Store

end DebugSymbols
