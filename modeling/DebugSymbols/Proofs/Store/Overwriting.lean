import DebugSymbols.Proofs.Bytes.Appending
import DebugSymbols.Proofs.Store.SealedLayout

namespace DebugSymbols

theorem toList_overlay_zero (data : Bytes) (bytes : List UInt8) :
    (overlay data 0 bytes).toList = bytes ++ data.toList.drop bytes.length := by
  rw [toList_overlay (Nat.zero_le _), List.take_zero, List.nil_append, Nat.zero_add]

theorem overlay_zero_eq_append (data : Bytes) (bytes : List UInt8) :
    overlay data 0 bytes = overlay #[] 0 bytes ++ (data.toList.drop bytes.length).toArray := by
  apply Array.toList_inj.1
  rw [Array.toList_append, toList_overlay_zero, toList_overlay_zero]
  simp

theorem SymbolFile.textAt_append {f g : SymbolFile} {appended : Bytes}
    (hdata : g.data = f.data ++ appended) {offset : UInt32} {s : String}
    (h : f.textAt offset = .ok s) : g.textAt offset = .ok s := by
  have hread : Reader.textAt offset.toNat f.data 0 =
      (.ok s, (Reader.textAt offset.toNat f.data 0).2) := Prod.ext h rfl
  have hstable := Reader.Stable.textAt offset.toNat f.data appended 0 _ s hread
  rw [textAt, hdata]
  exact congrArg Prod.fst hstable

namespace Store

theorem appearance_bound {b b' : Bound} (hheader : b.file.header = b'.file.header)
    (hparameters : b.file.parameters = b'.file.parameters) :
    (bound b).appearance = (bound b').appearance := by
  simp only [appearance, debug, isBound, isSealed, parameters, fileFlags, sourceCount,
    compileUnitCount, methodCount, anonymousScopeCount, typeCount, count, stateName, hheader,
    hparameters]

variable [Sink σ] {a : Authoring} {guid : Guid} {i : Image}

/-- The file is laid over the stream from its beginning on, wherever the stream stood. -/
theorem exists_sealOver (h : a.SealsTo guid i) (hi : a.image guid = .ok i) (prior : Output) :
    ∃ whole : Output, (authoring a).sealOver prior guid = (.ok (), whole, sealed i.header) ∧
      whole.data = overlay prior.data 0 i.bytes ∧ whole.position = whole.data.size := by
  refine ⟨_, sealOver_of_lt h hi prior, ?_, ?_⟩
  · simp only [Output.seekEnd, Output.seek, Output.write]
  · simp only [Output.seekEnd, Output.seek]

theorem exists_shows_of_sealInto {options : StoreOptions} {calls : List (StoreCall σ)}
    (ha : (Store.new options).after calls = authoring a) {guid : Guid} {prior file : Output}
    {left : Store} (hseal : (authoring a).sealInto prior guid = .ok (file, left)) :
    a.WellFormed ∧ ∃ s, Store.open? file.data = .ok s ∧ s.Shows guid a := by
  have hover : (authoring a).sealOver prior guid = (.ok (), file, left) := by
    rw [sealInto] at hseal
    rcases hover : (authoring a).sealOver prior guid with ⟨e | ⟨⟩, whole, sealed⟩
    · rw [hover] at hseal
      cases hseal
    · rw [hover] at hseal
      cases hseal
      rfl
  obtain ⟨i, h, hdata⟩ := exists_sealsTo_of_sealOver ha hover
  have hholds : i.Holds (fun _ => True) file.data := hdata ▸ Image.holds_overlay h prior.data
  refine ⟨h.wellFormed, bound { file := i.openedFrom file.data }, ?_, shows_of_holds h hholds⟩
  rw [Store.open?, Image.open?_of_holds h hholds]
  rfl

/-- Whatever a store was filled with, and whatever a stream in memory held: sealing leaves there the
file that it writes into an empty stream, followed by what lay behind its end before, and stands at
the end of the stream.  Opened from there the file shows what it shows alone, and answers alike.
Sums with the line base are taken modulo `2 ^ 32`. -/
theorem sealed_over_contents (options : StoreOptions) (calls : List (StoreCall σ))
    (ha : (Store.new options).after calls = authoring a) (guid : Guid)
    (hsize : (authoring a).fileSize guid < 2 ^ 32) (prior : Output) :
    ∃ file whole header alone opened,
      (authoring a).sealOver ({} : Output) guid = (.ok (), file, sealed header) ∧
      (authoring a).sealOver prior guid = (.ok (), whole, sealed header) ∧
      whole.data.toList = file.data.toList ++ prior.data.toList.drop file.data.size ∧
      whole.position = whole.data.size ∧ file.data.size = header.totalFileSize.toNat ∧
      Store.openFor? file.data guid = .ok alone ∧ Store.openFor? whole.data guid = .ok opened ∧
      opened.guid = alone.guid ∧ opened.header = alone.header ∧
      opened.appearance = alone.appearance ∧
      (∀ history history' q, (∀ offset, q ≠ .textAt offset) →
        ((opened.afterQueries history).ask q).1 = ((alone.afterQueries history').ask q).1) ∧
      ∀ history history' offset text,
        ((alone.afterQueries history').ask (.textAt offset)).1 = .ok text →
          ((opened.afterQueries history).ask (.textAt offset)).1 = .ok text := by
  obtain ⟨i, hi, h⟩ := exists_sealsTo ha hsize
  obtain ⟨file, hfile, hdata, -⟩ := exists_sealOver h hi {}
  obtain ⟨whole, hwhole, hdata', hposition⟩ := exists_sealOver h hi prior
  have hbytes : file.data.toList = i.bytes := by
    rw [hdata, toList_overlay_zero]
    simp
  have hlength : file.data.size = i.bytes.length := by
    rw [← Array.length_toList, hbytes]
  have hholds : i.Holds (fun _ => True) file.data := hdata ▸ Image.holds_overlay h #[]
  have hholds' : i.Holds (fun _ => True) whole.data := hdata' ▸ Image.holds_overlay h prior.data
  refine ⟨file, whole, i.header, _, _, hfile, hwhole, ?_, hposition, ?_,
    openFor?_of_holds h hholds, openFor?_of_holds h hholds', rfl, rfl, appearance_bound rfl rfl,
    ?_, ?_⟩
  · rw [hbytes, hlength, hdata', toList_overlay_zero]
  · rw [hlength, Image.toNat_totalFileSize h]
  · intro history history' q hq
    have hanswer := Image.answer_of_holds h hholds hq fun _ _ => trivial
    have hanswer' := Image.answer_of_holds h hholds' hq fun _ _ => trivial
    rw [ask_afterQueries_bound, ask_afterQueries_bound, hanswer, hanswer']
  · intro history history' offset text htext
    rw [ask_afterQueries_bound] at htext ⊢
    apply SymbolFile.textAt_append _ htext
    show whole.data = file.data ++ _
    rw [hdata, hdata']
    exact overlay_zero_eq_append prior.data i.bytes

/-- A file is written over a longer stream that does not stand at its beginning. -/
theorem sealed_over_contents_longer_stream :
    let calls : List (StoreCall LimitedOutput) := [
      .fill (.addSource { index := 0, fileName := "a.cs", checksum := [] }), .fill (.addUnit 1),
      .fill (.defineMethod { token := ⟨7⟩, compileUnit := 1 })]
    let prior : Output := ⟨(List.replicate 400 255).toArray, 150⟩
    ∃ a file whole header, (Store.new {}).after calls = authoring a ∧
      (authoring a).fileSize .zero < 2 ^ 32 ∧
      (authoring a).sealOver ({} : Output) .zero = (.ok (), file, sealed header) ∧
      (authoring a).sealOver prior .zero = (.ok (), whole, sealed header) ∧
      whole.data.toList = file.data.toList ++ prior.data.toList.drop file.data.size ∧
      whole.position = whole.data.size := by
  intro calls prior
  have hsize : ((Store.new {}).after calls).fileSize .zero < 2 ^ 32 := by decide +kernel
  have hrun : ∃ a, (Store.new {}).after calls = authoring a := ⟨_, rfl⟩
  obtain ⟨a, ha⟩ := hrun
  rw [ha] at hsize
  obtain ⟨file, whole, header, alone, opened, hfile, hwhole, hdata, hposition, -⟩ :=
    sealed_over_contents {} calls ha .zero hsize prior
  exact ⟨a, file, whole, header, ha, hsize, hfile, hwhole, hdata, hposition⟩

end Store

end DebugSymbols
