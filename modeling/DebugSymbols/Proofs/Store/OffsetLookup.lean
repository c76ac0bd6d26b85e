import DebugSymbols.Proofs.LineProgram.Lookup
import DebugSymbols.Proofs.Store.DefinitionOrder
import DebugSymbols.Proofs.Store.MethodViews
import DebugSymbols.Proofs.Store.Overwriting

namespace DebugSymbols

theorem MethodDefinition.ordered_lines {d : MethodDefinition} (h : d.damage? = none) :
    LineTable.Ordered ⟨d.lines⟩ := by
  have hchain : (d.lines.map LineEntry.offset).IsChain (· ≤ ·) :=
    (pointDamage?_eq_none_iff.1 (pointDamage?_eq_none h)).2.1.tail
  rw [LineTable.ordered_iff_isChain, List.isChain_map]
  exact (List.isChain_map LineEntry.offset).1 hchain

theorem Authoring.exists_pick_token {a : Authoring} (ha : a.WellFormed) {d : MethodDefinition}
    (hd : d ∈ a.methods.toList) : ∃ index, a.pick (.token d.token) = .ok (d, index) := by
  have hmem : d ∈ a.numberedMethods.map Prod.fst := by
    rw [numberedMethods, List.zipIdx_map_fst]
    exact a.sortedMethods_perm.mem_iff.2 hd
  obtain ⟨⟨_, index⟩, hentry, rfl⟩ := List.mem_map.1 hmem
  have hnodup : (a.numberedMethods.map fun entry => entry.1.token).Nodup := by
    have htokens := sortedMethods_nodup ha
    rwa [← List.zipIdx_map_fst 1 a.sortedMethods, List.map_map] at htokens
  refine ⟨index, ?_⟩
  rw [pick, pickAmong, find?_key_of_mem hnodup hentry]

namespace Store

variable [Sink σ] {a : Authoring}

/-- A method whose definition was accepted is still there when the filling ends. -/
theorem mem_methods_of_accepted {options : StoreOptions} {before later : List (StoreCall σ)}
    {d : MethodDefinition}
    (hd : (((Store.new options).after before).call (.defineMethod d)).1.isOk = true)
    (ha : (Store.new options).after (before ++ .fill (.defineMethod d) :: later) = authoring a) :
    d ∈ a.methods.toList := by
  have hfilled : Authoring.FilledBy { options := options }
      ((Store.new options).fillings (before ++ .fill (.defineMethod d) :: later)) a :=
    filledBy_after _ ha
  have hfilling : ((Store.new options).after before).filling?
      (.fill (.defineMethod d) : StoreCall σ) = some (.defineMethod d) := if_pos hd
  rw [hfilled.methods.mem_iff, fillings_append, AuthoringCall.definitions_append, fillings,
    hfilling]
  exact List.mem_append_right _ (List.mem_append_right _ List.mem_cons_self)

/-- A method is defined amid any calls, of which some may fail, and the store is sealed over any
stream.  In the file each offset is looked up as the last visible point of the definition that
begins at or before it, if there is one; and a later offset as no earlier point. -/
theorem offset_lookup (options : StoreOptions) (before later : List (StoreCall σ))
    (d : MethodDefinition)
    (hd : (((Store.new options).after before).call (.defineMethod d)).1.isOk = true)
    (ha : (Store.new options).after (before ++ .fill (.defineMethod d) :: later) = authoring a)
    (guid : Guid) (prior : Output) {file : Output} {left : Store}
    (hseal : (authoring a).sealInto prior guid = .ok (file, left)) :
    ∃ s, Store.open? file.data = .ok s ∧ ∀ history, ∃ t : LineTable,
      ((s.afterQueries history).ask (.part (.token d.token) .lines)).1 = .ok t ∧
      (∀ offset e, t.find? offset = some e ↔ ∃ i, LineTable.InForce ⟨d.lines⟩ offset i e) ∧
      (∀ offset, t.find? offset = none ↔
        ∀ e ∈ d.lines, e.hidden = false → offset < e.offset) ∧
      ∀ offset offset' i e, offset ≤ offset' → LineTable.InForce ⟨d.lines⟩ offset i e →
        ∃ j f, LineTable.InForce ⟨d.lines⟩ offset' j f ∧ t.find? offset' = some f ∧
          i ≤ j ∧ e.offset ≤ f.offset := by
  have hmem := mem_methods_of_accepted hd ha
  obtain ⟨hwf, s, hopen, hshows⟩ := exists_shows_of_sealInto ha hseal
  obtain ⟨index, hpick⟩ := Authoring.exists_pick_token hwf hmem
  have hordered := MethodDefinition.ordered_lines (hwf.methods d (Array.mem_toList_iff.1 hmem))
  refine ⟨s, hopen, fun history => ⟨⟨d.lines⟩, ?_, fun _ _ => hordered.find?_eq_some_iff,
    fun _ => hordered.find?_eq_none_iff, fun offset offset' i e hle hforce => ?_⟩⟩
  · rw [hshows.answers history _ fun _ => Query.noConfusion, Authoring.answer, hpick]
    rfl
  · obtain ⟨j, f, hforce', hij, hoffset⟩ := hordered.exists_inForce_of_le hle hforce
    exact ⟨j, f, hforce', hordered.find?_eq_some_iff.2 ⟨j, hforce'⟩, hij, hoffset⟩

/-- Two points at one offset, of which the later one is found, and a hidden one behind them that is
passed over.  The method is defined between one that is refused and another one. -/
theorem offset_lookup_equal_offsets :
    let d : MethodDefinition := { token := ⟨7⟩, compileUnit := 1, lines := [
      { file := 1, row := 3, offset := 2 }, { file := 1, row := 8, offset := 2 },
      { file := 1, row := 9, offset := 5, hidden := true }, { file := 1, row := 4, offset := 9 }] }
    let before : List (StoreCall LimitedOutput) := [
      .fill (.addSource { index := 0, fileName := "a.cs", checksum := [] }), .fill (.addUnit 1),
      .fill (.defineMethod { token := ⟨7⟩, compileUnit := 2 })]
    let later : List (StoreCall LimitedOutput) := [
      .fill (.defineMethod { token := ⟨3⟩, compileUnit := 1 })]
    ∃ a file left s t,
      (((Store.new {}).after before).call (.defineMethod d)).1.isOk = true ∧
      (Store.new {}).after (before ++ .fill (.defineMethod d) :: later) = authoring a ∧
      (authoring a).sealInto {} .zero = .ok (file, left) ∧ Store.open? file.data = .ok s ∧
      (s.ask (.part (.token ⟨7⟩) .lines)).1 = .ok t ∧ t.find? 1 = none ∧
      t.find? 7 = some { file := 1, row := 8, offset := 2 } := by
  intro d before later
  have haccepted : (((Store.new {}).after before).call (.defineMethod d)).1.isOk = true := by
    decide +kernel
  have hrun : ∃ a, (Store.new {}).after (before ++ .fill (.defineMethod d) :: later) =
      authoring a ∧ a.sizeBound < 2 ^ 32 := ⟨_, rfl, by decide +kernel⟩
  obtain ⟨a, ha, hbound⟩ := hrun
  have hsize : (authoring a).fileSize .zero < 2 ^ 32 := (fileSize_le a .zero).trans_lt hbound
  obtain ⟨i, hi, h⟩ := exists_sealsTo ha hsize
  obtain ⟨file, hfile, -⟩ := exists_sealOver h hi {}
  have hseal : (authoring a).sealInto {} .zero = .ok (file, sealed i.header) := by
    rw [sealInto, hfile]
  obtain ⟨s, hopen, hlines⟩ := offset_lookup {} before later d haccepted ha .zero {} hseal
  obtain ⟨t, ht, hsome, hnone, -⟩ := hlines []
  refine ⟨a, file, sealed i.header, s, t, haccepted, ha, hseal, hopen, ht, (hnone 1).2 ?_,
    (hsome 7 _).2 ⟨1, rfl, rfl, ?_, ?_⟩⟩
  · decide
  · decide
  · decide

end Store

end DebugSymbols
