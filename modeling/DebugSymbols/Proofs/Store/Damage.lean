import DebugSymbols.Proofs.Store.RoundTrip

namespace DebugSymbols

/-- The bytes that a part of the contents is written as, if the store has that part. -/
def Authoring.payload? (a : Authoring) : FilePart → Option (List UInt8)
  | .source index =>
    if index = 0 then none else (a.sources.toList.map SourceFile.encode)[index - 1]?
  | .unit index =>
    if index = 0 then none else (a.units.toList.map CompileUnit.encode)[index - 1]?
  | .method index part =>
    if index = 0 then none else
      (a.sortedMethods.map fun d => d.payload a.options.parameters part)[index - 1]?
  | .scopes => some (a.scopes.toList.flatMap AnonymousScope.encode)

namespace Image

/-- Where a part of the contents stands. -/
def section? (i : Image) : FilePart → Option Section
  | .source index => if index = 0 then none else i.sources[index - 1]?
  | .unit index => if index = 0 then none else i.units[index - 1]?
  | .method index part =>
    if index = 0 then none else i.methods[index - 1]?.map fun m => m.part part
  | .scopes => some i.scopeTable

variable {a : Authoring} {guid : Guid} {i : Image} {s t : Section} {part : FilePart}

/-- Every part that the store has stands in the file as its payload. -/
theorem map_bytes_section? (h : i.Describes a guid) (part : FilePart) :
    (i.section? part).map Section.bytes = a.payload? part := by
  cases part with
  | source index =>
    rw [section?, Authoring.payload?, ← h.sources, List.getElem?_map]
    split <;> rfl
  | unit index =>
    rw [section?, Authoring.payload?, ← h.units, List.getElem?_map]
    split <;> rfl
  | method index part =>
    rw [section?, Authoring.payload?, ← MethodImage.map_bytes_part h.methods,
      List.getElem?_map]
    split
    · rfl
    · exact Option.map_map Section.bytes _ _
  | scopes => exact congrArg some h.scopeTable

theorem mem_labelled_of_section? (h : i.section? part = some s) : (some part, s) ∈ i.labelled := by
  cases part with
  | source index =>
    rw [section?] at h
    split at h
    · cases h
    · have hmem := mem_labelled_source h
      rwa [Nat.sub_add_cancel (by omega)] at hmem
  | unit index =>
    rw [section?] at h
    split at h
    · cases h
    · have hmem := mem_labelled_unit h
      rwa [Nat.sub_add_cancel (by omega)] at hmem
  | method index part =>
    rw [section?] at h
    split at h
    · cases h
    · obtain ⟨m, hm, rfl⟩ := Option.map_eq_some_iff.1 h
      have hmem := mem_labelled_part hm part
      rwa [Nat.sub_add_cancel (by omega)] at hmem
  | scopes =>
    cases h
    exact mem_labelled_scopeTable

theorem disjoint_of_ne (h : a.SealsTo guid i) {l l' : Option FilePart} (hs : (l, s) ∈ i.labelled)
    (ht : (l', t) ∈ i.labelled) (hne : l ≠ l') : s.stop ≤ t.offset ∨ t.stop ≤ s.offset := by
  have hdisjoint := (h.pairwise_labelled.imp fun hle => Or.inl hle :
    i.labelled.Pairwise fun x y => x.2.stop ≤ y.2.offset ∨ y.2.stop ≤ x.2.offset)
  have : Std.Symm fun x y : Option FilePart × Section =>
      x.2.stop ≤ y.2.offset ∨ y.2.stop ≤ x.2.offset := ⟨fun _ _ => Or.symm⟩
  exact hdisjoint.forall hs ht fun heq => hne (congrArg Prod.fst heq)

/-- After damage inside one part, and with anything behind the file, all other parts are intact. -/
theorem holds_of_damage (h : a.SealsTo guid i) (hs : (some part, s) ∈ i.labelled) {p : Nat}
    {junk : List UInt8} (hstart : s.offset ≤ p) (hstop : p + junk.length ≤ s.stop)
    (appended : Bytes) :
    i.Holds (· ≠ part) (overlay i.bytes.toArray p junk ++ appended) := by
  have hwithin : p + junk.length ≤ i.bytes.toArray.size :=
    Nat.le_trans hstop (by simpa using h.stop_le hs)
  have hfile : i.Holds (fun _ => True) i.bytes.toArray := holds_of_liesAt h (by simp [LiesAt])
  -- A section under another label ends before the damage or begins behind it.
  have hother : ∀ l t, (l, t) ∈ i.labelled → l ≠ some part →
      LiesAt i.bytes.toArray t.offset t.bytes →
      LiesAt (overlay i.bytes.toArray p junk ++ appended) t.offset t.bytes := by
    intro l t ht hne hheld
    refine (hheld.overlay_of_disjoint (by omega) ?_).append_right appended
    rcases disjoint_of_ne h ht hs hne with hbefore | hbehind
    · exact .inl (Nat.le_trans hbefore hstart)
    · exact .inr (Nat.le_trans hstop hbehind)
  refine ⟨?_, fun t ht => ?_, fun other t ht hne => ?_⟩
  · rw [Array.size_append, size_overlay hwithin]
    simp
  · exact hother none t ht (Option.some_ne_none part).symm (hfile.frame t ht)
  · exact hother _ t ht (fun heq => hne (Option.some.inj heq)) (hfile.part other t ht trivial)

end Image

namespace Store

def section? (s : Store) (guid : Guid) (part : FilePart) : Option Section :=
  (s.image? guid).bind fun i => i.section? part

theorem payload_at_section (options : StoreOptions) (calls : List AuthoringCall) (guid : Guid)
    (hsize : ((Store.new options).afterCalls calls).fileSize guid < 2 ^ 32) (part : FilePart)
    (s : Section) (hs : ((Store.new options).afterCalls calls).section? guid part = some s) :
    ∃ a file header, (Store.new options).afterCalls calls = authoring a ∧
      ((Store.new options).afterCalls calls).sealInto {} guid = .ok (file, sealed header) ∧
      a.payload? part = some s.bytes ∧ LiesAt file.data s.offset s.bytes := by
  obtain ⟨a, i, ha, -, himage, h, hseal⟩ := exists_sealInto options calls guid hsize
  obtain ⟨file, hfile, hdata⟩ := hseal {}
  rw [ha, section?, himage] at hs
  change i.section? part = some s at hs
  have hheld : i.Holds (fun _ => True) file.data := hdata ▸ Image.holds_overlay h _
  refine ⟨a, file, i.header, ha, ha ▸ hfile, ?_, ?_⟩
  · rw [← Image.map_bytes_section? h.describes, hs]
    rfl
  · exact hheld.part part s (Image.mem_labelled_of_section? hs) trivial

/-- Whatever bytes are put in the place of as many inside one part of a sealed file, and whatever is
appended to it, the file opens, and a query that does not read that part answers the contents of the
store, also after queries that do read it. -/
theorem damage_confined (options : StoreOptions) (calls : List AuthoringCall) (guid : Guid)
    (hsize : ((Store.new options).afterCalls calls).fileSize guid < 2 ^ 32) {part : FilePart}
    {s : Section} (hs : ((Store.new options).afterCalls calls).section? guid part = some s)
    {p : Nat} {junk : List UInt8} (hstart : s.offset ≤ p) (hstop : p + junk.length ≤ s.stop)
    (appended : Bytes) :
    ∃ a file header opened, (Store.new options).afterCalls calls = authoring a ∧
      ((Store.new options).afterCalls calls).sealInto {} guid = .ok (file, sealed header) ∧
      Store.open? (overlay file.data p junk ++ appended) = .ok opened ∧
      ∀ history q, ¬q.reads a part → ((opened.afterQueries history).ask q).1 = a.answer q := by
  obtain ⟨a, i, ha, -, himage, h, hseal⟩ := exists_sealInto options calls guid hsize
  obtain ⟨file, hfile, hdata⟩ := hseal {}
  have hbytes : file.data = i.bytes.toArray := by
    rw [hdata]
    exact Array.toList_inj.1 (by simp [toList_overlay])
  rw [ha, section?, himage] at hs
  have hholds := Image.holds_of_damage h (Image.mem_labelled_of_section? hs) hstart hstop appended
  rw [← hbytes] at hholds
  refine ⟨a, file, i.header, bound { file := i.openedFrom (overlay file.data p junk ++ appended) },
    ha, ha ▸ hfile, ?_, fun history q hq => ?_⟩
  · rw [Store.open?, Image.open?_of_holds h hholds]
    rfl
  · rw [ask_afterQueries_bound]
    refine Image.answer_of_holds h hholds (fun offset heq => ?_) fun other hread heq => ?_
    · subst heq
      exact hq trivial
    · exact hq (heq ▸ hread)

/-- The locals of a method are damaged and a byte is appended.  The line entries of that method, the
compile unit and the scope are still answered, also after a query for the locals. -/
theorem damage_confined_to_locals :
    let calls : List AuthoringCall := [
      .addSource { index := 0, fileName := "a.cs", checksum := [] },
      .addUnit 1,
      .defineMethod {
        token := ⟨7⟩, compileUnit := 1, locals := [⟨0, "x", 0⟩],
        lines := [{ file := 1, row := 4, offset := 2 }] },
      .defineScope 5,
      .captureThis 5 "f"]
    let filled := (Store.new {}).afterCalls calls
    filled.fileSize .zero < 2 ^ 32 ∧
      ∃ s, filled.section? .zero (.method 1 .locals) = some s ∧ s.offset ≤ 122 ∧ 122 + 5 ≤ s.stop ∧
        ∃ file header opened, filled.sealInto {} .zero = .ok (file, sealed header) ∧
          Store.open? (overlay file.data 122 [255, 255, 255, 255, 255] ++ #[0]) = .ok opened ∧
          ∀ history ∈ [[], [.part (.index 1) .locals]],
            ((opened.afterQueries history).ask (.part (.token ⟨7⟩) .lines)).1 =
              .ok ⟨[{ file := 1, row := 4, offset := 2 }]⟩ ∧
            ((opened.afterQueries history).ask (.unit 1)).1 = .ok { index := 1, source := 1 } ∧
            ((opened.afterQueries history).ask (.scope 5)).1 =
              .ok ⟨5, [⟨"this", "f", .this⟩], []⟩ := by
  intro calls filled
  have hsize : filled.fileSize .zero < 2 ^ 32 := by decide +kernel
  have hsection : filled.section? .zero (.method 1 .locals) = some ⟨122, [1, 0, 1, 120, 0]⟩ := by
    decide +kernel
  have hcontents : filled.contents?.map (fun a =>
      (a.answer (.part (.token ⟨7⟩) .lines), a.answer (.unit 1), a.answer (.scope 5))) =
      some (.ok ⟨[{ file := 1, row := 4, offset := 2 }]⟩, .ok { index := 1, source := 1 },
        .ok ⟨5, [⟨"this", "f", .this⟩], []⟩) := by
    decide +kernel
  have hstop : 122 + ([255, 255, 255, 255, 255] : List UInt8).length ≤
      Section.stop ⟨122, [1, 0, 1, 120, 0]⟩ := Nat.le_refl 127
  obtain ⟨a, file, header, opened, ha, hseal, hopen, hanswers⟩ :=
    damage_confined {} calls .zero hsize hsection (Nat.le_refl 122) hstop #[0]
  change filled = authoring a at ha
  rw [ha] at hcontents
  simp only [contents?, Option.map_some, Option.some.injEq, Prod.mk.injEq] at hcontents
  obtain ⟨hlines, hunit, hscope⟩ := hcontents
  refine ⟨hsize, _, hsection, Nat.le_refl 122, hstop, file, header, opened, hseal, hopen,
    fun history _ => ⟨?_, ?_, ?_⟩⟩
  · exact (hanswers history _ (by simp [Query.reads])).trans hlines
  · exact (hanswers history _ (by simp [Query.reads])).trans hunit
  · exact (hanswers history _ (by simp [Query.reads])).trans hscope

end Store

end DebugSymbols
