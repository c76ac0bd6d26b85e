import DebugSymbols.Proofs.Command.Runs

namespace DebugSymbols

namespace JsonValue

mutual

/-- The members of each object in a document, at any depth. -/
def objects : JsonValue → List (List (String × JsonValue))
  | array vs => objectsOfElements vs
  | object ms => ms :: objectsOfMembers ms
  | _ => []

def objectsOfElements : List JsonValue → List (List (String × JsonValue))
  | [] => []
  | v :: vs => objects v ++ objectsOfElements vs

def objectsOfMembers : List (String × JsonValue) → List (List (String × JsonValue))
  | [] => []
  | (_, v) :: ms => objects v ++ objectsOfMembers ms

end

/-- No object in a document has two members of one name. -/
def Unambiguous (v : JsonValue) : Prop := ∀ ms ∈ v.objects, (ms.map Prod.fst).Nodup

theorem objectsOfElements_eq (vs : List JsonValue) : objectsOfElements vs = vs.flatMap objects := by
  induction vs with
  | nil => rfl
  | cons v vs ih => rw [objectsOfElements, ih, List.flatMap_cons]

theorem objectsOfMembers_eq (ms : List (String × JsonValue)) :
    objectsOfMembers ms = ms.flatMap fun m => m.2.objects := by
  induction ms with
  | nil => rfl
  | cons m ms ih => rw [objectsOfMembers, ih, List.flatMap_cons]

theorem unambiguous_array {vs : List JsonValue} :
    (array vs).Unambiguous ↔ ∀ v ∈ vs, v.Unambiguous := by
  rw [Unambiguous, objects, objectsOfElements_eq]
  simp only [List.mem_flatMap, forall_exists_index, and_imp]
  exact ⟨fun h v hv ms hms => h ms v hv hms, fun h ms v hv hms => h v hv ms hms⟩

theorem unambiguous_object {ms : List (String × JsonValue)} :
    (object ms).Unambiguous ↔ (ms.map Prod.fst).Nodup ∧ ∀ m ∈ ms, m.2.Unambiguous := by
  rw [Unambiguous, objects, objectsOfMembers_eq, List.forall_mem_cons]
  simp only [List.mem_flatMap, forall_exists_index, and_imp]
  exact and_congr_right' ⟨fun h v hv ms hms => h ms v hv hms, fun h ms v hv hms => h v hv ms hms⟩

theorem unambiguous_flat {ms : List (String × JsonValue)} (hnames : (ms.map Prod.fst).Nodup)
    (hflat : objectsOfMembers ms = []) : (object ms).Unambiguous := by
  rw [Unambiguous, objects, hflat]
  exact List.forall_mem_singleton.2 hnames

theorem lookup_of_nodup {ms : List (String × JsonValue)} (h : (ms.map Prod.fst).Nodup)
    {m : String × JsonValue} (hm : m ∈ ms) : ms.lookup m.1 = some m.2 := by
  induction ms with
  | nil => exact absurd hm List.not_mem_nil
  | cons n ms ih =>
    obtain ⟨hn, hms⟩ := List.nodup_cons.1 h
    rcases List.mem_cons.1 hm with rfl | hm
    · exact List.lookup_cons_self
    · have hne : m.1 ≠ n.1 := fun heq => hn (heq ▸ List.mem_map_of_mem hm)
      rw [List.lookup_cons, beq_false_of_ne hne]
      exact ih hms hm

end JsonValue

namespace Report

open JsonValue

variable {f : SymbolFile} {report : Report}

theorem unambiguous_infoDocument (f : SymbolFile) : (infoDocument f).Unambiguous :=
  unambiguous_flat (by simp) rfl

theorem unambiguous_sourceDocument (s : SourceFile) : (sourceDocument s).Unambiguous :=
  unambiguous_flat (by simp) rfl

theorem unambiguous_methodDocument (m : MethodEntry) : m.document.Unambiguous := by
  apply unambiguous_flat (by simp)
  rcases m with ⟨_, _, _, _ | _, _ | _, _, _⟩ <;> rfl

theorem unambiguous_methodsDocument (entries : List MethodEntry) :
    (methodsDocument entries).Unambiguous := by
  refine unambiguous_object.2 ⟨by simp, List.forall_mem_cons.2 ⟨unambiguous_array.2 ?_, ?_⟩⟩
  · exact List.forall_mem_map.2 fun m _ => unambiguous_methodDocument m
  · exact List.forall_mem_singleton.2 nofun

theorem unambiguous_members (p : Position) : (object p.members).Unambiguous :=
  unambiguous_flat (by simp [Position.members]) rfl

theorem unambiguous_linesDocument (token : Token) (positions : List Position) :
    (linesDocument token positions).Unambiguous := by
  refine unambiguous_object.2 ⟨by simp, List.forall_mem_cons.2 ⟨nofun, ?_⟩⟩
  refine List.forall_mem_singleton.2 (unambiguous_array.2 ?_)
  exact List.forall_mem_map.2 fun p _ => unambiguous_members p

theorem unambiguous_scopeDocument (s : AnonymousScope) : (scopeDocument s).Unambiguous := by
  refine unambiguous_object.2 ⟨by simp, List.forall_mem_cons.2 ⟨nofun, ?_⟩⟩
  refine List.forall_mem_singleton.2 (unambiguous_array.2 ?_)
  exact List.forall_mem_map.2 fun c _ => unambiguous_flat (by simp) rfl

theorem not_unambiguous_lookupDocument (token : Token) (offset : UInt32) (p : Position) :
    ¬(lookupDocument token offset p).Unambiguous := by
  intro h
  have hnames := (unambiguous_object.1 h).1
  simp [Position.members] at hnames

theorem lookup_eq_ok [Build] {token offset : String} (h : lookup f token offset = .ok report) :
    ∃ t o p, (Numeral.parse offset).2 = .ok o ∧ report.document = lookupDocument t o p := by
  obtain ⟨⟨t, o, p⟩, hposition, h⟩ := bind_ok_iff.1 h
  cases h
  obtain ⟨m, -, hposition⟩ := bind_ok_iff.1 hposition
  obtain ⟨o', hnumber, hposition⟩ := bind_ok_iff.1 hposition
  obtain ⟨table, -, hposition⟩ := bind_ok_iff.1 hposition
  cases hfind : table.find? o' with
  | none =>
    rw [hfind] at hposition
    cases hposition
  | some e =>
    rw [hfind] at hposition
    obtain ⟨p', -, hposition⟩ := bind_ok_iff.1 hposition
    cases hposition
    exact ⟨_, _, _, number_eq_ok.1 hnumber, rfl⟩

/-- Only the documents of look-ups have a name twice in one object. -/
theorem unambiguous_iff [Build] {c : Command} (h : ofCommand f c = .ok report) :
    report.document.Unambiguous ↔ ∀ token offset, c ≠ .lookup token offset := by
  have other (hdocument : report.document.Unambiguous)
      (hc : ∀ token offset, c ≠ .lookup token offset) :
      report.document.Unambiguous ↔ ∀ token offset, c ≠ .lookup token offset :=
    ⟨fun _ => hc, fun _ => hdocument⟩
  cases c with
  | info =>
    cases h
    exact other (unambiguous_infoDocument f) nofun
  | sources =>
    obtain ⟨sources, -, h⟩ := bind_ok_iff.1 h
    cases h
    refine other (unambiguous_array.2 ?_) nofun
    exact List.forall_mem_map.2 fun s _ => unambiguous_sourceDocument s
  | methods filter =>
    obtain ⟨entries, -, h⟩ := bind_ok_iff.1 h
    cases h
    exact other (unambiguous_methodsDocument entries) nofun
  | lines token =>
    obtain ⟨⟨t, positions⟩, -, h⟩ := bind_ok_iff.1 h
    cases h
    exact other (unambiguous_linesDocument t positions) nofun
  | lookup token offset =>
    obtain ⟨t, o, p, -, hdocument⟩ := lookup_eq_ok h
    rw [hdocument]
    exact ⟨fun h => absurd h (not_unambiguous_lookupDocument t o p), fun h => absurd rfl (h _ _)⟩
  | scopes =>
    obtain ⟨scopes, -, h⟩ := bind_ok_iff.1 h
    cases h
    refine other (unambiguous_array.2 ?_) nofun
    exact List.forall_mem_map.2 fun s _ => unambiguous_scopeDocument s

/-- In the document of a look-up all members but the offsets are found by name.  A reader finds the
offset of the query if it keeps the first member of a name, and that of the position if it keeps
the last. -/
theorem objects_lookupDocument (token : Token) (offset : UInt32) (p : Position) :
    ∃ ms, (lookupDocument token offset p).objects = [ms] ∧
      ms.lookup "offset" = some (.nat offset.toNat) ∧
      ms.reverse.lookup "offset" = some (.nat p.offset.toNat) ∧
      ∀ m ∈ ms, m.1 ≠ "offset" → ms.lookup m.1 = some m.2 ∧ ms.reverse.lookup m.1 = some m.2 := by
  refine ⟨_, rfl, rfl, rfl, ?_⟩
  simp only [Position.members, List.cons_append, List.nil_append, List.forall_mem_cons]
  exact ⟨fun _ => ⟨rfl, rfl⟩, absurd rfl, absurd rfl, fun _ => ⟨rfl, rfl⟩, fun _ => ⟨rfl, rfl⟩,
    fun _ => ⟨rfl, rfl⟩, fun _ => ⟨rfl, rfl⟩, fun _ => ⟨rfl, rfl⟩, fun _ => ⟨rfl, rfl⟩, nofun⟩

end Report

namespace Outcome

/-- A run that is to print JSON and ends well prints a document on lines of its own, from which it
is read back.  In the document each object has members of different names, by which they are found,
exactly if the command is not a look-up.  The document of a look-up is one object in which all
members but two are found by name: the offset of the query and, behind it, that of the position
found have one name, and are told apart by their order only. -/
theorem document_read_back [Build] {c : Command} {path : String} {contents : Except Error Bytes}
    (hcode : (ofInvocation ⟨c, path, true⟩ contents).code = 0) :
    ∃ f report, contents.bind SymbolFile.open? = .ok f ∧ Report.ofCommand f c = .ok report ∧
      JsonValue.read? (ofInvocation ⟨c, path, true⟩ contents).stdout = some report.document ∧
      (report.document.Unambiguous ↔ ∀ token offset, c ≠ .lookup token offset) ∧
      (report.document.Unambiguous →
        ∀ ms ∈ report.document.objects, ∀ m ∈ ms, ms.lookup m.1 = some m.2) ∧
      ∀ token offset, c = .lookup token offset →
        ∃ t o p ms, (Numeral.parse offset).2 = .ok o ∧
          report.document = Report.lookupDocument t o p ∧ report.document.objects = [ms] ∧
          ms.lookup "offset" = some (.nat o.toNat) ∧
          ms.reverse.lookup "offset" = some (.nat p.offset.toNat) ∧
          ∀ m ∈ ms, m.1 ≠ "offset" →
            ms.lookup m.1 = some m.2 ∧ ms.reverse.lookup m.1 = some m.2 := by
  obtain ⟨f, report, hf, hreport⟩ := exists_report_of_code hcode
  refine ⟨f, report, hf, hreport, ?_, Report.unambiguous_iff hreport,
    fun h ms hms m hm => JsonValue.lookup_of_nodup (h ms hms) hm, ?_⟩
  · rw [ofInvocation_of_report hf hreport, read?_ofDocument]
  · intro token offset hcommand
    rw [hcommand] at hreport
    obtain ⟨t, o, p, ho, hdocument⟩ := Report.lookup_eq_ok hreport
    obtain ⟨ms, hms⟩ := Report.objects_lookupDocument t o p
    rw [hdocument]
    exact ⟨t, o, p, ms, ho, rfl, hms⟩

/-- The positions of a method with one sequence point. -/
theorem document_read_back_one_point :
    let outcome := ofInvocation ⟨.lines "7", "a.sym", true⟩ (.ok (oneMethodFile [12, 0, 1, 1]))
    outcome.code = 0 ∧ ∃ d, JsonValue.read? outcome.stdout = some d ∧ d.Unambiguous := by
  intro outcome
  have hcode : outcome.code = 0 := by decide +kernel
  obtain ⟨f, report, -, -, hread, hnames, -⟩ := document_read_back hcode
  exact ⟨hcode, report.document, hread, hnames.2 nofun⟩

/-- The offset 2 is looked up, and the position at 0 is found. -/
theorem two_offsets_in_one_object :
    let outcome :=
      ofInvocation ⟨.lookup "7" "2", "a.sym", true⟩ (.ok (oneMethodFile [12, 0, 1, 1]))
    let position : Report.Position :=
      { offset := 0, file := "a", row := 3, column := -1, endRow := -1, endColumn := -1,
        hidden := false }
    outcome.code = 0 ∧
      JsonValue.read? outcome.stdout = some (Report.lookupDocument ⟨7⟩ 2 position) ∧
      ¬(Report.lookupDocument ⟨7⟩ 2 position).Unambiguous := by
  intro outcome position
  have houtcome : outcome = ofDocument (Report.lookupDocument ⟨7⟩ 2 position) := by
    decide +kernel
  rw [houtcome]
  exact ⟨rfl, read?_ofDocument _, Report.not_unambiguous_lookupDocument _ _ _⟩

end Outcome

end DebugSymbols
