import DebugSymbols.Proofs.Store.History

namespace DebugSymbols

/-- The table finds a method by token where a search of its methods finds it. -/
theorem MethodTable.Coherent.withToken?_eq {f : SymbolFile} {t : MethodTable} (ht : t.Coherent f)
    (token : Token) :
    t.withToken? token = t.ordered.toList.find? fun m => m.record.token == token := by
  have hplace : t.places[token.value]? =
      t.ordered.toList.findIdx? fun m => m.record.token == token := by
    rw [ht.places, places_ofRecords (SymbolFile.methods_nodup ht.records), MethodTable.records,
      List.findIdx?_map]
    rfl
  rw [withToken?, hplace, List.find?_eq_bind_findIdx?_getElem?]
  simp only [Array.getElem?_toList]

namespace Store

/-- All views of the methods fail with one error. -/
structure FailsMethods (s : Store) (e : Error) : Prop where
  all : (s.lookup Bound.allMethods).1 = .error e
  by_index : ∀ index : UInt32, 1 ≤ index.toNat → (s.lookup (Bound.method index)).1 = .error e
  by_token : ∀ token, (s.lookup (Bound.methodByToken token)).1 = .error e

/-- All views of the methods show the methods `ms`, counted from 1. -/
structure ShowsMethods (s : Store) (ms : List Method) : Prop where
  all : (s.lookup Bound.allMethods).1 = .ok ms
  by_index : ∀ index : UInt32, 1 ≤ index.toNat → index.toNat ≤ ms.length →
    ∃ m, ms[index.toNat - 1]? = some m ∧ (s.lookup (Bound.method index)).1 = .ok m
  other_index : ∀ index : UInt32, index.toNat = 0 ∨ ms.length < index.toNat →
    (s.lookup (Bound.method index)).1 = .error .outOfBounds
  by_token : ∀ m ∈ ms, (s.lookup (Bound.methodByToken m.record.token)).1 = .ok m
  other_token : ∀ token, (∀ m ∈ ms, m.record.token ≠ token) →
    (s.lookup (Bound.methodByToken token)).1 = .error (.methodNotFound token)

variable {b b' : Bound} {e : Error} {t : MethodTable}

theorem ne_zero_of_one_le {index : UInt32} (h : 1 ≤ index.toNat) : index ≠ 0 := by
  intro hzero
  rw [hzero] at h
  exact absurd h (by decide)

theorem lookup_method {index : UInt32} (hindex : 1 ≤ index.toNat) :
    ((bound b).lookup (Bound.method index)).1 =
      ((Bound.methodTable >>= fun t => match t.at? index with
        | some m => pure m
        | none => throw .outOfBounds : Lookup Method).run b).1 :=
  congrArg (fun l : Lookup Method => (l.run b).1) (if_neg (ne_zero_of_one_le hindex))

theorem failsMethods_of_run (h : Bound.methodTable.run b = (.error e, b')) :
    (bound b).FailsMethods e where
  all := by
    show (Bound.allMethods.run b).1 = _
    rw [Bound.allMethods, Lookup.run_bind, h]
  by_index index hindex := by rw [lookup_method hindex, Lookup.run_bind, h]
  by_token token := by
    show ((Bound.methodByToken token).run b).1 = _
    rw [Bound.methodByToken, Lookup.run_bind, h]

theorem lookup_method_of_run (h : Bound.methodTable.run b = (.ok t, b')) {index : UInt32}
    (hindex : 1 ≤ index.toNat) :
    ((bound b).lookup (Bound.method index)).1 =
      match t.ordered.toList[index.toNat - 1]? with
      | some m => .ok m
      | none => .error .outOfBounds := by
  have hat : t.at? index = t.ordered.toList[index.toNat - 1]? := by
    rw [MethodTable.at?, Array.getElem?_toList, if_neg (ne_zero_of_one_le hindex)]
  rw [lookup_method hindex, Lookup.run_bind, h]
  dsimp only
  rw [hat]
  cases t.ordered.toList[index.toNat - 1]? <;> rfl

theorem lookup_methodByToken_of_run (h : Bound.methodTable.run b = (.ok t, b'))
    (ht : t.Coherent b.file) (token : Token) :
    ((bound b).lookup (Bound.methodByToken token)).1 =
      match t.ordered.toList.find? fun m => m.record.token == token with
      | some m => .ok m
      | none => .error (.methodNotFound token) := by
  show ((Bound.methodByToken token).run b).1 = _
  rw [Bound.methodByToken, Lookup.run_bind, h]
  dsimp only
  rw [ht.withToken?_eq token]
  cases t.ordered.toList.find? fun m => m.record.token == token <;> rfl

theorem showsMethods_of_run (h : Bound.methodTable.run b = (.ok t, b'))
    (ht : t.Coherent b.file) : (bound b).ShowsMethods t.ordered.toList where
  all := by
    show (Bound.allMethods.run b).1 = _
    rw [Bound.allMethods, Lookup.run_bind, h]
    rfl
  by_index index hfirst hlast := by
    have hlt : index.toNat - 1 < t.ordered.toList.length := by omega
    refine ⟨t.ordered.toList[index.toNat - 1], List.getElem?_eq_getElem hlt, ?_⟩
    rw [lookup_method_of_run h hfirst, List.getElem?_eq_getElem hlt]
  other_index index hindex := by
    by_cases hzero : index.toNat = 0
    · have hzero' : index = 0 := UInt32.toNat_inj.1 hzero
      rw [hzero']
      rfl
    · rw [lookup_method_of_run h (by omega), List.getElem?_eq_none (by omega)]
  by_token m hm := by
    have hfind : (t.ordered.toList.find? fun r => r.record.token == m.record.token) = some m := by
      have hnodup := SymbolFile.methods_nodup ht.records
      rw [MethodTable.records, List.map_map] at hnodup
      exact find?_key_of_mem hnodup hm
    rw [lookup_methodByToken_of_run h ht, hfind]
  other_token token htoken := by
    have hnone : (t.ordered.toList.find? fun r => r.record.token == token) = none := by
      apply List.find?_eq_none.2
      intro m hm
      simpa using htoken m hm
    rw [lookup_methodByToken_of_run h ht, hnone]

/-- The table is read as a whole or not at all, so that the views agree on it. -/
theorem views_of_coherent (hb : b.Coherent) :
    (∃ e, b.file.methods = .error e ∧ (bound b).FailsMethods e) ∨
      ∃ ms, b.file.methods = .ok (ms.map Method.record) ∧ (bound b).ShowsMethods ms := by
  obtain ⟨t, b', hrun, ht, -⟩ | ⟨e, b', hrun, he, -⟩ := Bound.run_methodTable hb
  · exact .inr ⟨t.ordered.toList, ht.records, showsMethods_of_run hrun ht⟩
  · exact .inl ⟨e, he, failsMethods_of_run hrun⟩

/-- Over any bytes that open, and after any queries: all views of the methods fail with the same
error, or they show the same methods, as many as the header says, with indices in their order and
a token each. -/
theorem method_views_agree {data : Bytes} {s : Store} (h : Store.open? data = .ok s) :
    (∃ e, ∀ history, (s.afterQueries history).FailsMethods e) ∨
    ∃ header records, s.header = .ok header ∧ records.length = header.methodCount.toNat ∧
      (records.map MethodRecord.token).Nodup ∧
      (∀ k r, records[k]? = some r → r.index.toNat = k + 1) ∧
      ∀ history, ∃ ms, ms.map Method.record = records ∧
        (s.afterQueries history).ShowsMethods ms := by
  obtain ⟨f, -, rfl⟩ := open?_eq_ok h
  -- Whatever was asked before, the store still agrees with its file.
  have hviews (history : List Query) :
      (∃ e, f.methods = .error e ∧ ((bound { file := f }).afterQueries history).FailsMethods e) ∨
        ∃ ms, f.methods = .ok (ms.map Method.record) ∧
          ((bound { file := f }).afterQueries history).ShowsMethods ms := by
    obtain ⟨b, hb, hext⟩ := afterQueries_bound (Bound.coherent_of_file f) history
    rw [hb, ← show b.file = f from hext.file_eq]
    exact views_of_coherent hext.coherent
  cases hms : f.methods with
  | error e =>
    left
    use e
    intro history
    obtain ⟨e', he, hfails⟩ | ⟨ms, hms', -⟩ := hviews history
    · rw [hms] at he
      cases he
      exact hfails
    · rw [hms] at hms'
      cases hms'
  | ok records =>
    right
    refine ⟨f.header, records, rfl, collectRecords_length hms, SymbolFile.methods_nodup hms, ?_, ?_⟩
    · intro k r hr
      have hlt := (List.getElem?_eq_some_iff.1 hr).1
      have hcount := SymbolFile.methods_length_lt hms
      rw [SymbolFile.methods_index hms hr]
      exact UInt32.toNat_ofNat_of_lt' (Nat.lt_of_le_of_lt hlt hcount)
    · intro history
      obtain ⟨e, he, -⟩ | ⟨ms, hms', hshows⟩ := hviews history
      · rw [hms] at he
        cases he
      · rw [hms] at hms'
        exact ⟨ms, (Except.ok.inj hms').symm, hshows⟩

/-- Two files of two methods.  In the first both have the token 5, which spoils all look-ups; in the
second the tokens descend, which spoils none. -/
theorem method_views_agree_repeated_token :
    let preamble : Preamble := { guid := .zero }
    let header : Header := {
      methodCount := 2, methodTableOffset := 112, lineBase := -1, lineRange := 8, opcodeBase := 9 }
    let record (token : Nat) : List UInt8 :=
      littleEndian 4 token ++ littleEndian 4 136 ++ littleEndian 4 0
    let data (second : Nat) : Bytes := (preamble.encode ++ header.encode ++ record 5 ++
      record second ++ List.replicate 7 0).toArray
    let s (second : Nat) : Store := .bound { file := ⟨data second, preamble, header, .default⟩ }
    Store.open? (data 5) = .ok (s 5) ∧ Store.open? (data 3) = .ok (s 3) ∧
      (∀ history, ((s 5).afterQueries history).FailsMethods (.malformed (.repeatedToken ⟨5⟩))) ∧
      ∀ history, ∃ ms, ms.map (fun m => m.record.token) = [⟨5⟩, ⟨3⟩] ∧
        ((s 3).afterQueries history).ShowsMethods ms := by
  intro preamble header record data s
  have hopen : Store.open? (data 5) = .ok (s 5) ∧ Store.open? (data 3) = .ok (s 3) := by
    have hfiles : SymbolFile.open? (data 5) = .ok ⟨data 5, preamble, header, .default⟩ ∧
        SymbolFile.open? (data 3) = .ok ⟨data 3, preamble, header, .default⟩ := by decide +kernel
    rw [Store.open?, Store.open?, hfiles.1, hfiles.2]
    exact ⟨rfl, rfl⟩
  have hrepeated : (fun _ => ()) <$> ((s 5).lookup Bound.allMethods).1 =
      .error (.malformed (.repeatedToken ⟨5⟩)) := by decide +kernel
  have hdescending : List.map (fun m => m.record.token) <$> ((s 3).lookup Bound.allMethods).1 =
      .ok [⟨5⟩, ⟨3⟩] := by decide +kernel
  refine ⟨hopen.1, hopen.2, ?_, ?_⟩
  · obtain ⟨e, hfails⟩ | ⟨_, _, -, -, -, -, hshows⟩ := method_views_agree hopen.1
    · have hall : ((s 5).lookup Bound.allMethods).1 = .error e := (hfails []).all
      rw [hall] at hrepeated
      cases hrepeated
      exact hfails
    · obtain ⟨ms, -, hshows⟩ := hshows []
      have hall : ((s 5).lookup Bound.allMethods).1 = .ok ms := hshows.all
      rw [hall] at hrepeated
      cases hrepeated
  · obtain ⟨e, hfails⟩ | ⟨_, records, -, -, -, -, hshows⟩ := method_views_agree hopen.2
    · have hall : ((s 3).lookup Bound.allMethods).1 = .error e := (hfails []).all
      rw [hall] at hdescending
      cases hdescending
    · obtain ⟨ms, hms, hfirst⟩ := hshows []
      have hall : ((s 3).lookup Bound.allMethods).1 = .ok ms := hfirst.all
      rw [hall] at hdescending
      have htokens : records.map MethodRecord.token = [⟨5⟩, ⟨3⟩] := by
        rw [← hms, List.map_map]
        exact Except.ok.inj hdescending
      intro history
      obtain ⟨ms', hms', hlater⟩ := hshows history
      refine ⟨ms', ?_, hlater⟩
      rw [← htokens, ← hms', List.map_map]
      rfl

end Store

end DebugSymbols
