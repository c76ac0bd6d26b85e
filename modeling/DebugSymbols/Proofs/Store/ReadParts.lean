import DebugSymbols.Proofs.Store.History

namespace DebugSymbols

/-- Only a real name can be known without reading it. -/
theorem MethodRecord.isSome_knownPart? (r : MethodRecord) (part : MethodPart) :
    (r.knownPart? part).isSome ↔ part = .realName ∧ r.trailer.realNameOffset = 0 := by
  cases part <;> simp [knownPart?]

theorem Method.isSome_part?_ofRecord (r : MethodRecord) (part : MethodPart) :
    ((ofRecord r).part? part).isSome = (r.knownPart? part).isSome := by
  cases part <;> rfl

theorem Method.isSome_part?_setPart (m : Method) {part : MethodPart} (v : part.Value)
    (other : MethodPart) :
    ((m.setPart part v).part? other).isSome ↔ (m.part? other).isSome ∨ other = part := by
  by_cases h : other = part
  · subst h
    simp [part?_setPart_self]
  · simp [part?_setPart_of_ne h, h]

/-- The parts `read` of methods were read, and no others except those known without reading. -/
def HasRead (read : UInt32 → MethodPart → Prop) : Option MethodTable → Prop
  | none => ∀ index part, ¬ read index part
  | some t => ∀ index m, t.at? index = some m → ∀ part,
      (m.part? part).isSome ↔ read index part ∨ (m.record.knownPart? part).isSome

theorem HasRead.congr {read read' : UInt32 → MethodPart → Prop} {methods : Option MethodTable}
    (h : HasRead read methods) (heq : ∀ index part, read index part ↔ read' index part) :
    HasRead read' methods := by
  have : read = read' := by
    funext index part
    exact propext (heq index part)
  exact this ▸ h

/-- From the methods `before` to those `after` the parts `new` were read, and nothing was lost. -/
structure ReadsParts (new : UInt32 → MethodPart → Prop) (before after : Option MethodTable) :
    Prop where
  isSome : before.isSome → after.isSome
  hasRead : ∀ read, HasRead read before →
    HasRead (fun index part => read index part ∨ new index part) after

namespace ReadsParts

variable {new new' : UInt32 → MethodPart → Prop} {before between after : Option MethodTable}

theorem refl (methods : Option MethodTable) : ReadsParts (fun _ _ => False) methods methods where
  isSome h := h
  hasRead read h := h.congr fun index part => by simp

theorem trans (h : ReadsParts new before between) (h' : ReadsParts new' between after) :
    ReadsParts (fun index part => new index part ∨ new' index part) before after where
  isSome hsome := h'.isSome (h.isSome hsome)
  hasRead read hread := by
    apply (h'.hasRead _ (h.hasRead read hread)).congr
    intro index part
    exact or_assoc

theorem congr (h : ReadsParts new before after)
    (heq : ∀ index part, new index part ↔ new' index part) : ReadsParts new' before after where
  isSome := h.isSome
  hasRead read hread := (h.hasRead read hread).congr fun index part => by rw [heq]

end ReadsParts

namespace MethodTable

variable {t : MethodTable} {index : UInt32} {m : Method}

theorem at?_setIfInBounds (h : t.at? index = some m) (m' : Method) (i : UInt32) :
    at? ⟨t.ordered.setIfInBounds (index.toNat - 1) m', t.places⟩ i =
      if i = index then some m' else t.at? i := by
  have hindex : index ≠ 0 := by
    intro hzero
    rw [hzero] at h
    cases h
  rw [at?, if_neg hindex] at h
  unfold at?
  by_cases hi : i = 0
  · rw [if_pos hi, if_pos hi, if_neg (fun heq => hindex (heq.symm.trans hi))]
  rw [if_neg hi, if_neg hi, Array.getElem?_setIfInBounds]
  -- Neither index is 0, so that no two of them share a place.
  have hplace : index.toNat - 1 = i.toNat - 1 ↔ i = index := by
    have hpos : i.toNat ≠ 0 := fun hzero => hi (UInt32.toNat_inj.1 hzero)
    have hpos' : index.toNat ≠ 0 := fun hzero => hindex (UInt32.toNat_inj.1 hzero)
    rw [← UInt32.toNat_inj]
    omega
  by_cases heq : i = index
  · rw [if_pos (hplace.2 heq), if_pos heq, if_pos (Array.getElem?_eq_some_iff.1 h).1]
  · rw [if_neg (fun hplaces => heq (hplace.1 hplaces)), if_neg heq]

theorem hasRead_ofRecords (records : List MethodRecord) :
    HasRead (fun _ _ => False) (some (ofRecords records)) := by
  intro index m hm part
  rw [at?] at hm
  split at hm
  · cases hm
  simp only [ofRecords, List.getElem?_toArray, List.getElem?_map, Option.map_eq_some_iff] at hm
  obtain ⟨r, -, rfl⟩ := hm
  rw [Method.isSome_part?_ofRecord]
  simp [Method.ofRecord]

end MethodTable

theorem ReadsParts.load (records : List MethodRecord) :
    ReadsParts (fun _ _ => False) none (some (MethodTable.ofRecords records)) where
  isSome _ := rfl
  hasRead read hnone := by
    apply (MethodTable.hasRead_ofRecords records).congr
    intro index part
    have := hnone index part
    tauto

/-- A look-up that reads no part of a method, whether it succeeds or fails. -/
def Lookup.ReadsNoPart (l : Lookup α) : Prop :=
  ∀ b : Bound, ReadsParts (fun _ _ => False) b.methods (l.run b).2.methods

namespace Lookup.ReadsNoPart

variable {l : Lookup α} {k : α → Lookup β}

theorem of_methods (h : ∀ b : Bound, (l.run b).2.methods = b.methods) : l.ReadsNoPart := by
  intro b
  rw [h b]
  exact .refl b.methods

theorem pure (a : α) : ReadsNoPart (Pure.pure a) := of_methods fun _ => rfl

theorem throw (e : Error) : ReadsNoPart (MonadExcept.throw e : Lookup α) := of_methods fun _ => rfl

theorem get : ReadsNoPart (MonadState.get : Lookup Bound) := of_methods fun _ => rfl

theorem ofExcept (answer : Except Error α) : (Lookup.ofExcept answer).ReadsNoPart :=
  of_methods fun _ => rfl

theorem readAt (target : Nat) (r : Reader α) : (Lookup.readAt target r).ReadsNoPart :=
  of_methods fun _ => rfl

theorem bind (hl : l.ReadsNoPart) (hk : ∀ a, (k a).ReadsNoPart) : (l >>= k).ReadsNoPart := by
  intro b
  have hfirst := hl b
  rw [run_bind]
  rcases hr : l.run b with ⟨e | a, b'⟩
  · rw [hr] at hfirst
    exact hfirst
  · rw [hr] at hfirst
    exact (hfirst.trans (hk a b')).congr fun _ _ => or_self_iff

theorem map (g : α → β) (hl : l.ReadsNoPart) : (g <$> l).ReadsNoPart := by
  intro b
  rw [Step.run_map]
  exact hl b

theorem collect {l : UInt32 → Lookup α} (h : ∀ index, (l index).ReadsNoPart) (start count : Nat) :
    (collect l start count).ReadsNoPart := by
  induction count generalizing start with
  | zero => exact pure []
  | succ count ih => exact (h _).bind fun a => (ih (start + 1)).bind fun rest => pure (a :: rest)

theorem findFirst {l : UInt32 → Lookup α} (h : ∀ index, (l index).ReadsNoPart)
    (wanted : α → Bool) (e : Error) (start count : Nat) :
    (findFirst l wanted (MonadExcept.throw e) start count).ReadsNoPart := by
  induction count generalizing start with
  | zero => exact throw e
  | succ count ih =>
    apply (h _).bind
    intro a
    split
    · exact pure a
    · exact ih (start + 1)

theorem collectRecords {l : UInt32 → Lookup MethodRecord} (h : ∀ index, (l index).ReadsNoPart)
    (seen : Std.TreeSet UInt32) (start count : Nat) :
    (collectRecords l seen start count).ReadsNoPart := by
  induction count generalizing seen start with
  | zero => exact pure []
  | succ count ih =>
    apply (h _).bind
    intro r
    split
    · exact throw _
    · exact (ih _ (start + 1)).bind fun rest => pure (r :: rest)

theorem readOnce {place : SymbolFile → Except Error Nat} {entry : SymbolFile → Reader α}
    {kept : Bound → Option α} {keep : α → Bound → Bound}
    (hkeep : ∀ a b, (keep a b).methods = b.methods) :
    (Bound.readOnce place entry kept keep).ReadsNoPart := by
  apply get.bind
  intro b
  apply (ofExcept _).bind
  intro target
  split
  · exact pure _
  · apply (readAt _ _).bind
    intro a
    have hmodify : (modify (keep a) : Lookup PUnit).ReadsNoPart := of_methods (hkeep a)
    exact hmodify.bind fun _ => pure a

end Lookup.ReadsNoPart

namespace Bound

theorem readsNoPart_sourceFile (index : UInt32) : (sourceFile index).ReadsNoPart :=
  .readOnce fun _ _ => rfl

theorem readsNoPart_compileUnit (index : UInt32) : (compileUnit index).ReadsNoPart :=
  .readOnce fun _ _ => rfl

theorem readsNoPart_scopeTable : scopeTable.ReadsNoPart := .readOnce fun _ _ => rfl

theorem readsNoPart_methodRecord (index : UInt32) : (methodRecord index).ReadsNoPart :=
  Lookup.ReadsNoPart.get.bind fun _ => (Lookup.ReadsNoPart.ofExcept _).bind fun _ => .readAt _ _

/-- The table is loaded once, and keeps what was read since. -/
theorem readsNoPart_methodTable : methodTable.ReadsNoPart := by
  intro b
  obtain ⟨t, ht, hrun⟩ | ⟨hnone, e, b', hcollect, hrun⟩ | ⟨hnone, records, b', -, hrun⟩ :=
    methodTable_cases b
  · rw [hrun]
    exact .refl b.methods
  · have hreads := Lookup.ReadsNoPart.collectRecords readsNoPart_methodRecord ∅ 1
      b.file.header.methodCount.toNat b
    rw [hcollect] at hreads
    rw [hrun]
    exact hreads
  · -- The table is new, and so are its methods.
    rw [hrun, hnone]
    exact .load records

theorem methods_of_run {b b' : Bound} {t : MethodTable} (h : methodTable.run b = (.ok t, b')) :
    b'.methods = some t := by
  obtain ⟨kept, hkept, hrun⟩ | ⟨-, e, _, -, hrun⟩ | ⟨-, records, _, -, hrun⟩ := methodTable_cases b
  · rw [hrun] at h
    cases h
    exact hkept
  · rw [hrun] at h
    cases h
  · rw [hrun] at h
    cases h
    rfl

theorem readsNoPart_allMethods : allMethods.ReadsNoPart :=
  readsNoPart_methodTable.bind fun _ => .pure _

theorem readsNoPart_pick (key : MethodKey) : (pick key).ReadsNoPart := by
  cases key with
  | index index =>
    rw [pick, method]
    split
    · exact .throw _
    apply readsNoPart_methodTable.bind
    intro t
    split
    · exact .pure _
    · exact .throw _
  | token token =>
    apply readsNoPart_methodTable.bind
    intro t
    split
    · exact .pure _
    · exact .throw _

theorem isSome_methods_of_bind {b b' : Bound} {a : α} {k : MethodTable → Lookup α}
    (hk : ∀ t b, ((k t).run b).2 = b) (h : (methodTable >>= k).run b = (.ok a, b')) :
    b'.methods.isSome := by
  rw [Lookup.run_bind] at h
  rcases hrun : methodTable.run b with ⟨e | t, b''⟩
  · rw [hrun] at h
    cases h
  · rw [hrun] at h
    have hsame : b' = b'' := (congrArg Prod.snd h).symm.trans (hk t b'')
    rw [hsame, methods_of_run hrun]
    rfl

theorem isSome_methods_of_pick {key : MethodKey} {b b' : Bound} {m : Method}
    (h : (pick key).run b = (.ok m, b')) : b'.methods.isSome := by
  cases key with
  | index index =>
    rw [pick, method] at h
    split at h
    · cases h
    apply isSome_methods_of_bind _ h
    intro t c
    split <;> rfl
  | token token =>
    apply isSome_methods_of_bind _ h
    intro t c
    split <;> rfl

/-- Every query but one for a part. -/
theorem readsNoPart_answer (q : Query) (h : ∀ key part, q ≠ .part key part) :
    (answer q).ReadsNoPart := by
  cases q with
  | source index => exact readsNoPart_sourceFile index
  | sources => exact Lookup.ReadsNoPart.get.bind fun _ => .collect readsNoPart_sourceFile _ _
  | findSource name =>
    exact Lookup.ReadsNoPart.get.bind fun _ => .findFirst readsNoPart_sourceFile _ _ _ _
  | unit index => exact readsNoPart_compileUnit index
  | units => exact Lookup.ReadsNoPart.get.bind fun _ => .collect readsNoPart_compileUnit _ _
  | method key => exact (readsNoPart_pick key).map _
  | methods => exact readsNoPart_allMethods.map _
  | part key part => exact absurd rfl (h key part)
  | scope id =>
    apply readsNoPart_scopeTable.bind
    intro table
    split
    · exact .pure _
    · exact .throw _
  | scopes => exact readsNoPart_scopeTable.bind fun _ => .pure _
  | textAt offset => exact .of_methods fun _ => rfl

theorem run_getPart (b : Bound) (m : Method) (part : MethodPart) :
    ∃ answer, (m.getPart readPart part).run b = (answer, b) ∧
      ∀ v m', answer = .ok (v, m') → m'.record = m.record ∧
        ∀ other, (m'.part? other).isSome ↔ (m.part? other).isSome ∨ other = part := by
  obtain ⟨v, hkept, hrun⟩ | ⟨-, v, -, hrun⟩ | ⟨-, e, -, hrun⟩ := getPart_cases b m part
  · refine ⟨_, hrun, ?_⟩
    intro v' m' hanswer
    cases hanswer
    refine ⟨rfl, fun other => ⟨.inl, ?_⟩⟩
    rintro (hother | rfl)
    · exact hother
    · rw [hkept]
      rfl
  · refine ⟨_, hrun, ?_⟩
    intro v' m' hanswer
    cases hanswer
    exact ⟨Method.record_setPart, m.isSome_part?_setPart v⟩
  · refine ⟨_, hrun, ?_⟩
    intro v m' hanswer
    cases hanswer

theorem run_getPart_table (b : Bound) (t : MethodTable) (index : UInt32) (part : MethodPart) :
    ∃ answer, (t.getPart readPart index part).run b = (answer, b) ∧
      ∀ v t', answer = .ok (v, t') →
        ReadsParts (fun i p => i = index ∧ p = part) (some t) (some t') := by
  unfold MethodTable.getPart
  cases hat : t.at? index with
  | none =>
    refine ⟨.error .outOfBounds, rfl, ?_⟩
    intro v t' hanswer
    cases hanswer
  | some m =>
    dsimp only
    obtain ⟨answer, hrun, hm'⟩ := run_getPart b m part
    rw [Lookup.run_bind, hrun]
    rcases answer with e | ⟨v, m'⟩
    · refine ⟨.error e, rfl, ?_⟩
      intro v t' hanswer
      cases hanswer
    refine ⟨_, rfl, ?_⟩
    intro v' t' hanswer
    cases hanswer
    obtain ⟨hrecord, hparts⟩ := hm' v m' rfl
    refine ⟨fun _ => rfl, ?_⟩
    intro read hread i r hr p
    rw [MethodTable.at?_setIfInBounds hat] at hr
    by_cases hi : i = index
    · -- The method that was read from.
      rw [if_pos hi] at hr
      cases hr
      subst hi
      rw [hparts, hrecord, hread i m hat p]
      tauto
    · rw [if_neg hi] at hr
      rw [hread i r hr p]
      tauto

/-- A part that is read successfully is added, and no other. -/
theorem readsParts_part (b : Bound) (index : UInt32) (wanted : MethodPart) :
    ReadsParts (fun i p => ((part index wanted).run b).1.isOk ∧ i = index ∧ p = wanted) b.methods
      ((part index wanted).run b).2.methods := by
  have hload := readsNoPart_methodTable b
  rw [part, Lookup.run_bind]
  rcases hrun : methodTable.run b with ⟨e | t, b'⟩
  · -- There are no methods to read from.
    rw [hrun] at hload
    apply hload.congr
    intro i p
    simp [Except.isOk, Except.toBool]
  · have ht : b'.methods = some t := methods_of_run hrun
    rw [hrun] at hload
    dsimp only at hload ⊢
    rw [ht] at hload
    obtain ⟨answer, hget, hread⟩ := run_getPart_table b' t index wanted
    rw [Lookup.run_bind, hget]
    rcases answer with e | ⟨v, t'⟩
    · dsimp only
      rw [ht]
      apply hload.congr
      intro i p
      simp [Except.isOk, Except.toBool]
    · apply (hload.trans (hread v t' rfl)).congr
      intro i p
      show False ∨ (i = index ∧ p = wanted) ↔ true = true ∧ i = index ∧ p = wanted
      simp only [false_or, true_and]

theorem readsParts_answer_part (b : Bound) (key : MethodKey) (wanted : MethodPart) :
    ReadsParts
      (fun i p => ∃ m, ((pick key).run b).1 = .ok m ∧
        ((answer (.part key wanted)).run b).1.isOk ∧ i = m.record.index ∧ p = wanted)
      b.methods ((answer (.part key wanted)).run b).2.methods := by
  have hpick := readsNoPart_pick key b
  rw [answer, Lookup.run_bind]
  rcases hrun : (pick key).run b with ⟨e | m, b'⟩
  · rw [hrun] at hpick
    apply hpick.congr
    intro i p
    simp
  · rw [hrun] at hpick
    apply (hpick.trans (readsParts_part b' m.record.index wanted)).congr
    intro i p
    simp

end Bound

end DebugSymbols
