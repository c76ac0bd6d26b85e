import DebugSymbols.Proofs.Build
import DebugSymbols.Proofs.Store.MethodTable

namespace DebugSymbols

namespace Lookup

variable {b : Bound}

theorem run_get : (get : Lookup Bound).run b = (.ok b, b) := rfl

theorem run_ofExcept (answer : Except Error α) : (ofExcept answer).run b = (answer, b) := rfl

theorem run_bind (l : Lookup α) (k : α → Lookup β) :
    (l >>= k).run b = match l.run b with
      | (.ok a, b') => (k a).run b'
      | (.error e, b') => (.error e, b') := by
  change (match l.run b with
    | (r, b') => (ExceptT.bindCont k r : StateM Bound (Except Error β)) b') = _
  rcases l.run b with ⟨_ | a, b'⟩ <;> rfl

theorem run_read (r : Reader α) :
    (read r).run b =
      ((r b.file.data b.position).1, { b with position := (r b.file.data b.position).2 }) :=
  rfl

/-- A read elsewhere leaves the stream where it stood, also when it fails. -/
theorem run_readAt (target : Nat) (r : Reader α) :
    (readAt target r).run b = (r.eval b.file.data target, b) := rfl

end Lookup

/-- A method whose parts, as far as they were read, are those of its file. -/
structure Method.Coherent (f : SymbolFile) (m : Method) : Prop where
  known : ∀ part, m.part? part = none → m.record.knownPart? part = none
  parts : ∀ part v, m.part? part = some v → f.part m.record part = .ok v

namespace Method

variable {f : SymbolFile} {m : Method} {part : MethodPart} {v : part.Value}

@[simp] theorem record_setPart : (m.setPart part v).record = m.record := by
  cases part <;> rfl

theorem part?_setPart_self : (m.setPart part v).part? part = some v := by
  cases part <;> rfl

theorem part?_setPart_of_ne {other : MethodPart} (h : other ≠ part) :
    (m.setPart part v).part? other = m.part? other := by
  cases part <;> cases other <;> first | rfl | contradiction

theorem coherent_ofRecord (f : SymbolFile) (r : MethodRecord) : (ofRecord r).Coherent f where
  known part h := by
    cases part
    case realName => exact h
    all_goals rfl
  parts part v h := by
    cases part
    case realName =>
      change r.knownPart? .realName = some v at h
      simp only [SymbolFile.part, ofRecord, h]
    all_goals cases h

theorem Coherent.setPart (hm : m.Coherent f) (hv : f.part m.record part = .ok v) :
    (m.setPart part v).Coherent f where
  known other h := by
    by_cases heq : other = part
    · subst heq
      rw [part?_setPart_self] at h
      cases h
    · rw [part?_setPart_of_ne heq] at h
      rw [record_setPart]
      exact hm.known other h
  parts other w h := by
    rw [record_setPart]
    by_cases heq : other = part
    · subst heq
      rw [part?_setPart_self] at h
      cases h
      exact hv
    · rw [part?_setPart_of_ne heq] at h
      exact hm.parts other w h

end Method

def MethodTable.records (t : MethodTable) : List MethodRecord := t.ordered.toList.map Method.record

structure MethodTable.Coherent (f : SymbolFile) (t : MethodTable) : Prop where
  records : f.methods = .ok t.records
  places : t.places = (MethodTable.ofRecords t.records).places
  methods : ∀ m ∈ t.ordered, m.Coherent f

namespace MethodTable

variable {f : SymbolFile} {t : MethodTable} {ms : List MethodRecord}

theorem records_ofRecords : (ofRecords ms).records = ms := by
  simp [records, ofRecords, Function.comp_def, Method.ofRecord]

theorem coherent_ofRecords (h : f.methods = .ok ms) : (ofRecords ms).Coherent f where
  records := by rw [records_ofRecords, h]
  places := by rw [records_ofRecords]
  methods m hm := by
    simp only [ofRecords, List.mem_toArray, List.mem_map] at hm
    obtain ⟨r, -, rfl⟩ := hm
    exact Method.coherent_ofRecord f r

theorem getElem?_records (t : MethodTable) (place : Nat) :
    t.records[place]? = t.ordered[place]?.map Method.record := by
  simp [records]

theorem record_at? (t : MethodTable) (index : UInt32) :
    (t.at? index).map Method.record = if index = 0 then none else t.records[index.toNat - 1]? := by
  rw [at?, getElem?_records]
  split <;> rfl

/-- The table finds by token what a search of its records finds. -/
theorem Coherent.record_withToken? (ht : t.Coherent f) (token : Token) :
    (t.withToken? token).map Method.record = t.records.find? fun m => m.token == token := by
  rw [withToken?, ht.places, places_ofRecords (SymbolFile.methods_nodup ht.records),
    List.find?_eq_bind_findIdx?_getElem?]
  cases t.records.findIdx? fun m => m.token == token with
  | none => rfl
  | some place => exact (getElem?_records t place).symm

theorem Coherent.of_at? (ht : t.Coherent f) {index : UInt32} {m : Method}
    (h : t.at? index = some m) : m.Coherent f := by
  rw [at?] at h
  split at h
  · cases h
  · exact ht.methods m (Array.mem_of_getElem? h)

/-- A method may give way to one of the same record that agrees with the file. -/
theorem Coherent.setIfInBounds (ht : t.Coherent f) {index : UInt32} {m m' : Method}
    (hm : t.at? index = some m) (hrecord : m'.record = m.record) (hm' : m'.Coherent f) :
    MethodTable.Coherent f ⟨t.ordered.setIfInBounds (index.toNat - 1) m', t.places⟩ := by
  -- The records stay, and with them the places of the tokens.
  have hrecords : MethodTable.records ⟨t.ordered.setIfInBounds (index.toNat - 1) m', t.places⟩ =
      t.records := by
    apply List.ext_getElem?
    intro place
    rw [getElem?_records, getElem?_records, Array.getElem?_setIfInBounds]
    rw [at?] at hm
    by_cases hzero : index = 0
    · rw [if_pos hzero] at hm
      cases hm
    rw [if_neg hzero] at hm
    by_cases heq : index.toNat - 1 = place
    · subst heq
      rw [if_pos rfl, hm, if_pos (Array.getElem?_eq_some_iff.1 hm).1]
      exact congrArg some hrecord
    · rw [if_neg heq]
  refine ⟨by rw [hrecords, ht.records], by rw [hrecords]; exact ht.places, fun r hr => ?_⟩
  rcases Array.mem_or_eq_of_mem_setIfInBounds hr with hr | rfl
  · exact ht.methods r hr
  · exact hm'

end MethodTable

/-- What was read of a file is what the file says. -/
structure Bound.Coherent (b : Bound) : Prop where
  sources : ∀ index s, b.sources[index]? = some s → b.file.sourceFile index = .ok s
  units : ∀ index u, b.units[index]? = some u → b.file.compileUnit index = .ok u
  methods : ∀ t, b.methods = some t → t.Coherent b.file
  scopes : ∀ t, b.scopes = some t → b.file.scopeTable = .ok t

theorem Bound.coherent_of_file (f : SymbolFile) : ({ file := f } : Bound).Coherent where
  sources := by simp
  units := by simp
  methods := by simp
  scopes := by simp

/-- From `b` to `b'` only what was read of the file has changed, and it still agrees with it. -/
structure Bound.Extends (b b' : Bound) : Prop where
  coherent : b'.Coherent
  file_eq : b'.file = b.file
  position_eq : b'.position = b.position

theorem Bound.Coherent.extends_self {b : Bound} (h : b.Coherent) : b.Extends b := ⟨h, rfl, rfl⟩

theorem Bound.Extends.trans {b b' b'' : Bound} (h : b.Extends b') (h' : b'.Extends b'') :
    b.Extends b'' :=
  ⟨h'.coherent, h'.file_eq.trans h.file_eq, h'.position_eq.trans h.position_eq⟩

/-- Whatever was read before, the look-up answers what `answer` says of the file. -/
def Lookup.Answers (l : Lookup α) (answer : SymbolFile → Except Error α) : Prop :=
  ∀ b : Bound, b.Coherent → (l.run b).1 = answer b.file ∧ b.Extends (l.run b).2

namespace Lookup.Answers

variable {l : Lookup α} {k : α → Lookup β} {answer : SymbolFile → Except Error α}
  {next : α → SymbolFile → Except Error β}

theorem congr {answer' : SymbolFile → Except Error α} (hl : l.Answers answer)
    (h : ∀ f, answer f = answer' f) : l.Answers answer' :=
  fun b hb => ⟨(hl b hb).1.trans (h b.file), (hl b hb).2⟩

theorem pure (a : α) : Answers (Pure.pure a) fun _ => .ok a := fun _ h => ⟨rfl, h.extends_self⟩

theorem throw (e : Error) : Answers (MonadExcept.throw e : Lookup α) fun _ => .error e :=
  fun _ h => ⟨rfl, h.extends_self⟩

theorem bind (hl : l.Answers answer) (hk : ∀ a, (k a).Answers (next a)) :
    (l >>= k).Answers fun f => answer f >>= fun a => next a f := by
  intro b hb
  obtain ⟨hanswer, hext⟩ := hl b hb
  rw [run_bind]
  rcases hr : l.run b with ⟨e | a, b'⟩
  · rw [hr] at hanswer hext
    dsimp only at hanswer hext ⊢
    rw [← hanswer]
    exact ⟨rfl, hext⟩
  · rw [hr] at hanswer hext
    dsimp only at hanswer hext ⊢
    obtain ⟨hnext, hext'⟩ := hk a b' hext.coherent
    rw [← hanswer]
    exact ⟨hext.file_eq ▸ hnext, hext.trans hext'⟩

theorem map (g : α → β) (hl : l.Answers answer) : (g <$> l).Answers fun f => g <$> answer f := by
  have h := hl.bind fun a => Answers.pure (g a)
  intro b hb
  obtain ⟨hanswer, hext⟩ := h b hb
  refine ⟨hanswer.trans ?_, hext⟩
  cases answer b.file <;> rfl

theorem of_file {l : SymbolFile → Lookup α} {answer : SymbolFile → SymbolFile → Except Error α}
    (h : ∀ f, (l f).Answers (answer f)) :
    ((get : Lookup Bound) >>= fun b => l b.file).Answers fun f => answer f f :=
  fun b hb => h b.file b hb

theorem collect {l : UInt32 → Lookup α} {answer : SymbolFile → UInt32 → Except Error α}
    (h : ∀ index, (l index).Answers fun f => answer f index) (start count : Nat) :
    (collect l start count).Answers fun f => collect (answer f) start count := by
  induction count generalizing start with
  | zero => exact pure []
  | succ count ih =>
    exact (h (UInt32.ofNat start)).bind fun a => (ih (start + 1)).bind fun rest => pure (a :: rest)

theorem findFirst {l : UInt32 → Lookup α} {answer : SymbolFile → UInt32 → Except Error α}
    (h : ∀ index, (l index).Answers fun f => answer f index) (wanted : α → Bool) (e : Error)
    (start count : Nat) :
    (findFirst l wanted (MonadExcept.throw e) start count).Answers fun f =>
      findFirst (answer f) wanted (.error e) start count := by
  induction count generalizing start with
  | zero => exact throw e
  | succ count ih =>
    apply (h (UInt32.ofNat start)).bind
    intro a
    split
    · exact pure a
    · exact ih (start + 1)

theorem collectRecords {l : UInt32 → Lookup MethodRecord}
    {answer : SymbolFile → UInt32 → Except Error MethodRecord}
    (h : ∀ index, (l index).Answers fun f => answer f index) (seen : Std.TreeSet UInt32)
    (start count : Nat) :
    (collectRecords l seen start count).Answers fun f =>
      collectRecords (answer f) seen start count := by
  induction count generalizing seen start with
  | zero => exact pure []
  | succ count ih =>
    apply (h (UInt32.ofNat start)).bind
    intro r
    split
    · exact throw _
    · exact (ih _ (start + 1)).bind fun rest => pure (r :: rest)

end Lookup.Answers

end DebugSymbols
