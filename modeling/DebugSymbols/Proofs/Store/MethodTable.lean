import DebugSymbols.Proofs.Bytes.Reading
import DebugSymbols.Proofs.Keys
import DebugSymbols.Store.Bound
import Mathlib.Algebra.Group.Nat.Defs
import Mathlib.Data.List.Nodup
import Std.Data.TreeMap.Lemmas
import Std.Data.TreeSet.Lemmas

namespace DebugSymbols

/-- The entries `as` are read one after another under the numbers from `n` on. -/
def ReadsFrom (f : UInt32 → Except Error α) (n : Nat) (as : List α) : Prop :=
  ∀ k a, as[k]? = some a → f (UInt32.ofNat (n + k)) = .ok a

theorem ReadsFrom.cons {f : UInt32 → Except Error α} {n : Nat} {a : α} {as : List α}
    (h : ReadsFrom f n (a :: as)) : f (UInt32.ofNat n) = .ok a ∧ ReadsFrom f (n + 1) as := by
  refine ⟨h 0 a rfl, fun k b hb => ?_⟩
  have := h (k + 1) b hb
  rwa [Nat.add_assoc, Nat.add_comm 1]

theorem ReadsFrom.of_cons {f : UInt32 → Except Error α} {n : Nat} {a : α} {as : List α}
    (ha : f (UInt32.ofNat n) = .ok a) (h : ReadsFrom f (n + 1) as) : ReadsFrom f n (a :: as) := by
  intro k b hb
  cases k with
  | zero =>
    cases hb
    exact ha
  | succ k =>
    have := h k b hb
    rwa [Nat.add_assoc, Nat.add_comm 1] at this

theorem MethodRecord.read_index {index : UInt32} {data : Bytes} {p q : Nat} {m : MethodRecord}
    (h : MethodRecord.read index data p = (.ok m, q)) : m.index = index := by
  obtain ⟨token, _, -, h⟩ := Reader.bind_eq_ok.1 h
  obtain ⟨dataOffset, _, -, h⟩ := Reader.bind_eq_ok.1 h
  obtain ⟨linesOffset, _, -, h⟩ := Reader.bind_eq_ok.1 h
  obtain ⟨_, _, -, h⟩ := Reader.bind_eq_ok.1 h
  obtain ⟨trailer, _, -, h⟩ := Reader.bind_eq_ok.1 h
  simp only [Reader.pure_apply, Prod.mk.injEq, Except.ok.injEq] at h
  exact h.1 ▸ rfl

theorem SymbolFile.methodRecord_index {f : SymbolFile} {index : UInt32} {m : MethodRecord}
    (h : f.methodRecord index = .ok m) : m.index = index := by
  obtain ⟨place, -, h⟩ := bind_ok_iff.1 h
  exact MethodRecord.read_index (Prod.ext h rfl)

section Collecting

variable {f : UInt32 → Except Error α} {start count : Nat} {as : List α}

theorem collect_succ (h : collect f start (count + 1) = .ok as) :
    ∃ a rest, f (UInt32.ofNat start) = .ok a ∧ collect f (start + 1) count = .ok rest ∧
      as = a :: rest := by
  obtain ⟨a, ha, h⟩ := bind_ok_iff.1 h
  obtain ⟨rest, hrest, h⟩ := bind_ok_iff.1 h
  cases h
  exact ⟨a, rest, ha, hrest, rfl⟩

theorem collect_length (h : collect f start count = .ok as) : as.length = count := by
  induction count generalizing start as with
  | zero =>
    cases h
    rfl
  | succ count ih =>
    obtain ⟨a, rest, -, hrest, rfl⟩ := collect_succ h
    rw [List.length_cons, ih hrest]

theorem readsFrom_of_collect (h : collect f start count = .ok as) : ReadsFrom f start as := by
  induction count generalizing start as with
  | zero =>
    cases h
    intro k a ha
    simp at ha
  | succ count ih =>
    obtain ⟨a, rest, ha, hrest, rfl⟩ := collect_succ h
    exact .of_cons ha (ih hrest)

end Collecting

section CollectingRecords

variable {record : UInt32 → Except Error MethodRecord} {seen : Std.TreeSet UInt32}
  {start count : Nat} {ms : List MethodRecord}

theorem collectRecords_succ (h : collectRecords record seen start (count + 1) = .ok ms) :
    ∃ m rest, record (UInt32.ofNat start) = .ok m ∧ m.token.value ∉ seen ∧
      collectRecords record (seen.insert m.token.value) (start + 1) count = .ok rest ∧
      ms = m :: rest := by
  obtain ⟨m, hm, h⟩ := bind_ok_iff.1 h
  split_ifs at h with hseen
  obtain ⟨rest, hrest, h⟩ := bind_ok_iff.1 h
  cases h
  exact ⟨m, rest, hm, by simpa using hseen, hrest, rfl⟩

/-- Records are collected like other entries, besides the check of their tokens. -/
theorem collect_of_collectRecords (h : collectRecords record seen start count = .ok ms) :
    collect record start count = .ok ms := by
  induction count generalizing seen start ms with
  | zero => exact h
  | succ count ih =>
    obtain ⟨m, rest, hm, -, hrest, rfl⟩ := collectRecords_succ h
    rw [collect, hm, ok_bind, ih hrest]
    rfl

theorem collectRecords_length (h : collectRecords record seen start count = .ok ms) :
    ms.length = count := collect_length (collect_of_collectRecords h)

theorem collectRecords_nodup (h : collectRecords record seen start count = .ok ms) :
    (ms.map (·.token)).Nodup ∧ ∀ m ∈ ms, m.token.value ∉ seen := by
  induction count generalizing seen start ms with
  | zero =>
    cases h
    simp
  | succ count ih =>
    obtain ⟨m, rest, -, hm, hrest, rfl⟩ := collectRecords_succ h
    obtain ⟨hnodup, hnew⟩ := ih hrest
    -- What is collected behind `m` was checked against the tokens seen up to `m`.
    have hkept : ∀ r ∈ rest, m.token.value ≠ r.token.value ∧ r.token.value ∉ seen := by
      intro r hr
      have := hnew r hr
      rw [Std.TreeSet.mem_insert, Std.LawfulEqCmp.compare_eq_iff_eq] at this
      exact not_or.1 this
    refine ⟨List.nodup_cons.2 ⟨?_, hnodup⟩, List.forall_mem_cons.2 ⟨hm, fun r hr => (hkept r hr).2⟩⟩
    intro hin
    obtain ⟨r, hr, heq⟩ := List.mem_map.1 hin
    exact (hkept r hr).1 (congrArg Token.value heq.symm)

theorem collectRecords_eq (hrecord : ReadsFrom record start ms)
    (hnodup : (ms.map (·.token)).Nodup) (hseen : ∀ m ∈ ms, m.token.value ∉ seen) :
    collectRecords record seen start ms.length = .ok ms := by
  induction ms generalizing seen start with
  | nil => rfl
  | cons m ms ih =>
    obtain ⟨hm, hnodup⟩ := List.nodup_cons.1 hnodup
    obtain ⟨hnew, hseen⟩ := List.forall_mem_cons.1 hseen
    obtain ⟨hfirst, hrecord⟩ := hrecord.cons
    have hseen' : ∀ r ∈ ms, r.token.value ∉ seen.insert m.token.value := by
      intro r hr
      rw [Std.TreeSet.mem_insert, Std.LawfulEqCmp.compare_eq_iff_eq]
      refine not_or.2 ⟨fun h => ?_, hseen r hr⟩
      exact hm (List.mem_map.2 ⟨r, hr, (Token.value_inj.1 h).symm⟩)
    have hrest := ih hrecord hnodup hseen'
    rw [List.length_cons, collectRecords, hfirst]
    change (if seen.contains m.token.value then _ else _) = _
    rw [if_neg (by simpa using hnew), hrest]
    rfl

end CollectingRecords

namespace SymbolFile

variable {f : SymbolFile} {ms : List MethodRecord}

theorem methods_nodup (h : f.methods = .ok ms) : (ms.map (·.token)).Nodup :=
  (collectRecords_nodup h).1

theorem methods_index (h : f.methods = .ok ms) {k : Nat} {m : MethodRecord} (hm : ms[k]? = some m) :
    m.index = UInt32.ofNat (k + 1) := by
  have hrecord := readsFrom_of_collect (collect_of_collectRecords h) k m hm
  rw [Nat.add_comm 1 k] at hrecord
  exact methodRecord_index hrecord

theorem methods_length_lt (h : f.methods = .ok ms) : ms.length < 2 ^ 32 :=
  collectRecords_length h ▸ f.header.methodCount.toNat_lt

end SymbolFile

/-- Of the entries with one key, a map that they are inserted into holds the last one. -/
theorem getElem?_foldl_insert (k : α → UInt32) (v : α → β) (as : List α) (wanted : UInt32)
    (t : Std.TreeMap UInt32 β) :
    (as.foldl (fun t a => t.insert (k a) (v a)) t)[wanted]? =
      ((as.reverse.find? fun a => k a == wanted).map v).or t[wanted]? := by
  induction as generalizing t with
  | nil => simp
  | cons a as ih =>
    rw [List.foldl_cons, ih, Std.TreeMap.getElem?_insert, List.reverse_cons, List.find?_append]
    cases as.reverse.find? fun b => k b == wanted with
    | some b => rfl
    | none => by_cases heq : k a = wanted <;> simp [heq]

/-- The place of a token is that of the first record with it. -/
theorem MethodTable.places_ofRecords {records : List MethodRecord}
    (hnodup : (records.map (·.token)).Nodup) (token : Token) :
    (ofRecords records).places[token.value]? = records.findIdx? fun m => m.token == token := by
  have hkeys : (records.zipIdx.map fun entry => entry.1.token.value).Nodup := by
    have hvalues := hnodup.map_on (f := Token.value) fun s _ t _ h => Token.value_inj.1 h
    rw [List.map_map] at hvalues
    rwa [← List.zipIdx_map_fst 0 records, List.map_map] at hvalues
  have h := getElem?_foldl_insert (fun entry : MethodRecord × Nat => entry.1.token.value) Prod.snd
    records.zipIdx token.value ∅
  rw [find?_reverse_of_nodup hkeys] at h
  have htoken : (fun entry : MethodRecord × Nat => entry.1.token.value == token.value) =
      fun entry => entry.1.token == token := by
    funext entry
    rw [Bool.eq_iff_iff, beq_iff_eq, beq_iff_eq, Token.value_inj]
  rw [htoken] at h
  rw [List.findIdx?_eq_fst_find?_zipIdx]
  simpa [ofRecords] using h

end DebugSymbols
