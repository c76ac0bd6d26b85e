import DebugSymbols.Proofs.Store.Lifecycle

namespace DebugSymbols

theorem toNat_succ {n : UInt32} (h : n.toNat + 1 < 2 ^ 32) : (n + 1).toNat = n.toNat + 1 := by
  rw [UInt32.toNat_add]
  exact Nat.mod_eq_of_lt h

theorem ne_zero_iff_one_le {n : UInt32} : n ≠ 0 ↔ 1 ≤ n.toNat := by
  rw [Ne, ← UInt32.toNat_inj, Nat.one_le_iff_ne_zero]
  rfl

theorem toNat_place {as : Array α} {a : α} {k : Nat} (ha : as[k]? = some a)
    (hsize : as.size < 2 ^ 32) : (UInt32.ofNat (k + 1)).toNat = k + 1 :=
  UInt32.toNat_ofNat_of_lt' (Nat.lt_of_le_of_lt (Array.getElem?_eq_some_iff.1 ha).1 hsize)

section Modify

variable {g : α → List β} {f : α → α} {b : β} {as : List α} {k : Nat}

/-- An entry that grows by one thing makes the whole grow by it. -/
theorem flatMap_modify_perm (hf : ∀ a, g (f a) = g a ++ [b]) (hk : k < as.length) :
    ((as.modify k f).flatMap g).Perm (b :: as.flatMap g) := by
  induction as generalizing k with
  | nil => cases hk
  | cons a as ih =>
    cases k with
    | zero =>
      rw [List.modify_zero_cons, List.flatMap_cons, List.flatMap_cons, hf, List.append_assoc]
      exact List.perm_middle
    | succ k =>
      rw [List.modify_succ_cons, List.flatMap_cons, List.flatMap_cons]
      exact ((ih (Nat.lt_of_succ_lt_succ hk)).append_left (g a)).trans List.perm_middle

theorem flatMap_modify_eq (hf : ∀ a, g (f a) = g a) (k : Nat) (as : List α) :
    (as.modify k f).flatMap g = as.flatMap g := by
  induction as generalizing k with
  | nil => simp
  | cons a as ih =>
    cases k with
    | zero => rw [List.modify_zero_cons, List.flatMap_cons, List.flatMap_cons, hf]
    | succ k => rw [List.modify_succ_cons, List.flatMap_cons, List.flatMap_cons, ih]

theorem forall_mem_modify {P Q : α → Prop} {as : Array α} (h : ∀ a ∈ as, P a)
    (hother : ∀ a, P a → Q a) (hf : ∀ a, P a → Q (f a)) (k : Nat) :
    ∀ a ∈ as.modify k f, Q a := by
  intro a ha
  obtain ⟨j, hj⟩ := Array.mem_iff_getElem?.1 ha
  rw [Array.getElem?_modify] at hj
  split at hj
  · obtain ⟨b, hb, rfl⟩ := Option.map_eq_some_iff.1 hj
    exact hf b (h b (Array.mem_of_getElem? hb))
  · exact hother a (h a (Array.mem_of_getElem? hj))

end Modify

/-- A compile unit among so many sources, when `last` is the last namespace number given out: it
refers to sources that exist, and its namespaces have ascending numbers above those of their
parents. -/
structure CompileUnit.Fits (sourceCount : Nat) (last : UInt32) (u : CompileUnit) : Prop where
  source : 1 ≤ u.source.toNat ∧ u.source.toNat ≤ sourceCount
  includes : ∀ i ∈ u.includes, 1 ≤ i.toNat ∧ i.toNat ≤ sourceCount
  namespaces : ∀ n ∈ u.namespaces, n.index ≠ 0 ∧ n.index ≤ last ∧ n.parent < n.index
  increasing : u.namespaces.Pairwise fun m n => m.index < n.index

theorem CompileUnit.Fits.mono {sourceCount sourceCount' : Nat} {last last' : UInt32}
    {u : CompileUnit} (h : u.Fits sourceCount last) (hcount : sourceCount ≤ sourceCount')
    (hlast : last ≤ last') : u.Fits sourceCount' last' where
  source := ⟨h.source.1, Nat.le_trans h.source.2 hcount⟩
  includes i hi := ⟨(h.includes i hi).1, Nat.le_trans (h.includes i hi).2 hcount⟩
  namespaces n hn :=
    have ⟨hzero, hle, hparent⟩ := h.namespaces n hn
    ⟨hzero, UInt32.le_trans hle hlast, hparent⟩
  increasing := h.increasing

/-- A namespace with a number above the last one, and a parent up to it, may be added. -/
theorem CompileUnit.Fits.declare {sourceCount : Nat} {last : UInt32} {u : CompileUnit}
    (h : u.Fits sourceCount last) {n : Namespace} (hlast : last < n.index)
    (hparent : n.parent ≤ last) :
    ({ u with namespaces := u.namespaces ++ [n] } : CompileUnit).Fits sourceCount n.index where
  source := h.source
  includes := h.includes
  namespaces m hm := by
    rcases List.mem_append.1 hm with hm | hm
    · obtain ⟨hzero, hle, hparent⟩ := h.namespaces m hm
      exact ⟨hzero, UInt32.le_of_lt (UInt32.lt_of_le_of_lt hle hlast), hparent⟩
    · cases List.mem_singleton.1 hm
      refine ⟨fun hzero => ?_, UInt32.le_refl _, UInt32.lt_of_le_of_lt hparent hlast⟩
      rw [hzero] at hlast
      exact UInt32.not_lt_zero hlast
  increasing := by
    rw [List.pairwise_append]
    refine ⟨h.increasing, List.pairwise_singleton _ _, fun m hm m' hm' => ?_⟩
    cases List.mem_singleton.1 hm'
    exact UInt32.lt_of_le_of_lt (h.namespaces m hm).2.1 hlast

namespace Authoring

def namespaces (a : Authoring) : List Namespace := a.units.toList.flatMap (·.namespaces)

/-- What holds of the contents of a store while it is filled, besides that they are well formed. -/
structure Consistent (a : Authoring) : Prop extends WellFormed a where
  sources_lt : a.sources.size < 2 ^ 32
  units_lt : a.units.size < 2 ^ 32
  units_fit : ∀ u ∈ a.units, u.Fits a.sources.size a.lastNamespace
  namespaces_nodup : (a.namespaces.map (·.index)).Nodup
  method_units : ∀ d ∈ a.methods, 1 ≤ d.compileUnit.toNat ∧ d.compileUnit.toNat ≤ a.units.size

theorem consistent_new (options : StoreOptions) :
    ({ options := options } : Authoring).Consistent where
  toWellFormed := wellFormed_new options
  sources_lt := Nat.two_pow_pos 32
  units_lt := Nat.two_pow_pos 32
  units_fit := by simp
  namespaces_nodup := by simp [namespaces]
  method_units := by simp

variable {a b : Authoring}

theorem namespaces_pushUnit (a : Authoring) (source : UInt32) :
    (a.pushUnit source).namespaces = a.namespaces := by
  simp only [namespaces, Authoring.pushUnit, Array.toList_push, List.flatMap_append,
    List.flatMap_singleton, List.append_nil]

theorem namespaces_pushInclude (a : Authoring) (unit source : UInt32) :
    (a.pushInclude unit source).namespaces = a.namespaces := by
  rw [namespaces, Authoring.pushInclude, Authoring.modifyUnit, Array.toList_modify,
    flatMap_modify_eq (g := CompileUnit.namespaces) (by intro u; rfl), namespaces]

theorem hasSource_iff {index : UInt32} :
    a.hasSource index = true ↔ 1 ≤ index.toNat ∧ index.toNat ≤ a.sources.size := by
  simp [hasSource, ne_zero_iff_one_le]

theorem hasUnit_iff {index : UInt32} :
    a.hasUnit index = true ↔ 1 ≤ index.toNat ∧ index.toNat ≤ a.units.size := by
  simp [hasUnit, ne_zero_iff_one_le]

theorem namespaces_declareNamespace_perm {unit : UInt32} (hunit : a.missingUnit? unit = none)
    (n : Namespace) : (a.declareNamespace unit n).namespaces.Perm (n :: a.namespaces) := by
  have hplace : unit.toNat - 1 < a.units.toList.length := by
    have := hasUnit_iff.1 (missingUnit?_eq_none.1 hunit)
    rw [Array.length_toList]
    omega
  rw [namespaces, declareNamespace, Authoring.modifyUnit, Array.toList_modify]
  exact flatMap_modify_perm (g := CompileUnit.namespaces) (fun _ => rfl) hplace

namespace Consistent

/-- What is besides sources, units, methods and the numbers of namespaces does not matter. -/
theorem of_same (h : a.Consistent) (hb : b.WellFormed) (hsources : b.sources = a.sources)
    (hunits : b.units = a.units) (hmethods : b.methods.toList.Perm a.methods.toList)
    (hlast : a.lastNamespace ≤ b.lastNamespace) : b.Consistent where
  toWellFormed := hb
  sources_lt := hsources ▸ h.sources_lt
  units_lt := hunits ▸ h.units_lt
  units_fit u hu := by
    rw [hunits] at hu
    rw [hsources]
    exact (h.units_fit u hu).mono (Nat.le_refl _) hlast
  namespaces_nodup := by
    rw [namespaces, hunits]
    exact h.namespaces_nodup
  method_units d hd := by
    rw [hunits]
    exact h.method_units d (Array.mem_toList_iff.1 (hmethods.mem_iff.1 (Array.mem_toList_iff.2 hd)))

theorem pushSource (h : a.Consistent) {source : SourceFile}
    (hfull : fullTable? a.sources.size = none) : (a.pushSource source).Consistent where
  toWellFormed := (Keeps.pushSource source).wellFormed h.toWellFormed
  sources_lt := by
    rw [Authoring.pushSource, Array.size_push]
    exact fullTable?_eq_none.1 hfull
  units_lt := h.units_lt
  units_fit u hu := by
    rw [Authoring.pushSource, Array.size_push]
    exact (h.units_fit u hu).mono (Nat.le_succ _) (UInt32.le_refl _)
  namespaces_nodup := h.namespaces_nodup
  method_units := h.method_units

theorem pushUnit (h : a.Consistent) {source : UInt32} (hsource : a.missingSource? source = none)
    (hfull : fullTable? a.units.size = none) : (a.pushUnit source).Consistent where
  toWellFormed := (Keeps.pushUnit source).wellFormed h.toWellFormed
  sources_lt := h.sources_lt
  units_lt := by
    rw [Authoring.pushUnit, Array.size_push]
    exact fullTable?_eq_none.1 hfull
  units_fit u hu := by
    rcases Array.mem_push.1 hu with hu | rfl
    · exact h.units_fit u hu
    · exact ⟨hasSource_iff.1 (missingSource?_eq_none.1 hsource), by simp, by simp, by simp⟩
  namespaces_nodup := by
    rw [namespaces_pushUnit]
    exact h.namespaces_nodup
  method_units d hd := by
    rw [Authoring.pushUnit, Array.size_push]
    exact ⟨(h.method_units d hd).1, Nat.le_succ_of_le (h.method_units d hd).2⟩

theorem modifyUnit (h : a.Consistent) {last unit : UInt32} {f : CompileUnit → CompileUnit}
    (hlast : a.lastNamespace ≤ last) (hindex : ∀ u, (f u).index = u.index)
    (hfits : ∀ u, u.Fits a.sources.size a.lastNamespace → (f u).Fits a.sources.size last)
    (hnodup : ((a.modifyUnit unit f).namespaces.map (·.index)).Nodup) :
    ({ a with lastNamespace := last }.modifyUnit unit f).Consistent where
  toWellFormed := ((Keeps.numbers a.lastType a.lastMethod last).trans
    (Keeps.modifyUnit unit hindex)).wellFormed h.toWellFormed
  sources_lt := h.sources_lt
  units_lt := by
    rw [Authoring.modifyUnit, Array.size_modify]
    exact h.units_lt
  units_fit := forall_mem_modify h.units_fit
    (fun _ hu => hu.mono (Nat.le_refl _) hlast) hfits _
  namespaces_nodup := hnodup
  method_units := by
    simp only [Authoring.modifyUnit, Array.size_modify]
    exact h.method_units

theorem pushInclude (h : a.Consistent) {unit source : UInt32}
    (hsource : a.missingSource? source = none) : (a.pushInclude unit source).Consistent := by
  refine h.modifyUnit (UInt32.le_refl _) (fun _ => rfl) (fun u hu => ?_) ?_
  · refine ⟨hu.source, fun i hi => ?_, hu.namespaces, hu.increasing⟩
    rcases List.mem_append.1 hi with hi | hi
    · exact hu.includes i hi
    · cases List.mem_singleton.1 hi
      exact hasSource_iff.1 (missingSource?_eq_none.1 hsource)
  · change ((a.pushInclude unit source).namespaces.map _).Nodup
    rw [namespaces_pushInclude]
    exact h.namespaces_nodup

/-- A new namespace has a number above all others. -/
theorem declareNamespace (h : a.Consistent) {unit : UInt32} {n : Namespace}
    (hunit : a.missingUnit? unit = none) (hparent : a.unknownParent? n.parent = none)
    (hlast : a.lastNamespace < n.index) : (a.declareNamespace unit n).Consistent := by
  have hle := unknownParent?_eq_none.1 hparent
  refine h.modifyUnit (UInt32.le_of_lt hlast) (fun _ => rfl) (fun u hu => hu.declare hlast hle) ?_
  refine ((namespaces_declareNamespace_perm hunit n).map _).nodup_iff.2 ?_
  rw [List.map_cons, List.nodup_cons]
  -- Every number of a namespace so far is at most the last, and the new one is above it.
  refine ⟨fun hmem => ?_, h.namespaces_nodup⟩
  obtain ⟨m, hm, heq⟩ := List.mem_map.1 hmem
  obtain ⟨u, hu, hm⟩ := List.mem_flatMap.1 hm
  have hbelow := ((h.units_fit u (Array.mem_toList_iff.1 hu)).namespaces m hm).2.1
  rw [heq] at hbelow
  exact UInt32.lt_irrefl _ (UInt32.lt_of_le_of_lt hbelow hlast)

theorem pushMethod (h : a.Consistent) {d : MethodDefinition} (hd : a.refusedMethod? d = none) :
    (a.pushMethod d).Consistent where
  toWellFormed := (Keeps.pushMethod hd).wellFormed h.toWellFormed
  sources_lt := h.sources_lt
  units_lt := h.units_lt
  units_fit := h.units_fit
  namespaces_nodup := h.namespaces_nodup
  method_units e he := by
    rcases Array.mem_push.1 he with he | rfl
    · exact h.method_units e he
    · exact hasUnit_iff.1 (refusedMethod?_eq_none.1 hd).2.1

theorem modifyScope (h : a.Consistent) (id : UInt32) {f : AnonymousScope → AnonymousScope}
    (hf : ∀ s, (f s).id = s.id) : (a.modifyScope id f).Consistent := by
  have hwellFormed := (Keeps.modifyScope id hf).wellFormed h.toWellFormed
  unfold Authoring.modifyScope at hwellFormed ⊢
  cases hfind : a.scopes.findIdx? fun s => s.id == id with
  | none => exact h
  | some i =>
    rw [hfind] at hwellFormed
    exact h.of_same hwellFormed rfl rfl (.refl _) (UInt32.le_refl _)

theorem after (h : a.Consistent) {c : AuthoringCall} (hc : a.refusal? c = none)
    (hroom : a.lastNamespace.toNat + 1 < 2 ^ 32) : (a.after c).Consistent := by
  have hwellFormed := (Keeps.after hc).wellFormed h.toWellFormed
  -- Without room the counter would start again at 0, below numbers that are taken.
  have hnext : a.lastNamespace < a.lastNamespace + 1 := by
    rw [UInt32.lt_iff_toNat_lt, toNat_succ hroom]
    exact Nat.lt_succ_self _
  cases c with
  | addSource source => exact h.pushSource hc
  | addUnit source =>
    obtain ⟨hsource, hfull⟩ := Option.or_eq_none_iff.1 hc
    exact h.pushUnit hsource hfull
  | addInclude unit source => exact h.pushInclude (Option.or_eq_none_iff.1 hc).1
  | defineNamespace unit name usingClauses parent =>
    obtain ⟨hparent, hunit⟩ := Option.or_eq_none_iff.1 hc
    exact h.declareNamespace hunit hparent hnext
  | defineMethod d => exact h.pushMethod hc
  | nextType | nextMethod | defineScope id =>
    exact h.of_same hwellFormed rfl rfl (.refl _) (UInt32.le_refl _)
  | nextNamespace => exact h.of_same hwellFormed rfl rfl (.refl _) (UInt32.le_of_lt hnext)
  | captureLocal scope name capturedName | captureParameter scope name capturedName
  | captureThis scope capturedName | captureScope scope captured capturedName =>
    exact h.modifyScope scope fun _ => rfl

theorem sorted (h : a.Consistent) : a.sorted.Consistent :=
  h.of_same (h.toWellFormed.reordered a.sortedMethods_perm) rfl rfl a.sortedMethods_perm
    (UInt32.le_refl _)

end Consistent

end Authoring

inductive Counter where
  | type
  | method
  | space
deriving DecidableEq, Repr

/-- The counter from which a call takes a number. -/
def AuthoringCall.counter? : AuthoringCall → Option Counter
  | nextType => some .type
  | nextMethod => some .method
  | nextNamespace | defineNamespace .. => some .space
  | addSource _ | addUnit _ | addInclude .. | defineMethod _ | defineScope _ | captureLocal ..
  | captureParameter .. | captureThis .. | captureScope .. => none

def Authoring.last (a : Authoring) : Counter → UInt32
  | .type => a.lastType
  | .method => a.lastMethod
  | .space => a.lastNamespace

namespace Store

variable [Sink σ]

def handsOut (k : Counter) (s : Store) : StoreCall σ → List UInt32
  | .fill c =>
    match (s.call c).1 with
    | .ok (some n) => if c.counter? = some k then [n] else []
    | .ok none | .error _ => []
  | .sealOver .. | .ask _ | .guid | .header | .appearance => []

/-- The numbers of a counter that a run hands out, in their order. -/
def handedOut (k : Counter) : Store → List (StoreCall σ) → List UInt32
  | _, [] => []
  | s, c :: cs => s.handsOut k c ++ handedOut k (s.perform c).2 cs

end Store

namespace Authoring

variable {a : Authoring} {c : AuthoringCall}

theorem last_modifyScope (id : UInt32) (f : AnonymousScope → AnonymousScope)
    (k : Counter) : (a.modifyScope id f).last k = a.last k := by
  unfold modifyScope
  split <;> cases k <;> rfl

/-- A call that takes a number takes the next one of its counter and leaves the others alone. -/
theorem last_after (a : Authoring) (c : AuthoringCall) (k : Counter) :
    if c.counter? = some k then a.number? c = some (a.last k + 1) ∧ (a.after c).last k = a.last k + 1
    else (a.after c).last k = a.last k := by
  cases c with
  | captureLocal scope name capturedName | captureParameter scope name capturedName
  | captureThis scope capturedName | captureScope scope captured capturedName =>
    exact last_modifyScope scope _ k
  | nextType | nextMethod | nextNamespace | defineNamespace | addSource | addUnit | addInclude
  | defineMethod | defineScope =>
    cases k <;> first | exact ⟨rfl, rfl⟩ | rfl

end Authoring

namespace Store

variable {a b : Authoring} {k : Counter} [Sink σ]

/-- From `a` to `b` the numbers `ns` were handed out: none, or the next one. -/
def Counts (k : Counter) (a b : Authoring) (ns : List UInt32) : Prop :=
  ns = [] ∧ b.last k = a.last k ∨ ns = [a.last k + 1] ∧ b.last k = a.last k + 1

/-- One call: it seals the store, or keeps what holds of the contents and counts on. -/
theorem perform_authoring (h : a.Consistent) (hroom : a.lastNamespace.toNat + 1 < 2 ^ 32)
    (c : StoreCall σ) :
    (∃ header, ((authoring a).perform c).2 = sealed header) ∨
      ∃ b, ((authoring a).perform c).2 = authoring b ∧ b.Consistent ∧
        ∀ k, Counts k a b (handsOut k (authoring a) c) := by
  cases c with
  | fill c =>
    refine .inr ?_
    simp only [perform, handsOut, call_authoring]
    cases hrefusal : a.refusal? c with
    | some e => exact ⟨a, rfl, h, fun k => .inl ⟨rfl, rfl⟩⟩
    | none =>
      refine ⟨a.after c, rfl, h.after hrefusal hroom, fun k => ?_⟩
      have hlast := a.last_after c k
      dsimp only
      by_cases hcounter : c.counter? = some k
      · rw [if_pos hcounter] at hlast
        rw [hlast.1]
        exact .inr ⟨if_pos hcounter, hlast.2⟩
      · rw [if_neg hcounter] at hlast
        refine .inl ⟨?_, hlast⟩
        cases a.number? c with
        | none => rfl
        | some n => exact if_neg hcounter
  | sealOver stream guid =>
    rw [perform, sealOver]
    rcases (a.sorted.writeFile guid).run stream with ⟨e | header, stream⟩
    · exact .inr ⟨a.sorted, rfl, h.sorted, fun k => .inl ⟨rfl, by cases k <;> rfl⟩⟩
    · exact .inl ⟨header, rfl⟩
  | ask | guid | header | appearance =>
    exact .inr ⟨a, rfl, h, fun k => .inl ⟨rfl, rfl⟩⟩

/-- A run, as long as there are numbers for all its calls. -/
theorem after_authoring (h : a.Consistent) (cs : List (StoreCall σ))
    (hroom : ∀ k, (a.last k).toNat + cs.length < 2 ^ 32)
    (hb : (authoring a).after cs = authoring b) :
    b.Consistent ∧ ∀ k, ∃ count, (b.last k).toNat = (a.last k).toNat + count ∧
      ((authoring a).handedOut k cs).map UInt32.toNat =
        List.range' ((a.last k).toNat + 1) count := by
  induction cs generalizing a with
  | nil =>
    cases hb
    exact ⟨h, fun k => ⟨0, rfl, rfl⟩⟩
  | cons c cs ih =>
    change ((authoring a).perform c).2.after cs = _ at hb
    simp only [List.length_cons] at hroom
    have hspace : (a.last .space).toNat + 1 < 2 ^ 32 := by
      have := hroom .space
      omega
    obtain ⟨header, hsealed⟩ | ⟨a', ha', hconsistent, hcounts⟩ := perform_authoring h hspace c
    · -- A sealed store is not filled any more.
      rw [hsealed, after_sealed] at hb
      cases hb
    have hroom' : ∀ k, (a'.last k).toNat + cs.length < 2 ^ 32 := by
      intro k
      have hroom := hroom k
      rcases hcounts k with ⟨-, hlast⟩ | ⟨-, hlast⟩
      · rw [hlast]
        omega
      · rw [hlast, toNat_succ (by omega)]
        omega
    rw [ha'] at hb
    -- The numbers of the other calls go on where the first call ended.
    obtain ⟨hfinal, hrest⟩ := ih hconsistent hroom' hb
    refine ⟨hfinal, fun k => ?_⟩
    obtain ⟨count, hcount, hnumbers⟩ := hrest k
    rw [handedOut, ha', List.map_append, hnumbers]
    rcases hcounts k with ⟨hnone, hlast⟩ | ⟨hone, hlast⟩
    · rw [hnone, hlast]
      exact ⟨count, hlast ▸ hcount, rfl⟩
    · have hsucc : (a'.last k).toNat = (a.last k).toNat + 1 := by
        have := hroom k
        rw [hlast, toNat_succ (by omega)]
      refine ⟨count + 1, by omega, ?_⟩
      rw [hone, hsucc, ← hlast, List.map_singleton, hsucc, List.range'_succ]
      rfl

/-- At every moment while a store is filled, whatever was called and whatever failed: entries carry
the numbers of their places, references lead to entries that exist, tokens, ids and numbers of
namespaces are distinct, methods are valid, and each counter has handed out 1, 2, 3 and so on. -/
theorem filling_consistent (options : StoreOptions) (calls : List (StoreCall σ))
    (hlength : calls.length < 2 ^ 32) {a : Authoring}
    (ha : (Store.new options).after calls = authoring a) :
    (∀ k s, a.sources[k]? = some s → s.index.toNat = k + 1) ∧
    (∀ k u, a.units[k]? = some u → u.index.toNat = k + 1) ∧
    (∀ d ∈ a.methods, d.validate = .ok ()) ∧
    a.Consistent ∧
    ∀ k, ((Store.new options).handedOut k calls).map UInt32.toNat =
      List.range' 1 (a.last k).toNat := by
  have hroom (k : Counter) : (({ options := options } : Authoring).last k).toNat +
      calls.length < 2 ^ 32 := by
    cases k <;> simpa [Authoring.last] using hlength
  obtain ⟨h, hcounts⟩ := after_authoring (Authoring.consistent_new options) calls hroom ha
  refine ⟨fun k s hs => ?_, fun k u hu => ?_, fun d hd => ?_, h, fun k => ?_⟩
  · rw [h.sources k s hs, toNat_place hs h.sources_lt]
  · rw [h.units k u hu, toNat_place hu h.units_lt]
  · rw [MethodDefinition.validate, h.methods d hd]
  · obtain ⟨count, hcount, hnumbers⟩ := hcounts k
    have hzero : (({ options := options } : Authoring).last k).toNat = 0 := by cases k <;> rfl
    rw [hzero, Nat.zero_add] at hcount hnumbers
    rw [hcount]
    exact hnumbers

/-- Two namespaces with a number between them that no namespace has, a parent that was never given
out, a token that is taken, and a seal that finds no room. -/
theorem filling_consistent_failing_calls :
    let calls : List (StoreCall LimitedOutput) := [
      .fill (.addUnit 1), .fill (.addSource { index := 9, fileName := "a.cs", checksum := [] }),
      .fill (.addUnit 1), .fill (.defineNamespace 1 "A" [] 0), .fill .nextNamespace,
      .fill (.defineNamespace 1 "C" [] 4), .fill (.defineNamespace 1 "B" [] 2),
      .fill (.defineMethod { token := ⟨7⟩, compileUnit := 1 }), .sealOver { limit := 20 } .zero,
      .fill (.defineMethod { token := ⟨7⟩, compileUnit := 1 })]
    ∃ a, (Store.new {}).after calls = authoring a ∧ calls.length < 2 ^ 32 ∧ a.Consistent ∧
      a.namespaces.map (·.index) = [1, 3] ∧
      ((Store.new {}).handedOut .space calls).map UInt32.toNat = List.range' 1 3 := by
  intro calls
  have hrun : ∃ a, (Store.new {}).after calls = authoring a ∧
      a.namespaces.map (·.index) = [1, 3] ∧ a.lastNamespace = 3 := by
    refine ⟨_, rfl, ?_, ?_⟩ <;> rfl
  obtain ⟨a, ha, hspaces, hlast⟩ := hrun
  obtain ⟨-, -, -, h, hcounts⟩ := filling_consistent {} calls (by decide) ha
  refine ⟨a, ha, by decide, h, hspaces, ?_⟩
  have hcount := hcounts .space
  rwa [show a.last .space = 3 from hlast] at hcount

end Store

end DebugSymbols
