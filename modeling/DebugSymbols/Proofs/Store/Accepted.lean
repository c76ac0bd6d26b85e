import DebugSymbols.Proofs.Store.Invariant

namespace DebugSymbols

theorem filterMap_snoc (f : α → Option β) (as : List α) (a : α) :
    (as ++ [a]).filterMap f = as.filterMap f ++ (f a).toList := by
  rw [List.filterMap_append]
  cases h : f a <;> simp [h]

/-- A change at one place is a change of the entry that a condition singles out. -/
theorem toList_modify_eq_map {P : α → Prop} [DecidablePred P] {as : Array α} {k : Nat}
    (h : ∀ j a, as[j]? = some a → (P a ↔ k = j)) (f : α → α) :
    (as.modify k f).toList = as.toList.map fun a => if P a then f a else a := by
  apply List.ext_getElem?
  intro j
  rw [Array.getElem?_toList, Array.getElem?_modify, List.getElem?_map, Array.getElem?_toList]
  cases ha : as[j]? with
  | none => by_cases hk : k = j <;> simp [hk]
  | some a =>
    by_cases hk : k = j
    · rw [if_pos hk, Option.map_some, Option.map_some, if_pos ((h j a ha).2 hk)]
    · rw [if_neg hk, Option.map_some, if_neg fun hP => hk ((h j a ha).1 hP)]

/-- A call that was accepted, with the number that it answered. -/
abbrev Accepted := AuthoringCall × Option UInt32

namespace Accepted

def source? : Accepted → Option SourceFile
  | (.addSource source, some n) => some { source with index := n }
  | _ => none

/-- The number of a compile unit and that of its source. -/
def unit? : Accepted → Option (UInt32 × UInt32)
  | (.addUnit source, some n) => some (n, source)
  | _ => none

def includeOf? (unit : UInt32) : Accepted → Option UInt32
  | (.addInclude into source, _) => if into = unit then some source else none
  | _ => none

def namespaceOf? (unit : UInt32) : Accepted → Option Namespace
  | (.defineNamespace into name usingClauses parent, some n) =>
    if into = unit then some ⟨name, n, parent, usingClauses⟩ else none
  | _ => none

def method? : Accepted → Option MethodDefinition
  | (.defineMethod d, _) => some d
  | _ => none

def scope? : Accepted → Option UInt32
  | (.defineScope id, _) => some id
  | _ => none

def captureOf? (scope : UInt32) : Accepted → Option CapturedVariable
  | (.captureLocal into name field, _) =>
    if into = scope then some ⟨name, field, .localVariable⟩ else none
  | (.captureParameter into name field, _) =>
    if into = scope then some ⟨name, field, .parameter⟩ else none
  | (.captureThis into field, _) => if into = scope then some ⟨"this", field, .this⟩ else none
  | _ => none

def nestedOf? (scope : UInt32) : Accepted → Option CapturedScope
  | (.captureScope into captured field, _) => if into = scope then some ⟨captured, field⟩ else none
  | _ => none

def intoUnit? : Accepted → Option UInt32
  | (.addInclude unit _, _) | (.defineNamespace unit .., _) => some unit
  | _ => none

def intoScope? : Accepted → Option UInt32
  | (.captureLocal scope .., _) | (.captureParameter scope .., _) | (.captureThis scope _, _)
  | (.captureScope scope .., _) => some scope
  | _ => none

/-- The compile unit of a number and a source, with all that was put into it. -/
def unit (log : List Accepted) (entry : UInt32 × UInt32) : CompileUnit where
  index := entry.1
  source := entry.2
  includes := log.filterMap (includeOf? entry.1)
  namespaces := log.filterMap (namespaceOf? entry.1)

/-- The scope of an id, with all that was put into it. -/
def scope (log : List Accepted) (id : UInt32) : AnonymousScope where
  id := id
  captured := log.filterMap (captureOf? id)
  scopes := log.filterMap (nestedOf? id)

def growUnit (x : Accepted) (u : CompileUnit) : CompileUnit :=
  { u with
    includes := u.includes ++ (x.includeOf? u.index).toList
    namespaces := u.namespaces ++ (x.namespaceOf? u.index).toList }

def growScope (x : Accepted) (s : AnonymousScope) : AnonymousScope :=
  { s with
    captured := s.captured ++ (x.captureOf? s.id).toList
    scopes := s.scopes ++ (x.nestedOf? s.id).toList }

variable {x : Accepted} {log : List Accepted} {n : UInt32}

theorem unit_snoc (log : List Accepted) (x : Accepted) (entry : UInt32 × UInt32) :
    unit (log ++ [x]) entry = x.growUnit (unit log entry) := by
  simp only [unit, growUnit, filterMap_snoc]

theorem scope_snoc (log : List Accepted) (x : Accepted) (id : UInt32) :
    scope (log ++ [x]) id = x.growScope (scope log id) := by
  simp only [scope, growScope, filterMap_snoc]

theorem includeOf?_eq_none (h : x.intoUnit? ≠ some n) : x.includeOf? n = none := by
  obtain ⟨c, answer⟩ := x
  cases c with
  | addInclude unit source => exact if_neg fun heq => h (congrArg some heq)
  | addSource | addUnit | defineNamespace | defineMethod | nextType | nextMethod | nextNamespace
  | defineScope | captureLocal | captureParameter | captureThis | captureScope => rfl

theorem namespaceOf?_eq_none (h : x.intoUnit? ≠ some n) : x.namespaceOf? n = none := by
  obtain ⟨c, answer⟩ := x
  cases c with
  | defineNamespace unit name usingClauses parent =>
    cases answer with
    | none => rfl
    | some index => exact if_neg fun heq => h (congrArg some heq)
  | addSource | addUnit | addInclude | defineMethod | nextType | nextMethod | nextNamespace
  | defineScope | captureLocal | captureParameter | captureThis | captureScope => rfl

theorem captureOf?_eq_none (h : x.intoScope? ≠ some n) : x.captureOf? n = none := by
  obtain ⟨c, answer⟩ := x
  cases c with
  | captureLocal | captureParameter | captureThis => exact if_neg fun heq => h (congrArg some heq)
  | addSource | addUnit | addInclude | defineNamespace | defineMethod | nextType | nextMethod
  | nextNamespace | defineScope | captureScope => rfl

theorem nestedOf?_eq_none (h : x.intoScope? ≠ some n) : x.nestedOf? n = none := by
  obtain ⟨c, answer⟩ := x
  cases c with
  | captureScope => exact if_neg fun heq => h (congrArg some heq)
  | addSource | addUnit | addInclude | defineNamespace | defineMethod | nextType | nextMethod
  | nextNamespace | defineScope | captureLocal | captureParameter | captureThis => rfl

theorem growUnit_of_ne {u : CompileUnit} (h : x.intoUnit? ≠ some u.index) : x.growUnit u = u := by
  simp [growUnit, includeOf?_eq_none h, namespaceOf?_eq_none h]

theorem growScope_of_ne {s : AnonymousScope} (h : x.intoScope? ≠ some s.id) :
    x.growScope s = s := by
  simp [growScope, captureOf?_eq_none h, nestedOf?_eq_none h]

theorem map_growUnit (h : x.intoUnit? = none) (units : List CompileUnit) :
    units.map x.growUnit = units :=
  (List.map_congr_left fun _ _ => growUnit_of_ne (by simp [h])).trans (List.map_id _)

theorem map_growScope (h : x.intoScope? = none) (scopes : List AnonymousScope) :
    scopes.map x.growScope = scopes :=
  (List.map_congr_left fun _ _ => growScope_of_ne (by simp [h])).trans (List.map_id _)

theorem unit_of_forall_ne (h : ∀ x ∈ log, x.intoUnit? ≠ some n) (source : UInt32) :
    unit log (n, source) = { index := n, source := source } := by
  have hincludes : log.filterMap (includeOf? n) = [] :=
    List.filterMap_eq_nil_iff.2 fun x hx => includeOf?_eq_none (h x hx)
  have hnamespaces : log.filterMap (namespaceOf? n) = [] :=
    List.filterMap_eq_nil_iff.2 fun x hx => namespaceOf?_eq_none (h x hx)
  rw [unit, hincludes, hnamespaces]

theorem scope_of_forall_ne (h : ∀ x ∈ log, x.intoScope? ≠ some n) :
    scope log n = { id := n } := by
  have hcaptured : log.filterMap (captureOf? n) = [] :=
    List.filterMap_eq_nil_iff.2 fun x hx => captureOf?_eq_none (h x hx)
  have hnested : log.filterMap (nestedOf? n) = [] :=
    List.filterMap_eq_nil_iff.2 fun x hx => nestedOf?_eq_none (h x hx)
  rw [scope, hcaptured, hnested]

end Accepted

namespace Authoring

variable {a b : Authoring} {c : AuthoringCall} {log : List Accepted}

/-- The contents are what accepted calls put into them, in the order of the calls and nothing
else. -/
structure Records (a : Authoring) (log : List Accepted) : Prop where
  sources : a.sources.toList = log.filterMap Accepted.source?
  units : a.units.toList = (log.filterMap Accepted.unit?).map (Accepted.unit log)
  methods : a.methods.toList = log.filterMap Accepted.method?
  scopes : a.scopes.toList = (log.filterMap Accepted.scope?).map (Accepted.scope log)
  types : a.lastType = UInt32.ofNat (log.countP fun x => x.1 = .nextType)

def accept (a : Authoring) (c : AuthoringCall) : Accepted := (c, a.number? c)

theorem toList_modifyUnit (h : a.WellFormed) (hlt : a.units.size < 2 ^ 32) {unit : UInt32}
    (hunit : a.missingUnit? unit = none) {x : Accepted} (hx : x.intoUnit? = some unit)
    {f : CompileUnit → CompileUnit} (hf : ∀ u, u.index = unit → f u = x.growUnit u) :
    (a.modifyUnit unit f).units.toList = a.units.toList.map x.growUnit := by
  have hplace : (a.modifyUnit unit f).units.toList =
      a.units.toList.map fun u => if u.index = unit then f u else u := by
    refine toList_modify_eq_map (fun j u hu => ?_) f
    have hplace := toNat_place hu hlt
    have hfirst := (hasUnit_iff.1 (missingUnit?_eq_none.1 hunit)).1
    rw [← UInt32.toNat_inj, h.units j u hu, hplace]
    omega
  refine hplace.trans (List.map_congr_left fun u _ => ?_)
  by_cases hu : u.index = unit
  · rw [if_pos hu, hf u hu]
  · rw [if_neg hu, Accepted.growUnit_of_ne]
    rw [hx]
    exact fun heq => hu (Option.some.inj heq).symm

theorem toList_modifyScope (h : a.WellFormed) {id : UInt32} {x : Accepted}
    (hx : x.intoScope? = some id) {f : AnonymousScope → AnonymousScope}
    (hf : ∀ s, s.id = id → f s = x.growScope s) :
    (a.modifyScope id f).scopes.toList = a.scopes.toList.map x.growScope := by
  have hplace : (a.modifyScope id f).scopes.toList =
      a.scopes.toList.map fun s => if s.id = id then f s else s := by
    unfold modifyScope
    cases hfind : a.scopes.findIdx? fun s => s.id == id with
    | none =>
      have hnone := Array.findIdx?_eq_none_iff.1 hfind
      refine (List.map_congr_left fun s hs => ?_).trans (List.map_id _) |>.symm
      exact if_neg (by simpa using hnone s (Array.mem_toList_iff.1 hs))
    | some i =>
      obtain ⟨hi, hid, -⟩ := Array.findIdx?_eq_some_iff_getElem.1 hfind
      refine toList_modify_eq_map (fun j s hs => ?_) f
      obtain ⟨hj, rfl⟩ := Array.getElem?_eq_some_iff.1 hs
      have hi' : i < (a.scopes.toList.map (·.id)).length := by simpa using hi
      have hj' : j < (a.scopes.toList.map (·.id)).length := by simpa using hj
      have hids : (a.scopes.toList.map (·.id))[i] = (a.scopes.toList.map (·.id))[j] ↔ i = j :=
        h.scopes_nodup.getElem_inj_iff
      rw [List.getElem_map, List.getElem_map, Array.getElem_toList, Array.getElem_toList,
        eq_of_beq hid] at hids
      rw [← hids, eq_comm]
  refine hplace.trans (List.map_congr_left fun s _ => ?_)
  by_cases hs : s.id = id
  · rw [if_pos hs, hf s hs]
  · rw [if_neg hs, Accepted.growScope_of_ne]
    rw [hx]
    exact fun heq => hs (Option.some.inj heq).symm

theorem modifyScope_eq (a : Authoring) (id : UInt32) (f : AnonymousScope → AnonymousScope) :
    a.modifyScope id f = { a with scopes := (a.modifyScope id f).scopes } := by
  unfold modifyScope
  split <;> rfl

theorem sources_after (a : Authoring) (c : AuthoringCall) :
    (a.after c).sources.toList = a.sources.toList ++ (a.accept c).source?.toList := by
  cases c with
  | addSource source => exact Array.toList_push
  | addUnit | addInclude | defineNamespace | defineMethod | nextType | nextMethod | nextNamespace
  | defineScope => exact (List.append_nil _).symm
  | captureLocal scope | captureParameter scope | captureThis scope | captureScope scope =>
    exact (congrArg (·.sources.toList) (a.modifyScope_eq scope _)).trans (List.append_nil _).symm

theorem methods_after (a : Authoring) (c : AuthoringCall) :
    (a.after c).methods.toList = a.methods.toList ++ (a.accept c).method?.toList := by
  cases c with
  | defineMethod d => exact Array.toList_push
  | addSource | addUnit | addInclude | defineNamespace | nextType | nextMethod | nextNamespace
  | defineScope => exact (List.append_nil _).symm
  | captureLocal scope | captureParameter scope | captureThis scope | captureScope scope =>
    exact (congrArg (·.methods.toList) (a.modifyScope_eq scope _)).trans (List.append_nil _).symm

/-- A call adds to the compile units that are there, or puts one more behind them. -/
theorem units_after (h : a.WellFormed) (hlt : a.units.size < 2 ^ 32) (hc : a.refusal? c = none) :
    (a.after c).units.toList = a.units.toList.map (a.accept c).growUnit ++
      ((a.accept c).unit?.map (Accepted.unit [])).toList := by
  cases c with
  | addUnit source =>
    rw [Accepted.map_growUnit rfl]
    exact Array.toList_push
  | addInclude unit source =>
    refine (toList_modifyUnit h hlt (Option.or_eq_none_iff.1 hc).2 rfl fun u hu => ?_).trans
      (List.append_nil _).symm
    simp [hu, accept, Accepted.growUnit, Accepted.includeOf?, Accepted.namespaceOf?]
  | defineNamespace unit name usingClauses parent =>
    have hwf := (Keeps.numbers a.lastType a.lastMethod (a.lastNamespace + 1)).wellFormed h
    refine (toList_modifyUnit hwf hlt (Option.or_eq_none_iff.1 hc).2 rfl fun u hu => ?_).trans
      (List.append_nil _).symm
    simp [hu, accept, number?, Accepted.growUnit, Accepted.includeOf?, Accepted.namespaceOf?]
  | addSource | defineMethod | nextType | nextMethod | nextNamespace | defineScope =>
    rw [Accepted.map_growUnit rfl]
    exact (List.append_nil _).symm
  | captureLocal scope | captureParameter scope | captureThis scope | captureScope scope =>
    rw [Accepted.map_growUnit rfl]
    exact (congrArg (·.units.toList) (a.modifyScope_eq scope _)).trans (List.append_nil _).symm

theorem scopes_after (h : a.WellFormed) (c : AuthoringCall) :
    (a.after c).scopes.toList = a.scopes.toList.map (a.accept c).growScope ++
      ((a.accept c).scope?.map (Accepted.scope [])).toList := by
  cases c with
  | defineScope id =>
    rw [Accepted.map_growScope rfl]
    exact Array.toList_push
  | addSource | addUnit | addInclude | defineNamespace | defineMethod | nextType | nextMethod
  | nextNamespace =>
    rw [Accepted.map_growScope rfl]
    exact (List.append_nil _).symm
  | captureLocal scope | captureParameter scope | captureThis scope | captureScope scope =>
    refine (toList_modifyScope h rfl fun s hs => ?_).trans (List.append_nil _).symm
    simp [hs, accept, Accepted.growScope, Accepted.captureOf?, Accepted.nestedOf?]

theorem lastType_after (a : Authoring) (c : AuthoringCall) :
    (a.after c).lastType = a.lastType + if c = .nextType then 1 else 0 := by
  have hlast := a.last_after c .type
  cases c with
  | nextType => rfl
  | addSource | addUnit | addInclude | defineNamespace | defineMethod | nextMethod | nextNamespace
  | defineScope | captureLocal | captureParameter | captureThis | captureScope =>
    exact hlast.trans (UInt32.add_zero _).symm

structure Recording (a : Authoring) (log : List Accepted) : Prop extends Records a log where
  wellFormed : a.WellFormed
  units_lt : a.units.size < 2 ^ 32
  intoUnit : ∀ x ∈ log, ∀ unit, x.intoUnit? = some unit → a.hasUnit unit = true
  intoScope : ∀ x ∈ log, ∀ id, x.intoScope? = some id → id ∈ a.scopes.toList.map (·.id)

theorem hasUnit_of_intoUnit (hc : a.refusal? c = none) {unit : UInt32}
    (hinto : (a.accept c).intoUnit? = some unit) : a.hasUnit unit = true := by
  cases c with
  | addInclude | defineNamespace =>
    cases hinto
    exact missingUnit?_eq_none.1 (Option.or_eq_none_iff.1 hc).2
  | addSource | addUnit | defineMethod | nextType | nextMethod | nextNamespace | defineScope
  | captureLocal | captureParameter | captureThis | captureScope => cases hinto

theorem mem_ids_of_intoScope (hc : a.refusal? c = none) {id : UInt32}
    (hinto : (a.accept c).intoScope? = some id) : id ∈ a.scopes.toList.map (·.id) := by
  have hscope (hmissing : a.missingScope? id = none) : id ∈ a.scopes.toList.map (·.id) := by
    simpa [missingScope?, Array.mem_iff_getElem] using hmissing
  cases c with
  | captureLocal | captureParameter | captureThis | captureScope =>
    cases hinto
    exact hscope hc
  | addSource | addUnit | addInclude | defineNamespace | defineMethod | nextType | nextMethod
  | nextNamespace | defineScope => cases hinto

theorem size_units_after (h : a.WellFormed) (hlt : a.units.size < 2 ^ 32)
    (hc : a.refusal? c = none) :
    (a.after c).units.size = a.units.size + (a.accept c).unit?.toList.length := by
  have hlength := congrArg List.length (units_after h hlt hc)
  cases hunit : (a.accept c).unit? <;> simpa [hunit] using hlength

theorem map_id_scopes_after (h : a.WellFormed) (c : AuthoringCall) :
    (a.after c).scopes.toList.map (·.id) =
      a.scopes.toList.map (·.id) ++ (a.accept c).scope?.toList := by
  rw [scopes_after h, List.map_append, List.map_map]
  cases (a.accept c).scope? <;> rfl

namespace Recording

/-- A unit gets a number that no call named before. -/
theorem unit_new (h : a.Recording log) (hc : a.refusal? c = none) :
    (a.accept c).unit?.map (Accepted.unit (log ++ [a.accept c])) =
      (a.accept c).unit?.map (Accepted.unit []) := by
  cases c with
  | addUnit source =>
    refine congrArg some (Accepted.unit_of_forall_ne (fun x hx hinto => ?_) source)
    rcases List.mem_append.1 hx with hx | hx
    · have hle := (hasUnit_iff.1 (h.intoUnit x hx _ hinto)).2
      have hroom := fullTable?_eq_none.1 (Option.or_eq_none_iff.1 hc).2
      rw [UInt32.toNat_ofNat_of_lt' hroom] at hle
      exact Nat.not_succ_le_self _ hle
    · cases List.mem_singleton.1 hx
      cases hinto
  | addSource | addInclude | defineNamespace | defineMethod | nextType | nextMethod | nextNamespace
  | defineScope | captureLocal | captureParameter | captureThis | captureScope => rfl

theorem scope_new (h : a.Recording log) (hc : a.refusal? c = none) :
    (a.accept c).scope?.map (Accepted.scope (log ++ [a.accept c])) =
      (a.accept c).scope?.map (Accepted.scope []) := by
  cases c with
  | defineScope id =>
    refine congrArg some (Accepted.scope_of_forall_ne fun x hx hinto => ?_)
    rcases List.mem_append.1 hx with hx | hx
    · obtain ⟨s, hs, hid⟩ := List.mem_map.1 (h.intoScope x hx _ hinto)
      exact takenScope?_eq_none.1 hc s (Array.mem_toList_iff.1 hs) hid
    · cases List.mem_singleton.1 hx
      cases hinto
  | addSource | addUnit | addInclude | defineNamespace | defineMethod | nextType | nextMethod
  | nextNamespace | captureLocal | captureParameter | captureThis | captureScope => rfl

theorem after (h : a.Recording log) (hc : a.refusal? c = none) :
    (a.after c).Recording (log ++ [a.accept c]) where
  sources := by rw [sources_after, h.sources, filterMap_snoc]
  units := by
    rw [units_after h.wellFormed h.units_lt hc, ← h.unit_new hc, h.units, filterMap_snoc,
      List.map_append, List.map_map, Option.toList_map]
    exact congrArg (· ++ _) (List.map_congr_left fun entry _ => (Accepted.unit_snoc ..).symm)
  methods := by rw [methods_after, h.methods, filterMap_snoc]
  scopes := by
    rw [scopes_after h.wellFormed, ← h.scope_new hc, h.scopes, filterMap_snoc, List.map_append,
      List.map_map, Option.toList_map]
    exact congrArg (· ++ _) (List.map_congr_left fun id _ => (Accepted.scope_snoc ..).symm)
  types := by
    rw [lastType_after, h.types, List.countP_append, List.countP_singleton, UInt32.ofNat_add]
    by_cases hc : c = .nextType <;> simp [hc, accept]
  wellFormed := (Keeps.after hc).wellFormed h.wellFormed
  units_lt := by
    rw [size_units_after h.wellFormed h.units_lt hc]
    cases c with
    | addUnit source => exact fullTable?_eq_none.1 (Option.or_eq_none_iff.1 hc).2
    | addSource | addInclude | defineNamespace | defineMethod | nextType | nextMethod
    | nextNamespace | defineScope | captureLocal | captureParameter | captureThis
    | captureScope => exact h.units_lt
  intoUnit x hx unit hinto := by
    have hunit : a.hasUnit unit = true := by
      rcases List.mem_append.1 hx with hx | hx
      · exact h.intoUnit x hx unit hinto
      · cases List.mem_singleton.1 hx
        exact hasUnit_of_intoUnit hc hinto
    rw [hasUnit_iff] at hunit ⊢
    rw [size_units_after h.wellFormed h.units_lt hc]
    exact ⟨hunit.1, Nat.le_add_right_of_le hunit.2⟩
  intoScope x hx id hinto := by
    rw [map_id_scopes_after h.wellFormed]
    refine List.mem_append_left _ ?_
    rcases List.mem_append.1 hx with hx | hx
    · exact h.intoScope x hx id hinto
    · cases List.mem_singleton.1 hx
      exact mem_ids_of_intoScope hc hinto

end Recording

end Authoring

namespace Store

end Store

end DebugSymbols
