import DebugSymbols.Proofs.Store.Invariant

namespace DebugSymbols

theorem le_or_eq_of_le_succ {i n : UInt32} (h : i ≤ n + 1) : i ≤ n ∨ i = n + 1 := by
  rw [UInt32.le_iff_toNat_le, UInt32.toNat_add] at h
  rw [UInt32.le_iff_toNat_le, ← UInt32.toNat_inj, UInt32.toNat_add]
  have := i.toNat_lt
  have := n.toNat_lt
  simp only [UInt32.toNat_one] at h ⊢
  omega

/-- What a number of the namespaces was given out for. -/
inductive GivenNumber where
  | declared (n : Namespace)
  | reserved (number : UInt32)
deriving DecidableEq, Repr

namespace GivenNumber

def number : GivenNumber → UInt32
  | declared n => n.index
  | reserved number => number

def declared? : GivenNumber → Option Namespace
  | declared n => some n
  | reserved _ => none

def reserved? : GivenNumber → Option UInt32
  | declared _ => none
  | reserved number => some number

theorem declared?_eq_some {x : GivenNumber} {n : Namespace} :
    x.declared? = some n ↔ x = declared n := by
  cases x <;> simp [declared?]

theorem reserved?_eq_some {x : GivenNumber} {i : UInt32} :
    x.reserved? = some i ↔ x = reserved i := by
  cases x <;> simp [reserved?]

end GivenNumber

open GivenNumber

theorem mem_declared {log : List GivenNumber} {n : Namespace} :
    n ∈ log.filterMap declared? ↔ declared n ∈ log := by
  simp only [List.mem_filterMap, declared?_eq_some, exists_eq_right]

theorem mem_reserved {log : List GivenNumber} {i : UInt32} :
    i ∈ log.filterMap reserved? ↔ reserved i ∈ log := by
  simp only [List.mem_filterMap, reserved?_eq_some, exists_eq_right]

/-- What the answer to a call was given out for. -/
def AuthoringCall.givenNumber? (number : UInt32) : AuthoringCall → Option GivenNumber
  | defineNamespace _ name usingClauses parent =>
    some (.declared ⟨name, number, parent, usingClauses⟩)
  | nextNamespace => some (.reserved number)
  | _ => none

namespace Store

def givenNumber? (s : Store) : StoreCall σ → Option GivenNumber
  | .fill c =>
    match (s.call c).1 with
    | .ok (some number) => c.givenNumber? number
    | .ok none | .error _ => none
  | .sealOver .. | .ask _ | .guid | .header | .appearance => none

theorem map_number_givenNumber? (s : Store) (c : StoreCall σ) :
    (s.givenNumber? c).toList.map number = s.handsOut .space c := by
  cases c with
  | fill c =>
    rw [givenNumber?, handsOut]
    rcases (s.call c).1 with e | ⟨_ | i⟩
    · rfl
    · rfl
    · cases c <;> rfl
  | sealOver | ask | guid | header | appearance => rfl

variable [Sink σ]

/-- What the numbers of the namespaces are given out for in a run, in their order. -/
def givenNumbers : Store → List (StoreCall σ) → List GivenNumber
  | _, [] => []
  | s, c :: cs => (s.givenNumber? c).toList ++ givenNumbers (s.perform c).2 cs

theorem map_number_givenNumbers (s : Store) (cs : List (StoreCall σ)) :
    (s.givenNumbers cs).map number = s.handedOut .space cs := by
  induction cs generalizing s with
  | nil => rfl
  | cons c cs ih => rw [givenNumbers, handedOut, List.map_append, ih, map_number_givenNumber?]

end Store

/-- Each namespace that is declared has no parent, or one whose number was given out before. -/
def ParentsGiven (log : List GivenNumber) : Prop :=
  ∀ before n behind, log = before ++ declared n :: behind →
    n.parent = 0 ∨ n.parent ∈ before.map number

theorem ParentsGiven.snoc {log : List GivenNumber} {x : GivenNumber} (h : ParentsGiven log)
    (hx : ∀ n, x = declared n → n.parent = 0 ∨ n.parent ∈ log.map number) :
    ParentsGiven (log ++ [x]) := by
  intro before n behind heq
  rcases List.eq_nil_or_concat' behind with rfl | ⟨behind, y, rfl⟩
  · obtain ⟨rfl, hlast⟩ := List.append_inj' heq rfl
    exact hx n (List.cons.inj hlast).1
  · rw [← List.cons_append, ← List.append_assoc] at heq
    exact h before n behind (List.append_inj' heq rfl).1

/-- Following parents from a namespace leads, through namespaces of the list only, to a number. -/
inductive Namespace.LeadsTo (ns : List Namespace) : Namespace → UInt32 → Prop
  | parent (n : Namespace) : LeadsTo ns n n.parent
  | onward {n outer : Namespace} {i : UInt32} (houter : outer ∈ ns) (heq : outer.index = n.parent)
    (rest : LeadsTo ns outer i) : LeadsTo ns n i

namespace Namespace.LeadsTo

variable {ns : List Namespace} {n : Namespace} {i : UInt32}

theorem exists_parent (h : LeadsTo ns n i) (hn : n ∈ ns) : ∃ outer ∈ ns, outer.parent = i := by
  induction h with
  | parent n => exact ⟨n, hn, rfl⟩
  | onward houter _ _ ih => exact ih houter

end Namespace.LeadsTo

namespace ParentsGiven

variable {log before behind : List GivenNumber} {n : Namespace}

/-- A namespace has no parent, or one that was declared before, or one whose number was given out
before without a namespace. -/
theorem parent_cases (h : ParentsGiven log) (heq : log = before ++ declared n :: behind) :
    n.parent = 0 ∨ (∃ outer, declared outer ∈ before ∧ outer.index = n.parent) ∨
      reserved n.parent ∈ before := by
  refine (h before n behind heq).imp_right fun hgiven => ?_
  obtain ⟨x, hx, hnumber⟩ := List.mem_map.1 hgiven
  cases x with
  | declared outer => exact .inl ⟨outer, hx, hnumber⟩
  | reserved i =>
    have hparent : i = n.parent := hnumber
    exact .inr (hparent ▸ hx)

/-- Where no parent was given out without a namespace, each one was declared before. -/
theorem declared_before (h : ParentsGiven log)
    (hnamed : ∀ n, declared n ∈ log → reserved n.parent ∉ log)
    (heq : log = before ++ declared n :: behind) :
    n.parent = 0 ∨ ∃ outer, declared outer ∈ before ∧ outer.index = n.parent := by
  refine (h.parent_cases heq).imp_right fun hgiven => hgiven.resolve_right fun hreserved => ?_
  have hn : declared n ∈ log := heq ▸ List.mem_append_right _ List.mem_cons_self
  exact hnamed n hn (heq ▸ List.mem_append_left _ hreserved)

/-- Parents that were given out before lead out of the namespaces: to no parent, or to a number that
was given out without a namespace. -/
theorem leadsTo {ns : List Namespace} (h : ParentsGiven log)
    (hns : ∀ n, declared n ∈ log → n ∈ ns) (n : Namespace) (hn : declared n ∈ log) :
    n.LeadsTo ns 0 ∨ ∃ i, reserved i ∈ log ∧ n.LeadsTo ns i := by
  -- A parent stands further to the front, so the induction is on what is in front of the namespace.
  obtain ⟨before, behind, heq⟩ := List.append_of_mem hn
  induction hlength : before.length using Nat.strong_induction_on generalizing n before behind with
  | _ k ih =>
    rcases h.parent_cases heq with hzero | ⟨outer, hbefore, hindex⟩ | hreserved
    · exact .inl (hzero ▸ .parent n)
    · have houter : declared outer ∈ log := heq ▸ List.mem_append_left _ hbefore
      obtain ⟨before', behind', rfl⟩ := List.append_of_mem hbefore
      have hshorter : before'.length < k := by
        rw [← hlength, List.length_append, List.length_cons]
        omega
      have hleads := ih before'.length hshorter outer houter before' _
        (by rw [heq, List.append_assoc, List.cons_append]) rfl
      exact hleads.imp (.onward (hns outer houter) hindex)
        fun ⟨i, hi, hpath⟩ => ⟨i, hi, .onward (hns outer houter) hindex hpath⟩
    · exact .inr ⟨n.parent, heq ▸ List.mem_append_left _ hreserved, .parent n⟩

end ParentsGiven

namespace Authoring

/-- The contents are those that the numbers were given out for. -/
structure Traced (a : Authoring) (log : List GivenNumber) : Prop where
  namespaces : a.namespaces.Perm (log.filterMap declared?)
  given : ∀ i, i ≠ 0 → i ≤ a.lastNamespace → i ∈ log.map number
  parents : ParentsGiven log

variable {a b : Authoring} {log : List GivenNumber}

theorem traced_new (options : StoreOptions) : ({ options := options } : Authoring).Traced [] where
  namespaces := .refl _
  given _ hi hle := absurd (UInt32.le_zero_iff.1 hle) hi
  parents before n behind heq := by cases before <;> cases heq

theorem namespaces_after {c : AuthoringCall} (hc : c.counter? ≠ some .space) :
    (a.after c).namespaces = a.namespaces := by
  cases c with
  | nextNamespace | defineNamespace => exact absurd rfl hc
  | addUnit source => exact namespaces_pushUnit a source
  | addInclude unit source => exact namespaces_pushInclude a unit source
  | addSource | defineMethod | nextType | nextMethod | defineScope => rfl
  | captureLocal scope name capturedName | captureParameter scope name capturedName
  | captureThis scope capturedName | captureScope scope captured capturedName =>
    change (a.modifyScope scope _).namespaces = _
    unfold modifyScope
    split <;> rfl

namespace Traced

theorem of_same (h : a.Traced log) (hnamespaces : b.namespaces = a.namespaces)
    (hlast : b.lastNamespace = a.lastNamespace) : b.Traced log :=
  ⟨hnamespaces ▸ h.namespaces, hlast ▸ h.given, h.parents⟩

theorem snoc (h : a.Traced log) {x : GivenNumber} (hnumber : x.number = a.lastNamespace + 1)
    (hlast : b.lastNamespace = a.lastNamespace + 1)
    (hnamespaces : b.namespaces.Perm (x.declared?.toList ++ a.namespaces))
    (hparent : ∀ n, x = declared n → n.parent ≤ a.lastNamespace) : b.Traced (log ++ [x]) where
  namespaces := by
    rw [List.filterMap_append]
    refine hnamespaces.trans (List.perm_append_comm.trans (h.namespaces.append ?_))
    cases x <;> rfl
  given i hi hle := by
    rw [List.map_append, List.mem_append]
    rw [hlast] at hle
    refine (le_or_eq_of_le_succ hle).imp (h.given i hi) fun heq => ?_
    rw [heq, ← hnumber]
    exact List.mem_singleton_self _
  parents := h.parents.snoc fun n hn => or_iff_not_imp_left.2 fun hzero =>
    h.given n.parent hzero (hparent n hn)

theorem after (h : a.Traced log) {c : AuthoringCall} (hc : a.refusal? c = none) :
    (a.after c).Traced (log ++ ((a.number? c).bind c.givenNumber?).toList) := by
  by_cases hcounter : c.counter? = some .space
  · cases c with
    | nextNamespace => exact h.snoc (x := reserved (a.lastNamespace + 1)) rfl rfl (.refl _) nofun
    | defineNamespace unit name usingClauses parent =>
      obtain ⟨hparent, hunit⟩ := Option.or_eq_none_iff.1 hc
      refine h.snoc (x := declared ⟨name, a.lastNamespace + 1, parent, usingClauses⟩) rfl rfl
        (namespaces_declareNamespace_perm hunit _) fun n hn => ?_
      cases hn
      exact unknownParent?_eq_none.1 hparent
    | addSource | addUnit | addInclude | defineMethod | nextType | nextMethod | defineScope
    | captureLocal | captureParameter | captureThis | captureScope => cases hcounter
  · have hnone : (a.number? c).bind c.givenNumber? = none := by
      cases c <;> first | rfl | exact absurd rfl hcounter
    have hlast := a.last_after c .space
    rw [if_neg hcounter] at hlast
    rw [hnone, Option.toList_none, List.append_nil]
    exact h.of_same (namespaces_after hcounter) hlast

end Traced

end Authoring

namespace Store

variable {a b : Authoring} {log : List GivenNumber} [Sink σ]

theorem perform_traced (h : a.Traced log) (c : StoreCall σ) :
    (∃ header, ((authoring a).perform c).2 = sealed header) ∨
      ∃ b, ((authoring a).perform c).2 = authoring b ∧
        b.Traced (log ++ ((authoring a).givenNumber? c).toList) := by
  cases c with
  | fill c =>
    refine .inr ?_
    simp only [perform, givenNumber?, call_authoring]
    cases hrefusal : a.refusal? c with
    | some e => exact ⟨a, rfl, (List.append_nil log).symm ▸ h⟩
    | none =>
      have hafter := h.after hrefusal
      refine ⟨a.after c, rfl, ?_⟩
      cases hnumber : a.number? c with
      | none => rwa [hnumber] at hafter
      | some number => rwa [hnumber] at hafter
  | sealOver stream guid =>
    rw [perform, sealOver]
    rcases (a.sorted.writeFile guid).run stream with ⟨e | header, stream⟩
    · exact .inr ⟨a.sorted, rfl, (List.append_nil log).symm ▸ h.of_same rfl rfl⟩
    · exact .inl ⟨header, rfl⟩
  | ask | guid | header | appearance => exact .inr ⟨a, rfl, (List.append_nil log).symm ▸ h⟩

theorem after_traced (h : a.Traced log) (cs : List (StoreCall σ))
    (hb : (authoring a).after cs = authoring b) :
    b.Traced (log ++ (authoring a).givenNumbers cs) := by
  induction cs generalizing a log with
  | nil =>
    cases hb
    exact (List.append_nil log).symm ▸ h
  | cons c cs ih =>
    change ((authoring a).perform c).2.after cs = _ at hb
    obtain ⟨header, hsealed⟩ | ⟨a', ha', htraced⟩ := perform_traced h c
    · rw [hsealed, after_sealed] at hb
      cases hb
    · rw [ha'] at hb
      rw [givenNumbers, ha', ← List.append_assoc]
      exact ih htraced hb

/-- As long as there are numbers for all calls of a run, those it gives out are distinct. -/
theorem nodup_map_number (options : StoreOptions) (calls : List (StoreCall σ))
    (hlength : calls.length < 2 ^ 32) {a : Authoring}
    (ha : (Store.new options).after calls = authoring a) :
    (((Store.new options).givenNumbers calls).map number).Nodup ∧
      0 ∉ ((Store.new options).givenNumbers calls).map number := by
  have hroom (k : Counter) : (({ options := options } : Authoring).last k).toNat +
      calls.length < 2 ^ 32 := by
    cases k <;> simpa [Authoring.last] using hlength
  obtain ⟨-, hcounts⟩ := after_authoring (Authoring.consistent_new options) calls hroom ha
  obtain ⟨count, -, hcount⟩ := hcounts .space
  have hnumbers : ((Store.new options).handedOut .space calls).map UInt32.toNat =
      List.range' 1 count := hcount
  rw [map_number_givenNumbers]
  refine ⟨.of_map UInt32.toNat (hnumbers ▸ List.nodup_range'), fun hzero => ?_⟩
  have hmem := List.mem_map_of_mem (f := UInt32.toNat) hzero
  rw [hnumbers, List.mem_range'_1] at hmem
  exact absurd hmem.1 (by decide)

/-- Whatever was called on a new store: the namespaces are those that were declared with success,
and a parent is 0 or a number given out before.  Following parents therefore ends, at 0 or at a
number that was given out without a namespace.  If no parent is such a number, each parent was
declared before and all of them lead to 0; and a parent that is such a number belongs to no
namespace, as long as there are numbers for all calls. -/
theorem parents_given_out (options : StoreOptions) (calls : List (StoreCall σ)) {a : Authoring}
    (ha : (Store.new options).after calls = authoring a) :
    let log := (Store.new options).givenNumbers calls
    let unnamed := log.filterMap reserved?
    a.namespaces.Perm (log.filterMap declared?) ∧
      (∀ before n behind, log = before ++ declared n :: behind →
        n.parent = 0 ∨ n.parent ∈ before.map number) ∧
      (∀ n ∈ a.namespaces, n.LeadsTo a.namespaces 0 ∨ ∃ i ∈ unnamed, n.LeadsTo a.namespaces i) ∧
      ((∀ n ∈ a.namespaces, n.parent ∉ unnamed) →
        (∀ before n behind, log = before ++ declared n :: behind →
          n.parent = 0 ∨ ∃ outer, declared outer ∈ before ∧ outer.index = n.parent) ∧
        ∀ n ∈ a.namespaces, n.LeadsTo a.namespaces 0) ∧
      (calls.length < 2 ^ 32 → ∀ n ∈ a.namespaces, n.parent ∈ unnamed →
        n.parent ≠ 0 ∧ ∀ outer ∈ a.namespaces, outer.index ≠ n.parent) := by
  intro log unnamed
  have htraced : a.Traced log := after_traced (Authoring.traced_new options) calls ha
  have hmem (n : Namespace) : n ∈ a.namespaces ↔ declared n ∈ log :=
    htraced.namespaces.mem_iff.trans mem_declared
  have hleads (n : Namespace) (hn : n ∈ a.namespaces) :
      n.LeadsTo a.namespaces 0 ∨ ∃ i ∈ unnamed, n.LeadsTo a.namespaces i := by
    have hlog := htraced.parents.leadsTo (fun n => (hmem n).2) n ((hmem n).1 hn)
    exact hlog.imp_right fun ⟨i, hi, hpath⟩ => ⟨i, mem_reserved.2 hi, hpath⟩
  refine ⟨htraced.namespaces, htraced.parents, hleads, fun hnamed => ⟨?_, ?_⟩, ?_⟩
  · intro before n behind heq
    exact htraced.parents.declared_before
      (fun n hn hreserved => hnamed n ((hmem n).2 hn) (mem_reserved.2 hreserved)) heq
  · intro n hn
    refine (hleads n hn).resolve_right fun ⟨i, hi, hpath⟩ => ?_
    obtain ⟨outer, houter, rfl⟩ := hpath.exists_parent hn
    exact hnamed outer houter hi
  · intro hlength n hn hreserved
    obtain ⟨hnodup, hzero⟩ := nodup_map_number options calls hlength ha
    have hlog : reserved n.parent ∈ log := mem_reserved.1 hreserved
    refine ⟨fun heq => hzero (heq ▸ List.mem_map_of_mem hlog), fun outer houter heq => ?_⟩
    have := List.inj_on_of_nodup_map hnodup ((hmem outer).1 houter) hlog heq
    cases this

/-- A number was given out without a namespace before the two that are declared. -/
theorem parents_given_out_number_between :
    let calls : List (StoreCall Output) := [
      .fill (.addSource { index := 0, fileName := "a.cs", checksum := [] }), .fill (.addUnit 1),
      .fill .nextNamespace, .fill (.defineNamespace 1 "Game" ["System"] 0),
      .fill (.defineNamespace 1 "Game.UI" [] 2), .fill (.defineNamespace 1 "Bad" [] 9)]
    ∃ a, (Store.new {}).after calls = authoring a ∧
      a.namespaces = [⟨"Game", 2, 0, ["System"]⟩, ⟨"Game.UI", 3, 2, []⟩] ∧
      ∀ n ∈ a.namespaces, n.LeadsTo a.namespaces 0 := by
  intro calls
  have hrun : ∃ a, (Store.new {}).after calls = authoring a ∧
      a.namespaces = [⟨"Game", 2, 0, ["System"]⟩, ⟨"Game.UI", 3, 2, []⟩] := ⟨_, rfl, rfl⟩
  obtain ⟨a, ha, hnamespaces⟩ := hrun
  have hnamed : ∀ n ∈ a.namespaces, n.parent ∉
      ((Store.new {}).givenNumbers calls).filterMap reserved? := by
    rw [hnamespaces, show ((Store.new {}).givenNumbers calls).filterMap reserved? = [1] from rfl]
    decide
  exact ⟨a, ha, hnamespaces, ((parents_given_out {} calls ha).2.2.2.1 hnamed).2⟩

/-- A number that was given out without a namespace is accepted as a parent. -/
theorem parent_never_declared :
    let calls : List (StoreCall Output) := [
      .fill (.addSource { index := 0, fileName := "a.cs", checksum := [] }), .fill (.addUnit 1),
      .fill .nextNamespace]
    let s := (Store.new {}).after calls
    let c : AuthoringCall := .defineNamespace 1 "A" [] 1
    (s.call c).1 = .ok (some 2) ∧
      ∃ a, (s.call c).2 = authoring a ∧
        ∃ n ∈ a.namespaces, n.parent ≠ 0 ∧ ∀ outer ∈ a.namespaces, outer.index ≠ n.parent := by
  refine ⟨rfl, _, rfl, ⟨"A", 2, 1, []⟩, List.mem_singleton_self _, by decide, ?_⟩
  exact List.forall_mem_singleton.2 (by decide)

end Store

end DebugSymbols
