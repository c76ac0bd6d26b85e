import DebugSymbols.Proofs.Method.Calls
import DebugSymbols.Proofs.Store.Runs
import DebugSymbols.Writer
import Mathlib.Data.List.Induction

namespace DebugSymbols

inductive WriterCall (σ : Type) where
  | openMethod (token : Token) (compileUnit namespaceId : UInt32)
  | closeMethod
  | method (c : MethodCall)
  | defineDocument (fileName : String) (checksum : List UInt8)
  /-- A call that the writer passes on. -/
  | fill (c : AuthoringCall)
  /-- A call made on the store itself. -/
  | store (c : StoreCall σ)
  | replaceStore (s : Store)
  | write (stream : σ) (guid : Guid)
  | writeToFile (file : Except Error σ) (guid : Guid)

namespace Writer

/-- A call of the writer that is meant for the innermost method. -/
def describeBy : MethodCall → Step Writer (Option UInt32)
  | .openBlock kind offset => openBlock kind offset
  | .closeBlock offset => do
    closeBlock offset
    pure none
  | .detail d => do
    modify fun w => w.describe fun m => d.add m
    pure none

section Calls

variable [Sink σ]

def next (w : Writer) : WriterCall σ → Writer
  | .openMethod token compileUnit namespaceId => w.openMethod token compileUnit namespaceId
  | .closeMethod => w.closeMethod.2
  | .method c => ((describeBy c).run w).2
  | .defineDocument fileName checksum => ((defineDocument fileName checksum).run w).2
  | .fill c => ((change c.change).run w).2
  | .store c => { w with store := (w.store.perform c).2 }
  | .replaceStore s => { w with store := s }
  | .write stream guid => (w.writeInto stream guid).2.2
  | .writeToFile file guid => (w.writeToFile file guid).2.2

def after (w : Writer) (cs : List (WriterCall σ)) : Writer := cs.foldl next w

theorem after_snoc (w : Writer) (cs : List (WriterCall σ)) (c : WriterCall σ) :
    w.after (cs ++ [c]) = (w.after cs).next c := by
  rw [after, List.foldl_append]
  rfl

end Calls

end Writer

/-- The opening of a method in a run of calls. -/
structure Opening where
  /-- The number of calls before it. -/
  position : Nat
  token : Token
  compileUnit : UInt32
  namespaceId : UInt32
deriving DecidableEq, Repr

def Opening.builder (o : Opening) : MethodBuilder where
  token := o.token
  compileUnit := o.compileUnit
  namespaceId := o.namespaceId

namespace WriterCall

/-- The open methods behind a call, innermost first. -/
def nest (position : Nat) (openings : List Opening) : WriterCall σ → List Opening
  | openMethod token compileUnit namespaceId =>
    ⟨position, token, compileUnit, namespaceId⟩ :: openings
  | closeMethod => openings.tail
  | method _ | defineDocument .. | fill _ | store _ | replaceStore _ | write .. | writeToFile .. =>
    openings

def method? : WriterCall σ → Option MethodCall
  | method c => some c
  | openMethod .. | closeMethod | defineDocument .. | fill _ | store _ | replaceStore _ | write ..
  | writeToFile .. => none

/-- The methods that calls leave open, innermost first; a closing closes the innermost. -/
def openings (cs : List (WriterCall σ)) : List Opening :=
  cs.zipIdx.foldl (fun openings (c, i) => c.nest i openings) []

/-- Where the method was opened that is the innermost behind some calls. -/
def innermost? (cs : List (WriterCall σ)) : Option Nat := (openings cs).head?.map (·.position)

/-- The calls made while the innermost method was the one opened at a position. -/
def meantFor (position : Nat) (cs : List (WriterCall σ)) : List MethodCall :=
  cs.zipIdx.filterMap fun (c, i) =>
    if innermost? (cs.take i) = some position then c.method? else none

/-- The builder that stands alone and receives the calls meant for it and no others. -/
def standAlone (cs : List (WriterCall σ)) (o : Opening) : MethodBuilder :=
  o.builder.after (meantFor o.position cs)

variable (cs : List (WriterCall σ)) (c : WriterCall σ)

theorem openings_snoc : openings (cs ++ [c]) = c.nest cs.length (openings cs) := by
  simp only [openings, List.zipIdx_append, List.foldl_append, List.zipIdx_singleton,
    List.foldl_cons, List.foldl_nil, Nat.zero_add]

theorem meantFor_snoc (position : Nat) :
    meantFor position (cs ++ [c]) = meantFor position cs ++
      if innermost? cs = some position then c.method?.toList else [] := by
  -- What is innermost at a call depends on the calls before it only.
  have hearlier : cs.zipIdx.filterMap (fun (d, i) =>
      if innermost? ((cs ++ [c]).take i) = some position then d.method? else none) =
      meantFor position cs := by
    apply List.filterMap_congr
    rintro ⟨d, i⟩ hd
    have hi := List.snd_lt_of_mem_zipIdx hd
    simp only [List.take_append_of_le_length (Nat.le_of_lt hi)]
  rw [meantFor, List.zipIdx_append, List.filterMap_append, hearlier]
  congr 1
  simp only [List.zipIdx_singleton, Nat.zero_add, List.filterMap_cons, List.filterMap_nil,
    List.take_append_of_le_length (Nat.le_refl _), List.take_length]
  by_cases h : innermost? cs = some position
  · simp only [if_pos h]
    cases c.method? <;> rfl
  · simp only [if_neg h]

/-- Each method was opened before those inside it, and all were opened before now. -/
theorem pairwise_openings :
    (cs.length :: (openings cs).map (·.position)).Pairwise (· > ·) := by
  induction cs using List.reverseRecOn with
  | nil => exact List.pairwise_singleton _ _
  | append_singleton cs c ih =>
    obtain ⟨hlt, hnested⟩ := List.pairwise_cons.1 ih
    have hlater : ((cs.length + 1) :: (openings cs).map (·.position)).Pairwise (· > ·) :=
      List.pairwise_cons.2 ⟨fun i hi => Nat.lt_succ_of_lt (hlt i hi), hnested⟩
    rw [openings_snoc, List.length_append, List.length_singleton]
    cases c with
    | openMethod token compileUnit namespaceId =>
      refine List.pairwise_cons.2 ⟨fun i hi => ?_, ih⟩
      rcases List.mem_cons.1 hi with rfl | hi
      · exact Nat.lt_succ_self _
      · exact Nat.lt_succ_of_lt (hlt i hi)
    | closeMethod =>
      -- The methods outside keep their order.
      rw [nest, List.map_tail]
      exact hlater.sublist ((List.tail_sublist _).cons_cons _)
    | method | defineDocument | fill | store | replaceStore | write | writeToFile => exact hlater

variable {cs}

theorem position_lt_of_innermost? {position : Nat} (h : innermost? cs = some position) :
    position < cs.length := by
  obtain ⟨o, ho, rfl⟩ := Option.map_eq_some_iff.1 h
  exact (List.pairwise_cons.1 (pairwise_openings cs)).1 _
    (List.mem_map_of_mem (List.mem_of_mem_head? ho))

theorem meantFor_length : meantFor cs.length cs = [] := by
  rw [meantFor, List.filterMap_eq_nil_iff]
  rintro ⟨c, i⟩ hc
  -- A method that is open now was opened by an earlier call.
  refine if_neg fun h => ?_
  have hlt := position_lt_of_innermost? h
  have hi := List.snd_lt_of_mem_zipIdx hc
  rw [List.length_take] at hlt
  omega

theorem standAlone_snoc_of_method?_eq_none (hc : c.method? = none) (o : Opening) :
    standAlone (cs ++ [c]) o = standAlone cs o := by
  rw [standAlone, standAlone, meantFor_snoc, hc]
  simp only [Option.toList_none, ite_self, List.append_nil]

theorem standAlone_snoc_of_innermost {c : MethodCall} {o : Opening} {outer : List Opening}
    (h : openings cs = o :: outer) :
    standAlone (cs ++ [method c]) o = ((MethodBuilder.perform c).run (standAlone cs o)).2 := by
  have hinnermost : innermost? cs = some o.position := by rw [innermost?, h]; rfl
  rw [standAlone, standAlone, meantFor_snoc, if_pos hinnermost]
  exact MethodBuilder.after_snoc _ c

theorem standAlone_snoc_of_outer {c : WriterCall σ} {o p : Opening} {outer : List Opening}
    (h : openings cs = o :: outer) (hp : p ∈ outer) :
    standAlone (cs ++ [c]) p = standAlone cs p := by
  have hnested := (List.pairwise_cons.1 (pairwise_openings cs)).2
  rw [h, List.map_cons, List.pairwise_cons] at hnested
  -- An outer method has another position, so that the call is not meant for it.
  have hlt : o.position > p.position := hnested.1 _ (List.mem_map_of_mem hp)
  have hinnermost : innermost? cs ≠ some p.position := by
    rw [innermost?, h]
    simp only [List.head?_cons, Option.map_some, ne_eq, Option.some.injEq]
    omega
  rw [standAlone, standAlone, meantFor_snoc, if_neg hinnermost, List.append_nil]

end WriterCall

namespace Writer

open WriterCall (openings standAlone nest openings_snoc meantFor_length
  standAlone_snoc_of_method?_eq_none standAlone_snoc_of_innermost standAlone_snoc_of_outer)

variable {w : Writer}

theorem run_describeBy (c : MethodCall) :
    (describeBy c).run w = match w.methods with
      | [] => (.ok none, w)
      | m :: outer =>
        (((MethodBuilder.perform c).run m).1,
          { w with methods := ((MethodBuilder.perform c).run m).2 :: outer }) := by
  obtain ⟨store, methods⟩ := w
  cases methods with
  | nil => cases c <;> rfl
  | cons m outer =>
    cases c with
    | openBlock kind offset =>
      simp only [describeBy, openBlock, MethodBuilder.perform, Step.run_bind, Step.run_get,
        Step.run_lift]
      cases m.startBlock kind offset <;> rfl
    | closeBlock offset =>
      simp only [describeBy, closeBlock, MethodBuilder.perform, Step.run_bind, Step.run_get,
        Step.run_lift]
      cases m.endBlock offset <;> rfl
    | detail d => rfl

theorem methods_bind {x : Step Writer α} {f : α → Step Writer β}
    (hx : ∀ w, (x.run w).2.methods = w.methods)
    (hf : ∀ a w, ((f a).run w).2.methods = w.methods) :
    ((x >>= f).run w).2.methods = w.methods := by
  rw [← hx w, Step.run_bind]
  rcases x.run w with ⟨e | a, v⟩
  · rfl
  · exact hf a v

theorem methods_defineDocument (fileName : String) (checksum : List UInt8) :
    ((defineDocument fileName checksum).run w).2.methods = w.methods :=
  methods_bind (fun _ => rfl) fun _ _ => methods_bind (fun _ => rfl) fun _ _ => rfl

theorem methods_closeMethod : w.closeMethod.2.methods = w.methods.tail := by
  obtain ⟨store, methods⟩ := w
  cases methods <;> rfl

section Calls

variable [Sink σ]

theorem methods_writeInto (stream : σ) (guid : Guid) :
    (w.writeInto stream guid).2.2.methods = w.methods := by
  rw [writeInto]
  split <;> rfl

theorem methods_writeToFile (file : Except Error σ) (guid : Guid) :
    (w.writeToFile file guid).2.2.methods = w.methods := by
  cases file with
  | error e => rfl
  | ok stream =>
    refine Eq.trans ?_ (methods_writeInto stream guid)
    rw [writeToFile]
    rcases w.writeInto stream guid with ⟨e | _, stream, v⟩ <;> rfl

/-- The open methods are the builders that stand alone. -/
theorem methods_after (store : Store) (cs : List (WriterCall σ)) :
    (({ store := store } : Writer).after cs).methods = (openings cs).map (standAlone cs) := by
  -- From the last call on, since the calls before it tell for whom it is meant.
  induction cs using List.reverseRecOn with
  | nil => rfl
  | append_singleton cs c ih =>
    rw [after_snoc, openings_snoc]
    generalize ({ store := store } : Writer).after cs = w at ih ⊢
    -- A call that is not meant for a method leaves all builders alone.
    have hkept (hc : c.method? = none) (os : List Opening) :
        os.map (standAlone (cs ++ [c])) = os.map (standAlone cs) :=
      List.map_congr_left fun o _ => standAlone_snoc_of_method?_eq_none c hc o
    cases c with
    | openMethod token compileUnit namespaceId =>
      rw [nest, hkept rfl, List.map_cons, standAlone, meantFor_length, ← ih]
      rfl
    | closeMethod => rw [nest, hkept rfl, List.map_tail, ← ih, next, methods_closeMethod]
    | method c =>
      rw [next, run_describeBy, nest]
      cases hopen : openings cs with
      | nil =>
        rw [hopen] at ih
        simp only [ih, List.map_nil]
      | cons o outer =>
        rw [hopen, List.map_cons] at ih
        have houter : outer.map (standAlone (cs ++ [.method c])) = outer.map (standAlone cs) :=
          List.map_congr_left fun p hp => standAlone_snoc_of_outer hopen hp
        simp only [ih, List.map_cons, standAlone_snoc_of_innermost hopen, houter]
    | defineDocument fileName checksum =>
      exact (methods_defineDocument fileName checksum).trans (ih.trans (hkept rfl _).symm)
    | fill | store | replaceStore => exact ih.trans (hkept rfl _).symm
    | write stream guid => exact (methods_writeInto stream guid).trans (ih.trans (hkept rfl _).symm)
    | writeToFile file guid =>
      exact (methods_writeToFile file guid).trans (ih.trans (hkept rfl _).symm)

/-- A definition that cannot be added leaves the store as it was. -/
theorem defineBuilt_error {s : Store} {m : MethodBuilder} {e : Error}
    (h : (defineBuilt s m).1 = .error e) : (defineBuilt s m).2 = s := by
  -- The builder refuses before the store is asked; the store checks before it changes.
  rw [defineBuilt] at h ⊢
  cases hdefine : m.define with
  | error e => rfl
  | ok d =>
    rw [hdefine] at h
    cases s with
    | authoring a =>
      simp only [Store.change, Authoring.run_defineMethod] at h ⊢
      cases hrefused : a.refusedMethod? d with
      | some e => rfl
      | none =>
        rw [hrefused] at h
        cases h
    | sealed | bound => rfl

/-- Whatever was called before: each open method is the builder that stands alone; the innermost
takes the calls that describe a method, and without one these do nothing; a closing takes off the
innermost and hands its definition to the store, which a failure leaves as it was; and no store is
written or given away while a method is open. -/
theorem simulates_builders {w : Writer} (store : Store) (calls : List (WriterCall σ))
    (hw : ({ store := store } : Writer).after calls = w) :
    w.methods = (openings calls).map (standAlone calls) ∧
    (openings calls = [] →
      (∀ c, (describeBy c).run w = (.ok none, w)) ∧ w.closeMethod = (.ok (), w)) ∧
    ∀ o outer, openings calls = o :: outer →
      let m := standAlone calls o
      let builders := outer.map (standAlone calls)
      let isOpen := Error.unbalancedBlock (.methodOpen o.token)
      (∀ c, (describeBy c).run w = (((MethodBuilder.perform c).run m).1,
        { w with methods := ((MethodBuilder.perform c).run m).2 :: builders })) ∧
      (∀ d, m.define = .ok d → w.closeMethod =
        ((w.store.change (Authoring.defineMethod d)).1,
          ⟨(w.store.change (Authoring.defineMethod d)).2, builders⟩)) ∧
      (∀ e, m.define = .error e → w.closeMethod = (.error e, ⟨w.store, builders⟩)) ∧
      (∀ e, w.closeMethod.1 = .error e → w.closeMethod.2 = ⟨w.store, builders⟩) ∧
      (∀ (stream : σ) guid, w.writeInto stream guid = (.error isOpen, stream, w)) ∧
      (∀ (stream : σ) guid,
        w.writeToFile (.ok stream) guid = (.error isOpen, .ok stream, w)) ∧
      w.intoStore = .error isOpen := by
  have hmethods : w.methods = (openings calls).map (standAlone calls) :=
    hw ▸ methods_after store calls
  refine ⟨hmethods, fun hopen => ?_, fun o outer hopen => ?_⟩
  · rw [hopen, List.map_nil] at hmethods
    refine ⟨fun c => ?_, ?_⟩
    · rw [run_describeBy, hmethods]
    · rw [closeMethod, hmethods]
  intro m builders isOpen
  rw [hopen, List.map_cons] at hmethods
  have hmethods : w.methods = m :: builders := hmethods
  have hclose : w.closeMethod =
      ((defineBuilt w.store m).1, ⟨(defineBuilt w.store m).2, builders⟩) := by
    rw [closeMethod, hmethods]
  have hchecked : w.checkClosed = .error isOpen := by
    have htoken : m.token = o.token := MethodBuilder.token_after _
    simp only [checkClosed, hmethods, htoken, isOpen]
  refine ⟨fun c => ?_, fun d hd => ?_, fun e he => ?_, fun e he => ?_, fun stream guid => ?_,
    fun stream guid => ?_, ?_⟩
  · rw [run_describeBy, hmethods]
  · rw [hclose, defineBuilt, hd]
  · rw [hclose, defineBuilt, he]
  · rw [hclose] at he ⊢
    rw [defineBuilt_error he]
  · rw [writeInto, hchecked]
  · rw [writeToFile, writeInto, hchecked]
  · rw [intoStore, hchecked]
    rfl

end Calls

/-- A block that the outer method leaves open is no matter of the method inside it, which is
closed; the outer one cannot be closed then, and is taken off all the same. -/
theorem simulates_builders_block_left_open :
    let calls : List (WriterCall Output) := [
      .defineDocument "a.cs" [], .openMethod ⟨7⟩ 1 0, .method (.openBlock .lexical 0),
      .openMethod ⟨8⟩ 1 0, .method (.detail (.localVariable 0 "inner")), .closeMethod,
      .method (.detail (.localVariable 0 "outer"))]
    let w := ({ store := .new {} } : Writer).after calls
    openings calls = [⟨1, ⟨7⟩, 1, 0⟩] ∧
      WriterCall.meantFor 1 calls = [.openBlock .lexical 0, .detail (.localVariable 0 "outer")] ∧
      w.closeMethod = (.error (.unbalancedBlock (.blocksOpen ⟨7⟩ 1)), ⟨w.store, []⟩) := by
  intro calls w
  obtain ⟨-, -, hopen⟩ := simulates_builders (.new {}) calls rfl
  obtain ⟨-, -, hfails, -⟩ := hopen ⟨1, ⟨7⟩, 1, 0⟩ [] (by decide)
  exact ⟨by decide, by decide, hfails _ rfl⟩

end Writer

end DebugSymbols
