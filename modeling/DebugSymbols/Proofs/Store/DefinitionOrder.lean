import DebugSymbols.Proofs.Store.SealedLayout

namespace DebugSymbols

namespace AuthoringCall

def definition? : AuthoringCall → Option MethodDefinition
  | defineMethod d => some d
  | addSource _ | addUnit _ | addInclude .. | defineNamespace .. | nextType | nextMethod
  | nextNamespace | defineScope _ | captureLocal .. | captureParameter .. | captureThis ..
  | captureScope .. => none

def definitions (cs : List AuthoringCall) : List MethodDefinition := cs.filterMap definition?

def others (cs : List AuthoringCall) : List AuthoringCall := cs.filter fun c => c.definition?.isNone

theorem definitions_append (cs ds : List AuthoringCall) :
    definitions (cs ++ ds) = definitions cs ++ definitions ds :=
  List.filterMap_append

theorem others_append (cs ds : List AuthoringCall) : others (cs ++ ds) = others cs ++ others ds :=
  List.filter_append cs ds

end AuthoringCall

open AuthoringCall (definitions others)

namespace Authoring

def withoutMethods (a : Authoring) : Authoring := { a with methods := #[], tokens := ∅ }

/-- `b` holds what `a` held and what the calls `cs` add to it, the methods in any order. -/
structure FilledBy (a : Authoring) (cs : List AuthoringCall) (b : Authoring) : Prop where
  others : b.withoutMethods = (others cs).foldl after a.withoutMethods
  methods : b.methods.toList.Perm (a.methods.toList ++ definitions cs)

variable {a b c : Authoring}

theorem withoutMethods_modifyScope (a : Authoring) (id : UInt32)
    (f : AnonymousScope → AnonymousScope) :
    (a.modifyScope id f).withoutMethods = a.withoutMethods.modifyScope id f := by
  unfold modifyScope withoutMethods
  dsimp only
  split <;> rfl

theorem methods_modifyScope (a : Authoring) (id : UInt32) (f : AnonymousScope → AnonymousScope) :
    (a.modifyScope id f).methods = a.methods := by
  unfold modifyScope
  split <;> rfl

namespace FilledBy

theorem refl (a : Authoring) : a.FilledBy [] a where
  others := rfl
  methods := by simp [definitions]

theorem trans {cs ds : List AuthoringCall} (h : a.FilledBy cs b) (h' : b.FilledBy ds c) :
    a.FilledBy (cs ++ ds) c where
  others := by rw [AuthoringCall.others_append, List.foldl_append, ← h.others, h'.others]
  methods := by
    rw [AuthoringCall.definitions_append, ← List.append_assoc]
    exact h'.methods.trans (h.methods.append_right _)

theorem sorted (a : Authoring) : a.FilledBy [] a.sorted where
  others := rfl
  methods := by
    show a.sortedMethods.Perm (a.methods.toList ++ [])
    rw [List.append_nil]
    exact a.sortedMethods_perm

/-- A call either defines a method, and touches nothing else, or touches no method. -/
theorem after (a : Authoring) (call : AuthoringCall) : a.FilledBy [call] (a.after call) := by
  cases call with
  | defineMethod d =>
    refine ⟨rfl, ?_⟩
    show (a.methods.push d).toList.Perm (a.methods.toList ++ [d])
    rw [Array.toList_push]
  | captureLocal scope name capturedName | captureParameter scope name capturedName
  | captureThis scope capturedName | captureScope scope captured capturedName =>
    refine ⟨withoutMethods_modifyScope a scope _, ?_⟩
    show (a.modifyScope scope _).methods.toList.Perm (a.methods.toList ++ [])
    rw [methods_modifyScope, List.append_nil]
  | addSource | addUnit | addInclude | defineNamespace | nextType | nextMethod | nextNamespace
  | defineScope =>
    refine ⟨rfl, ?_⟩
    show a.methods.toList.Perm (a.methods.toList ++ [])
    rw [List.append_nil]

end FilledBy

/-- A file is written from the contents in file order, and without looking at the set of tokens. -/
theorem writeFile_sorted [Sink σ] (ha : a.WellFormed) (hb : b.WellFormed)
    (hothers : a.withoutMethods = b.withoutMethods)
    (hmethods : a.methods.toList.Perm b.methods.toList) (guid : Guid) :
    (a.sorted.writeFile guid : Writing σ Header) = b.sorted.writeFile guid := by
  -- The sorted contents are the same but for how the set of tokens was built up.
  have hsorted : a.sorted = { b.sorted with tokens := a.tokens } := by
    have hothers' : a.withoutMethods.reordered a.sortedMethods.toArray =
        b.withoutMethods.reordered a.sortedMethods.toArray := by rw [hothers]
    have htokens := congrArg (fun x : Authoring => { x with tokens := a.tokens }) hothers'
    rw [sortedMethods_eq_of_perm ha hb hmethods] at htokens
    rw [sorted, sortedMethods_eq_of_perm ha hb hmethods]
    exact htokens
  rw [hsorted]
  rfl

end Authoring

namespace Store

variable [Sink σ]

/-- The call by which a store is filled, unless it fails. -/
def filling? (s : Store) : StoreCall σ → Option AuthoringCall
  | .fill c => if (s.call c).1.isOk then some c else none
  | .sealOver .. | .ask _ | .guid | .header | .appearance => none

/-- The calls of a run that filled the store, in their order. -/
def fillings : Store → List (StoreCall σ) → List AuthoringCall
  | _, [] => []
  | s, c :: cs => (s.filling? c).toList ++ fillings (s.perform c).2 cs

theorem fillings_append (s : Store) (calls calls' : List (StoreCall σ)) :
    s.fillings (calls ++ calls') = s.fillings calls ++ (s.after calls).fillings calls' := by
  induction calls generalizing s with
  | nil => rfl
  | cons c calls ih =>
    rw [List.cons_append, fillings, fillings, ih, List.append_assoc]
    rfl

variable {a b : Authoring}

/-- One call: it seals the store, or fills it if it succeeds in that. -/
theorem filledBy_perform (a : Authoring) (c : StoreCall σ) :
    (∃ header, ((authoring a).perform c).2 = .sealed header) ∨
      ∃ b, ((authoring a).perform c).2 = authoring b ∧
        a.FilledBy ((authoring a).filling? c).toList b := by
  cases c with
  | fill call =>
    right
    rw [perform, filling?, call_authoring]
    cases a.refusal? call with
    | some e => exact ⟨a, rfl, .refl a⟩
    | none => exact ⟨a.after call, rfl, .after a call⟩
  | sealOver stream guid =>
    rw [perform, sealOver]
    rcases (a.sorted.writeFile guid).run stream with ⟨e | header, stream⟩
    · exact .inr ⟨a.sorted, rfl, .sorted a⟩
    · exact .inl ⟨header, rfl⟩
  | ask | guid | header | appearance => exact .inr ⟨a, rfl, .refl a⟩

/-- A run that does not seal its store fills it by those of its calls that succeed in that. -/
theorem filledBy_after (calls : List (StoreCall σ))
    (h : (authoring a).after calls = authoring b) :
    a.FilledBy ((authoring a).fillings calls) b := by
  induction calls generalizing a with
  | nil =>
    cases h
    exact .refl b
  | cons c calls ih =>
    change ((authoring a).perform c).2.after calls = authoring b at h
    rw [fillings]
    obtain ⟨header, hsealed⟩ | ⟨a', ha', hfilled⟩ := filledBy_perform a c
    · rw [hsealed, after_sealed] at h
      cases h
    · rw [ha'] at h ⊢
      exact hfilled.trans (ih h)

/-- Two new stores are filled by runs of calls, some of which may fail.  If the calls that succeed
are the same, but for the order of the methods and their places among the other calls, then sealing
writes the same bytes and gives the same answer over every stream; and it succeeds in memory as long
as the file fits. -/
theorem file_independent_of_definition_order (options : StoreOptions)
    (calls calls' : List (StoreCall σ))
    (ha : (Store.new options).after calls = authoring a)
    (hb : (Store.new options).after calls' = authoring b)
    (hothers : others ((Store.new options).fillings calls) =
      others ((Store.new options).fillings calls'))
    (hdefinitions : (definitions ((Store.new options).fillings calls)).Perm
      (definitions ((Store.new options).fillings calls'))) (guid : Guid) :
    (∀ (τ : Type) [Sink τ] (stream : τ),
      ((authoring a).perform (.sealOver stream guid)).1 =
        ((authoring b).perform (.sealOver stream guid)).1) ∧
    ((authoring a).fileSize guid < 2 ^ 32 → ∀ o : Output, ∃ file header,
      (authoring a).sealOver o guid = (.ok (), file, sealed header) ∧
      (authoring b).sealOver o guid = (.ok (), file, sealed header)) := by
  have hfilled : Authoring.FilledBy { options := options } ((Store.new options).fillings calls) a :=
    filledBy_after calls ha
  have hfilled' :
      Authoring.FilledBy { options := options } ((Store.new options).fillings calls') b :=
    filledBy_after calls' hb
  have hsound : (authoring a).Sound := ha ▸ (Initial.new options).sound.after calls
  have hsound' : (authoring b).Sound := hb ▸ (Initial.new options).sound.after calls'
  have hmethods : a.methods.toList.Perm b.methods.toList :=
    hfilled.methods.trans ((hdefinitions.append_left _).trans hfilled'.methods.symm)
  have hwithout : a.withoutMethods = b.withoutMethods := by
    rw [hfilled.others, hfilled'.others, hothers]
  have hwrite (τ : Type) [Sink τ] : (a.sorted.writeFile guid : Writing τ Header) =
      b.sorted.writeFile guid :=
    Authoring.writeFile_sorted hsound hsound' hwithout hmethods guid
  constructor
  · intro τ _ stream
    rw [perform, perform, sealOver, sealOver, hwrite]
    rcases (b.sorted.writeFile guid).run stream with ⟨e | header, stream⟩ <;> rfl
  · intro hsize o
    obtain ⟨i, hi, h⟩ := exists_sealsTo ha hsize
    refine ⟨_, i.header, sealOver_of_lt h hi o, ?_⟩
    rw [sealOver, ← hwrite, Authoring.run_writeFile h hi]

/-- One run defines its methods early and by descending tokens, the other one late and by ascending
tokens, after a definition that fails. -/
theorem file_independent_of_definition_order_two_methods :
    let early : List (StoreCall LimitedOutput) := [
      .fill (.addSource { index := 0, fileName := "a.cs", checksum := [] }), .fill (.addUnit 1),
      .fill (.defineMethod { token := ⟨7⟩, compileUnit := 1, realName := some "" }),
      .fill (.defineMethod { token := ⟨3⟩, compileUnit := 1 }), .fill .nextType,
      .fill (.defineScope 5)]
    let late : List (StoreCall LimitedOutput) := [
      .fill (.addSource { index := 0, fileName := "a.cs", checksum := [] }), .fill (.addUnit 1),
      .fill .nextType, .fill (.defineScope 5),
      .fill (.defineMethod { token := ⟨3⟩, compileUnit := 2 }),
      .fill (.defineMethod { token := ⟨3⟩, compileUnit := 1 }), .sealOver { limit := 20 } .zero,
      .fill (.defineMethod { token := ⟨7⟩, compileUnit := 1, realName := some "" })]
    ∃ a b, (Store.new {}).after early = authoring a ∧ (Store.new {}).after late = authoring b ∧
      a.methods.toList.map (·.token) = [⟨7⟩, ⟨3⟩] ∧ b.methods.toList.map (·.token) = [⟨3⟩, ⟨7⟩] ∧
      ((authoring a).perform (.sealOver ({} : Output) .zero)).1 =
        ((authoring b).perform (.sealOver ({} : Output) .zero)).1 := by
  intro early late
  have hearly : ((Store.new {}).after early).contents?.map
      (fun a => a.methods.toList.map (·.token)) = some [⟨7⟩, ⟨3⟩] := by decide +kernel
  have hlate : ((Store.new {}).after late).contents?.map
      (fun a => a.methods.toList.map (·.token)) = some [⟨3⟩, ⟨7⟩] := by decide +kernel
  have hothers : others ((Store.new {}).fillings early) =
      others ((Store.new {}).fillings late) := by decide +kernel
  have hdefinitions : definitions ((Store.new {}).fillings early) =
      (definitions ((Store.new {}).fillings late)).reverse := by decide +kernel
  obtain ⟨a, ha, htokens⟩ := Option.map_eq_some_iff.1 hearly
  obtain ⟨b, hb, htokens'⟩ := Option.map_eq_some_iff.1 hlate
  have hperm : (definitions ((Store.new {}).fillings early)).Perm
      (definitions ((Store.new {}).fillings late)) := by
    rw [hdefinitions]
    exact List.reverse_perm _
  refine ⟨a, b, contents?_eq_some.1 ha, contents?_eq_some.1 hb, htokens, htokens', ?_⟩
  exact (file_independent_of_definition_order {} early late (contents?_eq_some.1 ha)
    (contents?_eq_some.1 hb) hothers hperm .zero).1 Output {}

end Store

end DebugSymbols
