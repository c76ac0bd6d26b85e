import DebugSymbols.Proofs.Store.ReadParts
import DebugSymbols.Store.Bindings

namespace DebugSymbols

/-- A binding of the file `f`, from which all that was read agrees with it. -/
def Binding.Of (f : SymbolFile) : Binding → Prop
  | live b => b.Coherent ∧ b.file = f
  | dropped methods => ∀ t, methods = some t → t.Coherent f

/-- From `b` to `b'` the parts `new` of methods of the file `f` were read, and nothing was lost. -/
structure Binding.Grows (f : SymbolFile) (new : UInt32 → MethodPart → Prop) (b b' : Binding) :
    Prop where
  of : b'.Of f
  reads : ReadsParts new b.methods? b'.methods?

namespace Binding

variable {f : SymbolFile} {b : Binding} {t : MethodTable} {m : Method} {index : UInt32}

theorem Of.coherent (h : b.Of f) (ht : b.methods? = some t) : t.Coherent f := by
  cases b with
  | live bound => exact h.2 ▸ h.1.methods t ht
  | dropped methods => exact h t ht

theorem grows_drop (h : b.Of f) : Grows f (fun _ _ => False) b b.drop := by
  cases b with
  | live bound => exact ⟨fun t ht => h.2 ▸ h.1.methods t ht, .refl bound.methods⟩
  | dropped methods => exact ⟨h, .refl methods⟩

theorem grows_extends {bound bound' : Bound} {new : UInt32 → MethodPart → Prop}
    (h : (live bound).Of f) (hext : bound.Extends bound')
    (hreads : ReadsParts new bound.methods bound'.methods) :
    Grows f new (live bound) (live bound') :=
  ⟨⟨hext.coherent, hext.file_eq.trans h.2⟩, hreads⟩

theorem part_unloaded (h : b.methods? = none) (index : UInt32) (part : MethodPart) :
    b.part index part = (.error .notBound, b) := by
  unfold Binding.part
  rw [h]

theorem part_live {bound : Bound} (h : bound.methods.isSome) (index : UInt32) (part : MethodPart) :
    (live bound).part index part = (((Bound.part index part).run bound).1,
      live ((Bound.part index part).run bound).2) := by
  obtain ⟨t, ht⟩ := Option.isSome_iff_exists.1 h
  unfold Binding.part
  rw [show (live bound).methods? = some t from ht]
  rfl

theorem part_dropped (hm : t.at? index = some m) (part : MethodPart) :
    (dropped (some t)).part index part =
      ((m.part? part).elim (.error .notBound) .ok, dropped (some t)) := by
  simp only [Binding.part, methods?, MethodTable.getPart, hm, Method.getPart]
  cases m.part? part <;> rfl

theorem part_dropped_snd (methods : Option MethodTable) (index : UInt32) (part : MethodPart) :
    ((dropped methods).part index part).2 = dropped methods := by
  cases methods <;> rfl

/-- A read of a kept method adds the part if it succeeds. -/
theorem grows_part (h : b.Of f) (index : UInt32) (part : MethodPart) :
    Grows f (fun i p => (b.part index part).1.isOk ∧ i = index ∧ p = part) b
      (b.part index part).2 := by
  by_cases hmethods : b.methods? = none
  · rw [part_unloaded hmethods]
    refine ⟨h, (ReadsParts.refl _).congr ?_⟩
    intro i p
    simp [Except.isOk, Except.toBool]
  obtain ⟨t, ht⟩ := Option.ne_none_iff_exists'.1 hmethods
  cases b with
  | live bound =>
    rw [part_live (Option.isSome_iff_exists.2 ⟨t, ht⟩)]
    exact grows_extends h (Bound.answers_part index part bound h.1).2
      (Bound.readsParts_part bound index part)
  | dropped methods =>
    rw [part_dropped_snd]
    refine ⟨h, ⟨id, ?_⟩⟩
    intro read hread
    rw [ht] at hread ⊢
    intro i m hm p
    rw [hread i m hm p]
    constructor
    · rintro (hp | hp)
      · exact .inl (.inl hp)
      · exact .inr hp
    · -- Only what was there before can still be read.
      rintro ((hp | ⟨hok, rfl, rfl⟩) | hp)
      · exact .inl hp
      · rw [show methods = some t from ht, part_dropped hm] at hok
        rw [← hread i m hm p]
        cases hpart : m.part? p with
        | some v => rfl
        | none =>
          rw [hpart] at hok
          cases hok
      · exact .inr hp

end Binding

namespace Bindings

variable {bs : Bindings} {n : Nat}

theorem lookup_live {bound : Bound} (h : bs.all[n]? = some (.live bound)) (l : Lookup α) :
    bs.lookup n l =
      ((l.run bound).1, ⟨bs.all.setIfInBounds n (.live (l.run bound).2)⟩) := by
  unfold lookup
  rw [h]
  rfl

theorem lookup_not_live (h : ∀ bound, bs.all[n]? ≠ some (.live bound)) (l : Lookup α) :
    bs.lookup n l = (.error .notBound, bs) := by
  unfold lookup
  rcases hb : bs.all[n]? with _ | (bound | methods)
  · rfl
  · exact absurd hb (h bound)
  · rfl

theorem part_of_getElem? {m : KeptMethod} {b : Binding} (h : bs.all[m.binding]? = some b)
    (part : MethodPart) :
    bs.part m part = ((b.part m.index part).1,
      ⟨bs.all.setIfInBounds m.binding (b.part m.index part).2⟩) := by
  unfold Bindings.part
  rw [h]

theorem getElem?_drop (bs : Bindings) (n k : Nat) :
    (bs.drop n).all[k]? = if n = k then bs.all[k]?.map Binding.drop else bs.all[k]? :=
  Array.getElem?_modify

theorem drop_of_getElem? {b : Binding} (h : bs.all[n]? = some b) :
    bs.drop n = ⟨bs.all.setIfInBounds n b.drop⟩ := by
  refine congrArg Bindings.mk (Array.ext_getElem? fun k => ?_)
  have hk := bs.getElem?_drop n k
  rw [Array.getElem?_setIfInBounds]
  by_cases heq : n = k
  · subst heq
    rw [if_pos rfl, h] at hk
    rw [if_pos rfl, if_pos (Array.getElem?_eq_some_iff.1 h).1]
    exact hk
  · rw [if_neg heq] at hk ⊢
    exact hk

theorem drop_of_none (h : bs.all[n]? = none) : bs.drop n = bs := by
  refine congrArg Bindings.mk (Array.ext_getElem? fun k => ?_)
  have hk := bs.getElem?_drop n k
  by_cases heq : n = k
  · subst heq
    rw [if_pos rfl, h] at hk
    rw [h]
    exact hk
  · rwa [if_neg heq] at hk

variable {methods : Option MethodTable}

theorem lookup_dropped (h : bs.all[n]? = some (.dropped methods)) (k : Nat) (l : Lookup α) :
    (bs.lookup k l).2.all[n]? = some (.dropped methods) := by
  by_cases hlive : ∃ bound, bs.all[k]? = some (.live bound)
  · obtain ⟨bound, hk⟩ := hlive
    have hne : k ≠ n := by
      rintro rfl
      rw [h] at hk
      cases hk
    rw [lookup_live hk, Array.getElem?_setIfInBounds, if_neg hne, h]
  · rw [lookup_not_live fun bound hk => hlive ⟨bound, hk⟩]
    exact h

theorem part_dropped (h : bs.all[n]? = some (.dropped methods)) (m : KeptMethod)
    (part : MethodPart) : (bs.part m part).2.all[n]? = some (.dropped methods) := by
  cases hb : bs.all[m.binding]? with
  | none =>
    unfold Bindings.part
    rw [hb]
    exact h
  | some b =>
    rw [part_of_getElem? hb, Array.getElem?_setIfInBounds]
    by_cases heq : m.binding = n
    · rw [heq, h] at hb
      cases hb
      rw [if_pos heq, if_pos (heq ▸ (Array.getElem?_eq_some_iff.1 h).1), Binding.part_dropped_snd]
    · rw [if_neg heq, h]

end Bindings

end DebugSymbols
