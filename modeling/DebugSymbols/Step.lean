import DebugSymbols.Error

namespace DebugSymbols

/-- Works on a state and may fail; a failure keeps what was done to the state before it. -/
abbrev Step (σ : Type) := ExceptT Error (StateM σ)

namespace Step

variable {s : σ}

theorem run_pure (a : α) : (pure a : Step σ α).run s = (.ok a, s) := rfl

theorem run_get : (get : Step σ σ).run s = (.ok s, s) := rfl

/-- What needs no state leaves it alone. -/
theorem run_lift (answer : Except Error α) : (liftM answer : Step σ α).run s = (answer, s) := rfl

theorem run_bind (x : Step σ α) (f : α → Step σ β) :
    (x >>= f).run s = match x.run s with
      | (.ok a, t) => (f a).run t
      | (.error e, t) => (.error e, t) := by
  change (match x.run s with
    | (r, t) => (ExceptT.bindCont f r : StateM σ (Except Error β)) t) = _
  rcases x.run s with ⟨_ | a, t⟩ <;> rfl

theorem run_bind_eq_ok {x : Step σ α} {f : α → Step σ β} {b : β} {u : σ} :
    (x >>= f).run s = (.ok b, u) ↔ ∃ a t, x.run s = (.ok a, t) ∧ (f a).run t = (.ok b, u) := by
  rw [run_bind]
  rcases x.run s with ⟨e | a, t⟩
  · exact ⟨by rintro ⟨⟩, by rintro ⟨_, _, ⟨⟩, _⟩⟩
  · exact ⟨fun h => ⟨a, t, rfl, h⟩, by rintro ⟨_, _, ⟨⟩, h⟩; exact h⟩

theorem run_map (g : α → β) (x : Step σ α) :
    (g <$> x).run s = (g <$> (x.run s).1, (x.run s).2) := by
  change (x >>= fun a => pure (g a)).run s = _
  rw [run_bind]
  rcases x.run s with ⟨_ | a, t⟩ <;> rfl

end Step

end DebugSymbols
