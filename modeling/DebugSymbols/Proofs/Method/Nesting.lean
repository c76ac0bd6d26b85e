import DebugSymbols.Proofs.Method.Calls

namespace DebugSymbols.MethodBuilder

inductive Bracket where
  | opening (index : UInt32)
  | closing (offset : UInt32)
  | neither

/-- Calls that fail open and close nothing. -/
def Event.bracket : Event → Bracket
  | ⟨.method (.openBlock ..), .ok (some index)⟩ => .opening index
  | ⟨.method (.closeBlock offset), .ok _⟩ => .closing offset
  | _ => .neither

/-- The offset at which events close the block that has `depth` open ones inside it when they
begin. -/
def closedAt? : List Event → Nat → Option UInt32
  | [], _ => none
  | e :: es, depth =>
    match e.bracket, depth with
    | .opening _, depth => closedAt? es (depth + 1)
    | .closing offset, 0 => some offset
    | .closing _, depth + 1 => closedAt? es depth
    | .neither, depth => closedAt? es depth

/-- The blocks that events open and do not close, innermost first. -/
def openAfter : List Event → List UInt32
  | [] => []
  | e :: es =>
    match e.bracket, closedAt? es 0 with
    | .opening index, none => openAfter es ++ [index]
    | _, _ => openAfter es

/-- Events that close what they open, and nothing else. -/
inductive Balanced : List Event → Prop
  | nil : Balanced []
  | neither {e : Event} {es : List Event} (he : e.bracket = .neither) (rest : Balanced es) :
    Balanced (e :: es)
  | nest {e e' : Event} {inner es : List Event} {index offset : UInt32}
    (opening : e.bracket = .opening index) (within : Balanced inner)
    (closing : e'.bracket = .closing offset) (rest : Balanced es) :
    Balanced (e :: (inner ++ e' :: es))

section Matching

variable {e : Event} {es : List Event} {index offset : UInt32}

theorem closedAt?_opening (h : e.bracket = .opening index) :
    closedAt? (e :: es) = fun depth => closedAt? es (depth + 1) := by
  funext depth
  simp only [closedAt?, h]

theorem closedAt?_closing (h : e.bracket = .closing offset) :
    closedAt? (e :: es) 0 = some offset ∧
      (fun depth => closedAt? (e :: es) (depth + 1)) = closedAt? es := by
  constructor
  · simp only [closedAt?, h]
  · funext depth
    simp only [closedAt?, h]

theorem closedAt?_neither (h : e.bracket = .neither) : closedAt? (e :: es) = closedAt? es := by
  funext depth
  simp only [closedAt?, h]

theorem closedAt?_balanced {inner : List Event} (h : Balanced inner) :
    closedAt? (inner ++ es) = closedAt? es := by
  induction h generalizing es with
  | nil => rfl
  | neither he _ ih => exact (closedAt?_neither he).trans ih
  | nest opening _ closing _ within rest =>
    rw [List.cons_append, closedAt?_opening opening, List.append_assoc, within, List.cons_append,
      (closedAt?_closing closing).2, rest]

/-- The first closing that does not match an opening among the events themselves: what stands before
it is balanced, and the blocks around the one that it closes are left to what follows. -/
theorem exists_closing (es : List Event) {depth : Nat} {offset : UInt32}
    (h : closedAt? es depth = some offset) :
    ∃ inner e rest closing, es = inner ++ e :: rest ∧ Balanced inner ∧
      e.bracket = .closing closing ∧
      match depth with
      | 0 => closing = offset
      | depth + 1 => closedAt? rest depth = some offset := by
  match es with
  | [] => cases h
  | e :: es =>
    cases hbracket : e.bracket with
    | neither =>
      rw [closedAt?_neither hbracket] at h
      obtain ⟨inner, e', rest, closing, rfl, hinner, hclosing, hdepth⟩ := exists_closing es h
      exact ⟨e :: inner, e', rest, closing, rfl, .neither hbracket hinner, hclosing, hdepth⟩
    | closing closing =>
      refine ⟨[], e, es, closing, rfl, .nil, hbracket, ?_⟩
      cases depth with
      | zero =>
        rw [(closedAt?_closing hbracket).1] at h
        exact Option.some.inj h
      | succ depth =>
        dsimp only
        rw [← (closedAt?_closing hbracket).2]
        exact h
    | opening index =>
      rw [closedAt?_opening hbracket] at h
      -- The end of the block that is opened here, and behind it the one that is looked for.
      obtain ⟨within, e', behind, _, hes, hwithin, hend, h⟩ := exists_closing es h
      have hshorter : behind.length < es.length := by
        rw [hes, List.length_append, List.length_cons]
        omega
      obtain ⟨inner, e'', rest, closing, rfl, hinner, hclosing, hdepth⟩ := exists_closing behind h
      subst hes
      refine ⟨e :: (within ++ e' :: inner), e'', rest, closing, ?_,
        .nest hbracket hwithin hend hinner, hclosing, hdepth⟩
      simp only [List.cons_append, List.append_assoc]
termination_by es.length
decreasing_by all_goals (rw [List.length_cons]; omega)

/-- A block is closed by the event that matches its opening as brackets match. -/
theorem closedAt?_zero_iff : closedAt? es 0 = some offset ↔
    ∃ inner e rest, es = inner ++ e :: rest ∧ Balanced inner ∧ e.bracket = .closing offset := by
  constructor
  · intro h
    obtain ⟨inner, e, rest, closing, hes, hinner, hclosing, rfl⟩ := exists_closing es h
    exact ⟨inner, e, rest, hes, hinner, hclosing⟩
  · rintro ⟨inner, e, rest, rfl, hinner, hclosing⟩
    rw [closedAt?_balanced hinner]
    exact (closedAt?_closing hclosing).1

theorem openAfter_opening (h : e.bracket = .opening index) :
    openAfter (e :: es) = openAfter es ++ if closedAt? es 0 = none then [index] else [] := by
  rw [openAfter, h]
  cases closedAt? es 0 <;> simp

theorem openAfter_closing (h : e.bracket = .closing offset) :
    openAfter (e :: es) = openAfter es := by
  simp only [openAfter, h]

theorem openAfter_neither (h : e.bracket = .neither) : openAfter (e :: es) = openAfter es := by
  simp only [openAfter, h]

/-- Those of nested blocks that stay open, if `closed` says by their depth where they are closed. -/
def stillOpen (closed : Nat → Option UInt32) : List UInt32 → List UInt32
  | [] => []
  | i :: outer =>
    (if closed 0 = none then [i] else []) ++ stillOpen (fun depth => closed (depth + 1)) outer

theorem stillOpen_none (is : List UInt32) : stillOpen (fun _ => none) is = is := by
  induction is with
  | nil => rfl
  | cons i outer ih =>
    rw [stillOpen, ih]
    rfl

end Matching

end DebugSymbols.MethodBuilder
