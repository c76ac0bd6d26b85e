import DebugSymbols.LineProgram.Table
import Mathlib.Data.List.Basic
import Mathlib.Data.List.TakeWhile

namespace DebugSymbols

theorem getLast?_filter_eq_some_iff_append {P : α → Bool} {as : List α} {a : α} :
    (as.filter P).getLast? = some a ↔
      ∃ front back, as = front ++ a :: back ∧ P a = true ∧ ∀ b ∈ back, P b = false := by
  rw [List.getLast?_filter, List.find?_eq_some_iff_append]
  constructor
  · rintro ⟨hP, back, front, has, hback⟩
    refine ⟨front.reverse, back.reverse, ?_, hP, fun b hb => ?_⟩
    · rw [← List.reverse_reverse as, has]
      simp
    · simpa using hback b (List.mem_reverse.1 hb)
  · rintro ⟨front, back, rfl, hP, hback⟩
    refine ⟨hP, back.reverse, front.reverse, by simp, fun b hb => ?_⟩
    simpa using hback b (List.mem_reverse.1 hb)

theorem getLast?_filter_eq_some_iff {P : α → Bool} {as : List α} {a : α} :
    (as.filter P).getLast? = some a ↔
      ∃ i, as[i]? = some a ∧ P a = true ∧ ∀ b ∈ as.drop (i + 1), P b = false := by
  rw [getLast?_filter_eq_some_iff_append]
  constructor
  · rintro ⟨front, back, rfl, hP, hback⟩
    refine ⟨front.length, by simp, hP, ?_⟩
    rwa [List.drop_length_add_append, List.drop_one, List.tail_cons]
  · rintro ⟨i, hi, hP, hback⟩
    obtain ⟨hlt, rfl⟩ := List.getElem?_eq_some_iff.1 hi
    refine ⟨as.take i, as.drop (i + 1), ?_, hP, hback⟩
    rw [← List.drop_eq_getElem_cons hlt, List.take_append_drop]

namespace LineTable

/-- No entry begins before one that stands ahead of it. -/
def Ordered (t : LineTable) : Prop := t.entries.Pairwise fun e f => e.offset ≤ f.offset

/-- The entry `e` at place `i` is the last one in the table that is visible and begins at or before
an offset. -/
structure InForce (t : LineTable) (offset : UInt32) (i : Nat) (e : LineEntry) : Prop where
  place : t.entries[i]? = some e
  visible : e.hidden = false
  begun : e.offset ≤ offset
  latest : ∀ f ∈ t.entries.drop (i + 1), f.hidden = false → offset < f.offset

variable {t : LineTable}

theorem ordered_iff_isChain : t.Ordered ↔ (t.entries.map (·.offset.toNat)).IsChain (· ≤ ·) := by
  rw [List.isChain_iff_pairwise, List.pairwise_map]
  rfl

/-- In an ordered table nothing that has begun stands behind the first entry that has not. -/
theorem Ordered.takeWhile_eq_filter (h : t.Ordered) (offset : UInt32) :
    (t.entries.takeWhile fun e => e.offset ≤ offset) =
      t.entries.filter fun e => e.offset ≤ offset := by
  unfold Ordered at h
  generalize t.entries = es at h ⊢
  induction es with
  | nil => rfl
  | cons e es ih =>
    obtain ⟨hfirst, hrest⟩ := List.pairwise_cons.1 h
    by_cases hbegun : e.offset ≤ offset
    · rw [List.takeWhile_cons_of_pos (by simpa using hbegun),
        List.filter_cons_of_pos (by simpa using hbegun), ih hrest]
    · rw [List.takeWhile_cons_of_neg (by simpa using hbegun),
        List.filter_cons_of_neg (by simpa using hbegun), eq_comm, List.filter_eq_nil_iff]
      intro f hf hle
      exact hbegun (UInt32.le_trans (hfirst f hf) (of_decide_eq_true hle))

theorem Ordered.find?_eq (h : t.Ordered) (offset : UInt32) :
    t.find? offset =
      (t.entries.filter fun e => !e.hidden && decide (e.offset ≤ offset)).getLast? := by
  rw [find?, h.takeWhile_eq_filter, List.filter_filter]

theorem Ordered.find?_eq_some_iff (h : t.Ordered) {offset : UInt32} {e : LineEntry} :
    t.find? offset = some e ↔ ∃ i, t.InForce offset i e := by
  rw [h.find?_eq, getLast?_filter_eq_some_iff]
  refine exists_congr fun i => ⟨?_, ?_⟩
  · rintro ⟨hplace, hP, hback⟩
    rw [Bool.and_eq_true, Bool.not_eq_true', decide_eq_true_eq] at hP
    refine ⟨hplace, hP.1, hP.2, fun f hf hvisible => ?_⟩
    have := hback f hf
    rw [hvisible] at this
    simpa using this
  · intro hforce
    refine ⟨hforce.place, by simp [hforce.visible, hforce.begun], fun f hf => ?_⟩
    rw [Bool.and_eq_false_iff, Bool.not_eq_false', decide_eq_false_iff_not, UInt32.not_le]
    exact (Bool.eq_false_or_eq_true f.hidden).imp id (hforce.latest f hf)

theorem Ordered.find?_eq_none_iff (h : t.Ordered) {offset : UInt32} :
    t.find? offset = none ↔ ∀ e ∈ t.entries, e.hidden = false → offset < e.offset := by
  rw [h.find?_eq, List.getLast?_eq_none_iff, List.filter_eq_nil_iff]
  refine forall₂_congr fun e _ => ?_
  rw [Bool.and_eq_true, Bool.not_eq_true', decide_eq_true_eq, not_and, UInt32.not_le]

theorem Ordered.exists_inForce_of_le (h : t.Ordered) {offset offset' : UInt32} {i : Nat}
    {e : LineEntry} (hle : offset ≤ offset') (hforce : t.InForce offset i e) :
    ∃ j f, t.InForce offset' j f ∧ i ≤ j ∧ e.offset ≤ f.offset := by
  have hbegun := UInt32.le_trans hforce.begun hle
  cases hfind : t.find? offset' with
  | none =>
    have hlt := h.find?_eq_none_iff.1 hfind e (List.mem_of_getElem? hforce.place) hforce.visible
    exact absurd hlt (UInt32.not_lt.2 hbegun)
  | some f =>
    obtain ⟨j, hforce'⟩ := h.find?_eq_some_iff.1 hfind
    have hij : i ≤ j := by
      by_contra hji
      -- Else `e` would stand behind the last visible entry that has begun.
      have hmem : e ∈ t.entries.drop (j + 1) := by
        refine List.mem_of_getElem? (i := i - (j + 1)) ?_
        rw [List.getElem?_drop, Nat.add_sub_cancel' (by omega), hforce.place]
      exact absurd (hforce'.latest e hmem hforce.visible) (UInt32.not_lt.2 hbegun)
    obtain ⟨hi, rfl⟩ := List.getElem?_eq_some_iff.1 hforce.place
    obtain ⟨hj, rfl⟩ := List.getElem?_eq_some_iff.1 hforce'.place
    refine ⟨j, _, hforce', hij, ?_⟩
    rcases Nat.eq_or_lt_of_le hij with rfl | hlt
    · exact UInt32.le_refl _
    · exact List.pairwise_iff_getElem.1 h i j hi hj hlt

end LineTable

end DebugSymbols
