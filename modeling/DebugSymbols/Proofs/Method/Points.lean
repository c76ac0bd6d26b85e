import DebugSymbols.Proofs.Definition
import DebugSymbols.Proofs.Method.Blocks
import Mathlib.Data.Int.ConditionallyCompleteOrder
import Mathlib.Data.List.MinMax
import Mathlib.Data.List.SplitBy
import Mathlib.Data.Prod.Lex
import Mathlib.Order.ConditionallyCompleteLattice.Basic

namespace DebugSymbols

/-- Where a point lies in its source file: rows first, then columns. -/
def LineEntry.position (e : LineEntry) : ℤ ×ₗ ℤ := toLex (e.row.toInt, e.column.toInt)

def BuilderCall.mark? : BuilderCall → Option LineEntry
  | .method (.detail (.point e)) => some e
  | _ => none

namespace MethodBuilder

/-- Marks cut where the offset changes. -/
def runs (marks : List LineEntry) : List (List LineEntry) :=
  marks.splitBy fun a b => a.offset == b.offset

section Runs

variable {marks r : List LineEntry}

theorem flatten_runs (marks : List LineEntry) : (runs marks).flatten = marks :=
  List.flatten_splitBy _ _

theorem ne_nil_of_mem_runs (h : r ∈ runs marks) : r ≠ [] := List.ne_nil_of_mem_splitBy h

theorem offset_eq_of_mem_runs (h : r ∈ runs marks) :
    ∀ a ∈ r, ∀ b ∈ r, a.offset = b.offset := by
  have hchain : (r.map LineEntry.offset).IsChain (· = ·) :=
    (List.isChain_map _).2 ((List.isChain_of_mem_splitBy h).imp fun _ _ => LawfulBEq.eq_of_beq)
  have heq := (List.isChain_iff_pairwise.1 hchain).forall_of_forall fun _ _ => rfl
  exact fun a ha b hb => heq (List.mem_map_of_mem ha) (List.mem_map_of_mem hb)

theorem isChain_runs (marks : List LineEntry) :
    (runs marks).IsChain fun r s => ∀ a ∈ r, ∀ b ∈ s, a.offset ≠ b.offset := by
  refine (List.isChain_getLast_head_splitBy _ marks).imp_of_mem_imp fun r s hr hs hrs => ?_
  obtain ⟨hr', hs', hne⟩ := hrs
  intro a ha b hb heq
  have hlast := offset_eq_of_mem_runs hr _ (List.getLast_mem hr') a ha
  have hhead := offset_eq_of_mem_runs hs _ (List.head_mem hs') b hb
  rw [hlast, hhead, heq, beq_self_eq_true] at hne
  cases hne

end Runs

variable {m : MethodBuilder} {marked es : List LineEntry}

theorem liesBeyond_iff {e f : LineEntry} : liesBeyond e f ↔ f.position < e.position := by
  rw [liesBeyond, LineEntry.position, LineEntry.position, Prod.Lex.toLex_lt_toLex]
  simp only [Bool.or_eq_true, decide_eq_true_eq, Bool.and_eq_true, beq_iff_eq,
    Int32.lt_iff_toInt_lt, Int32.toInt_inj]

/-- Of a run that begins with the last point kept, the one that lies furthest stays. -/
theorem foldl_addPoint_run (kept : LineEntry) (earlier : List LineEntry)
    (h : ∀ e ∈ es, e.offset = kept.offset) :
    ∃ furthest, (kept :: es).argmax LineEntry.position = some furthest ∧
      es.foldl addPoint (kept :: earlier) = furthest :: earlier := by
  induction es using List.reverseRecOn with
  | nil => exact ⟨kept, rfl, rfl⟩
  | append_singleton es e ih =>
    obtain ⟨hes, he⟩ := List.forall_mem_append.1 h
    obtain ⟨furthest, hmax, hfold⟩ := ih hes
    have hoffset : furthest.offset = e.offset := by
      rw [he e (List.mem_singleton_self e)]
      rcases List.mem_cons.1 (List.argmax_mem hmax) with rfl | hmem
      · rfl
      · exact hes furthest hmem
    rw [← List.cons_append, List.argmax_concat, hmax, List.foldl_append, hfold]
    dsimp only [List.foldl_cons, List.foldl_nil]
    rw [addPoint, if_pos hoffset]
    by_cases hbeyond : liesBeyond e furthest
    · exact ⟨e, if_pos (liesBeyond_iff.1 hbeyond), if_pos hbeyond⟩
    · exact ⟨furthest, if_neg (mt liesBeyond_iff.2 hbeyond), if_neg hbeyond⟩

/-- Of runs behind other points, each leaves the point that lies furthest. -/
theorem foldl_addPoint_runs (marked : List LineEntry) {rs : List (List LineEntry)}
    (hsome : ∀ r ∈ rs, r ≠ []) (hsame : ∀ r ∈ rs, ∀ a ∈ r, ∀ b ∈ r, a.offset = b.offset)
    (hchain : rs.IsChain fun r s => ∀ a ∈ r, ∀ b ∈ s, a.offset ≠ b.offset)
    (hfirst : ∀ r ∈ rs.head?, ∀ e ∈ r, ∀ last ∈ marked.head?, last.offset ≠ e.offset) :
    ∃ ps : List LineEntry, ps.map some = rs.map (List.argmax LineEntry.position) ∧
      rs.flatten.foldl addPoint marked = ps.reverse ++ marked := by
  induction rs generalizing marked with
  | nil => exact ⟨[], rfl, rfl⟩
  | cons r rs ih =>
    obtain ⟨hr, hrs⟩ := List.forall_mem_cons.1 hsame
    obtain ⟨hnext, hbehind⟩ := List.isChain_cons.1 hchain
    cases r with
    | nil => exact absurd rfl (hsome [] List.mem_cons_self)
    | cons e es =>
      have hadd : addPoint marked e = e :: marked := by
        cases marked with
        | nil => rfl
        | cons last earlier => exact if_neg (hfirst _ rfl e List.mem_cons_self last rfl)
      obtain ⟨furthest, hmax, hfold⟩ := foldl_addPoint_run e marked
        fun a ha => hr a (List.mem_cons_of_mem e ha) e List.mem_cons_self
      have hmem := List.argmax_mem hmax
      obtain ⟨ps, hps, hrest⟩ := ih (furthest :: marked)
        (fun r h => hsome r (List.mem_cons_of_mem _ h)) hrs hbehind fun s hs b hb last hlast => by
          cases hlast
          exact hnext s hs furthest hmem b hb
      refine ⟨furthest :: ps, ?_, ?_⟩
      · rw [List.map_cons, List.map_cons, hmax, hps]
      · rw [List.flatten_cons, List.foldl_append, List.foldl_cons, hadd, hfold, hrest,
          List.reverse_cons, List.append_assoc]
        rfl

theorem marked_call (m : MethodBuilder) (c : BuilderCall) :
    ((call c).run m).2.marked = c.mark?.toList.foldl addPoint m.marked := by
  match c with
  | .method (.openBlock kind offset) =>
    rw [run_openBlock, startBlock]
    split_ifs
    · rfl
    · cases m.parent? <;> rfl
  | .method (.closeBlock offset) =>
    rw [run_closeBlock, endBlock]
    cases m.openBlocks <;> rfl
  | .addBlock b =>
    rw [run_addBlock, addBlock]
    split_ifs <;> rfl
  | .method (.detail d) => cases d <;> rfl
  | .ambiguousLocals _ => rfl

theorem marked_afterCalls (cs : List BuilderCall) :
    (m.afterCalls cs).marked = (cs.filterMap BuilderCall.mark?).foldl addPoint m.marked := by
  induction cs generalizing m with
  | nil => rfl
  | cons c cs ih =>
    change (((call c).run m).2.afterCalls cs).marked = _
    rw [ih, marked_call, List.filterMap_cons]
    cases c.mark? <;> rfl

theorem addPoint_sublist (marked : List LineEntry) (e : LineEntry) :
    (addPoint marked e).Sublist (e :: marked) := by
  cases marked with
  | nil => exact .refl _
  | cons last earlier =>
    rw [addPoint]
    split_ifs
    · exact (List.sublist_cons_self last earlier).cons_cons e
    · exact List.sublist_cons_self e _
    · exact .refl _

theorem foldl_addPoint_sublist (marked es : List LineEntry) :
    (es.foldl addPoint marked).Sublist (es.reverse ++ marked) := by
  induction es generalizing marked with
  | nil => exact .refl _
  | cons e es ih =>
    rw [List.reverse_cons, List.append_assoc]
    exact (ih _).trans ((addPoint_sublist marked e).append_left _)

theorem isChain_addPoint (h : (marked.map LineEntry.offset).IsChain (· ≠ ·)) (e : LineEntry) :
    ((addPoint marked e).map LineEntry.offset).IsChain (· ≠ ·) := by
  cases marked with
  | nil => exact .singleton _
  | cons last earlier =>
    rw [addPoint]
    split_ifs with hsame hbeyond
    · rw [List.map_cons] at h ⊢
      rwa [← hsame]
    · exact h
    · rw [List.map_cons] at h ⊢
      exact .cons_cons (Ne.symm hsame) h

theorem isChain_foldl_addPoint (h : (marked.map LineEntry.offset).IsChain (· ≠ ·)) :
    ((es.foldl addPoint marked).map LineEntry.offset).IsChain (· ≠ ·) := by
  induction es generalizing marked with
  | nil => exact h
  | cons e es ih => exact ih (isChain_addPoint h e)

theorem lines_define {d : MethodDefinition} (h : m.define = .ok d) : d.lines = m.points := by
  rw [define] at h
  split_ifs at h
  cases h
  rfl

/-- Whatever is called on a new builder: the sequence points are those that lie furthest in the runs
of the marks, the first of equals, as they were marked.  None has the offset of the one before it,
and if no mark goes back then the offsets ascend and no definition is refused for a point that goes
back. -/
theorem points_furthest_of_runs (token : Token) (compileUnit namespaceId : UInt32)
    (cs : List BuilderCall) :
    let start : MethodBuilder :=
      { token := token, compileUnit := compileUnit, namespaceId := namespaceId }
    let m := start.afterCalls cs
    let marks := cs.filterMap BuilderCall.mark?
    (runs marks).flatten = marks ∧
      (∀ r ∈ runs marks, r ≠ [] ∧ ∀ a ∈ r, ∀ b ∈ r, a.offset = b.offset) ∧
      (runs marks).IsChain (fun r s => ∀ a ∈ r, ∀ b ∈ s, a.offset ≠ b.offset) ∧
      m.points.map some = (runs marks).map (List.argmax LineEntry.position) ∧
      (m.points.map LineEntry.offset).IsChain (· ≠ ·) ∧
      ((marks.map LineEntry.offset).Pairwise (· ≤ ·) →
        (m.points.map LineEntry.offset).Pairwise (· < ·) ∧
          ∀ d, m.define = .ok d → ∀ token position last next,
            d.validate ≠ .error (.malformed (.pointGoesBack token position last next))) := by
  intro start m marks
  have hmarked : m.marked = marks.foldl addPoint [] := marked_afterCalls cs
  have hsome : ∀ r ∈ runs marks, r ≠ [] := fun r => ne_nil_of_mem_runs
  have hsame : ∀ r ∈ runs marks, ∀ a ∈ r, ∀ b ∈ r, a.offset = b.offset := fun r =>
    offset_eq_of_mem_runs
  obtain ⟨ps, hps, hfold⟩ := foldl_addPoint_runs [] hsome hsame (isChain_runs marks)
    fun _ _ _ _ _ => nofun
  have hpoints : m.points = ps := by
    rw [points, hmarked, ← flatten_runs marks, hfold, List.append_nil, List.reverse_reverse]
  have hdistinct : (m.points.map LineEntry.offset).IsChain (· ≠ ·) := by
    rw [points, hmarked, List.map_reverse, List.isChain_reverse]
    exact (isChain_foldl_addPoint .nil).imp fun _ _ => Ne.symm
  refine ⟨flatten_runs marks, fun r h => ⟨hsome r h, hsame r h⟩, isChain_runs marks,
    hpoints ▸ hps, hdistinct, fun hle => ?_⟩
  have hsublist : m.points.Sublist marks := by
    have := foldl_addPoint_sublist [] marks
    rw [List.append_nil, ← hmarked] at this
    exact List.reverse_sublist.1 (List.reverse_reverse m.marked ▸ this)
  have hordered := hle.sublist (hsublist.map LineEntry.offset)
  refine ⟨?_, fun d hd => MethodDefinition.validate_ne_pointGoesBack (lines_define hd ▸ hordered)⟩
  rw [← List.isChain_iff_pairwise, List.isChain_iff_getElem]
  rw [List.isChain_iff_getElem] at hdistinct
  exact fun i hi => UInt32.lt_of_le_of_ne (List.pairwise_iff_getElem.1 hordered i (i + 1) _ hi
    (Nat.lt_succ_self i)) (hdistinct i hi)

/-- Three marks at one offset, of which the second lies where the first does; then one further on,
and one that goes back. -/
example :
    let marks : List LineEntry := [⟨1, 4, 2, -1, -1, 0, false⟩, ⟨2, 4, 2, 4, 9, 0, true⟩,
      ⟨1, 4, -8, -1, -1, 0, false⟩, ⟨1, 6, 1, 6, 5, 8, false⟩, ⟨1, 2, 1, -1, -1, 0, false⟩]
    let m := ({ token := ⟨7⟩, compileUnit := 1 } : MethodBuilder).afterCalls
      (marks.map fun e => .method (.detail (.point e)))
    m.points = [⟨1, 4, 2, -1, -1, 0, false⟩, ⟨1, 6, 1, 6, 5, 8, false⟩,
      ⟨1, 2, 1, -1, -1, 0, false⟩] := by
  decide

end MethodBuilder

end DebugSymbols
