import DebugSymbols.LineProgram.Parameters
import DebugSymbols.Proofs.Keys
import DebugSymbols.Proofs.Method.Nesting

namespace DebugSymbols.MethodBuilder

def parentAfter (before : List Event) : Int32 :=
  match openAfter before with
  | [] => -1
  | i :: _ => i.toInt32

/-- The block that an event makes: one that is opened lies in the innermost one open before, and
ends where it is closed behind. -/
def Event.block? (before behind : List Event) : Event → Option CodeBlock
  | ⟨.method (.openBlock kind offset), .ok (some index)⟩ =>
    some ⟨index, parentAfter before, kind, offset, (closedAt? behind 0).getD offset⟩
  | ⟨.addBlock b, .ok _⟩ => some b
  | _ => none

def Event.local? (before : List Event) : Event → Option LocalVariable
  | ⟨.method (.detail (.localVariable index name)), _⟩ =>
    some ⟨index, name, (openAfter before).headD 0⟩
  | _ => none

/-- Each event with those before it and those behind it. -/
def contexts (before : List Event) : List Event → List (List Event × Event × List Event)
  | [] => []
  | e :: es => (before, e, es) :: contexts (before ++ [e]) es

section Step

variable {m m' : MethodBuilder} {e : Event}

theorem run_openBlock (kind : BlockKind) (offset : UInt32) :
    (call (.method (.openBlock kind offset))).run m = match m.startBlock kind offset with
      | .ok (index, m') => (.ok (some index), m')
      | .error e => (.error e, m) := by
  simp only [call, perform, Step.run_bind, Step.run_get, Step.run_lift]
  cases m.startBlock kind offset <;> rfl

theorem run_closeBlock (offset : UInt32) :
    (call (.method (.closeBlock offset))).run m = match m.endBlock offset with
      | .ok m' => (.ok none, m')
      | .error e => (.error e, m) := by
  simp only [call, perform, Step.run_bind, Step.run_get, Step.run_lift]
  cases m.endBlock offset <;> rfl

theorem run_addBlock (b : CodeBlock) :
    (call (.addBlock b)).run m = match m.addBlock b with
      | .ok m' => (.ok none, m')
      | .error e => (.error e, m) := by
  simp only [call, Step.run_bind, Step.run_get, Step.run_lift]
  cases m.addBlock b <;> rfl

/-- A call that fails leaves the builder as it was. -/
theorem unchanged_of_error {c : BuilderCall} {e : Error} (h : ((call c).run m).1 = .error e) :
    ((call c).run m).2 = m := by
  match c with
  | .method (.openBlock kind offset) =>
    rw [run_openBlock] at h ⊢
    split at h
    · cases h
    · rfl
  | .method (.closeBlock offset) =>
    rw [run_closeBlock] at h ⊢
    split at h
    · cases h
    · rfl
  | .addBlock b =>
    rw [run_addBlock] at h ⊢
    split at h
    · cases h
    · rfl
  | .method (.detail _) | .ambiguousLocals _ => cases h

/-- What a call can do: the builder before it, its event, and the builder behind it. -/
inductive Makes (m : MethodBuilder) : Event → MethodBuilder → Prop
  | opened {kind : BlockKind} {offset index : UInt32} {parent : Int32}
    (hindex : index.toNat = m.maxIndex.toNat + 1) (hparent : m.parent? = some parent) :
    Makes m ⟨.method (.openBlock kind offset), .ok (some index)⟩ { m with
      blocks := m.blocks ++ [⟨index, parent, kind, offset, offset⟩]
      openBlocks := index :: m.openBlocks }
  | closed {offset i : UInt32} {outer : List UInt32} (hopen : m.openBlocks = i :: outer) :
    Makes m ⟨.method (.closeBlock offset), .ok none⟩ { m with
      blocks := m.blocks.map fun b => if b.index = i then { b with endOffset := offset } else b
      openBlocks := outer }
  | added {b : CodeBlock} (hzero : b.index ≠ 0) (hnew : ∀ c ∈ m.blocks, c.index ≠ b.index) :
    Makes m ⟨.addBlock b, .ok none⟩ { m with blocks := m.blocks ++ [b] }
  | recorded {index : UInt32} {name : String} :
    Makes m ⟨.method (.detail (.localVariable index name)), .ok none⟩ (m.addLocal index name)
  /-- Blocks and locals stay as they are. -/
  | aside {e : Event} {m' : MethodBuilder} (hbracket : e.bracket = .neither)
    (hblock : ∀ before behind, e.block? before behind = none)
    (hlocal : ∀ before, e.local? before = none) (blocks : m'.blocks = m.blocks)
    (openBlocks : m'.openBlocks = m.openBlocks) (locals : m'.locals = m.locals) : Makes m e m'

theorem makes_call (m : MethodBuilder) (c : BuilderCall) :
    Makes m ⟨c, ((call c).run m).1⟩ ((call c).run m).2 := by
  match c with
  | .method (.openBlock kind offset) =>
    rw [run_openBlock, startBlock]
    by_cases hmax : m.maxIndex = 0xFFFFFFFF
    · rw [if_pos hmax]
      exact .aside rfl (fun _ _ => rfl) (fun _ => rfl) rfl rfl rfl
    rw [if_neg hmax]
    cases hparent : m.parent? with
    | none => exact .aside rfl (fun _ _ => rfl) (fun _ => rfl) rfl rfl rfl
    | some parent =>
      refine .opened ?_ hparent
      have hlt := m.maxIndex.toNat_lt
      have hne : m.maxIndex.toNat ≠ 0xFFFFFFFF := fun h => hmax (UInt32.toNat_inj.1 h)
      rw [UInt32.toNat_add, show (1 : UInt32).toNat = 1 from rfl]
      omega
  | .method (.closeBlock offset) =>
    rw [run_closeBlock, endBlock]
    cases hopen : m.openBlocks with
    | nil => exact .aside rfl (fun _ _ => rfl) (fun _ => rfl) rfl rfl rfl
    | cons i outer => exact .closed hopen
  | .addBlock b =>
    rw [run_addBlock, addBlock]
    by_cases hzero : b.index = 0
    · rw [if_pos hzero]
      exact .aside rfl (fun _ _ => rfl) (fun _ => rfl) rfl rfl rfl
    rw [if_neg hzero]
    by_cases hused : (m.blocks.any fun c => c.index == b.index) = true
    · rw [if_pos hused]
      exact .aside rfl (fun _ _ => rfl) (fun _ => rfl) rfl rfl rfl
    · rw [if_neg hused]
      refine .added hzero fun c hc heq => hused (List.any_eq_true.2 ⟨c, hc, ?_⟩)
      exact beq_iff_eq.2 heq
  | .method (.detail (.localVariable index name)) => exact .recorded
  | .method (.detail (.point _)) | .method (.detail (.scopeVariable ..))
  | .method (.detail (.realName _)) | .ambiguousLocals _ =>
    exact .aside rfl (fun _ _ => rfl) (fun _ => rfl) rfl rfl rfl

end Step

section Numbering

variable {m m' : MethodBuilder} {e : Event}

theorem le_max (i j : UInt32) : i ≤ max i j ∧ j ≤ max i j := by
  change i ≤ (if i ≤ j then j else i) ∧ j ≤ (if i ≤ j then j else i)
  split_ifs with h
  · exact ⟨h, UInt32.le_refl j⟩
  · exact ⟨UInt32.le_refl i, UInt32.le_of_lt (UInt32.not_le.1 h)⟩

theorem le_foldl_max {bs : List CodeBlock} {i : UInt32} :
    i ≤ bs.foldl (fun i b => max i b.index) i ∧
      ∀ b ∈ bs, b.index ≤ bs.foldl (fun i b => max i b.index) i := by
  induction bs generalizing i with
  | nil => exact ⟨UInt32.le_refl i, nofun⟩
  | cons c bs ih =>
    obtain ⟨hstart, hbs⟩ := ih (i := max i c.index)
    obtain ⟨hleft, hright⟩ := le_max i c.index
    exact ⟨UInt32.le_trans hleft hstart,
      List.forall_mem_cons.2 ⟨UInt32.le_trans hright hstart, hbs⟩⟩

/-- Blocks have indices of their own.  Of those that are open an inner one stands behind the outer
ones in the table and has a larger index. -/
structure Numbered (m : MethodBuilder) : Prop where
  nonzero : ∀ b ∈ m.blocks, b.index ≠ 0
  nodup : (m.blocks.map CodeBlock.index).Nodup
  placed : m.openBlocks.Sublist (m.blocks.map CodeBlock.index).reverse
  ascending : m.openBlocks.Pairwise (· > ·)

theorem Numbered.open_mem (h : m.Numbered) (i : UInt32) (hi : i ∈ m.openBlocks) :
    i ∈ m.blocks.map CodeBlock.index := List.mem_reverse.1 (h.placed.subset hi)

theorem lt_of_mem_indices {i index : UInt32} (hi : i ∈ m.blocks.map CodeBlock.index)
    (hindex : index.toNat = m.maxIndex.toNat + 1) : i < index := by
  obtain ⟨b, hb, rfl⟩ := List.mem_map.1 hi
  have hle : b.index ≤ m.maxIndex := le_foldl_max.2 b hb
  rw [UInt32.le_iff_toNat_le] at hle
  rw [UInt32.lt_iff_toNat_lt]
  omega

theorem map_index_setEnd (bs : List CodeBlock) (i offset : UInt32) :
    (bs.map fun b => if b.index = i then { b with endOffset := offset } else b).map
      CodeBlock.index = bs.map CodeBlock.index := by
  rw [List.map_map]
  refine List.map_congr_left fun b _ => ?_
  rw [Function.comp_apply]
  split <;> rfl

theorem Numbered.makes (h : m.Numbered) (hmakes : Makes m e m') : m'.Numbered := by
  cases hmakes with
  | opened hindex hparent =>
    have hlt {i : UInt32} (hi : i ∈ m.blocks.map CodeBlock.index) := lt_of_mem_indices hi hindex
    refine ⟨?_, nodup_map_snoc h.nodup fun hmem => UInt32.lt_irrefl _ (hlt hmem), ?_, ?_⟩
    · refine List.forall_mem_append.2 ⟨h.nonzero, List.forall_mem_singleton.2 ?_⟩
      rintro rfl
      cases hindex
    · rw [List.map_append, List.reverse_append]
      exact h.placed.cons_cons _
    · exact List.pairwise_cons.2 ⟨fun i hi => hlt (h.open_mem i hi), h.ascending⟩
  | closed hopen =>
    have hplaced := h.placed
    have hascending := h.ascending
    rw [hopen] at hplaced hascending
    refine ⟨?_, ?_, ?_, hascending.of_cons⟩
    · intro b hb hzero
      obtain ⟨c, hc, rfl⟩ := List.mem_map.1 hb
      refine h.nonzero c hc ?_
      split at hzero <;> exact hzero
    · rw [map_index_setEnd]
      exact h.nodup
    · rw [map_index_setEnd]
      exact (List.sublist_cons_self _ _).trans hplaced
  | added hzero hnew =>
    refine ⟨List.forall_mem_append.2 ⟨h.nonzero, List.forall_mem_singleton.2 hzero⟩,
      nodup_map_snoc h.nodup ?_, ?_, h.ascending⟩
    · rintro hmem
      obtain ⟨c, hc, heq⟩ := List.mem_map.1 hmem
      exact hnew c hc heq
    · rw [List.map_append, List.reverse_append]
      exact h.placed.cons _
  | recorded => exact ⟨h.nonzero, h.nodup, h.placed, h.ascending⟩
  | aside _ _ _ blocks openBlocks _ =>
    exact ⟨blocks ▸ h.nonzero, blocks ▸ h.nodup, openBlocks ▸ blocks ▸ h.placed,
      openBlocks ▸ h.ascending⟩

end Numbering

/-- A run of calls: the builder before it, its events, and the builder behind it. -/
inductive Course : MethodBuilder → List Event → MethodBuilder → Prop
  | nil {m : MethodBuilder} : Course m [] m
  | cons {m m' m'' : MethodBuilder} {e : Event} {es : List Event} (first : Makes m e m')
    (rest : Course m' es m'') : Course m (e :: es) m''

namespace Course

variable {m m' m'' : MethodBuilder} {e : Event} {es es' : List Event}

theorem of_history (m : MethodBuilder) (cs : List BuilderCall) :
    Course m (m.history cs) (m.afterCalls cs) := by
  induction cs generalizing m with
  | nil => exact .nil
  | cons c cs ih => exact .cons (makes_call m c) (ih _)

theorem append (h : Course m es m') (h' : Course m' es' m'') : Course m (es ++ es') m'' := by
  induction h with
  | nil => exact h'
  | cons first _ ih => exact .cons first (ih h')

theorem snoc (h : Course m es m') (hmakes : Makes m' e m'') : Course m (es ++ [e]) m'' :=
  h.append (.cons hmakes .nil)

theorem split (h : Course m (es ++ es') m'') : ∃ m', Course m es m' ∧ Course m' es' m'' := by
  induction es generalizing m with
  | nil => exact ⟨m, .nil, h⟩
  | cons e es ih =>
    cases h with
    | cons first rest =>
      obtain ⟨m', hleft, hright⟩ := ih rest
      exact ⟨m', .cons first hleft, hright⟩

theorem numbered (h : Course m es m') (hm : m.Numbered) : m'.Numbered := by
  induction h with
  | nil => exact hm
  | cons first _ ih => exact ih (hm.makes first)

end Course

/-- A block with its final end: where it is closed, if it is one of the open blocks `is` and
`closed` says of its depth that it is closed. -/
def settle (closed : Nat → Option UInt32) (is : List UInt32) (b : CodeBlock) : CodeBlock :=
  match is.idxOf? b.index with
  | some depth => { b with endOffset := (closed depth).getD b.endOffset }
  | none => b

theorem settle_none (is : List UInt32) (b : CodeBlock) : settle (fun _ => none) is b = b := by
  unfold settle
  split <;> rfl

theorem settle_of_notMem {closed : Nat → Option UInt32} {is : List UInt32} {b : CodeBlock}
    (h : b.index ∉ is) : settle closed is b = b := by
  rw [settle, List.idxOf?_eq_none_iff.2 h]

theorem settle_cons_self (closed : Nat → Option UInt32) (b : CodeBlock) (outer : List UInt32) :
    settle closed (b.index :: outer) b =
      { b with endOffset := (closed 0).getD b.endOffset } := by
  rw [settle, List.idxOf?_cons, beq_self_eq_true]
  rfl

theorem settle_cons_of_ne {closed : Nat → Option UInt32} {i : UInt32} {outer : List UInt32}
    {b : CodeBlock} (h : b.index ≠ i) :
    settle closed (i :: outer) b = settle (fun depth => closed (depth + 1)) outer b := by
  rw [settle, settle, List.idxOf?_cons, beq_false_of_ne h.symm]
  cases outer.idxOf? b.index <;> rfl

namespace Makes

variable {m m' : MethodBuilder} {e : Event} {es before : List Event}

theorem stillOpen_openBlocks (h : Makes m e m') :
    openAfter es ++ stillOpen (closedAt? es) m'.openBlocks =
      openAfter (e :: es) ++ stillOpen (closedAt? (e :: es)) m.openBlocks := by
  cases h with
  | opened =>
    rw [openAfter_opening rfl, closedAt?_opening rfl, List.append_assoc]
    rfl
  | closed hopen =>
    rw [openAfter_closing rfl, hopen, stillOpen, (closedAt?_closing rfl).1,
      (closedAt?_closing rfl).2]
    rfl
  | added => rw [openAfter_neither rfl, closedAt?_neither rfl]
  | recorded =>
    rw [openAfter_neither rfl, closedAt?_neither rfl]
    rfl
  | aside hbracket _ _ _ openBlocks =>
    rw [openAfter_neither hbracket, closedAt?_neither hbracket, openBlocks]

theorem parent_eq {parent : Int32} (hbefore : m.openBlocks = openAfter before)
    (hparent : m.parent? = some parent) : parent = parentAfter before := by
  rw [parent?, hbefore] at hparent
  rw [parentAfter]
  cases hopen : openAfter before with
  | nil =>
    rw [hopen] at hparent
    exact (Option.some.inj hparent).symm
  | cons i outer =>
    rw [hopen] at hparent
    dsimp only at hparent
    split at hparent
    · exact (Option.some.inj hparent).symm
    · cases hparent

/-- With the ends that later events give them, the blocks behind an event are those before it and
the one that it makes. -/
theorem map_settle_blocks (hm : m.Numbered) (hbefore : m.openBlocks = openAfter before)
    (h : Makes m e m') :
    m'.blocks.map (settle (closedAt? es) m'.openBlocks) =
      m.blocks.map (settle (closedAt? (e :: es)) m.openBlocks) ++ (e.block? before es).toList := by
  cases h with
  | @opened kind offset index parent hindex hparent =>
    have hold : ∀ b ∈ m.blocks, settle (closedAt? es) (index :: m.openBlocks) b =
        settle (fun depth => closedAt? es (depth + 1)) m.openBlocks b := fun b hb =>
      settle_cons_of_ne (UInt32.ne_of_lt (lt_of_mem_indices (List.mem_map_of_mem hb) hindex))
    rw [closedAt?_opening rfl, List.map_append, List.map_congr_left hold, List.map_singleton,
      parent_eq hbefore hparent]
    exact congrArg (_ ++ [·])
      (settle_cons_self _ ⟨index, parentAfter before, kind, offset, offset⟩ _)
  | @closed offset i outer hopen =>
    have hbracket : Event.bracket ⟨.method (.closeBlock offset), .ok none⟩ = .closing offset := rfl
    obtain ⟨hclosed, hinner⟩ := @closedAt?_closing _ es _ hbracket
    have hi : i ∉ outer := by
      have hascending := hm.ascending
      rw [hopen] at hascending
      exact fun hmem => UInt32.lt_irrefl i ((List.pairwise_cons.1 hascending).1 i hmem)
    rw [hopen, List.map_map]
    refine (List.map_congr_left fun b _ => ?_).trans (List.append_nil _).symm
    rw [Function.comp_apply]
    by_cases hb : b.index = i
    · subst hb
      rw [if_pos rfl, settle_cons_self, hclosed]
      exact settle_of_notMem hi
    · rw [if_neg hb, settle_cons_of_ne hb, hinner]
  | @added b hzero hnew =>
    have hclosed : b.index ∉ m.openBlocks := fun hmem => by
      obtain ⟨c, hc, heq⟩ := List.mem_map.1 (hm.open_mem _ hmem)
      exact hnew c hc heq
    rw [closedAt?_neither rfl, List.map_append, List.map_singleton, settle_of_notMem hclosed]
    rfl
  | recorded =>
    rw [closedAt?_neither rfl]
    exact (List.append_nil _).symm
  | aside hbracket hblock _ blocks openBlocks =>
    rw [closedAt?_neither hbracket, hblock, blocks, openBlocks]
    exact (List.append_nil _).symm

theorem locals_eq (hbefore : m.openBlocks = openAfter before) (h : Makes m e m') :
    m'.locals = m.locals ++ (e.local? before).toList := by
  cases h with
  | recorded =>
    rw [addLocal, currentBlock, hbefore]
    rfl
  | aside _ _ hlocal _ _ locals =>
    rw [hlocal, locals]
    exact (List.append_nil _).symm
  | opened | closed | added => exact (List.append_nil _).symm

end Makes

/-- A builder of which nothing was told yet. -/
structure Blank (m : MethodBuilder) : Prop where
  blocks : m.blocks = []
  openBlocks : m.openBlocks = []
  locals : m.locals = []

namespace Course

variable {start m m' : MethodBuilder} {before es : List Event}

theorem numbered_of_blank (hstart : start.Blank) (h : Course start es m) : m.Numbered := by
  refine h.numbered ⟨?_, ?_, ?_, ?_⟩
  · rw [hstart.blocks]
    exact nofun
  · rw [hstart.blocks]
    exact List.nodup_nil
  · rw [hstart.openBlocks]
    exact List.nil_sublist _
  · rw [hstart.openBlocks]
    exact .nil

theorem openBlocks_eq (h : Course m es m') :
    m'.openBlocks = openAfter es ++ stillOpen (closedAt? es) m.openBlocks := by
  induction h with
  | nil => exact (stillOpen_none _).symm
  | cons first _ ih => exact ih.trans first.stillOpen_openBlocks

/-- The blocks that are open are those that were opened and not closed. -/
theorem openBlocks_of_blank (hstart : start.Blank) (h : Course start es m) :
    m.openBlocks = openAfter es := by
  rw [h.openBlocks_eq, hstart.openBlocks]
  exact List.append_nil _

theorem blocks_eq (hstart : start.Blank) (h : Course start before m) (h' : Course m es m') :
    m'.blocks = m.blocks.map (settle (closedAt? es) m.openBlocks) ++
      (contexts before es).filterMap fun (before, e, behind) => e.block? before behind := by
  induction h' generalizing before with
  | @nil m =>
    have hsettle : settle (closedAt? []) m.openBlocks = id := funext (settle_none _)
    rw [hsettle, List.map_id]
    exact (List.append_nil _).symm
  | @cons m₁ m₂ m₃ e es first _ ih =>
    rw [ih (h.snoc first),
      first.map_settle_blocks (h.numbered_of_blank hstart) (h.openBlocks_of_blank hstart),
      contexts, List.filterMap_cons, List.append_assoc]
    dsimp only
    cases e.block? before es <;> rfl

theorem locals_eq (hstart : start.Blank) (h : Course start before m) (h' : Course m es m') :
    m'.locals = m.locals ++
      (contexts before es).filterMap fun (before, e, _) => e.local? before := by
  induction h' generalizing before with
  | nil => exact (List.append_nil _).symm
  | @cons m₁ m₂ m₃ e es first _ ih =>
    rw [ih (h.snoc first), first.locals_eq (h.openBlocks_of_blank hstart), contexts,
      List.filterMap_cons, List.append_assoc]
    dsimp only
    cases e.local? before <;> rfl

end Course

/-- The signed field of a parent holds the index of the innermost open block as it is. -/
theorem parent_toInt {m : MethodBuilder} {parent : Int32} (hparent : m.parent? = some parent) :
    parent.toInt = m.openBlocks.head?.elim (-1) fun i => (i.toNat : Int) := by
  rw [parent?] at hparent
  cases hopen : m.openBlocks with
  | nil =>
    rw [hopen] at hparent
    cases hparent
    rfl
  | cons i outer =>
    rw [hopen] at hparent
    dsimp only at hparent
    split_ifs at hparent with hlt
    cases hparent
    rw [UInt32.lt_iff_toNat_lt, show (0x80000000 : UInt32).toNat = 0x80000000 from rfl] at hlt
    exact (toInt_toInt32 i).trans (Int.bmod_eq_of_le (by omega) (by omega))

/-- Whatever is called on a new builder: its blocks have indices of their own, and those that are
open have ascending ones and stand in this order in the table.  Each block lies in the one that was
innermost when it was opened, has the offset it was opened at, and ends where the closing is that
matches its opening, however many blocks were added in between.  A local belongs to the block that
was innermost when it was added, and a call that fails changes nothing. -/
theorem block_bookkeeping (token : Token) (compileUnit namespaceId : UInt32)
    (cs : List BuilderCall) :
    let start : MethodBuilder :=
      { token := token, compileUnit := compileUnit, namespaceId := namespaceId }
    let m := start.afterCalls cs
    let es := start.history cs
    (∀ b ∈ m.blocks, b.index ≠ 0) ∧ (m.blocks.map CodeBlock.index).Nodup ∧
      m.openBlocks = openAfter es ∧ m.openBlocks.Pairwise (· > ·) ∧
      m.openBlocks.Sublist (m.blocks.map CodeBlock.index).reverse ∧
      m.blocks = (contexts [] es).filterMap (fun (before, e, behind) => e.block? before behind) ∧
      (∀ before kind offset index behind,
        es = before ++ ⟨.method (.openBlock kind offset), .ok (some index)⟩ :: behind →
        (parentAfter before).toInt =
            (openAfter before).head?.elim (-1) (fun i => (i.toNat : Int)) ∧
          (parentAfter before).toInt < index.toNat) ∧
      (∀ behind offset, closedAt? behind 0 = some offset ↔ ∃ inner e rest,
        behind = inner ++ e :: rest ∧ Balanced inner ∧ e.bracket = .closing offset) ∧
      m.locals = (contexts [] es).filterMap (fun (before, e, _) => e.local? before) ∧
      ∀ c e, ((call c).run m).1 = .error e → ((call c).run m).2 = m := by
  intro start m es
  have hstart : start.Blank := ⟨rfl, rfl, rfl⟩
  have hcourse : Course start es m := .of_history start cs
  have hnumbered := hcourse.numbered_of_blank hstart
  refine ⟨hnumbered.nonzero, hnumbered.nodup, hcourse.openBlocks_of_blank hstart,
    hnumbered.ascending, hnumbered.placed, Course.blocks_eq hstart .nil hcourse, ?_,
    fun _ _ => closedAt?_zero_iff, Course.locals_eq hstart .nil hcourse,
    fun c e h => unchanged_of_error h⟩
  intro before kind offset index behind hes
  rw [hes] at hcourse
  obtain ⟨m₁, hbefore, hrest⟩ := hcourse.split
  have hopen := hbefore.openBlocks_of_blank hstart
  cases hrest with
  | cons first _ =>
    cases first with
    | @opened _ _ _ parent hindex hparent =>
      rw [← Makes.parent_eq hopen hparent, parent_toInt hparent, ← hopen]
      refine ⟨rfl, ?_⟩
      have hmem := (hbefore.numbered_of_blank hstart).open_mem
      cases hopened : m₁.openBlocks with
      | nil => exact Int.lt_of_lt_of_le (by decide) (Int.natCast_nonneg _)
      | cons i outer =>
        have hi := hmem i (hopened ▸ List.mem_cons_self)
        exact Int.ofNat_lt.2 (UInt32.lt_iff_toNat_lt.1 (lt_of_mem_indices hi hindex))
    | aside hbracket => cases hbracket

/-- A block is added between the opening and the closing of the inner one of two, and another with
the same index is refused. -/
example :
    let m := ({ token := ⟨7⟩, compileUnit := 1 } : MethodBuilder).afterCalls [
      .method (.openBlock .lexical 0), .method (.openBlock .lexical 2),
      .addBlock ⟨9, -1, .iteratorBody, 5, 6⟩, .method (.closeBlock 8),
      .addBlock ⟨9, -1, .lexical, 0, 0⟩, .method (.detail (.localVariable 0 "x"))]
    m.blocks = [⟨1, -1, .lexical, 0, 0⟩, ⟨2, 1, .lexical, 2, 8⟩, ⟨9, -1, .iteratorBody, 5, 6⟩] ∧
      m.locals = [⟨0, "x", 1⟩] := by
  decide

end DebugSymbols.MethodBuilder
