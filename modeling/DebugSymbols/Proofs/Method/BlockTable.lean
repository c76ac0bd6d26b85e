import DebugSymbols.Proofs.Definition
import DebugSymbols.Proofs.Method.Blocks

namespace DebugSymbols.MethodBuilder

/-- The block of an index, or what stands for it. -/
def blockOrPlaceholder (bs : List CodeBlock) (i : Nat) : CodeBlock :=
  (bs.find? fun b => b.index.toNat == i).getD (.placeholder (UInt32.ofNat i))

section Filling

variable {bs cs : List CodeBlock} {b : CodeBlock} {i : Nat}

theorem nodup_toNat_index (h : (bs.map CodeBlock.index).Nodup) :
    (bs.map fun b => b.index.toNat).Nodup := by
  have hmap := h.map_on (f := UInt32.toNat) fun i _ j _ heq => UInt32.toNat_inj.1 heq
  rwa [List.map_map] at hmap

theorem blockOrPlaceholder_of_mem (h : (bs.map CodeBlock.index).Nodup) (hb : b ∈ bs) :
    blockOrPlaceholder bs b.index.toNat = b := by
  rw [blockOrPlaceholder, find?_key_of_mem (nodup_toNat_index h) hb]
  rfl

theorem blockOrPlaceholder_of_forall_ne (h : ∀ b ∈ bs, b.index.toNat ≠ i) :
    blockOrPlaceholder bs i = .placeholder (UInt32.ofNat i) := by
  rw [blockOrPlaceholder, List.find?_eq_none.2 fun b hb => by simpa using h b hb]
  rfl

theorem blockOrPlaceholder_of_perm (h : (bs.map CodeBlock.index).Nodup) (hperm : cs.Perm bs) :
    blockOrPlaceholder cs = blockOrPlaceholder bs := by
  funext i
  rw [blockOrPlaceholder, find?_key_of_perm (nodup_toNat_index h) hperm, blockOrPlaceholder]

theorem toNat_index_blockOrPlaceholder (bs : List CodeBlock) (hi : i < 2 ^ 32) :
    (blockOrPlaceholder bs i).index.toNat = i := by
  rw [blockOrPlaceholder]
  cases hfind : bs.find? fun b => b.index.toNat == i with
  | none => exact UInt32.toNat_ofNat_of_lt' hi
  | some b => simpa using List.find?_some hfind

theorem filter_lt_of_forall_lt {k : Nat} (h : ∀ b ∈ bs, k < b.index.toNat) :
    (bs.filter fun b => k < b.index.toNat) = bs :=
  List.filter_eq_self.2 fun b hb => decide_eq_true (h b hb)

/-- Behind a number comes the block that has the next one, if there is one. -/
theorem filter_lt_eq (h : bs.Pairwise fun b c => b.index < c.index) (k : Nat) :
    (bs.filter fun b => k < b.index.toNat) =
      (bs.find? fun b => b.index.toNat == k + 1).toList ++
        bs.filter fun b => k + 1 < b.index.toNat := by
  induction bs with
  | nil => rfl
  | cons b bs ih =>
    obtain ⟨hfirst, hbs⟩ := List.pairwise_cons.1 h
    have hbehind : ∀ c ∈ bs, b.index.toNat < c.index.toNat := fun c hc =>
      UInt32.lt_iff_toNat_lt.1 (hfirst c hc)
    rcases Nat.lt_trichotomy b.index.toNat (k + 1) with hlt | heq | hgt
    · rw [List.filter_cons_of_neg (by simp; omega), List.filter_cons_of_neg (by simp; omega),
        List.find?_cons_of_neg (by simp; omega)]
      exact ih hbs
    · rw [heq] at hbehind
      rw [List.filter_cons_of_pos (by simp; omega), List.filter_cons_of_neg (by simp; omega),
        List.find?_cons_of_pos (by simp [heq]), filter_lt_of_forall_lt hbehind,
        filter_lt_of_forall_lt fun c hc => Nat.lt_of_succ_lt (hbehind c hc)]
      rfl
    · -- All of them come behind the next number.
      have hall : ∀ c ∈ b :: bs, k + 1 < c.index.toNat :=
        List.forall_mem_cons.2 ⟨hgt, fun c hc => Nat.lt_trans hgt (hbehind c hc)⟩
      have hnone : ∀ c ∈ b :: bs, ¬(c.index.toNat == k + 1) = true := fun c hc => by
        simpa using (hall c hc).ne'
      rw [filter_lt_of_forall_lt hall,
        filter_lt_of_forall_lt fun c hc => Nat.lt_of_succ_lt (hall c hc),
        List.find?_eq_none.2 hnone]
      rfl

namespace Filling

/-- The table is filled in up to a number, and the blocks behind it are still to come. -/
structure UpTo (bs : List CodeBlock) (k : Nat) (f : Filling) : Prop where
  done : f.done.reverse = (List.range' 1 k).map (blockOrPlaceholder bs)
  rest : f.rest = bs.filter fun b => k < b.index.toNat

variable {f : Filling} {k : Nat}

theorem UpTo.placed (hbs : bs.Pairwise fun b c => b.index < c.index) (h : f.UpTo bs k) :
    (f.place (k + 1)).UpTo bs (k + 1) := by
  have hrest := h.rest.trans (filter_lt_eq hbs k)
  have hdone : ∀ b, blockOrPlaceholder bs (k + 1) = b →
      (b :: f.done).reverse = (List.range' 1 (k + 1)).map (blockOrPlaceholder bs) := by
    intro b hb
    rw [List.reverse_cons, h.done, List.range'_1_concat, List.map_append, Nat.add_comm 1, ← hb]
    rfl
  -- The number is that of the first block that is still to come, or of none.
  cases hfind : bs.find? fun b => b.index.toNat == k + 1 with
  | some b =>
    rw [hfind] at hrest
    have hindex : b.index.toNat = k + 1 := by simpa using List.find?_some hfind
    rw [place, hrest]
    dsimp only [Option.toList_some, List.singleton_append]
    rw [if_pos hindex]
    exact ⟨hdone b (by rw [blockOrPlaceholder, hfind]; rfl), rfl⟩
  | none =>
    rw [hfind] at hrest
    have hplaced : f.place (k + 1) =
        { f with done := .placeholder (UInt32.ofNat (k + 1)) :: f.done } := by
      rw [place]
      cases hnext : f.rest with
      | nil => rfl
      | cons b rest =>
        have hmem : b ∈ bs.filter fun b => k + 1 < b.index.toNat := by
          rw [← List.nil_append (bs.filter _), ← Option.toList_none, ← hrest, hnext]
          exact List.mem_cons_self
        have hlt : k + 1 < b.index.toNat := by simpa using (List.mem_filter.1 hmem).2
        exact if_neg (by omega)
    rw [hplaced]
    exact ⟨hdone _ (by rw [blockOrPlaceholder, hfind]; rfl), hrest⟩

theorem upTo_foldl (hbs : bs.Pairwise fun b c => b.index < c.index)
    (hpos : ∀ b ∈ bs, 1 ≤ b.index.toNat) (k : Nat) :
    ((List.range' 1 k).foldl place ⟨[], bs⟩).UpTo bs k := by
  induction k with
  | zero => exact ⟨rfl, (filter_lt_of_forall_lt hpos).symm⟩
  | succ k ih =>
    rw [List.range'_1_concat, List.foldl_append, Nat.add_comm 1]
    exact ih.placed hbs

end Filling

end Filling

variable {m m' : MethodBuilder} {e : Event} {es : List Event}

theorem Numbered.one_le (h : m.Numbered) {b : CodeBlock} (hb : b ∈ m.blocks) :
    1 ≤ b.index.toNat :=
  Nat.one_le_iff_ne_zero.2 fun hzero => h.nonzero b hb (UInt32.toNat_inj.1 hzero)

theorem sortedBlocks_perm (m : MethodBuilder) : m.sortedBlocks.Perm m.blocks :=
  List.mergeSort_perm _ _

theorem Numbered.pairwise_sortedBlocks (h : m.Numbered) :
    m.sortedBlocks.Pairwise fun b c => b.index < c.index :=
  pairwise_mergeSort_of_nodup h.nodup

theorem Numbered.le_places (h : m.Numbered) {b : CodeBlock} (hb : b ∈ m.blocks) :
    b.index.toNat ≤ m.places := by
  rw [← m.sortedBlocks_perm.mem_iff] at hb
  have hsorted := h.pairwise_sortedBlocks
  cases hlast : m.sortedBlocks.getLast? with
  | none =>
    rw [List.getLast?_eq_none_iff.1 hlast] at hb
    cases hb
  | some c =>
    obtain ⟨bs, heq⟩ := List.getLast?_eq_some_iff.1 hlast
    rw [places, hlast]
    rw [heq] at hb hsorted
    rcases List.mem_append.1 hb with hb | hb
    · exact (UInt32.lt_iff_toNat_lt.1
        ((List.pairwise_append.1 hsorted).2.2 b hb c (List.mem_singleton_self c))).le
    · rw [List.mem_singleton.1 hb]
      exact Nat.le_refl _

theorem places_eq (m : MethodBuilder) :
    m.places = 0 ∨ ∃ b ∈ m.blocks, b.index.toNat = m.places := by
  rw [places]
  cases hlast : m.sortedBlocks.getLast? with
  | none => exact .inl rfl
  | some b => exact .inr ⟨b, m.sortedBlocks_perm.mem_iff.1 (List.mem_of_getLast? hlast), rfl⟩

theorem places_lt (m : MethodBuilder) : m.places < 2 ^ 32 := by
  rcases m.places_eq with hzero | ⟨b, _, heq⟩
  · omega
  · exact heq ▸ b.index.toNat_lt

/-- The table holds, for each number up to the largest index, the block of that index or a
placeholder. -/
theorem Numbered.blockTable_eq (h : m.Numbered) :
    m.blockTable = (List.range' 1 m.places).map (blockOrPlaceholder m.blocks) := by
  have hpos : ∀ b ∈ m.sortedBlocks, 1 ≤ b.index.toNat := fun b hb =>
    h.one_le (m.sortedBlocks_perm.mem_iff.1 hb)
  rw [blockTable, (Filling.upTo_foldl h.pairwise_sortedBlocks hpos m.places).done,
    blockOrPlaceholder_of_perm h.nodup m.sortedBlocks_perm]

/-- Locals lie in blocks that were recorded, or in none. -/
def LocalsPlaced (m : MethodBuilder) : Prop :=
  ∀ v ∈ m.locals, v.blockIndex ≠ 0 → v.blockIndex ∈ m.blocks.map CodeBlock.index

theorem Makes.indices_subset (h : Makes m e m') :
    m.blocks.map CodeBlock.index ⊆ m'.blocks.map CodeBlock.index := by
  cases h with
  | opened | added =>
    rw [List.map_append]
    exact List.subset_append_left _ _
  | closed => exact fun i hi => (map_index_setEnd m.blocks _ _).symm ▸ hi
  | recorded => exact List.Subset.refl _
  | aside _ _ _ blocks => exact blocks ▸ List.Subset.refl _

theorem LocalsPlaced.makes (h : m.LocalsPlaced) (hm : m.Numbered) (hmakes : Makes m e m') :
    m'.LocalsPlaced := by
  have hsubset := hmakes.indices_subset
  cases hmakes with
  | opened | closed | added => exact fun v hv hzero => hsubset (h v hv hzero)
  | aside _ _ _ _ _ locals =>
    intro v hv hzero
    rw [locals] at hv
    exact hsubset (h v hv hzero)
  | recorded =>
    refine List.forall_mem_append.2 ⟨h, List.forall_mem_singleton.2 fun hzero => ?_⟩
    -- The new local lies in the innermost open block, and open blocks are recorded.
    change m.openBlocks.headD 0 ≠ 0 at hzero
    change m.openBlocks.headD 0 ∈ m.blocks.map CodeBlock.index
    have hopened := hm.open_mem
    cases hopen : m.openBlocks with
    | nil =>
      rw [hopen] at hzero
      exact absurd rfl hzero
    | cons i outer => exact hopened i (hopen ▸ List.mem_cons_self)

theorem Course.localsPlaced (h : Course m es m') (hm : m.Numbered) (hlocals : m.LocalsPlaced) :
    m'.LocalsPlaced := by
  induction h with
  | nil => exact hlocals
  | cons first _ ih => exact ih (hm.makes first) (hlocals.makes hm first)

/-- A definition that has all that was recorded.  The table of blocks reaches to the largest index,
each block stands once and unchanged at the place of its index, and the other places hold
placeholders. -/
structure Normalized (m : MethodBuilder) (d : MethodDefinition) : Prop where
  bounded : ∀ b ∈ m.blocks, b.index.toNat ≤ d.blocks.length
  attained : d.blocks.length = 0 ∨ ∃ b ∈ m.blocks, b.index.toNat = d.blocks.length
  placed : ∀ b ∈ m.blocks, d.blocks[b.index.toNat - 1]? = some b
  filled : ∀ i, 1 ≤ i → i ≤ d.blocks.length → (∀ b ∈ m.blocks, b.index.toNat ≠ i) →
    d.blocks[i - 1]? = some (.placeholder (UInt32.ofNat i))
  once : ∀ b ∈ m.blocks, d.blocks.count b = 1
  undamaged : MethodDefinition.blockDamage? d.token 1 d.blocks = none
  locals_placed : ∀ v ∈ d.locals, v.blockIndex ≠ 0 →
    ∃ b ∈ m.blocks, b.index = v.blockIndex ∧ d.blocks[v.blockIndex.toNat - 1]? = some b
  passed_on : d = {
    token := m.token
    compileUnit := m.compileUnit
    namespaceId := m.namespaceId
    locals := m.locals
    blocks := d.blocks
    scopeVariables := m.scopeVariables
    lines := m.points
    realName := m.realName
    ambiguousLocals := m.ambiguousLocals }

theorem Numbered.getElem?_blockTable (h : m.Numbered) {i : Nat} (hpos : 1 ≤ i)
    (hle : i ≤ m.places) : m.blockTable[i - 1]? = some (blockOrPlaceholder m.blocks i) := by
  rw [h.blockTable_eq, List.getElem?_map, List.getElem?_range' (by omega), Nat.one_mul,
    Nat.add_sub_cancel' hpos]
  rfl

theorem Numbered.toNat_index_blockTable (h : m.Numbered) :
    (m.blockTable.map fun b => b.index.toNat) = List.range' 1 m.places := by
  rw [h.blockTable_eq, List.map_map]
  refine (List.map_congr_left fun i hi => ?_).trans (List.map_id _)
  rw [List.mem_range'_1] at hi
  have := m.places_lt
  exact toNat_index_blockOrPlaceholder _ (by omega)

theorem Numbered.normalized (h : m.Numbered) (hlocals : m.LocalsPlaced)
    (hopen : m.openBlocks = []) : ∃ d, m.define = .ok d ∧ m.Normalized d := by
  have hlength : m.blockTable.length = m.places := by
    rw [h.blockTable_eq, List.length_map, List.length_range']
  have hplaced : ∀ b ∈ m.blocks, m.blockTable[b.index.toNat - 1]? = some b := fun b hb => by
    rw [h.getElem?_blockTable (h.one_le hb) (h.le_places hb), blockOrPlaceholder_of_mem h.nodup hb]
  have hnodup : m.blockTable.Nodup := by
    refine List.Nodup.of_map (fun b => b.index.toNat) ?_
    rw [h.toNat_index_blockTable]
    exact List.nodup_range'
  rw [define, hopen]
  refine ⟨_, rfl, ⟨fun b hb => hlength ▸ h.le_places hb, hlength ▸ m.places_eq, hplaced, ?_, ?_, ?_,
    ?_, rfl⟩⟩
  · intro i hpos hle hnone
    rw [h.getElem?_blockTable hpos (hlength ▸ hle), blockOrPlaceholder_of_forall_ne hnone]
  · intro b hb
    exact List.count_eq_one_of_mem hnodup (List.mem_of_getElem? (hplaced b hb))
  · rw [MethodDefinition.blockDamage?_eq_none_iff]
    intro k hk
    have hindices := congrArg (·[k]?) h.toNat_index_blockTable
    simpa [hk, hlength ▸ hk] using hindices
  · intro v hv hzero
    obtain ⟨b, hb, heq⟩ := List.mem_map.1 (hlocals v hv hzero)
    exact ⟨b, hb, heq, heq ▸ hplaced b hb⟩

/-- Whatever is called on a new builder: it makes no definition exactly while a block is open, and
the definition it makes otherwise has all that was recorded. -/
theorem normalization_lossless (token : Token) (compileUnit namespaceId : UInt32)
    (cs : List BuilderCall) :
    let start : MethodBuilder :=
      { token := token, compileUnit := compileUnit, namespaceId := namespaceId }
    let m := start.afterCalls cs
    let openBlocks := openAfter (start.history cs)
    (openBlocks ≠ [] →
        m.define = .error (.unbalancedBlock (.blocksOpen m.token openBlocks.length))) ∧
      (openBlocks = [] → ∃ d, m.define = .ok d ∧ m.Normalized d) := by
  intro start m openBlocks
  have hstart : start.Blank := ⟨rfl, rfl, rfl⟩
  have hcourse : Course start (start.history cs) m := .of_history start cs
  have hnumbered := hcourse.numbered_of_blank hstart
  have hopen : m.openBlocks = openBlocks := hcourse.openBlocks_of_blank hstart
  rw [← hopen]
  refine ⟨fun hsome => ?_, hnumbered.normalized ?_⟩
  · rw [define, if_neg (by simpa using hsome)]
  · have hnone : start.LocalsPlaced := nofun
    exact hcourse.localsPlaced (Course.nil.numbered_of_blank hstart) hnone

/-- A block is added before one with a lower index, and the number between them is free. -/
example :
    let m := ({ token := ⟨7⟩, compileUnit := 1 } : MethodBuilder).afterCalls [
      .addBlock ⟨3, 1, .lexical, 2, 4⟩, .addBlock ⟨1, -1, .lexical, 0, 9⟩]
    m.blockTable = [⟨1, -1, .lexical, 0, 9⟩, .placeholder 2, ⟨3, 1, .lexical, 2, 4⟩] := by
  cbv

end DebugSymbols.MethodBuilder
