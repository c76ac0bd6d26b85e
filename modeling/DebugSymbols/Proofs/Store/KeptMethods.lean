import DebugSymbols.Proofs.Store.Bindings

/-!
Methods that are kept outlive the files they were looked up in.  When a file is dropped, each of its
methods keeps the parts that were read of it, whichever way it was looked up for that; the other
parts are lost for good.
-/
namespace DebugSymbols

inductive ReadingEvent where
  /-- Opens a file, which may have to belong to a module. -/
  | openFile (data : Bytes) (expected : Option Guid)
  | dropFile (binding : Nat)
  | ask (binding : Nat) (q : Query)
  /-- Keeps the method that a key picks, or all methods. -/
  | keep (binding : Nat) (key : Option MethodKey)
  /-- Reads a part of a kept method. -/
  | read (place : Nat) (part : MethodPart)

/-- Several files that are open or dropped, and methods that are kept of them. -/
structure ReadingSession where
  bindings : Bindings := {}
  kept : List KeptMethod := []
  /-- The file of each binding, for the record. -/
  files : List SymbolFile := []
  /-- The parts of methods that were read successfully, for the record. -/
  reads : List (KeptMethod × MethodPart) := []

def Bound.chosen : Option MethodKey → Lookup (List Method)
  | some key => (fun m => [m]) <$> pick key
  | none => allMethods

/-- What the answer to a read adds to the record. -/
def KeptMethod.recordRead (m : KeptMethod) (part : MethodPart) (answer : Except Error α) :
    List (KeptMethod × MethodPart) :=
  if answer.isOk then [(m, part)] else []

attribute [ext] KeptMethod

theorem KeptMethod.mem_recordRead {m m' : KeptMethod} {part part' : MethodPart}
    {answer : Except Error α} :
    (m', part') ∈ m.recordRead part answer ↔ answer.isOk ∧ m' = m ∧ part' = part := by
  unfold recordRead
  split <;> simp_all

namespace Bindings

/-- What a query adds to the record. -/
def recordQuery (bs : Bindings) (n : Nat) (q : Query) : List (KeptMethod × MethodPart) :=
  match q with
  | .part key part =>
    match (bs.lookup n (Bound.pick key)).1 with
    | .ok m => KeptMethod.recordRead ⟨n, m.record.index⟩ part
        (bs.lookup n (Bound.answer (.part key part))).1
    | .error _ => []
  | _ => []

/-- The methods that are kept of those that were chosen. -/
def keptBy (bs : Bindings) (n : Nat) (key : Option MethodKey) : List KeptMethod :=
  match (bs.lookup n (Bound.chosen key)).1 with
  | .ok ms => ms.map fun m => ⟨n, m.record.index⟩
  | .error _ => []

end Bindings

namespace ReadingSession

variable {s : ReadingSession}

def openFile (s : ReadingSession) (f : SymbolFile) : ReadingSession :=
  { s with bindings := (s.bindings.bind f).2, files := s.files ++ [f] }

def dropFile (s : ReadingSession) (n : Nat) : ReadingSession :=
  { s with bindings := s.bindings.drop n }

def ask (s : ReadingSession) (n : Nat) (q : Query) : ReadingSession :=
  { s with
    bindings := (s.bindings.lookup n (Bound.answer q)).2
    reads := s.reads ++ s.bindings.recordQuery n q }

def keep (s : ReadingSession) (n : Nat) (key : Option MethodKey) : ReadingSession :=
  { s with
    bindings := (s.bindings.lookup n (Bound.chosen key)).2
    kept := s.kept ++ s.bindings.keptBy n key }

def read (s : ReadingSession) (m : KeptMethod) (part : MethodPart) : ReadingSession :=
  { s with
    bindings := (s.bindings.part m part).2
    reads := s.reads ++ m.recordRead part (s.bindings.part m part).1 }

def perform (s : ReadingSession) : ReadingEvent → ReadingSession
  | .openFile data expected =>
    match expected.elim (SymbolFile.open? data) (SymbolFile.openFor? data) with
    | .ok f => s.openFile f
    | .error _ => s
  | .dropFile n => s.dropFile n
  | .ask n q => s.ask n q
  | .keep n key => s.keep n key
  | .read place part =>
    match s.kept[place]? with
    | some m => s.read m part
    | none => s

def after (s : ReadingSession) (events : List ReadingEvent) : ReadingSession :=
  events.foldl perform s

def part (s : ReadingSession) (m : KeptMethod) (part : MethodPart) : Except Error part.Value :=
  (s.bindings.part m part).1

def lineTableLoaded (s : ReadingSession) (m : KeptMethod) : Bool :=
  (s.bindings.method? m).elim false Method.lineTableLoaded

def isOpen (s : ReadingSession) (n : Nat) : Bool := (s.bindings.store? n).isSome

/-- The part was read of the method, or it is a real name that the file records as absent. -/
def HasPart (s : ReadingSession) (m : KeptMethod) (r : MethodRecord) (part : MethodPart) : Prop :=
  (m, part) ∈ s.reads ∨ (part = .realName ∧ r.trailer.realNameOffset = 0)

theorem perform_cases {P : ReadingSession → Prop} (e : ReadingEvent) (same : P s)
    (opened : ∀ f, P (s.openFile f)) (dropped : ∀ n, P (s.dropFile n))
    (asked : ∀ n q, P (s.ask n q)) (chosen : ∀ n key, P (s.keep n key))
    (wasRead : ∀ m ∈ s.kept, ∀ part, P (s.read m part)) : P (s.perform e) := by
  cases e with
  | openFile data expected =>
    unfold perform
    dsimp only
    split
    · exact opened _
    · exact same
  | dropFile n => exact dropped n
  | ask n q => exact asked n q
  | keep n key => exact chosen n key
  | read place part =>
    unfold perform
    dsimp only
    cases hm : s.kept[place]? with
    | none => exact same
    | some m => exact wasRead m (List.mem_of_getElem? hm) part

end ReadingSession

namespace Bound

variable {b b' : Bound} {key : Option MethodKey} {ms : List Method}

theorem extends_chosen (hb : b.Coherent) (key : Option MethodKey) :
    b.Extends ((chosen key).run b).2 := by
  cases key with
  | none =>
    have h := (answers_allMethods b hb).2
    rwa [Step.run_map] at h
  | some key =>
    have h := (answers_pick key b hb).2
    rw [Step.run_map] at h
    rwa [chosen, Step.run_map]

theorem readsNoPart_chosen (key : Option MethodKey) : (chosen key).ReadsNoPart := by
  cases key with
  | none => exact readsNoPart_allMethods
  | some key => exact (readsNoPart_pick key).map _

theorem isSome_methods_of_chosen (h : (chosen key).run b = (.ok ms, b')) : b'.methods.isSome := by
  cases key with
  | none => exact isSome_methods_of_bind (fun _ _ => rfl) h
  | some key =>
    rw [chosen, Step.run_map] at h
    rcases hrun : (pick key).run b with ⟨e | m, b''⟩
    · rw [hrun] at h
      cases h
    · rw [hrun] at h
      cases h
      exact isSome_methods_of_pick hrun

theorem method_of_chosen (hb : b.Coherent) (h : (chosen key).run b = (.ok ms, b')) {m : Method}
    (hm : m ∈ ms) : b.file.method m.record.index = .ok m.record := by
  cases key with
  | none =>
    have hmethods := (answers_allMethods b hb).1
    rw [Step.run_map, show allMethods.run b = _ from h] at hmethods
    exact SymbolFile.method_of_mem hmethods.symm (List.mem_map_of_mem hm)
  | some key =>
    have hpick := (answers_pick key b hb).1
    rw [Step.run_map] at hpick
    rw [chosen, Step.run_map] at h
    rcases hrun : (pick key).run b with ⟨e | picked, b''⟩
    · rw [hrun] at h
      cases h
    · rw [hrun] at h hpick
      cases h
      obtain rfl := List.mem_singleton.1 hm
      obtain ⟨records, hrecords, hmem⟩ := SymbolFile.mem_of_pick hpick.symm
      exact SymbolFile.method_of_mem hrecords hmem

end Bound

namespace ReadingSession

/-- A method of the file of a binding, whose methods were loaded. -/
def Loaded (s : ReadingSession) (m : KeptMethod) : Prop :=
  ∃ b f r, s.bindings.all[m.binding]? = some b ∧ b.methods?.isSome ∧
    s.files[m.binding]? = some f ∧ f.method m.index = .ok r

/-- What holds of a session after any events: each binding is one of its file, has the parts that
are on record, and no others; and no method is kept before it was loaded. -/
structure Sound (s : ReadingSession) : Prop where
  size : s.files.length = s.bindings.all.size
  bindings : ∀ n b f, s.bindings.all[n]? = some b → s.files[n]? = some f →
    b.Of f ∧ HasRead (fun index part => (⟨n, index⟩, part) ∈ s.reads) b.methods?
  reads : ∀ m part, (m, part) ∈ s.reads → m.binding < s.bindings.all.size
  kept : ∀ m ∈ s.kept, s.Loaded m

variable {s : ReadingSession} {n : Nat} {b b' : Binding}

theorem Sound.exists_file (hs : s.Sound) (hb : s.bindings.all[n]? = some b) :
    ∃ f, s.files[n]? = some f := by
  have hlt := (Array.getElem?_eq_some_iff.1 hb).1
  rw [← hs.size] at hlt
  exact ⟨s.files[n], List.getElem?_eq_getElem hlt⟩

/-- One binding gives way to another, and the parts that were read by that go on record. -/
theorem Sound.change (hs : s.Sound) (hb : s.bindings.all[n]? = some b)
    {new : UInt32 → MethodPart → Prop} (hgrows : ∀ f, b.Of f → b.Grows f new b')
    {entries : List (KeptMethod × MethodPart)}
    (hentries : ∀ m part, (m, part) ∈ entries ↔ m.binding = n ∧ new m.index part) :
    Sound { s with
      bindings := ⟨s.bindings.all.setIfInBounds n b'⟩
      reads := s.reads ++ entries } where
  size := by simp [hs.size]
  bindings k c f hc hf := by
    dsimp only at hc hf ⊢
    rw [Array.getElem?_setIfInBounds] at hc
    by_cases heq : n = k
    · subst heq
      rw [if_pos rfl, if_pos (Array.getElem?_eq_some_iff.1 hb).1] at hc
      cases hc
      obtain ⟨hof, hread⟩ := hs.bindings n b f hb hf
      obtain ⟨hof', hreads⟩ := hgrows f hof
      refine ⟨hof', (hreads.hasRead _ hread).congr ?_⟩
      intro index part
      rw [List.mem_append, hentries]
      simp
    · -- No new entry is one of another binding.
      rw [if_neg heq] at hc
      obtain ⟨hof, hread⟩ := hs.bindings k c f hc hf
      refine ⟨hof, hread.congr ?_⟩
      intro index part
      rw [List.mem_append, hentries]
      simp [Ne.symm heq]
  reads m part hmem := by
    rw [Array.size_setIfInBounds]
    rcases List.mem_append.1 hmem with hmem | hmem
    · exact hs.reads m part hmem
    · rw [((hentries m part).1 hmem).1]
      exact (Array.getElem?_eq_some_iff.1 hb).1
  kept m hm := by
    obtain ⟨c, f, r, hc, hloaded, hf, hr⟩ := hs.kept m hm
    unfold Loaded
    rw [Array.getElem?_setIfInBounds]
    by_cases heq : n = m.binding
    · -- What was loaded is not lost.
      rw [← heq] at hc hf
      rw [hb] at hc
      cases hc
      have hof := (hs.bindings n b f hb hf).1
      rw [if_pos heq]
      refine ⟨b', f, r, if_pos (Array.getElem?_eq_some_iff.1 hb).1, ?_, heq ▸ hf, hr⟩
      exact (hgrows f hof).reads.isSome hloaded
    · rw [if_neg heq]
      exact ⟨c, f, r, hc, hloaded, hf, hr⟩

theorem Sound.replace (hs : s.Sound) (hb : s.bindings.all[n]? = some b)
    (hgrows : ∀ f, b.Of f → b.Grows f (fun _ _ => False) b') :
    Sound { s with bindings := ⟨s.bindings.all.setIfInBounds n b'⟩ } := by
  have hnone (m : KeptMethod) (part : MethodPart) : (m, part) ∈ [] ↔ m.binding = n ∧ False := by
    simp
  simpa using hs.change hb hgrows hnone

theorem Sound.lookup (hs : s.Sound) (n : Nat) {l : Lookup α}
    (hext : ∀ b : Bound, b.Coherent → b.Extends (l.run b).2) (hreads : l.ReadsNoPart) :
    Sound { s with bindings := (s.bindings.lookup n l).2 } := by
  by_cases hlive : ∃ bound, s.bindings.all[n]? = some (.live bound)
  · obtain ⟨bound, hb⟩ := hlive
    rw [Bindings.lookup_live hb]
    exact hs.replace hb fun f hof =>
      Binding.grows_extends hof (hext bound hof.1) (hreads bound)
  · rw [Bindings.lookup_not_live fun bound hb => hlive ⟨bound, hb⟩]
    exact hs

theorem Sound.openFile (hs : s.Sound) (f : SymbolFile) : (s.openFile f).Sound where
  size := by simp [ReadingSession.openFile, Bindings.bind, hs.size]
  bindings k b g hb hg := by
    dsimp only [ReadingSession.openFile, Bindings.bind] at hb hg ⊢
    rw [Array.getElem?_push] at hb
    by_cases hk : k = s.bindings.all.size
    · -- Of the new binding nothing is on record yet.
      subst hk
      rw [if_pos rfl] at hb
      cases hb
      rw [← hs.size, List.getElem?_concat_length] at hg
      cases hg
      refine ⟨⟨Bound.coherent_of_file f, rfl⟩, ?_⟩
      intro index part hread
      exact absurd (hs.reads _ part hread) (Nat.lt_irrefl _)
    · rw [if_neg hk] at hb
      have hlt := (Array.getElem?_eq_some_iff.1 hb).1
      rw [← hs.size] at hlt
      rw [List.getElem?_append_left hlt] at hg
      exact hs.bindings k b g hb hg
  reads m part hread := by
    simp only [ReadingSession.openFile, Bindings.bind, Array.size_push]
    exact Nat.lt_succ_of_lt (hs.reads m part hread)
  kept m hm := by
    obtain ⟨b, g, r, hb, hloaded, hg, hr⟩ := hs.kept m hm
    refine ⟨b, g, r, ?_, hloaded, ?_, hr⟩
    · have hlt := (Array.getElem?_eq_some_iff.1 hb).1
      simp only [ReadingSession.openFile, Bindings.bind]
      rw [Array.getElem?_push, if_neg (Nat.ne_of_lt hlt), hb]
    · have hlt := (List.getElem?_eq_some_iff.1 hg).1
      exact (List.getElem?_append_left hlt).trans hg

theorem Sound.dropFile (hs : s.Sound) (n : Nat) : (s.dropFile n).Sound := by
  unfold ReadingSession.dropFile
  cases hb : s.bindings.all[n]? with
  | none =>
    rw [Bindings.drop_of_none hb]
    exact hs
  | some b =>
    rw [Bindings.drop_of_getElem? hb]
    exact hs.replace hb fun f hof => Binding.grows_drop hof

theorem Sound.read (hs : s.Sound) {m : KeptMethod} (hm : s.Loaded m) (part : MethodPart) :
    (s.read m part).Sound := by
  unfold ReadingSession.read
  obtain ⟨b, f, r, hb, -, -, -⟩ := hm
  rw [Bindings.part_of_getElem? hb]
  apply hs.change hb fun f hof => Binding.grows_part hof m.index part
  intro m' part'
  rw [KeptMethod.mem_recordRead]
  constructor
  · rintro ⟨hok, rfl, rfl⟩
    exact ⟨rfl, hok, rfl, rfl⟩
  · rintro ⟨hbinding, hok, hindex, rfl⟩
    exact ⟨hok, KeptMethod.ext hbinding hindex, rfl⟩

theorem Sound.ask (hs : s.Sound) (n : Nat) (q : Query) : (s.ask n q).Sound := by
  unfold ReadingSession.ask
  have hext (b : Bound) (hb : b.Coherent) := (Bound.answers_answer q b hb).2
  -- Only a query for a part can go on record, under the method that its key picks.
  by_cases hpart : ∃ key part, q = .part key part
  · obtain ⟨key, part, rfl⟩ := hpart
    by_cases hlive : ∃ bound, s.bindings.all[n]? = some (.live bound)
    · obtain ⟨bound, hb⟩ := hlive
      rw [Bindings.lookup_live hb]
      apply hs.change hb fun f hof => Binding.grows_extends hof (hext bound hof.1)
        (Bound.readsParts_answer_part bound key part)
      intro m p
      rw [Bindings.recordQuery, Bindings.lookup_live hb, Bindings.lookup_live hb]
      dsimp only
      cases ((Bound.pick key).run bound).1 with
      | error e => simp
      | ok picked =>
        dsimp only
        rw [KeptMethod.mem_recordRead, KeptMethod.ext_iff]
        constructor
        · rintro ⟨hok, ⟨hbinding, hindex⟩, rfl⟩
          exact ⟨hbinding, picked, rfl, hok, hindex, rfl⟩
        · rintro ⟨hbinding, _, hpicked, hok, hindex, rfl⟩
          cases hpicked
          exact ⟨hok, ⟨hbinding, hindex⟩, rfl⟩
    · have hnot := fun bound hb => hlive ⟨bound, hb⟩
      rw [Bindings.lookup_not_live hnot, Bindings.recordQuery, Bindings.lookup_not_live hnot]
      simpa using hs
  · have hnone : s.bindings.recordQuery n q = [] := by
      cases q with
      | part key part => exact absurd ⟨key, part, rfl⟩ hpart
      | _ => rfl
    rw [hnone, List.append_nil]
    exact hs.lookup n hext (Bound.readsNoPart_answer q fun key part hq => hpart ⟨key, part, hq⟩)

theorem Sound.loaded_of_keptBy (hs : s.Sound) {key : Option MethodKey} {m : KeptMethod}
    (hm : m ∈ s.bindings.keptBy n key) : (s.keep n key).Loaded m := by
  unfold Bindings.keptBy at hm
  by_cases hlive : ∃ bound, s.bindings.all[n]? = some (.live bound)
  · obtain ⟨bound, hb⟩ := hlive
    obtain ⟨f, hf⟩ := hs.exists_file hb
    obtain ⟨⟨hcoherent, rfl⟩, -⟩ := hs.bindings n _ f hb hf
    rw [Bindings.lookup_live hb] at hm
    rcases hrun : (Bound.chosen key).run bound with ⟨e | ms, bound'⟩
    · rw [hrun] at hm
      cases hm
    · rw [hrun] at hm
      obtain ⟨method, hmethod, rfl⟩ := List.mem_map.1 hm
      refine ⟨.live bound', bound.file, method.record, ?_, Bound.isSome_methods_of_chosen hrun, hf,
        Bound.method_of_chosen hcoherent hrun hmethod⟩
      have hlt := (Array.getElem?_eq_some_iff.1 hb).1
      rw [ReadingSession.keep, Bindings.lookup_live hb, hrun]
      dsimp only
      rw [Array.getElem?_setIfInBounds, if_pos rfl, if_pos hlt]
  · rw [Bindings.lookup_not_live fun bound hb => hlive ⟨bound, hb⟩] at hm
    cases hm

theorem Sound.keep (hs : s.Sound) (n : Nat) (key : Option MethodKey) : (s.keep n key).Sound := by
  have hnext := hs.lookup n (fun b hb => Bound.extends_chosen hb key)
    (Bound.readsNoPart_chosen key)
  refine ⟨hnext.size, hnext.bindings, hnext.reads, fun m hm => ?_⟩
  rcases List.mem_append.1 hm with hm | hm
  · exact hnext.kept m hm
  · exact hs.loaded_of_keptBy hm

theorem Sound.perform (hs : s.Sound) (e : ReadingEvent) : (s.perform e).Sound :=
  perform_cases e hs hs.openFile hs.dropFile hs.ask hs.keep fun m hm => hs.read (hs.kept m hm)

theorem Sound.after (hs : s.Sound) (events : List ReadingEvent) : (s.after events).Sound := by
  induction events generalizing s with
  | nil => exact hs
  | cons e events ih => exact ih (hs.perform e)

theorem sound_empty : Sound {} where
  size := rfl
  bindings := by simp
  reads := by simp
  kept := by simp

theorem perform_dropped {methods : Option MethodTable}
    (h : s.bindings.all[n]? = some (.dropped methods)) (e : ReadingEvent) :
    (s.perform e).bindings.all[n]? = some (.dropped methods) := by
  apply perform_cases (P := fun next => next.bindings.all[n]? = some (.dropped methods)) e h
  case opened =>
    intro f
    have hlt := (Array.getElem?_eq_some_iff.1 h).1
    dsimp only [openFile, Bindings.bind]
    rw [Array.getElem?_push, if_neg (Nat.ne_of_lt hlt), h]
  case dropped =>
    intro k
    rw [dropFile, Bindings.getElem?_drop, h]
    split <;> rfl
  case asked => exact fun k q => Bindings.lookup_dropped h k (Bound.answer q)
  case chosen => exact fun k key => Bindings.lookup_dropped h k (Bound.chosen key)
  case wasRead => exact fun m _ part => Bindings.part_dropped h m part

theorem after_dropped {methods : Option MethodTable}
    (h : s.bindings.all[n]? = some (.dropped methods)) (events : List ReadingEvent) :
    (s.after events).bindings.all[n]? = some (.dropped methods) := by
  induction events generalizing s with
  | nil => exact h
  | cons e events ih => exact ih (perform_dropped h e)

/-- No method of a file is kept any more after the file was dropped. -/
theorem kept_of_perform {methods : Option MethodTable} {m : KeptMethod}
    (h : s.bindings.all[m.binding]? = some (.dropped methods)) {e : ReadingEvent} :
    m ∈ (s.perform e).kept → m ∈ s.kept := by
  apply perform_cases (P := fun next => m ∈ next.kept → m ∈ s.kept) e id
  case opened => exact fun _ => id
  case dropped => exact fun _ => id
  case asked => exact fun _ _ => id
  case wasRead => exact fun _ _ _ => id
  case chosen =>
    intro k key hm
    rcases List.mem_append.1 hm with hm | hm
    · exact hm
    · -- A file that was dropped answers no look-up.
      unfold Bindings.keptBy at hm
      by_cases hk : k = m.binding
      · have hnot (bound : Bound) : s.bindings.all[k]? ≠ some (.live bound) := by
          rw [hk, h]
          simp
        rw [Bindings.lookup_not_live hnot] at hm
        cases hm
      · split at hm
        · obtain ⟨method, -, rfl⟩ := List.mem_map.1 hm
          exact absurd rfl hk
        · cases hm

theorem kept_of_after {methods : Option MethodTable} {m : KeptMethod}
    (h : s.bindings.all[m.binding]? = some (.dropped methods)) {events : List ReadingEvent}
    (hm : m ∈ (s.after events).kept) : m ∈ s.kept := by
  induction events generalizing s with
  | nil => exact hm
  | cons e events ih => exact kept_of_perform h (ih (perform_dropped h e) hm)

theorem files_after (s : ReadingSession) (events : List ReadingEvent) :
    s.files <+: (s.after events).files := by
  induction events generalizing s with
  | nil => exact List.prefix_refl _
  | cons e events ih =>
    refine List.IsPrefix.trans ?_ (ih (s.perform e))
    have hsame := List.prefix_refl s.files
    exact perform_cases (P := fun next => s.files <+: next.files) e hsame
      (fun f => List.prefix_append _ [f]) (fun _ => hsame) (fun _ _ => hsame) (fun _ _ => hsame)
      (fun _ _ _ => hsame)

/-- A method that was loaded is in the table of its binding, with the parts on record. -/
theorem Sound.exists_method (hs : s.Sound) {m : KeptMethod} (hm : s.Loaded m) :
    ∃ b f t method, s.bindings.all[m.binding]? = some b ∧ s.files[m.binding]? = some f ∧ b.Of f ∧
      b.methods? = some t ∧ t.at? m.index = some method ∧ method.Coherent f ∧
      f.method m.index = .ok method.record ∧
      ∀ part, (method.part? part).isSome ↔
        (m, part) ∈ s.reads ∨ (method.record.knownPart? part).isSome := by
  obtain ⟨b, f, r, hb, hloaded, hf, hr⟩ := hm
  obtain ⟨t, ht⟩ := Option.isSome_iff_exists.1 hloaded
  obtain ⟨hof, hread⟩ := hs.bindings m.binding b f hb hf
  have hcoherent := hof.coherent ht
  -- The table has under the index what the file has there.
  have hat : (t.at? m.index).map Method.record = some r := by
    change f.pick (.index m.index) = .ok r at hr
    rw [SymbolFile.pick_eq hcoherent.records, pickAmong, entryAt, ← t.record_at?] at hr
    cases hmethod : (t.at? m.index).map Method.record with
    | none =>
      rw [hmethod] at hr
      cases hr
    | some found =>
      rw [hmethod] at hr
      cases hr
      rfl
  obtain ⟨method, hmethod, rfl⟩ := Option.map_eq_some_iff.1 hat
  rw [ht] at hread
  exact ⟨b, f, t, method, hb, hf, hof, ht, hmethod, hcoherent.of_at? hmethod, hr,
    hread m.index method hmethod⟩

variable {m : KeptMethod} {f : SymbolFile}

theorem exists_bound (h : s.isOpen n) : ∃ bound, s.bindings.all[n]? = some (.live bound) := by
  unfold isOpen Bindings.store? at h
  rcases hb : s.bindings.all[n]? with _ | (bound | methods)
  · rw [hb] at h
    cases h
  · exact ⟨bound, rfl⟩
  · rw [hb] at h
    cases h

/-- While a file is open, a key keeps the method that it picks there, whichever key picks it. -/
theorem Sound.kept_keep (hs : s.Sound) (hopen : s.isOpen n) (hf : s.files[n]? = some f)
    {key : MethodKey} {r : MethodRecord} (hr : f.pick key = .ok r) :
    (s.keep n (some key)).kept = s.kept ++ [⟨n, r.index⟩] := by
  obtain ⟨bound, hb⟩ := exists_bound hopen
  obtain ⟨⟨hcoherent, rfl⟩, -⟩ := hs.bindings n _ f hb hf
  have hpick := (Bound.answers_pick key bound hcoherent).1
  rw [Step.run_map] at hpick
  dsimp only at hpick
  rw [hr] at hpick
  show s.kept ++ s.bindings.keptBy n (some key) = _
  rw [Bindings.keptBy, Bindings.lookup_live hb, Bound.chosen, Step.run_map]
  rcases hrun : (Bound.pick key).run bound with ⟨e | picked, bound'⟩
  · rw [hrun] at hpick
    cases hpick
  · rw [hrun] at hpick
    cases hpick
    rfl

theorem Sound.part_open (hs : s.Sound) (hopen : s.isOpen m.binding) (hm : s.Loaded m)
    (hf : s.files[m.binding]? = some f) {r : MethodRecord} (hr : f.method m.index = .ok r)
    (part : MethodPart) : s.part m part = f.part r part := by
  obtain ⟨b, _, _, hb, hloaded, -, -⟩ := hm
  obtain ⟨bound, hbound⟩ := exists_bound hopen
  rw [hb] at hbound
  cases hbound
  obtain ⟨⟨hcoherent, rfl⟩, -⟩ := hs.bindings m.binding _ f hb hf
  rw [ReadingSession.part, Bindings.part_of_getElem? hb, Binding.part_live hloaded]
  exact (Bound.answers_part m.index part bound hcoherent).1.trans
    (SymbolFile.partAt_of_method hr part)

/-- What is left of the methods of a file when it is dropped stays for good. -/
theorem after_drop (hopen : s.isOpen n) (later : List ReadingEvent) :
    ∃ bound, s.bindings.all[n]? = some (.live bound) ∧
      (s.after (.dropFile n :: later)).bindings.all[n]? = some (.dropped bound.methods) ∧
      ∀ m ∈ (s.after (.dropFile n :: later)).kept, m.binding = n → m ∈ s.kept := by
  obtain ⟨bound, hb⟩ := exists_bound hopen
  have hdropped : (s.dropFile n).bindings.all[n]? = some (.dropped bound.methods) := by
    rw [dropFile, Bindings.getElem?_drop, if_pos rfl, hb]
    rfl
  refine ⟨bound, hb, after_dropped hdropped later, ?_⟩
  rintro m hm rfl
  exact kept_of_after (s := s.dropFile m.binding) hdropped hm

/-- A method answers after the drop what was read of it before, and nothing else. -/
theorem Sound.part_dropped {s' : ReadingSession} {bound : Bound} {r : MethodRecord} (hs : s.Sound)
    (hm : s.Loaded m) (hbound : s.bindings.all[m.binding]? = some (.live bound))
    (hdropped : s'.bindings.all[m.binding]? = some (.dropped bound.methods))
    (hf : s.files[m.binding]? = some f) (hr : f.method m.index = .ok r) (part : MethodPart) :
    (s.HasPart m r part → ∃ v, f.part r part = .ok v ∧ s'.part m part = .ok v) ∧
      (¬ s.HasPart m r part → s'.part m part = .error .notBound) := by
  obtain ⟨b, f', t, method, hb, hf', -, ht, hmethod, hcoherent, hr', hparts⟩ :=
    hs.exists_method hm
  rw [hbound] at hb
  cases hb
  rw [hf] at hf'
  cases hf'
  rw [hr] at hr'
  cases hr'
  have hanswer : s'.part m part = (method.part? part).elim (.error .notBound) .ok := by
    rw [ReadingSession.part, Bindings.part_of_getElem? hdropped,
      show bound.methods = some t from ht, Binding.part_dropped hmethod]
  have hhas : s.HasPart m method.record part ↔ (method.part? part).isSome := by
    rw [hparts, MethodRecord.isSome_knownPart?]
    rfl
  rw [hanswer, hhas]
  cases hpart : method.part? part with
  | none => exact ⟨fun h => absurd h (by simp), fun _ => rfl⟩
  | some v => exact ⟨fun _ => ⟨v, hcoherent.parts part v hpart, rfl⟩, fun h => absurd rfl h⟩

/-- After any events, a kept method is one of the file of its own binding.  Its line table is loaded
if and only if it was read.  While the file is open the method answers from it, and any key keeps
the method that it picks there; once the file was dropped, the method answers what it had then, and
nothing else. -/
theorem kept_method_outlives_file (events : List ReadingEvent) {m : KeptMethod}
    (hkept : m ∈ (after {} events).kept) :
    ∃ f r, (after {} events).files[m.binding]? = some f ∧ f.method m.index = .ok r ∧
      ((after {} events).lineTableLoaded m ↔ (m, .lines) ∈ (after {} events).reads) ∧
      ((after {} events).isOpen m.binding →
        (∀ part, (after {} events).part m part = f.part r part) ∧
        ∀ key picked, f.pick key = .ok picked →
          (after {} (events ++ [.keep m.binding (some key)])).kept =
            (after {} events).kept ++ [⟨m.binding, picked.index⟩]) ∧
      ∀ before later, events = before ++ .dropFile m.binding :: later →
        (after {} before).isOpen m.binding →
        (after {} before).files[m.binding]? = some f ∧
        ∀ part,
          ((after {} before).HasPart m r part →
            ∃ v, f.part r part = .ok v ∧ (after {} events).part m part = .ok v) ∧
          (¬ (after {} before).HasPart m r part →
            (after {} events).part m part = .error .notBound) := by
  have hs := sound_empty.after events
  obtain ⟨b, f, t, method, hb, hf, hof, ht, hmethod, -, hr, hparts⟩ :=
    hs.exists_method (hs.kept m hkept)
  refine ⟨f, method.record, hf, hr, ?_, ?_, ?_⟩
  · have hfound : (after {} events).bindings.method? m = some method := by
      simp only [Bindings.method?, hb, ht, hmethod, Option.bind_some]
    rw [lineTableLoaded, hfound]
    have hlines := hparts .lines
    rw [MethodRecord.isSome_knownPart?] at hlines
    show (method.part? .lines).isSome ↔ _
    simpa using hlines
  · intro hopen
    refine ⟨hs.part_open hopen (hs.kept m hkept) hf hr, ?_⟩
    intro key picked hpicked
    rw [after, List.foldl_append]
    exact hs.kept_keep hopen hf hpicked
  · intro before later hevents hopen
    obtain ⟨bound, hbound, hdropped, hstays⟩ := after_drop hopen later
    have hafter : (after {} before).after (.dropFile m.binding :: later) = after {} events := by
      rw [hevents, after, after, after, List.foldl_append]
    rw [hafter] at hdropped hstays
    have hs' := sound_empty.after before
    have hm := hs'.kept m (hstays m hkept rfl)
    -- The file is the one from before the drop.
    have hf' : (after {} before).files[m.binding]? = some f := by
      obtain ⟨g, hg⟩ := hs'.exists_file hbound
      have hlt := (List.getElem?_eq_some_iff.1 hg).1
      obtain ⟨others, hfiles⟩ := files_after (after {} before) (.dropFile m.binding :: later)
      rwa [← hafter, ← hfiles, List.getElem?_append_left hlt] at hf
    exact ⟨hf', hs'.part_dropped hm hbound hdropped hf' hr⟩

/-- A method is kept by index and by token.  The one reads its lines, the other its blocks, in vain.
After the drop it has its lines and its absent real name, but not the locals that were not asked for
in time.  A file that is opened later has no part in that. -/
theorem kept_method_outlives_file_read_by_token :
    let preamble : Preamble := { guid := .zero }
    let header : Header := {
      methodCount := 1, methodTableOffset := 112, lineBase := -1, lineRange := 8, opcodeBase := 9 }
    let trailer : MethodTrailer := ⟨1, 100, 0, 0, 100, 0, 0⟩
    let data : Bytes := (preamble.encode ++ header.encode ++ littleEndian 4 5 ++
      littleEndian 4 124 ++ littleEndian 4 131 ++ trailer.encode ++ [1, 0, 1, 1]).toArray
    let before : List ReadingEvent := [.openFile data none, .keep 0 (some (.index 1)),
      .keep 0 (some (.token ⟨5⟩)), .read 1 .lines, .read 0 .blocks]
    let later : List ReadingEvent := [.openFile data none, .keep 1 none, .read 2 .locals]
    let m : KeptMethod := ⟨0, 1⟩
    let s := after {} (before ++ .dropFile 0 :: later)
    let lines : LineTable := ⟨[{ file := 1, row := 1, offset := 0 }]⟩
    m ∈ s.kept ∧ s.lineTableLoaded m ∧ s.part m .lines = .ok lines ∧
      s.part m .realName = .ok none ∧ s.part m .blocks = .error .notBound ∧
      s.part m .locals = .error .notBound := by
  intro preamble header trailer data before later m s lines
  -- One file was open before the drop, and one part was read of it.
  let file : SymbolFile := ⟨data, preamble, header, .default⟩
  let record : MethodRecord := ⟨⟨5⟩, 1, 131, trailer⟩
  have hkept : m ∈ s.kept := by decide +kernel
  have hopen : (after {} before).isOpen 0 := by decide +kernel
  have hreads : (after {} before).reads = [(m, .lines)] := by decide +kernel
  have hread : (m, .lines) ∈ (after {} before).reads := by simp [hreads]
  have hfile : (after {} before).files[0]? = some file := by decide +kernel
  have hmethod : file.method 1 = .ok record := by decide +kernel
  have hlines : file.part record .lines = .ok lines := by decide +kernel
  obtain ⟨f, r, -, hr, hloaded, -, hdrop⟩ :=
    kept_method_outlives_file (before ++ .dropFile 0 :: later) hkept
  obtain ⟨hf, hparts⟩ := hdrop before later rfl hopen
  obtain rfl : f = file := Option.some.inj (hf.symm.trans hfile)
  obtain rfl : r = record := Except.ok.inj (hr.symm.trans hmethod)
  have hlost (part : MethodPart) (hne : part ≠ .lines) (hname : part ≠ .realName) :
      s.part m part = .error .notBound := by
    apply (hparts part).2
    rintro (hread | ⟨heq, -⟩)
    · rw [hreads] at hread
      exact hne (congrArg Prod.snd (List.mem_singleton.1 hread))
    · exact hname heq
  refine ⟨hkept, hloaded.2 (by decide +kernel), ?_, ?_, hlost .blocks nofun nofun,
    hlost .locals nofun nofun⟩
  · obtain ⟨v, hv, hpart⟩ := (hparts .lines).1 (.inl hread)
    rw [hlines] at hv
    cases hv
    exact hpart
  · obtain ⟨v, hv, hpart⟩ := (hparts .realName).1 (.inr ⟨rfl, rfl⟩)
    cases hv
    exact hpart

end ReadingSession

end DebugSymbols
