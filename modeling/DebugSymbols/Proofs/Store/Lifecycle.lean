import DebugSymbols.Proofs.Store.Runs

namespace DebugSymbols

/-- A stream in memory that takes bytes up to a limit only. -/
structure LimitedOutput where
  limit : Nat
  output : Output := {}

instance : Sink LimitedOutput where
  position := do return (← get).output.position
  seek target := modify fun o => { o with output := o.output.seek target }
  seekEnd := modify fun o => { o with output := o.output.seekEnd }
  write bytes := do
    let o ← get
    let fitting := bytes.take (o.limit - o.output.position)
    set { o with output := o.output.write fitting }
    if fitting.length < bytes.length then throw (.file .full) else pure ()
  flush := pure ()

namespace Store

def isFilling : Store → Bool
  | authoring _ => true
  | sealed _ | bound _ => false

variable {s : Store} [Sink σ]

theorem perform_sealed (header : Header) {c : StoreCall σ} (hc : c.changes = true) :
    (sealed header).perform c = (⟨.error .alreadySealed, c.stream?⟩, sealed header) := by
  cases c with
  | fill | sealOver => rfl
  | ask | guid | header | appearance => cases hc

theorem perform_bound (b : Bound) {c : StoreCall σ} (hc : c.changes = true) :
    (bound b).perform c = (⟨.error .readOnly, c.stream?⟩, bound b) := by
  cases c with
  | fill | sealOver => rfl
  | ask | guid | header | appearance => cases hc

theorem perform_sealed_snd (header : Header) (c : StoreCall σ) :
    ((sealed header).perform c).2 = sealed header := by
  cases c <;> rfl

theorem after_sealed (header : Header) (cs : List (StoreCall σ)) :
    (sealed header).after cs = sealed header := by
  induction cs with
  | nil => rfl
  | cons c cs ih =>
    change ((sealed header).perform c).2.after cs = _
    rw [perform_sealed_snd, ih]

theorem answer_readsFile (hs : s.isBound = false) {c : StoreCall σ} (hc : c.readsFile = true) :
    (s.perform c).1.answer = .error .notBound := by
  cases s with
  | authoring | sealed =>
    cases c with
    | ask | guid => rfl
    | fill | sealOver | header | appearance => cases hc
  | bound => cases hs

theorem header_error_iff : s.header = .error .notBound ↔ s.isFilling = true := by
  cases s <;> simp [header, isFilling]

theorem isOk_header (hs : s.isFilling = false) : s.header.isOk = true := by
  cases s with
  | authoring => cases hs
  | sealed | bound => rfl

theorem sealed_of_sealOver {stream : σ} {guid : Guid} (h : (s.sealOver stream guid).1 = .ok ()) :
    ∃ header, (s.sealOver stream guid).2.2 = sealed header := by
  cases s with
  | authoring a =>
    rw [sealOver] at h ⊢
    generalize (a.sorted.writeFile guid).run stream = result at h ⊢
    obtain ⟨e | header, stream⟩ := result
    · cases h
    · exact ⟨header, rfl⟩
  | sealed | bound => cases h

/-- Filling ends with a seal that succeeds and with nothing else. -/
theorem exists_sealOver_of_not_filling (hs : s.isFilling = true) {c : StoreCall σ}
    (h : (s.perform c).2.isFilling = false) :
    ∃ stream guid, c = .sealOver stream guid ∧ (s.sealOver stream guid).1 = .ok () := by
  cases s with
  | authoring a =>
    cases c with
    | sealOver stream guid =>
      refine ⟨stream, guid, rfl, ?_⟩
      rw [perform, sealOver] at h
      rw [sealOver]
      generalize (a.sorted.writeFile guid).run stream = result at h ⊢
      obtain ⟨e | header, stream⟩ := result
      · cases h
      · rfl
    | fill | ask | guid | header | appearance => cases h
  | sealed | bound => cases hs

/-- Whatever was called before: a call that fails is never noticed again, in no answer and in no
byte that is written; a store is filled until it is sealed, and then stays sealed; and each state
refuses the calls that it has no use for, without touching their streams. -/
theorem lifecycle {start s : Store} (hstart : start.Initial) (calls : List (StoreCall σ))
    (hs : start.after calls = s) :
    (∀ (c : StoreCall σ) e, (s.perform c).1.answer = .error e →
      ∀ (later : List (StoreCall σ)) (d : StoreCall σ),
      (((s.perform c).2.after later).perform d).1 = ((s.after later).perform d).1) ∧
    (∀ c : StoreCall σ, s.isFilling = true → (s.perform c).2.isFilling = false →
      ∃ stream guid, c = .sealOver stream guid ∧ (s.sealOver stream guid).1 = .ok ()) ∧
    (∀ (stream : σ) (guid : Guid), (s.sealOver stream guid).1 = .ok () →
      ∃ header, ∀ later : List (StoreCall σ),
        (s.perform (.sealOver stream guid)).2.after later = sealed header) ∧
    (s.isSealed = true → ∀ later : List (StoreCall σ), s.after later = s) ∧
    (∀ c : StoreCall σ, c.changes = true → s.isSealed = true →
      s.perform c = (⟨.error .alreadySealed, c.stream?⟩, s)) ∧
    (∀ c : StoreCall σ, c.changes = true → s.isBound = true →
      s.perform c = (⟨.error .readOnly, c.stream?⟩, s)) ∧
    (∀ c : StoreCall σ, c.readsFile = true → s.isBound = false →
      (s.perform c).1.answer = .error .notBound) ∧
    (s.header = .error .notBound ↔ s.isFilling = true) ∧
    (s.isFilling = false → s.header.isOk = true) := by
  have hsound : s.Sound := hs ▸ hstart.sound.after calls
  refine ⟨fun c e he later d => ?_, fun c hfilling h => exists_sealOver_of_not_filling hfilling h,
    fun stream guid h => ?_, fun h later => ?_, fun c hc h => ?_, fun c hc h => ?_,
    fun c hc h => answer_readsFile h hc, header_error_iff, isOk_header⟩
  · -- No call tells the two stores apart, and their runs stay so.
    exact (((hsound.perform_error he).after later).perform d).1.symm
  · obtain ⟨header, hsealed⟩ := sealed_of_sealOver h
    refine ⟨header, fun later => ?_⟩
    rw [perform, hsealed]
    exact after_sealed header later
  · cases s with
    | sealed header => exact after_sealed header later
    | authoring | bound => cases h
  · cases s with
    | sealed header => exact perform_sealed header hc
    | authoring | bound => cases h
  · cases s with
    | bound b => exact perform_bound b hc
    | authoring | sealed => cases h

/-- A seal that runs out of room leaves its methods sorted, which the next seal does not show. -/
theorem lifecycle_full_stream :
    let calls : List (StoreCall LimitedOutput) := [
      .fill (.addSource { index := 0, fileName := "a.cs", checksum := [] }), .fill (.addUnit 1),
      .fill (.defineMethod { token := ⟨7⟩, compileUnit := 1 }), .ask .methods,
      .fill (.defineMethod { token := ⟨3⟩, compileUnit := 1 })]
    let s := (Store.new {}).after calls
    let full : StoreCall LimitedOutput := .sealOver { limit := 20 } .zero
    (s.perform full).1.answer = .error (.file .full) ∧
      ∀ stream : LimitedOutput, ((s.perform full).2.perform (.sealOver stream .zero)).1 =
        (s.perform (.sealOver stream .zero)).1 := by
  intro calls s full
  have hfull : (s.perform full).1.answer = .error (.file .full) := rfl
  exact ⟨hfull, fun stream =>
    (lifecycle (.new {}) calls rfl).1 full _ hfull [] (.sealOver stream .zero)⟩

end Store

end DebugSymbols
