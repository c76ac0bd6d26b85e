import DebugSymbols.Proofs.Bytes.Failing
import DebugSymbols.Proofs.Bytes.Groups
import Mathlib.Algebra.GroupWithZero.Nat

namespace DebugSymbols

namespace Reader

/-- The reader goes on by `least` bytes of the stream or more; if it fails, the stream is the
cause. -/
structure Spends (least : Nat) (r : Reader α) : Prop where
  fails : FailsByStream r
  onward : ∀ {data : Bytes} {p q : Nat} {a : α}, r data p = (.ok a, q) →
    p ≤ q ∧ data.size - q + least ≤ data.size - p

namespace Spends

variable {r : Reader α} {f : α → Reader β} {least most v w : Nat}

theorem mono (h : Spends most r) (hle : least ≤ most) : Spends least r where
  fails := h.fails
  onward hread := by
    have := h.onward hread
    omega

theorem pure (a : α) : Spends 0 (Pure.pure a) where
  fails := .pure a
  onward := by
    rintro data p q b ⟨⟩
    exact ⟨Nat.le_refl p, Nat.le_refl _⟩

theorem malformed (damage : Damage) :
    Spends least (Reader.fail (.malformed damage) : Reader α) where
  fails := .malformed damage
  onward h := absurd h fail_ne_ok

theorem bind (hr : Spends v r) (hf : ∀ a, Spends w (f a)) : Spends (v + w) (r >>= f) where
  fails := hr.fails.bind fun a => (hf a).fails
  onward h := by
    obtain ⟨a, m, ha, hb⟩ := bind_eq_ok.1 h
    have := hr.onward ha
    have := (hf a).onward hb
    omega

theorem map (g : α → β) (hr : Spends w r) : Spends w (g <$> r) := hr.bind fun a => pure (g a)

theorem u8 : Spends 1 Reader.u8 where
  fails := .u8
  onward h := by
    obtain ⟨hsize, rfl⟩ := u8_end h
    omega

theorem varint : Spends 1 Reader.varint where
  fails := .varint
  onward h := by
    have hforward := varint_advances h
    obtain ⟨n, hn, -⟩ := map_eq_ok.1 h
    obtain ⟨bytes, -, hlies, rfl⟩ := Varint.exists_form hn
    have := hlies.length_le
    omega

theorem signedVarint : Spends 1 Reader.signedVarint := varint.map UInt32.toInt32

theorem bytes (count : Nat) : Spends 0 (Reader.bytes count) where
  fails data p q e h := by
    unfold Reader.bytes at h
    split at h
    · cases h
    · cases h
      exact Error.ofStream_outOfBounds
  onward h := by
    unfold Reader.bytes at h
    split at h
    · cases h
      omega
    · cases h

theorem prefixedBytes : Spends 1 Reader.prefixedBytes :=
  varint.bind fun length => bytes length.toNat

theorem position : Spends 0 Reader.position where
  fails := .position
  onward := by
    rintro data p q a ⟨⟩
    exact ⟨Nat.le_refl _, Nat.le_refl _⟩

theorem text : Spends 1 Reader.text := by
  refine position.bind (w := 1) fun start => prefixedBytes.bind (w := 0) fun run => ?_
  cases Utf8.decode run with
  | ok s => exact pure s
  | error fault => exact malformed _

end Spends

end Reader

/-- How many rounds loops were told to make, and how many of these came to an end. -/
structure Tally where
  told : Nat := 0
  made : Nat := 0
deriving DecidableEq, Repr

namespace Tally

instance : Add Tally := ⟨fun m n => ⟨m.told + n.told, m.made + n.made⟩⟩

@[simp] theorem told_add (m n : Tally) : (m + n).told = m.told + n.told := rfl

@[simp] theorem made_add (m n : Tally) : (m + n).made = m.made + n.made := rfl

end Tally

/-- A reader with a tally of the rounds of its loops. -/
def Tallied (α : Type) : Type := Bytes → Nat → (Except Error α × Nat) × Tally

namespace Tallied

def reader (t : Tallied α) : Reader α := fun data p => (t data p).1

def lift (r : Reader α) : Tallied α := fun data p => (r data p, {})

instance : Monad Tallied where
  pure a := lift (pure a)
  bind t f := fun data p =>
    match t data p with
    | ((.ok a, q), n) => ((f a data q).1, n + (f a data q).2)
    | ((.error e, q), n) => ((.error e, q), n)

/-- Adds to the tally what `n` says. -/
def tell (n : Tally) : Tallied Unit := fun _ p => ((.ok (), p), n)

/-- A round, counted when it comes to an end. -/
def round (t : Tallied α) : Tallied α := do
  let a ← t
  tell { made := 1 }
  pure a

/-- The rounds of a loop over the indices `start`, `start + 1`, …, `count` of them. -/
def rounds (t : Nat → Tallied α) : Nat → Nat → Tallied (List α)
  | _, 0 => pure []
  | start, count + 1 => do
    let a ← round (t start)
    let rest ← rounds t (start + 1) count
    pure (a :: rest)

/-- A loop that is told to make `count` rounds. -/
def indexed (t : Nat → Tallied α) (start count : Nat) : Tallied (List α) := do
  tell { told := count }
  rounds t start count

def counted (t : Tallied α) : Tallied (List α) := do
  let count ← lift Reader.varint
  indexed (fun _ => t) 0 count.toNat

section Readers

variable {t : Tallied α} {f : α → Tallied β}

theorem bind_apply (t : Tallied α) (f : α → Tallied β) (data : Bytes) (p : Nat) :
    (t >>= f) data p = match t data p with
      | ((.ok a, q), n) => ((f a data q).1, n + (f a data q).2)
      | ((.error e, q), n) => ((.error e, q), n) := rfl

theorem reader_lift (r : Reader α) : (lift r).reader = r := rfl

theorem reader_pure (a : α) : (pure a : Tallied α).reader = pure a := rfl

theorem reader_bind : (t >>= f).reader = t.reader >>= fun a => (f a).reader := by
  funext data p
  rw [Reader.bind_apply, reader, reader, bind_apply]
  rcases t data p with ⟨⟨_ | a, q⟩, n⟩ <;> rfl

theorem reader_round (t : Tallied α) : (round t).reader = t.reader := by
  simp only [round, reader_bind, reader_pure]
  funext data p
  rw [Reader.bind_apply]
  rcases t.reader data p with ⟨_ | a, q⟩ <;> rfl

theorem reader_rounds (t : Nat → Tallied α) (start count : Nat) :
    (rounds t start count).reader = Reader.indexed (fun i => (t i).reader) start count := by
  induction count generalizing start with
  | zero => rfl
  | succ count ih =>
    simp only [rounds, Reader.indexed, reader_bind, reader_round, ih, reader_pure]

theorem reader_indexed (t : Nat → Tallied α) (start count : Nat) :
    (indexed t start count).reader = Reader.indexed (fun i => (t i).reader) start count :=
  reader_rounds t start count

theorem reader_counted (t : Tallied α) : (counted t).reader = Reader.counted t.reader := by
  simp only [counted, reader_bind, reader_lift, reader_indexed]
  rfl

end Readers

section Runs

variable {t : Tallied α} {f : α → Tallied β} {data : Bytes} {p q : Nat} {b : β} {e : Error}
  {n : Tally}

theorem bind_eq_ok : (t >>= f) data p = ((.ok b, q), n) ↔
    ∃ a m n₁ n₂, t data p = ((.ok a, m), n₁) ∧ f a data m = ((.ok b, q), n₂) ∧ n = n₁ + n₂ := by
  rw [bind_apply]
  rcases t data p with ⟨⟨e | a, m⟩, n₁⟩
  · exact ⟨nofun, by rintro ⟨_, _, _, _, ⟨⟩, -, -⟩⟩
  · constructor
    · intro h
      obtain ⟨hanswer, htally⟩ := Prod.ext_iff.1 h
      exact ⟨a, m, n₁, (f a data m).2, rfl, Prod.ext hanswer rfl, htally.symm⟩
    · rintro ⟨_, _, _, n₂, ⟨⟩, hf, rfl⟩
      simp only [hf]

theorem bind_eq_error : (t >>= f) data p = ((.error e, q), n) ↔
    t data p = ((.error e, q), n) ∨
    ∃ a m n₁ n₂, t data p = ((.ok a, m), n₁) ∧ f a data m = ((.error e, q), n₂) ∧
      n = n₁ + n₂ := by
  rw [bind_apply]
  rcases t data p with ⟨⟨e' | a, m⟩, n₁⟩
  · constructor
    · rintro ⟨⟩
      exact .inl rfl
    · rintro (⟨⟨⟩⟩ | ⟨_, _, _, _, ⟨⟩, -, -⟩)
      rfl
  · constructor
    · intro h
      obtain ⟨hanswer, htally⟩ := Prod.ext_iff.1 h
      exact .inr ⟨a, m, n₁, (f a data m).2, rfl, Prod.ext hanswer rfl, htally.symm⟩
    · rintro (⟨⟨⟩⟩ | ⟨_, _, _, n₂, ⟨⟩, hf, rfl⟩)
      simp only [hf]

theorem lift_eq_iff {r : Reader α} {answer : Except Error α × Nat} :
    lift r data p = (answer, n) ↔ r data p = answer ∧ n = {} := by
  rw [lift, Prod.mk.injEq, eq_comm (a := n)]

theorem le_told_bind {least : Nat} (h : least ≤ (t data p).2.told) :
    least ≤ ((t >>= f) data p).2.told := by
  rw [bind_apply]
  rcases hrun : t data p with ⟨⟨e | a, m⟩, n₁⟩
  · rwa [hrun] at h
  · rw [hrun] at h
    exact Nat.le_trans h (Nat.le_add_right _ _)

theorem le_told_bind_of_ok {least : Nat} {a : α} (ha : t data p = ((.ok a, q), n))
    (h : least ≤ (f a data q).2.told) : least ≤ ((t >>= f) data p).2.told := by
  rw [bind_apply, ha]
  exact Nat.le_trans h (Nat.le_add_left _ _)

theorem le_told_indexed (t : Nat → Tallied α) (start count : Nat) :
    count ≤ (indexed t start count data p).2.told :=
  le_told_bind (t := tell { told := count }) (f := fun _ => rounds t start count) (Nat.le_refl _)

theorem le_told_counted {count : UInt32} (h : Reader.varint data p = (.ok count, q)) :
    count.toNat ≤ (counted t data p).2.told := by
  unfold counted
  exact le_told_bind_of_ok (lift_eq_iff.2 ⟨h, rfl⟩) (le_told_indexed _ _ _)

end Runs

/-- The reader goes on by a byte for each round that comes to an end, and by `least` more.  If it
succeeds, `due` more rounds have come to an end than its loops were told to make.  If it fails, the
stream is the cause. -/
structure Within (due least : Nat) (t : Tallied α) : Prop where
  onward : ∀ {data : Bytes} {p q : Nat} {a : α} {n : Tally}, t data p = ((.ok a, q), n) →
    n.made = n.told + due ∧ p ≤ q ∧ data.size - q + (n.made + least) ≤ data.size - p
  failing : ∀ {data : Bytes} {p q : Nat} {e : Error} {n : Tally}, t data p = ((.error e, q), n) →
    e.OfStream ∧ n.made ≤ n.told + due ∧ n.made ≤ data.size - p

namespace Within

variable {t : Tallied α} {f : α → Tallied β} {least most v w due due' : Nat}

theorem mono (h : Within due most t) (hle : least ≤ most) : Within due least t where
  onward hread := by
    have := h.onward hread
    omega
  failing := h.failing

theorem lift {r : Reader α} (h : r.Spends w) : Within 0 w (Tallied.lift r) where
  onward hread := by
    obtain ⟨hanswer, rfl⟩ := lift_eq_iff.1 hread
    obtain ⟨hforward, hspent⟩ := h.onward hanswer
    refine ⟨rfl, hforward, ?_⟩
    rwa [Nat.zero_add]
  failing hread := by
    obtain ⟨hanswer, rfl⟩ := lift_eq_iff.1 hread
    exact ⟨h.fails _ _ _ _ hanswer, Nat.le_refl 0, Nat.zero_le _⟩

theorem pure (a : α) : Within 0 0 (Pure.pure a : Tallied α) := lift (.pure a)

theorem bind (ht : Within due v t) (hf : ∀ a, Within due' w (f a)) :
    Within (due + due') (v + w) (t >>= f) where
  onward h := by
    obtain ⟨a, m, n₁, n₂, ha, hb, rfl⟩ := bind_eq_ok.1 h
    have := ht.onward ha
    have := (hf a).onward hb
    simp only [Tally.made_add, Tally.told_add]
    omega
  failing h := by
    rcases bind_eq_error.1 h with hfirst | ⟨a, m, n₁, n₂, ha, hb, rfl⟩
    · obtain ⟨hcause, htold, hmade⟩ := ht.failing hfirst
      exact ⟨hcause, by omega, hmade⟩
    · have hspent := ht.onward ha
      obtain ⟨hcause, htold, hmade⟩ := (hf a).failing hb
      simp only [Tally.made_add, Tally.told_add]
      exact ⟨hcause, by omega, by omega⟩

theorem round (ht : Within 0 1 t) : Within 1 0 (Tallied.round t) where
  onward {data p q a n} h := by
    obtain ⟨a, m, n₁, n₂, ha, hb, rfl⟩ := bind_eq_ok.1 h
    obtain rfl : m = q := congrArg (fun r => r.1.2) hb
    obtain rfl : { made := 1 } = n₂ := congrArg Prod.snd hb
    have := ht.onward ha
    simp only [Tally.made_add, Tally.told_add]
    omega
  failing h := by
    rcases bind_eq_error.1 h with hfirst | ⟨a, m, n₁, n₂, ha, hb, rfl⟩
    · obtain ⟨hcause, htold, hmade⟩ := ht.failing hfirst
      exact ⟨hcause, by omega, hmade⟩
    · cases congrArg (fun r => r.1.1) hb

theorem rounds {t : Nat → Tallied α} (ht : ∀ i, Within 0 1 (t i)) (start count : Nat) :
    Within count 0 (Tallied.rounds t start count) := by
  induction count generalizing start with
  | zero => exact pure []
  | succ count ih =>
    have h := (round (ht start)).bind fun a => (ih (start + 1)).bind fun rest => pure (a :: rest)
    rw [Nat.add_zero, Nat.add_comm 1] at h
    exact h

theorem indexed {t : Nat → Tallied α} (ht : ∀ i, Within 0 1 (t i)) (start count : Nat) :
    Within 0 0 (Tallied.indexed t start count) where
  onward h := by
    obtain ⟨_, m, n₁, n₂, htell, hrounds, rfl⟩ := bind_eq_ok.1 h
    cases htell
    have := (rounds ht start count).onward hrounds
    simp only [Tally.made_add, Tally.told_add]
    omega
  failing h := by
    rcases bind_eq_error.1 h with htell | ⟨_, m, n₁, n₂, htell, hrounds, rfl⟩
    · cases htell
    · cases htell
      obtain ⟨hcause, htold, hmade⟩ := (rounds ht start count).failing hrounds
      simp only [Tally.made_add, Tally.told_add]
      exact ⟨hcause, by omega, by omega⟩

theorem counted (ht : Within 0 1 t) : Within 0 1 (Tallied.counted t) :=
  (lift .varint).bind fun count => indexed (fun _ => ht) 0 count.toNat

end Within

/-- What is read has `weight` elements, one for each round that was made. -/
def Yields (weight : α → Nat) (t : Tallied α) : Prop :=
  ∀ (data : Bytes) (p q : Nat) (a : α) (n : Tally), t data p = ((.ok a, q), n) → n.made = weight a

namespace Yields

variable {weight : α → Nat} {t : Tallied α}

theorem lift (r : Reader α) : Yields (fun _ => 0) (Tallied.lift r) := by
  intro data p q a n h
  rw [(lift_eq_iff.1 h).2]

theorem round (ht : Yields weight t) : Yields (fun a => weight a + 1) (Tallied.round t) := by
  intro data p q a n h
  obtain ⟨b, m, n₁, n₂, ha, hb, rfl⟩ := bind_eq_ok.1 h
  obtain rfl : b = a := Except.ok.inj (congrArg (fun r => r.1.1) hb)
  obtain rfl : { made := 1 } = n₂ := congrArg Prod.snd hb
  rw [Tally.made_add, ht _ _ _ _ _ ha]

theorem rounds {t : Nat → Tallied α} (ht : ∀ i, Yields weight (t i)) (start count : Nat) :
    Yields (fun as => (as.map fun a => weight a + 1).sum) (Tallied.rounds t start count) := by
  induction count generalizing start with
  | zero =>
    intro data p q as n h
    cases h
    rfl
  | succ count ih =>
    intro data p q as n h
    obtain ⟨a, m, n₁, n₂, hround, h', rfl⟩ := bind_eq_ok.1 h
    obtain ⟨rest, m', n₃, n₄, hrest, h'', rfl⟩ := bind_eq_ok.1 h'
    cases h''
    simp only [Tally.made_add, (ht start).round _ _ _ _ _ hround, ih _ _ _ _ _ _ hrest,
      List.map_cons, List.sum_cons, Nat.add_zero]

theorem indexed {t : Nat → Tallied α} (ht : ∀ i, Yields weight (t i)) (start count : Nat) :
    Yields (fun as => (as.map fun a => weight a + 1).sum) (Tallied.indexed t start count) := by
  intro data p q as n h
  obtain ⟨_, m, n₁, n₂, htell, hrounds, rfl⟩ := bind_eq_ok.1 h
  cases htell
  rw [Tally.made_add, rounds ht start count _ _ _ _ _ hrounds, Nat.zero_add]

theorem counted (ht : Yields weight t) :
    Yields (fun as => (as.map fun a => weight a + 1).sum) (Tallied.counted t) := by
  intro data p q as n h
  obtain ⟨count, m, n₁, n₂, hcount, hloop, rfl⟩ := bind_eq_ok.1 h
  rw [Tally.made_add, lift Reader.varint _ _ _ _ _ hcount,
    indexed (fun _ => ht) 0 count.toNat _ _ _ _ _ hloop, Nat.zero_add]

theorem indexed_lift (r : Nat → Reader α) (start count : Nat) :
    Yields List.length (Tallied.indexed (fun i => Tallied.lift (r i)) start count) := by
  intro data p q as n h
  have hmade := indexed (fun i => lift (r i)) start count _ _ _ _ _ h
  simpa using hmade

theorem counted_lift (r : Reader α) : Yields List.length (Tallied.counted (Tallied.lift r)) := by
  intro data p q as n h
  obtain ⟨count, m, n₁, n₂, hcount, hloop, rfl⟩ := bind_eq_ok.1 h
  rw [Tally.made_add, lift Reader.varint _ _ _ _ _ hcount,
    indexed_lift (fun _ => r) 0 count.toNat _ _ _ _ _ hloop, Nat.zero_add]

end Yields

end Tallied

end DebugSymbols
