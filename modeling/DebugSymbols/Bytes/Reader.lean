import DebugSymbols.Error

/-!
Readers of a byte stream.  A reader that fails still moves: the position it reached is part of its
answer.
-/
namespace DebugSymbols

abbrev Bytes := Array UInt8

/-- From a stream and a position in it to a value or an error, and the position reached.  Positions
may lie beyond the end of the stream. -/
def Reader (α : Type) : Type := Bytes → Nat → Except Error α × Nat

namespace Reader

def run (r : Reader α) (data : Bytes) (position : Nat) : Except Error α × Nat := r data position

/-- The value alone, for a reader started at `position`. -/
def eval (r : Reader α) (data : Bytes) (position : Nat) : Except Error α := (r data position).1

instance : Monad Reader where
  pure a := fun _ p => (.ok a, p)
  bind r f := fun data p =>
    match r data p with
    | (.ok a, q) => f a data q
    | (.error e, q) => (.error e, q)

def fail (e : Error) : Reader α := fun _ p => (.error e, p)

def position : Reader Nat := fun _ p => (.ok p, p)

def seek (target : Nat) : Reader Unit := fun _ _ => (.ok (), target)

def size : Reader Nat := fun data p => (.ok data.size, p)

/-- Reads elsewhere and comes back, also from a failure. -/
def readAt (target : Nat) (r : Reader α) : Reader α := fun data p => ((r data target).1, p)

/-- A field of fixed width; a failure leaves the position at the end of the stream. -/
def exact (width : Nat) : Reader (List UInt8) := fun data p =>
  if p + width ≤ data.size then (.ok (data.extract p (p + width)).toList, p + width)
  else (.error .outOfBounds, data.size)

/-- A run of bytes; a failure leaves the position alone. -/
def bytes (count : Nat) : Reader (List UInt8) := fun data p =>
  if count ≤ data.size - p then (.ok (data.extract p (p + count)).toList, p + count)
  else (.error .outOfBounds, p)

/-- The answers of `r` at the indices `start`, `start + 1`, …, `count` of them. -/
def indexed (r : Nat → Reader α) : Nat → Nat → Reader (List α)
  | _, 0 => pure []
  | start, count + 1 => do
    let a ← r start
    let rest ← indexed r (start + 1) count
    pure (a :: rest)

def replicate (count : Nat) (r : Reader α) : Reader (List α) := indexed (fun _ => r) 0 count

def traverse (f : α → Reader β) : List α → Reader (List β)
  | [] => pure []
  | a :: as => do
    let b ← f a
    let bs ← traverse f as
    pure (b :: bs)

@[simp] theorem pure_apply (a : α) (data : Bytes) (p : Nat) :
    (pure a : Reader α) data p = (.ok a, p) := rfl

theorem bind_apply (r : Reader α) (f : α → Reader β) (data : Bytes) (p : Nat) :
    (r >>= f) data p = match r data p with
      | (.ok a, q) => f a data q
      | (.error e, q) => (.error e, q) := rfl

theorem map_apply (g : α → β) (r : Reader α) (data : Bytes) (p : Nat) :
    (g <$> r) data p = match r data p with
      | (.ok a, q) => (.ok (g a), q)
      | (.error e, q) => (.error e, q) := rfl

theorem bind_eq_ok {r : Reader α} {f : α → Reader β} {data : Bytes} {p q : Nat} {b : β} :
    (r >>= f) data p = (.ok b, q) ↔ ∃ a m, r data p = (.ok a, m) ∧ f a data m = (.ok b, q) := by
  rw [bind_apply]
  rcases r data p with ⟨_ | a, m⟩
  · simp
  · exact ⟨fun h => ⟨a, m, rfl, h⟩, by rintro ⟨_, _, ⟨⟩, h⟩; exact h⟩

theorem map_eq_ok {r : Reader α} {f : α → β} {data : Bytes} {p q : Nat} {b : β} :
    (f <$> r) data p = (.ok b, q) ↔ ∃ a, r data p = (.ok a, q) ∧ f a = b := by
  change (r >>= fun a => pure (f a)) data p = (.ok b, q) ↔ _
  rw [bind_eq_ok]
  constructor
  · rintro ⟨a, m, h, hf⟩
    simp only [pure_apply, Prod.mk.injEq, Except.ok.injEq] at hf
    exact ⟨a, hf.2 ▸ h, hf.1⟩
  · rintro ⟨a, h, rfl⟩
    exact ⟨a, q, h, rfl⟩

theorem fail_ne_ok {e : Error} {data : Bytes} {p q : Nat} {a : α} :
    (fail e : Reader α) data p ≠ (.ok a, q) := by
  simp [fail]

theorem exact_eq_ok {width : Nat} {data : Bytes} {p q : Nat} {bs : List UInt8} :
    exact width data p = (.ok bs, q) ↔
      p + width ≤ data.size ∧ bs = (data.extract p (p + width)).toList ∧ q = p + width := by
  unfold exact
  by_cases h : p + width ≤ data.size
  · rw [if_pos h]
    simp only [h, true_and, Prod.mk.injEq, Except.ok.injEq, eq_comm]
  · simp [h]

end Reader

end DebugSymbols
