import DebugSymbols.Bytes.Primitive
import Mathlib.Logic.Relation

namespace DebugSymbols

namespace Reader

def ofExcept (answer : Except Error α) : Reader α := fun _ p => (answer, p)

/-- Goes on behind a failure, with the failure as the answer. -/
def attempt (r : Reader α) : Reader (Except Error α) := fun data p =>
  (.ok (r data p).1, (r data p).2)

/-- Moves to the end of the stream and answers where that is. -/
def seekEnd : Reader Nat := fun data _ => (.ok data.size, data.size)

/-- Notes the position, moves to `target`, lets `r` move on from there, whether it fails or not, and
moves back. -/
def thereAndBack (target : Nat) (r : Reader α) : Reader α := do
  let saved ← position
  seek target
  let answer ← attempt r
  seek saved
  ofExcept answer

/-- The length of the stream, found by a move to its end and back. -/
def sizeByMoves : Reader Nat := do
  let saved ← position
  let length ← seekEnd
  seek saved
  pure length

def textAtByMoves (target : Nat) : Reader String := do
  let length ← sizeByMoves
  if target < length then thereAndBack target text else fail .outOfBounds

theorem bind_attempt_apply (r : Reader α) (f : Except Error α → Reader β) (data : Bytes) (p : Nat) :
    (attempt r >>= f) data p = f (r data p).1 data (r data p).2 := rfl

theorem textAt_run (target : Nat) (data : Bytes) (p : Nat) :
    textAt target data p =
      (if target < data.size then text.eval data target else .error .outOfBounds, p) := by
  change (if target < data.size then readAt target text else fail .outOfBounds) data p = _
  split <;> rfl

end Reader

namespace Script

inductive Reply where
  | nothing
  | number (n : Nat)
  | value (v : Primitive)
deriving DecidableEq, Repr

/-- A call that takes no script. -/
inductive Call where
  | position
  | size
  | seek (target : Nat)
  | value (shape : Shape)
  | textAt (target : Nat)
deriving DecidableEq, Repr

namespace Call

def reader : Call → Reader Reply
  | position => .number <$> Reader.position
  | size => .number <$> Reader.size
  | seek target => (fun _ => .nothing) <$> Reader.seek target
  | value shape => .value <$> shape.reader
  | textAt target => (fun s => .value (.text s)) <$> Reader.textAt target

/-- The calls that read elsewhere. -/
inductive OutOfLine : Call → Prop where
  | size : OutOfLine size
  | textAt (target : Nat) : OutOfLine (textAt target)

theorem OutOfLine.reader_apply {c : Call} (h : c.OutOfLine) (data : Bytes) (p : Nat) :
    c.reader data p = (c.reader.eval data 0, p) := by
  cases h with
  | size => rfl
  | textAt target =>
    simp only [reader, Reader.eval, Reader.map_apply, Reader.textAt_run]
    split <;> split <;> simp_all

end Call

end Script

open Script (Reply Call)

/-- A program that calls a reader.  What it does next depends on the answers, the failures among
them; to give up at a failure is to make `stop` of it.  The calls that are noted are those whose
answers and positions are looked at. -/
inductive Script where
  | stop (answer : Except Error Reply)
  | call (noted : Bool) (c : Call) (next : Except Error Reply → Script)
  | readAt (noted : Bool) (target : Nat) (inner : Script) (next : Except Error Reply → Script)

namespace Script

/-- An answer and the position behind the call that gave it. -/
abbrev Note := Except Error Reply × Nat

structure Outcome where
  answer : Except Error Reply
  position : Nat
  notes : List Note

def note (noted : Bool) (answer : Except Error Reply) (p : Nat) : List Note :=
  if noted then [(answer, p)] else []

def reader : Script → Reader Reply
  | stop answer => Reader.ofExcept answer
  | call _ c next => do
    let answer ← Reader.attempt c.reader
    (next answer).reader
  | readAt _ target inner next => do
    let answer ← Reader.attempt (Reader.readAt target inner.reader)
    (next answer).reader

/-- The script's reader with notes.  Those of an inner script come in front of the one of the call
that it belongs to. -/
def run (data : Bytes) : Script → Nat → Outcome
  | stop answer, p => ⟨answer, p, []⟩
  | call noted c next, p =>
    let (answer, q) := c.reader data p
    let rest := (next answer).run data q
    { rest with notes := note noted answer q ++ rest.notes }
  | readAt noted target inner next, p =>
    let inside := inner.run data target
    let rest := (next inside.answer).run data p
    { rest with
      notes := (if noted then inside.notes ++ [(inside.answer, p)] else []) ++ rest.notes }

theorem run_eq_reader (s : Script) (data : Bytes) (p : Nat) :
    ((s.run data p).answer, (s.run data p).position) = s.reader data p := by
  induction s generalizing p with
  | stop answer => rfl
  | call noted c next ih =>
    rw [reader, Reader.bind_attempt_apply, ← ih]
    rfl
  | readAt noted target inner next ihinner ih =>
    have hinside : (inner.run data target).answer = (inner.reader data target).1 :=
      congrArg Prod.fst (ihinner target)
    rw [reader, Reader.bind_attempt_apply, ← ih, run]
    simp only [Reader.readAt, hinside]

theorem run_answer (s : Script) (data : Bytes) (p : Nat) :
    (s.run data p).answer = s.reader.eval data p := congrArg Prod.fst (s.run_eq_reader data p)

section Moves

/-- What waits for the end of an inner script: the position to move back to, the notes up to there
and what comes next. -/
structure Frame where
  saved : Nat
  noted : Bool
  before : List Note
  next : Except Error Reply → Script

/-- A machine with one position.  An inner script moves it like any other, and its end moves it back
to where the frame on top says. -/
structure Machine where
  script : Script
  position : Nat
  notes : List Note
  frames : List Frame

def Machine.step (data : Bytes) : Machine → Option Machine
  | ⟨stop _, _, _, []⟩ => none
  | ⟨stop answer, _, notes, f :: frames⟩ =>
    some ⟨f.next answer, f.saved, if f.noted then notes ++ [(answer, f.saved)] else f.before,
      frames⟩
  | ⟨call noted c next, p, notes, frames⟩ =>
    let (answer, q) := c.reader data p
    some ⟨next answer, q, notes ++ note noted answer q, frames⟩
  | ⟨readAt noted target inner next, p, notes, frames⟩ =>
    some ⟨inner, target, notes, ⟨p, noted, notes, next⟩ :: frames⟩

def Machine.Reaches (data : Bytes) : Machine → Machine → Prop :=
  Relation.ReflTransGen fun m m' => m.step data = some m'

/-- The machine comes to the end of a script where its reader stops, and has the frames then that it
had at first. -/
theorem Machine.reaches_stop (data : Bytes) (s : Script) (p : Nat) (notes : List Note)
    (frames : List Frame) :
    Reaches data ⟨s, p, notes, frames⟩
      ⟨stop (s.run data p).answer, (s.run data p).position, notes ++ (s.run data p).notes,
        frames⟩ := by
  induction s generalizing p notes frames with
  | stop answer =>
    simp only [run, List.append_nil]
    exact .refl
  | call noted c next ih =>
    have hrest := ih (c.reader data p).1 (c.reader data p).2
      (notes ++ note noted (c.reader data p).1 (c.reader data p).2) frames
    rw [List.append_assoc] at hrest
    exact .head rfl hrest
  | readAt noted target inner next ihinner ih =>
    let inside := inner.run data target
    have hinside := ihinner target notes (⟨p, noted, notes, next⟩ :: frames)
    have hrest := ih inside.answer p
      (if noted then notes ++ inside.notes ++ [(inside.answer, p)] else notes) frames
    -- Down into the inner script, and back up at its end.
    refine .head rfl (hinside.trans (.head rfl ?_))
    cases noted with
    | false => exact hrest
    | true =>
      have hnotes (rest : List Note) : notes ++ inside.notes ++ [(inside.answer, p)] ++ rest =
          notes ++ (inside.notes ++ [(inside.answer, p)] ++ rest) := by
        simp only [List.append_assoc]
      rwa [if_pos rfl, hnotes] at hrest

end Moves

/-- `t` is `s` with calls out of line in it, anywhere and at any depth.  From what an inserted call
answers, `t` goes on as `s` does. -/
inductive Inserts (data : Bytes) : Script → Script → Prop where
  | stop (answer : Except Error Reply) : Inserts data (stop answer) (stop answer)
  | call (noted : Bool) (c : Call) {next next' : Except Error Reply → Script}
    (h : ∀ answer, Inserts data (next answer) (next' answer)) :
    Inserts data (call noted c next) (call noted c next')
  | readAt (noted : Bool) (target : Nat) {inner inner' : Script}
    {next next' : Except Error Reply → Script} (hinner : Inserts data inner inner')
    (h : ∀ answer, Inserts data (next answer) (next' answer)) :
    Inserts data (readAt noted target inner next) (readAt noted target inner' next')
  | insertCall {s : Script} {c : Call} {next : Except Error Reply → Script} (hc : c.OutOfLine)
    (h : Inserts data s (next (c.reader.eval data 0))) : Inserts data s (.call false c next)
  | insertReadAt {s : Script} (target : Nat) (inner : Script) {next : Except Error Reply → Script}
    (h : Inserts data s (next (inner.reader.eval data target))) :
    Inserts data s (.readAt false target inner next)

theorem run_inserts {data : Bytes} {s t : Script} (h : Inserts data s t) (p : Nat) :
    t.run data p = s.run data p := by
  induction h generalizing p with
  | stop answer => rfl
  | call noted c _ ih => simp only [run, ih]
  | readAt noted target _ _ ihinner ih => simp only [run, ihinner, ih]
  | insertCall hc _ ih =>
    rw [run, hc.reader_apply]
    exact ih p
  | insertReadAt target inner _ ih =>
    rw [run, run_answer inner]
    exact ih p

/-- Goes on with what was answered and passes on a failure. -/
def orStop (next : Reply → Script) : Except Error Reply → Script
  | .ok reply => next reply
  | .error e => stop (.error e)

theorem run_orStop_call {data : Bytes} {c : Call} {e : Error} (next : Reply → Script)
    (hc : c.OutOfLine) (he : c.reader.eval data 0 = .error e) (p : Nat) :
    (call false c (orStop next)).run data p = ⟨.error e, p, []⟩ := by
  rw [run, hc.reader_apply, he]
  rfl

theorem run_orStop_readAt {data : Bytes} {target : Nat} {inner : Script} {e : Error}
    (next : Reply → Script) (he : inner.reader.eval data target = .error e) (p : Nat) :
    (readAt false target inner (orStop next)).run data p = ⟨.error e, p, []⟩ := by
  rw [run, run_answer inner, he]
  rfl

end Script

/-- Reading out of line leaves nothing behind but its answer. -/
theorem outOfLine_transparent :
    -- It is done by moves there and back.
    (Reader.size = Reader.sizeByMoves ∧
      (∀ target, Reader.textAt target = Reader.textAtByMoves target) ∧
      ∀ {α : Type} (target : Nat) (r : Reader α),
        Reader.readAt target r = Reader.thereAndBack target r) ∧
    -- The answer is that of a new reader which moved there, the position the one from before.
    (∀ (data : Bytes) (p : Nat), Reader.size.run data p = (.ok data.size, p) ∧
      (∀ target, (Reader.textAt target).run data p =
        (if target < data.size then
          Reader.eval (do Reader.seek target; Reader.text) data 0
        else .error .outOfBounds, p)) ∧
      ∀ {α : Type} (target : Nat) (r : Reader α), (Reader.readAt target r).run data p =
        (Reader.eval (do Reader.seek target; r) data 0, p)) ∧
    -- A machine with one position runs scripts like their readers, at any depth.
    (∀ (data : Bytes) (s : Script) (p : Nat),
      ((s.run data p).answer, (s.run data p).position) = s.reader.run data p ∧
      ∀ notes frames, Script.Machine.Reaches data ⟨s, p, notes, frames⟩
        ⟨.stop (s.run data p).answer, (s.run data p).position, notes ++ (s.run data p).notes,
          frames⟩) ∧
    -- Calls out of line in a script change nothing of it.
    (∀ (data : Bytes) (s t : Script), s.Inserts data t → ∀ p, t.run data p = s.run data p) ∧
    -- Where the failure of such a call is passed on, the script ends without having moved.
    ∀ (data : Bytes) (next : Reply → Script) (e : Error) (p : Nat),
      (∀ c : Call, c.OutOfLine → c.reader.eval data 0 = .error e →
        (Script.call false c (Script.orStop next)).run data p = ⟨.error e, p, []⟩) ∧
      ∀ target inner, inner.reader.eval data target = .error e →
        (Script.readAt false target inner (Script.orStop next)).run data p =
          ⟨.error e, p, []⟩ := by
  refine ⟨⟨rfl, fun _ => rfl, fun _ _ => rfl⟩, fun data p => ⟨rfl, ?_, fun _ _ => rfl⟩,
    fun data s p => ⟨s.run_eq_reader data p, Script.Machine.reaches_stop data s p⟩,
    fun data s t h p => Script.run_inserts h p, fun data next e p => ⟨?_, ?_⟩⟩
  · exact fun target => Reader.textAt_run target data p
  · exact fun c hc he => Script.run_orStop_call next hc he p
  · exact fun target inner he => Script.run_orStop_readAt next he p

/-- A text beyond the end between two steps, and the length in front of a read that fails. -/
theorem outOfLine_transparent_failing :
    (Script.call true (.value .u8) fun _ => .call false (.textAt 9) fun _ =>
      .readAt true 1 (.call false .size fun _ => .call true (.value .u32) .stop) fun _ =>
        .call true .position .stop).run #[1, 2, 3] 0 =
      ⟨.ok (.number 1), 1, [(.ok (.value (.u8 1)), 1), (.error .outOfBounds, 3),
        (.error .outOfBounds, 1), (.ok (.number 1), 1)]⟩ := by
  have hinserts : Script.Inserts #[1, 2, 3]
      (.call true (.value .u8) fun _ =>
        .readAt true 1 (.call true (.value .u32) .stop) fun _ => .call true .position .stop)
      (.call true (.value .u8) fun _ => .call false (.textAt 9) fun _ =>
        .readAt true 1 (.call false .size fun _ => .call true (.value .u32) .stop) fun _ =>
          .call true .position .stop) := by
    refine .call _ _ fun _ => .insertCall (.textAt 9) (.readAt _ _ ?_ fun _ => .call _ _ .stop)
    exact .insertCall .size (.call _ _ .stop)
  exact (outOfLine_transparent.2.2.2.1 _ _ _ hinserts 0).trans rfl

end DebugSymbols
