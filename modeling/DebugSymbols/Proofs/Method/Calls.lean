import DebugSymbols.Method.Builder
import DebugSymbols.Step
import Mathlib.Tactic.SplitIfs

namespace DebugSymbols

/-- What is told of a method at once, without a block to close later. -/
inductive MethodDetail where
  | point (e : LineEntry)
  | localVariable (index : UInt32) (name : String)
  | scopeVariable (scope localIndex : UInt32)
  | realName (name : String)
deriving DecidableEq, Repr

def MethodDetail.add (m : MethodBuilder) : MethodDetail → MethodBuilder
  | point e => m.mark e
  | localVariable index name => m.addLocal index name
  | scopeVariable scope localIndex => m.addScopeVariable scope localIndex
  | realName name => m.setRealName name

inductive MethodCall where
  | openBlock (kind : BlockKind) (offset : UInt32)
  | closeBlock (offset : UInt32)
  | detail (d : MethodDetail)
deriving DecidableEq, Repr

namespace MethodBuilder

def perform : MethodCall → Step MethodBuilder (Option UInt32)
  | .openBlock kind offset => do
    let (index, m) ← (← get).startBlock kind offset
    set m
    pure (some index)
  | .closeBlock offset => do
    set (← (← get).endBlock offset)
    pure none
  | .detail d => do
    modify fun m => d.add m
    pure none

/-- The builder after calls, whether they succeed or fail. -/
def after (m : MethodBuilder) (cs : List MethodCall) : MethodBuilder :=
  cs.foldl (fun m c => ((perform c).run m).2) m

variable {m : MethodBuilder}

theorem after_snoc (cs : List MethodCall) (c : MethodCall) :
    m.after (cs ++ [c]) = ((perform c).run (m.after cs)).2 := by
  rw [after, List.foldl_append]
  rfl

theorem token_perform (c : MethodCall) : ((perform c).run m).2.token = m.token := by
  cases c with
  | openBlock kind offset =>
    simp only [perform, startBlock, Step.run_bind, Step.run_get, Step.run_lift]
    split_ifs
    · rfl
    · cases m.parent? <;> rfl
  | closeBlock offset =>
    simp only [perform, endBlock, Step.run_bind, Step.run_get, Step.run_lift]
    cases m.openBlocks <;> rfl
  | detail d => cases d <;> rfl

theorem token_after (cs : List MethodCall) : (m.after cs).token = m.token := by
  induction cs generalizing m with
  | nil => rfl
  | cons c cs ih => exact ih.trans (token_perform c)

end MethodBuilder

inductive BuilderCall where
  | method (c : MethodCall)
  /-- Adds a block with an index of the caller's choice. -/
  | addBlock (b : CodeBlock)
  | ambiguousLocals (ambiguous : Bool)
deriving DecidableEq, Repr

namespace MethodBuilder

def call : BuilderCall → Step MethodBuilder (Option UInt32)
  | .method c => perform c
  | .addBlock b => do
    set (← (← get).addBlock b)
    pure none
  | .ambiguousLocals ambiguous => do
    modify fun m => m.setAmbiguousLocals ambiguous
    pure none

def afterCalls (m : MethodBuilder) (cs : List BuilderCall) : MethodBuilder :=
  cs.foldl (fun m c => ((call c).run m).2) m

structure Event where
  call : BuilderCall
  answer : Except Error (Option UInt32)

def history (m : MethodBuilder) : List BuilderCall → List Event
  | [] => []
  | c :: cs =>
    let (answer, m) := (call c).run m
    ⟨c, answer⟩ :: history m cs

end MethodBuilder

end DebugSymbols
