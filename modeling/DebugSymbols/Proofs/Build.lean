import DebugSymbols.Build

namespace DebugSymbols.Build

/-- Where a statement names no build, it is about the release build: sums with the line base are
taken modulo `2 ^ 32`. -/
instance : Build := release

variable {op : Operation} {exact : Int}

theorem signed_release : signed op exact = .ok (Int32.ofInt exact) := rfl

theorem signed_eq_error [Build] (hchecks : checksOverflow = true) (h : 0x80000000 ≤ exact) :
    signed op exact = .error (.overflow op) := by
  have hne : (Int32.ofInt exact).toInt ≠ exact := by
    have := (Int32.ofInt exact).toInt_lt
    omega
  rw [signed, settle, hchecks, bne_iff_ne.2 hne]
  rfl

end DebugSymbols.Build
