import DebugSymbols.Error

namespace DebugSymbols

/-- How the program was built.  An operation whose result its type does not hold wraps, unless the
build checks for that; then the program stops there. -/
class Build where
  checksOverflow : Bool

namespace Build

@[reducible] def release : Build := ⟨false⟩

@[reducible] def debug : Build := ⟨true⟩

/-- The value that an operation gives, which the type holds as `held` instead of `exact`. -/
def settle [Build] (op : Operation) (exact held : Int) (value : α) : Except Error α :=
  if checksOverflow && held != exact then .error (.overflow op) else .ok value

def signed [Build] (op : Operation) (exact : Int) : Except Error Int32 :=
  settle op exact (Int32.ofInt exact).toInt (Int32.ofInt exact)

def word [Build] (op : Operation) (exact : Int) : Except Error UInt32 :=
  settle op exact (UInt32.ofInt exact).toNat (UInt32.ofInt exact)

def byte [Build] (op : Operation) (exact : Int) : Except Error UInt8 :=
  settle op exact (UInt8.ofInt exact).toNat (UInt8.ofInt exact)

variable {op : Operation} {exact : Int}

theorem settle_self [Build] (value : α) : settle op exact exact value = .ok value := by
  simp [settle]

theorem signed_eq_ok [Build] {v : Int32} (h : v.toInt = exact) : signed op exact = .ok v := by
  subst h
  rw [signed, Int32.ofInt_toInt, settle_self]

theorem word_eq_ok [Build] {v : UInt32} (h : v.toNat = exact) : word op exact = .ok v := by
  have hlt := v.toNat_lt
  have hheld : UInt32.ofInt v.toNat = v := by
    rw [UInt32.ofInt, Int.emod_eq_of_lt (by omega) (by omega), Int.toNat_natCast,
      UInt32.ofNat_toNat]
  rw [word, ← h, hheld, settle_self]

theorem byte_eq_ok [Build] {v : UInt8} (h : v.toNat = exact) : byte op exact = .ok v := by
  have hlt := v.toNat_lt
  have hheld : UInt8.ofInt v.toNat = v := by
    rw [UInt8.ofInt, Int.emod_eq_of_lt (by omega) (by omega), Int.toNat_natCast,
      UInt8.ofNat_toNat]
  rw [byte, ← h, hheld, settle_self]

end Build

end DebugSymbols
