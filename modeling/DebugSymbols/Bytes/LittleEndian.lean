import DebugSymbols.Bytes.Reader

namespace DebugSymbols

/-- The low `width` bytes of a number, lowest first. -/
def littleEndian : Nat → Nat → List UInt8
  | 0, _ => []
  | width + 1, n => UInt8.ofNat n :: littleEndian width (n / 256)

def ofLittleEndian (bytes : List UInt8) : Nat := bytes.foldr (fun b n => b.toNat + 256 * n) 0

theorem length_littleEndian (width n : Nat) : (littleEndian width n).length = width := by
  induction width generalizing n with
  | zero => rfl
  | succ w ih => simp [littleEndian, ih]

namespace Reader

/-- An unsigned little-endian field. -/
def fixed (width : Nat) : Reader Nat := do
  let bytes ← exact width
  pure (ofLittleEndian bytes)

def u8 : Reader UInt8 := UInt8.ofNat <$> fixed 1

def u32 : Reader UInt32 := UInt32.ofNat <$> fixed 4

theorem fixed_end {width : Nat} {data : Bytes} {p q n : Nat}
    (h : fixed width data p = (.ok n, q)) : p + width ≤ data.size ∧ q = p + width := by
  obtain ⟨bs, m, h₁, h₂⟩ := bind_eq_ok.1 h
  obtain ⟨hsize, -, rfl⟩ := exact_eq_ok.1 h₁
  simp only [pure_apply, Prod.mk.injEq] at h₂
  exact ⟨hsize, h₂.2.symm⟩

theorem u8_end {data : Bytes} {p q : Nat} {b : UInt8} (h : u8 data p = (.ok b, q)) :
    p < data.size ∧ q = p + 1 := by
  obtain ⟨n, h₁, -⟩ := map_eq_ok.1 h
  exact fixed_end h₁

end Reader

end DebugSymbols
