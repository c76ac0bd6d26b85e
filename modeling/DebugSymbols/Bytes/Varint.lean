import DebugSymbols.Bytes.LittleEndian

namespace DebugSymbols

namespace Varint

def encodeNat (n : Nat) : List UInt8 :=
  if n < 128 then [UInt8.ofNat n]
  else UInt8.ofNat (n % 128 + 128) :: encodeNat (n / 128)
termination_by n
decreasing_by omega

def encode (v : UInt32) : List UInt8 := encodeNat v.toNat

/-- A signed number is written as its residue modulo `2 ^ 32`. -/
def encodeSigned (v : Int32) : List UInt8 := encode v.toUInt32

def size (v : UInt32) : Nat :=
  if v < 0x80 then 1
  else if v < 0x4000 then 2
  else if v < 0x200000 then 3
  else if v < 0x10000000 then 4
  else 5

/-- Reads groups while they announce another; the last one allowed may only hold four bits. -/
def groups : Nat → Reader Nat
  | 0 => do
    let b ← Reader.u8
    if b > 0x0F then Reader.fail (.malformed .varintOverflow) else pure b.toNat
  | more + 1 => do
    let b ← Reader.u8
    if b < 0x80 then pure b.toNat
    else
      let high ← groups more
      pure (b.toNat - 128 + 128 * high)

theorem groups_advances {more : Nat} {data : Bytes} {p q n : Nat}
    (h : groups more data p = (.ok n, q)) : p < q := by
  induction more generalizing p q n with
  | zero =>
    obtain ⟨b, m, hb, h⟩ := Reader.bind_eq_ok.1 h
    have := (Reader.u8_end hb).2
    split at h
    · exact absurd h Reader.fail_ne_ok
    · simp only [Reader.pure_apply, Prod.mk.injEq] at h
      omega
  | succ more ih =>
    obtain ⟨b, m, hb, h⟩ := Reader.bind_eq_ok.1 h
    have := (Reader.u8_end hb).2
    split at h
    · simp only [Reader.pure_apply, Prod.mk.injEq] at h
      omega
    · obtain ⟨high, m', hg, h⟩ := Reader.bind_eq_ok.1 h
      have := ih hg
      simp only [Reader.pure_apply, Prod.mk.injEq] at h
      omega

end Varint

namespace Reader

def varint : Reader UInt32 := UInt32.ofNat <$> Varint.groups 4

def signedVarint : Reader Int32 := UInt32.toInt32 <$> varint

theorem varint_advances {data : Bytes} {p q : Nat} {v : UInt32}
    (h : varint data p = (.ok v, q)) : p < q := by
  obtain ⟨n, h, -⟩ := map_eq_ok.1 h
  exact Varint.groups_advances h

theorem signedVarint_advances {data : Bytes} {p q : Nat} {v : Int32}
    (h : signedVarint data p = (.ok v, q)) : p < q := by
  obtain ⟨n, h, -⟩ := map_eq_ok.1 h
  exact varint_advances h

def prefixedBytes : Reader (List UInt8) := do
  let length ← varint
  bytes length.toNat

def text : Reader String := do
  let start ← position
  let run ← prefixedBytes
  match Utf8.decode run with
  | .ok s => pure s
  | .error fault => fail (.malformed (.invalidUtf8 start fault))

/-- The text at a position inside the stream, read out of line. -/
def textAt (target : Nat) : Reader String := do
  let length ← size
  if target < length then readAt target text else fail .outOfBounds

/-- As many answers of `r` as the number in front says. -/
def counted (r : Reader α) : Reader (List α) := do
  let count ← varint
  replicate count.toNat r

end Reader

end DebugSymbols
