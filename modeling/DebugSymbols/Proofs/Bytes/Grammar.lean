import DebugSymbols.Proofs.Bytes.Groups
import DebugSymbols.Proofs.Bytes.Values
import Mathlib.Algebra.BigOperators.Group.Finset.Basic
import Mathlib.Algebra.BigOperators.Ring.Finset

namespace DebugSymbols

theorem Reader.eval_map (g : α → β) (r : Reader α) (data : Bytes) (p : Nat) :
    (g <$> r).eval data p = g <$> r.eval data p := by
  rw [eval, eval, map_apply]
  rcases r data p with ⟨_ | a, q⟩ <;> rfl

namespace Varint

/-- Of `count` bytes from `p` on each announces another one. -/
def Announced (data : Bytes) (p count : Nat) : Prop :=
  ∀ i < count, ∃ b, data[p + i]? = some b ∧ 0x80 ≤ b

/-- The number in `count` bytes from `p` on: seven bits of each, the lowest group first. -/
def held (data : Bytes) (p count : Nat) : Nat :=
  ∑ i ∈ Finset.range count, ((data[p + i]?.getD 0) &&& 0x7F).toNat * 128 ^ i

/-- A number ends with the byte at `p + k`: the first one that announces no other.  Behind `more`
bytes there is room for four bits only. -/
structure EndsAt (more : Nat) (data : Bytes) (p k : Nat) : Prop where
  within : k ≤ more
  announced : Announced data p k
  last : ∃ b, data[p + k]? = some b ∧ b < 0x80 ∧ (k = more → b ≤ 0x0F)

/-- All bytes that may announce another one do so, and the one behind them holds too much. -/
def Overflows (more : Nat) (data : Bytes) (p : Nat) : Prop :=
  Announced data p more ∧ ∃ b, data[p + more]? = some b ∧ 0x0F < b

/-- The stream ends before the number does. -/
def CutShort (more : Nat) (data : Bytes) (p : Nat) : Prop :=
  ∃ k ≤ more, Announced data p k ∧ data[p + k]? = none

theorem toNat_and_low (b : UInt8) : (b &&& 0x7F).toNat = b.toNat % 128 := by
  rw [UInt8.toNat_and]
  exact Nat.and_two_pow_sub_one_eq_mod b.toNat 7

theorem low_of_lt {b : UInt8} (ends : b < 0x80) : b.toNat % 128 = b.toNat :=
  Nat.mod_eq_of_lt (UInt8.lt_iff_toNat_lt.1 ends)

section Reading

variable {more : Nat} {data data' : Bytes} {p k : Nat} {b : UInt8}

theorem announced_zero : Announced data p 0 := nofun

theorem announced_succ :
    Announced data p (k + 1) ↔ (∃ b, data[p]? = some b ∧ 0x80 ≤ b) ∧ Announced data (p + 1) k := by
  constructor
  · intro h
    refine ⟨h 0 k.succ_pos, fun i hi => ?_⟩
    rw [Nat.add_assoc, Nat.add_comm 1]
    exact h (i + 1) (Nat.succ_lt_succ hi)
  · rintro ⟨hfirst, hrest⟩ (_ | i) hi
    · exact hfirst
    · rw [Nat.add_comm i, ← Nat.add_assoc]
      exact hrest i (Nat.lt_of_succ_lt_succ hi)

theorem held_succ (hb : data[p]? = some b) :
    held data p (k + 1) = b.toNat % 128 + 128 * held data (p + 1) k := by
  rw [held, held, Finset.sum_range_succ', Finset.mul_sum, Nat.add_comm]
  congr 1
  · rw [Nat.add_zero, hb, Option.getD_some, toNat_and_low, Nat.pow_zero, Nat.mul_one]
  · refine Finset.sum_congr rfl fun i _ => ?_
    rw [Nat.add_assoc, Nat.add_comm 1, Nat.pow_succ, ← Nat.mul_assoc, Nat.mul_comm]

theorem groups_last (hb : data[p]? = some b) (ends : b < 0x80) (fits : more = 0 → b ≤ 0x0F) :
    groups more data p = (.ok b.toNat, p + 1) :=
  (Form.last ends fits).reads data p (LiesAt.singleton_iff.2 hb)

theorem groups_announced (hb : data[p]? = some b) (announces : 0x80 ≤ b) :
    groups (more + 1) data p = match groups more data (p + 1) with
      | (.ok n, q) => (.ok (b.toNat % 128 + 128 * n), q)
      | (.error e, q) => (.error e, q) := by
  have hlow : b.toNat - 128 = b.toNat % 128 := by
    have hle : 128 ≤ b.toNat := UInt8.le_iff_toNat_le.1 announces
    have := b.toNat_lt
    omega
  rw [groups, Reader.bind_apply, Reader.u8_eq_ok.2 ⟨hb, rfl⟩]
  dsimp only
  rw [if_neg (UInt8.not_lt.2 announces), Reader.bind_apply, hlow]
  rcases groups more data (p + 1) with ⟨_ | n, q⟩ <;> rfl

theorem u8_none (h : data[p]? = none) : Reader.u8 data p = (.error .outOfBounds, data.size) := by
  rw [Array.getElem?_eq_none_iff] at h
  have hexact : Reader.exact 1 data p = (.error .outOfBounds, data.size) := if_neg (by omega)
  rw [Reader.u8, Reader.map_apply, Reader.fixed, Reader.bind_apply, hexact]

theorem groups_none (h : data[p]? = none) :
    groups more data p = (.error .outOfBounds, data.size) := by
  cases more <;> rw [groups, Reader.bind_apply, u8_none h]

theorem EndsAt.groups_eq (h : EndsAt more data p k) :
    groups more data p = (.ok (held data p (k + 1)), p + k + 1) := by
  induction k generalizing more p with
  | zero =>
    obtain ⟨b, hb, ends, fits⟩ := h.last
    rw [Nat.add_zero] at hb ⊢
    rw [groups_last hb ends fun hmore => fits hmore.symm, held_succ hb, low_of_lt ends]
    rfl
  | succ k ih =>
    obtain ⟨⟨b, hb, announces⟩, hrest⟩ := announced_succ.1 h.announced
    obtain ⟨more, rfl⟩ := Nat.exists_eq_add_of_le' (Nat.one_le_of_lt h.within)
    obtain ⟨c, hc, ends, fits⟩ := h.last
    have hk : p + (k + 1) = p + 1 + k := by omega
    have hends : EndsAt more data (p + 1) k :=
      ⟨Nat.le_of_succ_le_succ h.within, hrest, c, hk ▸ hc, ends, fun heq => fits (heq ▸ rfl)⟩
    rw [groups_announced hb announces, ih hends, held_succ hb, hk]

theorem Overflows.groups_eq (h : Overflows more data p) :
    groups more data p = (.error (.malformed .varintOverflow), p + more + 1) := by
  obtain ⟨hannounced, b, hb, hlarge⟩ := h
  induction more generalizing p with
  | zero =>
    rw [Nat.add_zero] at hb ⊢
    rw [groups, Reader.bind_apply, Reader.u8_eq_ok.2 ⟨hb, rfl⟩]
    dsimp only
    rw [if_pos hlarge]
    rfl
  | succ more ih =>
    obtain ⟨⟨c, hc, announces⟩, hrest⟩ := announced_succ.1 hannounced
    have hmore : p + (more + 1) = p + 1 + more := by omega
    rw [groups_announced hc announces, ih hrest (hmore ▸ hb), hmore]

theorem CutShort.groups_eq (h : CutShort more data p) :
    groups more data p = (.error .outOfBounds, data.size) := by
  obtain ⟨k, hk, hannounced, hnone⟩ := h
  induction k generalizing more p with
  | zero => exact groups_none hnone
  | succ k ih =>
    obtain ⟨⟨b, hb, announces⟩, hrest⟩ := announced_succ.1 hannounced
    obtain ⟨more, rfl⟩ := Nat.exists_eq_add_of_le' (Nat.one_le_of_lt hk)
    have hk' : p + (k + 1) = p + 1 + k := by omega
    rw [groups_announced hb announces, ih (Nat.le_of_succ_le_succ hk) hrest (hk' ▸ hnone)]

/-- Whatever stands in a stream: a number ends in time, or holds too much, or the stream ends. -/
theorem grammar_cases (more : Nat) (data : Bytes) (p : Nat) :
    (∃ k, EndsAt more data p k) ∨ Overflows more data p ∨ CutShort more data p := by
  induction more generalizing p with
  | zero =>
    cases hb : data[p]? with
    | none => exact .inr (.inr ⟨0, Nat.le_refl 0, announced_zero, hb⟩)
    | some b =>
      by_cases hlarge : 0x0F < b
      · exact .inr (.inl ⟨announced_zero, b, hb, hlarge⟩)
      · have hfits := UInt8.not_lt.1 hlarge
        have hends : b < 0x80 := UInt8.lt_of_le_of_lt hfits (by decide)
        exact .inl ⟨0, Nat.le_refl 0, announced_zero, b, hb, hends, fun _ => hfits⟩
  | succ more ih =>
    cases hb : data[p]? with
    | none => exact .inr (.inr ⟨0, Nat.zero_le _, announced_zero, hb⟩)
    | some b =>
      by_cases hends : b < 0x80
      · exact .inl ⟨0, Nat.zero_le _, announced_zero, b, hb, hends, nofun⟩
      -- The byte announces another one, with which the rest begins.
      have hfirst : ∃ b, data[p]? = some b ∧ 0x80 ≤ b := ⟨b, hb, UInt8.not_lt.1 hends⟩
      have hplace (k : Nat) : p + 1 + k = p + (k + 1) := by omega
      rcases ih (p + 1) with ⟨k, hk⟩ | ⟨hannounced, hlast⟩ | ⟨k, hk, hannounced, hnone⟩
      · obtain ⟨c, hc, hclear, hfits⟩ := hk.last
        exact .inl ⟨k + 1, Nat.succ_le_succ hk.within, announced_succ.2 ⟨hfirst, hk.announced⟩,
          c, hplace k ▸ hc, hclear, fun heq => hfits (Nat.succ.inj heq)⟩
      · exact .inr (.inl ⟨announced_succ.2 ⟨hfirst, hannounced⟩, hplace more ▸ hlast⟩)
      · exact .inr (.inr ⟨k + 1, Nat.succ_le_succ hk, announced_succ.2 ⟨hfirst, hannounced⟩,
          hplace k ▸ hnone⟩)

theorem EndsAt.congr (h : EndsAt more data p k) (hsame : ∀ i ≤ more, data'[p + i]? = data[p + i]?) :
    EndsAt more data' p k ∧ held data' p (k + 1) = held data p (k + 1) := by
  obtain ⟨hwithin, hannounced, hlast⟩ := h
  refine ⟨⟨hwithin, fun i hi => ?_, ?_⟩, Finset.sum_congr rfl fun i hi => ?_⟩
  · rw [hsame i (by omega)]
    exact hannounced i hi
  · rwa [hsame k hwithin]
  · rw [hsame i (by have := Finset.mem_range.1 hi; omega)]

theorem eval_groups_congr (hsame : ∀ i ≤ more, data'[p + i]? = data[p + i]?) :
    (groups more).eval data' p = (groups more).eval data p := by
  have hannounced {k : Nat} (hk : k ≤ more) (h : Announced data p k) : Announced data' p k := by
    intro i hi
    rw [hsame i (by omega)]
    exact h i hi
  rw [Reader.eval, Reader.eval]
  rcases grammar_cases more data p with ⟨k, h⟩ | h | h
  · obtain ⟨h', hheld⟩ := h.congr hsame
    rw [h.groups_eq, h'.groups_eq, hheld]
  · have h' : Overflows more data' p :=
      ⟨hannounced (Nat.le_refl more) h.1, hsame more (Nat.le_refl more) ▸ h.2⟩
    rw [h.groups_eq, h'.groups_eq]
  · obtain ⟨k, hk, hfront, hnone⟩ := h
    have h' : CutShort more data' p := ⟨k, hk, hannounced hk hfront, (hsame k hk).trans hnone⟩
    rw [CutShort.groups_eq ⟨k, hk, hfront, hnone⟩, h'.groups_eq]

end Reading

section Shifting

/-- The groups are laid into a word one by one, the next of them `shift` bits up.  Nothing limits
their number, and there is no answer if one would have to go more than 28 bits up. -/
def layIn (data : Bytes) (p : Nat) (value : UInt32) (shift : Nat) :
    Option (Except Error UInt32 × Nat) :=
  match hb : data[p]? with
  | none => some (.error .outOfBounds, data.size)
  | some b =>
    if shift = 28 ∧ 0x0F < b then some (.error (.malformed .varintOverflow), p + 1)
    else if 28 < shift then none
    else
      let value := value ||| (b &&& 0x7F).toUInt32 <<< UInt32.ofNat shift
      if b &&& 0x80 = 0 then some (.ok value, p + 1) else layIn data (p + 1) value (shift + 7)
termination_by data.size - p
decreasing_by
  have := (Array.getElem?_eq_some_iff.1 hb).1
  omega

variable {more shift : Nat} {data : Bytes} {p : Nat} {value : UInt32} {b : UInt8}

theorem and_high_eq_zero_iff (b : UInt8) : b &&& 0x80 = 0 ↔ b < 0x80 := by
  have hbytes : ∀ n < 256, n &&& 0x80 = 0 ↔ n < 0x80 := by decide +kernel
  rw [← UInt8.toNat_inj, UInt8.toNat_and, UInt8.lt_iff_toNat_lt]
  exact hbytes b.toNat b.toNat_lt

theorem toNat_or_shiftLeft (hplace : shift + 7 * more = 28) (hvalue : value.toNat < 2 ^ shift)
    (hfits : more = 0 → b ≤ 0x0F) :
    (value ||| (b &&& 0x7F).toUInt32 <<< UInt32.ofNat shift).toNat =
      value.toNat + 2 ^ shift * (b.toNat % 128) := by
  have hbits : b.toNat % 128 * 2 ^ shift < 2 ^ 32 := by
    rcases Nat.eq_zero_or_pos more with rfl | hpos
    · have hle : b.toNat ≤ 15 := UInt8.le_iff_toNat_le.1 (hfits rfl)
      have hshift : shift = 28 := by omega
      subst hshift
      omega
    · have hpow : 2 ^ shift ≤ 2 ^ 21 := Nat.pow_le_pow_right (by decide) (by omega)
      have hmul := Nat.mul_le_mul_left (b.toNat % 128) hpow
      omega
  have hgroup : ((b &&& 0x7F).toUInt32 <<< UInt32.ofNat shift).toNat =
      2 ^ shift * (b.toNat % 128) := by
    have hshift : (UInt32.ofNat shift).toNat % 32 = shift := by
      rw [UInt32.toNat_ofNat']
      omega
    rw [UInt32.toNat_shiftLeft, hshift, UInt8.toNat_toUInt32, toNat_and_low, Nat.shiftLeft_eq,
      Nat.mod_eq_of_lt hbits, Nat.mul_comm]
  rw [UInt32.toNat_or, hgroup, Nat.or_comm, ← Nat.two_pow_add_eq_or_of_lt hvalue, Nat.add_comm]

theorem layIn_none (hb : data[p]? = none) :
    layIn data p value shift = some (.error .outOfBounds, data.size) := by
  rw [layIn, hb]

theorem layIn_some (hb : data[p]? = some b) (hplace : shift + 7 * more = 28) :
    layIn data p value shift =
      if more = 0 ∧ 0x0F < b then some (.error (.malformed .varintOverflow), p + 1)
      else
        let value' := value ||| (b &&& 0x7F).toUInt32 <<< UInt32.ofNat shift
        if b < 0x80 then some (.ok value', p + 1) else layIn data (p + 1) value' (shift + 7) := by
  have hlast : shift = 28 ↔ more = 0 := by omega
  rw [layIn, hb]
  dsimp only
  rw [if_neg (by omega : ¬28 < shift)]
  simp only [and_high_eq_zero_iff, hlast]

theorem layIn_last (hb : data[p]? = some b) (hplace : shift + 7 * more = 28)
    (hvalue : value.toNat < 2 ^ shift) (ends : b < 0x80) (hfits : more = 0 → b ≤ 0x0F) :
    layIn data p value shift =
      some (.ok (UInt32.ofNat (value.toNat + 2 ^ shift * b.toNat)), p + 1) := by
  have hvalue' := toNat_or_shiftLeft hplace hvalue hfits
  rw [low_of_lt ends] at hvalue'
  rw [layIn_some hb hplace, if_neg fun h => UInt8.not_lt.2 (hfits h.1) h.2]
  dsimp only
  rw [if_pos ends, ← hvalue', UInt32.ofNat_toNat]

/-- Behind `shift` bits the loop reads the groups that are still allowed, and each of them fits. -/
theorem layIn_eq (hplace : shift + 7 * more = 28) (hvalue : value.toNat < 2 ^ shift) :
    layIn data p value shift =
      some (((fun n => UInt32.ofNat (value.toNat + 2 ^ shift * n)) <$> groups more) data p) := by
  rw [Reader.map_apply]
  induction more generalizing p value shift with
  | zero =>
    cases hb : data[p]? with
    | none => rw [layIn_none hb, groups_none hb]
    | some b =>
      by_cases hlarge : 0x0F < b
      · have hover : Overflows 0 data p := ⟨announced_zero, b, hb, hlarge⟩
        rw [layIn_some hb hplace, if_pos ⟨rfl, hlarge⟩, hover.groups_eq]
      · have hfits := UInt8.not_lt.1 hlarge
        have hends : b < 0x80 := UInt8.lt_of_le_of_lt hfits (by decide)
        rw [layIn_last hb hplace hvalue hends fun _ => hfits, groups_last hb hends fun _ => hfits]
  | succ more ih =>
    cases hb : data[p]? with
    | none => rw [layIn_none hb, groups_none hb]
    | some b =>
      have hfits : more + 1 = 0 → b ≤ 0x0F := nofun
      by_cases hends : b < 0x80
      · rw [layIn_last hb hplace hvalue hends hfits, groups_last hb hends hfits]
      · -- The group is in its place, and the rest goes above it.
        have hvalue' := toNat_or_shiftLeft hplace hvalue hfits
        have hpow : 2 ^ (shift + 7) = 2 ^ shift * 128 := Nat.pow_add 2 shift 7
        have hroom : value.toNat + 2 ^ shift * (b.toNat % 128) < 2 ^ (shift + 7) := by
          have hle : b.toNat % 128 ≤ 127 := by omega
          have := Nat.mul_le_mul_left (2 ^ shift) hle
          omega
        rw [layIn_some hb hplace, if_neg nofun, groups_announced hb (UInt8.not_lt.1 hends)]
        dsimp only
        rw [if_neg hends, ih (by omega) (hvalue' ▸ hroom), hvalue', hpow]
        rcases groups more data (p + 1) with ⟨e | n, q⟩
        · rfl
        · simp only [Nat.mul_add, Nat.mul_assoc, Nat.add_assoc]

end Shifting

section Shortest

variable {more n : Nat} {bytes : List UInt8}

theorem Form.lt (h : Form more bytes n) : n < 16 * 128 ^ more := by
  induction h with
  | @last more b ends fits =>
    rcases Nat.eq_zero_or_pos more with rfl | hpos
    · have := UInt8.le_iff_toNat_le.1 (fits rfl)
      exact Nat.lt_of_le_of_lt this (by decide)
    · have hends : b.toNat < 128 := UInt8.lt_iff_toNat_lt.1 ends
      have hpow : 128 ^ 1 ≤ 128 ^ more := Nat.pow_le_pow_right (by decide) hpos
      omega
  | @group more n b bytes announces rest ih =>
    have := b.toNat_lt
    rw [Nat.pow_succ]
    omega

/-- No form of a number is shorter than the one that is written, and no other is as short. -/
theorem Form.shortest (h : Form more bytes n) :
    (encodeNat n).length ≤ bytes.length ∧
      (bytes.length = (encodeNat n).length → bytes = encodeNat n) := by
  induction h with
  | @last more b ends fits =>
    have hends : b.toNat < 128 := UInt8.lt_iff_toNat_lt.1 ends
    rw [encodeNat, if_pos hends, UInt8.ofNat_toNat]
    exact ⟨Nat.le_refl _, fun _ => rfl⟩
  | @group more n b bytes announces rest ih =>
    have hge : 128 ≤ b.toNat := UInt8.le_iff_toNat_le.1 announces
    have hlt := b.toNat_lt
    have hlength : bytes.length = (b :: bytes).length - 1 := rfl
    rw [encodeNat]
    split_ifs with hsmall
    · -- The number fits into a byte, and one more at least stands behind the first.
      have hzero : n = 0 := by omega
      subst hzero
      rw [encodeNat, if_pos (by decide)] at ih
      simp only [List.length_cons, List.length_nil] at ih ⊢
      exact ⟨by omega, fun h => absurd h (by omega)⟩
    · have hlow : (b.toNat - 128 + 128 * n) % 128 + 128 = b.toNat := by omega
      have hhigh : (b.toNat - 128 + 128 * n) / 128 = n := by omega
      rw [hlow, hhigh, UInt8.ofNat_toNat]
      refine ⟨Nat.succ_le_succ ih.1, fun h => ?_⟩
      rw [ih.2 (Nat.succ.inj h)]

theorem length_encodeNat_le_iff (more n : Nat) :
    (encodeNat n).length ≤ more + 1 ↔ n < 128 ^ (more + 1) := by
  refine ⟨fun h => ?_, length_encodeNat_le⟩
  induction more generalizing n with
  | zero =>
    rw [encodeNat] at h
    split at h
    · omega
    · have := length_encodeNat_pos (n / 128)
      rw [List.length_cons] at h
      omega
  | succ more ih =>
    have hpow : 128 ^ (more + 1 + 1) = 128 ^ (more + 1) * 128 := Nat.pow_succ ..
    rw [encodeNat] at h
    split at h
    · have := Nat.pow_pos (n := more + 1) (by decide : 0 < 128)
      omega
    · have := ih _ (Nat.le_of_succ_le_succ h)
      omega

theorem size_eq (v : UInt32) : size v = (encode v).length := by
  have hpos := length_encode_pos v
  have hfive := length_encode_le v
  have hone := length_encodeNat_le_iff 0 v.toNat
  have htwo := length_encodeNat_le_iff 1 v.toNat
  have hthree := length_encodeNat_le_iff 2 v.toNat
  have hfour := length_encodeNat_le_iff 3 v.toNat
  change (encode v).length ≤ _ ↔ _ at hone htwo hthree hfour
  rw [size]
  simp only [UInt32.lt_iff_toNat_lt, UInt32.reduceToNat]
  split_ifs <;> omega

end Shortest

section Words

variable {data : Bytes} {p k : Nat}

theorem EndsAt.varint_eq (h : EndsAt 4 data p k) :
    ∃ v, Reader.varint data p = (.ok v, p + k + 1) ∧ v.toNat = held data p (k + 1) := by
  obtain ⟨bytes, hform, -, -⟩ := exists_form h.groups_eq
  refine ⟨UInt32.ofNat (held data p (k + 1)), ?_, UInt32.toNat_ofNat_of_lt' hform.lt⟩
  rw [Reader.varint, Reader.map_apply, h.groups_eq]

theorem Overflows.varint_eq (h : Overflows 4 data p) :
    Reader.varint data p = (.error (.malformed .varintOverflow), p + 5) := by
  rw [Reader.varint, Reader.map_apply, h.groups_eq]

theorem CutShort.varint_eq (h : CutShort 4 data p) :
    Reader.varint data p = (.error .outOfBounds, data.size) := by
  rw [Reader.varint, Reader.map_apply, h.groups_eq]

theorem layIn_zero (data : Bytes) (p : Nat) : layIn data p 0 0 = some (Reader.varint data p) := by
  rw [layIn_eq (rfl : 0 + 7 * 4 = 28) (by decide), Reader.varint]
  simp

end Words

end Varint

open Varint (EndsAt Overflows CutShort held)

/-- A number is read exactly where, behind four bytes at most that announce another one, a byte
stands that announces none, and that holds four bits at most if it is the fifth one.  It is refused
exactly if the fifth byte holds more, or if the stream ends before the number does.  No byte behind
the fifth one matters, and a loop that lays the groups into a word reads the same without ever
moving one by more than 28 bits.  What is written for a number is the shortest of the forms in which
it is read, and no other is as short. -/
theorem Reader.varint_grammar :
    (∀ (data : Bytes) (p : Nat),
      (∀ v q, varint.run data p = (.ok v, q) ↔
        ∃ k, EndsAt 4 data p k ∧ v.toNat = held data p (k + 1) ∧ q = p + k + 1) ∧
      (∀ e q, varint.run data p = (.error e, q) ↔
        (Overflows 4 data p ∧ e = .malformed .varintOverflow ∧ q = p + 5) ∨
        (CutShort 4 data p ∧ e = .outOfBounds ∧ q = data.size)) ∧
      (∀ data' : Bytes, (∀ i < 5, data'[p + i]? = data[p + i]?) →
        varint.eval data' p = varint.eval data p) ∧
      Varint.layIn data p 0 0 = some (varint.run data p)) ∧
    ∀ v : UInt32,
      Reads varint (Varint.encode v) v ∧
      (∀ data p q, varint.run data p = (.ok v, q) →
        p + (Varint.encode v).length ≤ q ∧
        (q = p + (Varint.encode v).length → LiesAt data p (Varint.encode v))) ∧
      Varint.size v = (Varint.encode v).length := by
  refine ⟨fun data p => ⟨fun v q => ?_, fun e q => ?_, fun data' hsame => ?_,
    Varint.layIn_zero data p⟩, fun v => ⟨.varint v, fun data p q h => ?_, Varint.size_eq v⟩⟩
  · change varint data p = _ ↔ _
    constructor
    · intro h
      rcases Varint.grammar_cases 4 data p with ⟨k, hk⟩ | hover | hcut
      · obtain ⟨v', hread, hheld⟩ := hk.varint_eq
        cases h.symm.trans hread
        exact ⟨k, hk, hheld, rfl⟩
      · cases h.symm.trans hover.varint_eq
      · cases h.symm.trans hcut.varint_eq
    · rintro ⟨k, hk, hv, rfl⟩
      obtain ⟨v', hread, hheld⟩ := hk.varint_eq
      rw [hread, UInt32.toNat_inj.1 (hv.trans hheld.symm)]
  · change varint data p = _ ↔ _
    constructor
    · intro h
      rcases Varint.grammar_cases 4 data p with ⟨k, hk⟩ | hover | hcut
      · obtain ⟨v', hread, -⟩ := hk.varint_eq
        cases h.symm.trans hread
      · cases h.symm.trans hover.varint_eq
        exact .inl ⟨hover, rfl, rfl⟩
      · cases h.symm.trans hcut.varint_eq
        exact .inr ⟨hcut, rfl, rfl⟩
    · rintro (⟨hover, rfl, rfl⟩ | ⟨hcut, rfl, rfl⟩)
      · exact hover.varint_eq
      · exact hcut.varint_eq
  · have hgroups := Varint.eval_groups_congr fun i hi => hsame i (Nat.lt_succ_of_le hi)
    rw [varint, eval_map, eval_map, hgroups]
  · obtain ⟨n, hn, rfl⟩ := map_eq_ok.1 h
    obtain ⟨bytes, hform, hlies, rfl⟩ := Varint.exists_form hn
    have hv : (UInt32.ofNat n).toNat = n := UInt32.toNat_ofNat_of_lt' hform.lt
    obtain ⟨hle, hshortest⟩ := hform.shortest
    rw [Varint.encode, hv]
    refine ⟨Nat.add_le_add_left hle p, fun hlength => ?_⟩
    rwa [← hshortest (Nat.add_left_cancel hlength)]

/-- A number may have forms that are longer than the one that is written. -/
example : Reader.varint.run #[0xAC, 0x82, 0x80, 0x80, 0x00] 0 = (.ok 300, 5) := by
  decide

end DebugSymbols
