import DebugSymbols.Bytes.Output
import Mathlib.Algebra.Group.Nat.Defs
import Mathlib.Data.List.Basic

namespace DebugSymbols

theorem ok_bind (a : α) (f : α → Except ε β) : (Except.ok a >>= f) = f a := rfl

theorem bind_ok_iff {x : Except ε α} {f : α → Except ε β} {b : β} :
    (x >>= f) = .ok b ↔ ∃ a, x = .ok a ∧ f a = .ok b := by
  cases x with
  | error e => exact ⟨by rintro ⟨⟩, by rintro ⟨_, ⟨⟩, _⟩⟩
  | ok a => exact ⟨fun h => ⟨a, rfl, h⟩, by rintro ⟨_, ⟨⟩, h⟩; exact h⟩

theorem map_ok_iff {x : Except ε α} {g : α → β} {b : β} :
    g <$> x = .ok b ↔ ∃ a, x = .ok a ∧ g a = b := by
  cases x with
  | error e => exact ⟨by rintro ⟨⟩, by rintro ⟨_, ⟨⟩, _⟩⟩
  | ok a => exact ⟨fun h => ⟨a, rfl, Except.ok.inj h⟩, by rintro ⟨_, ⟨⟩, rfl⟩; rfl⟩

theorem ofLittleEndian_littleEndian (width n : Nat) :
    ofLittleEndian (littleEndian width n) = n % 256 ^ width := by
  induction width generalizing n with
  | zero => simp [littleEndian, ofLittleEndian, Nat.mod_one]
  | succ w ih =>
    have h := ih (n / 256)
    simp only [ofLittleEndian] at h
    simp only [littleEndian, ofLittleEndian, List.foldr_cons, h, Nat.pow_succ]
    rw [Nat.mul_comm (256 ^ w) 256, Nat.mod_mul]
    simp

theorem ofLittleEndian_singleton (b : UInt8) : ofLittleEndian [b] = b.toNat := rfl

theorem Reader.u8_eq_ok {data : Bytes} {p q : Nat} {b : UInt8} :
    Reader.u8 data p = (.ok b, q) ↔ data[p]? = some b ∧ q = p + 1 := by
  have hbyte (h : p < data.size) : (data.extract p (p + 1)).toList = [data[p]] := by
    rw [Array.toList_extract, List.extract_eq_take_drop, Nat.add_sub_cancel_left,
      ← Array.getElem_toList, List.drop_eq_getElem_cons (by simpa using h)]
    rfl
  rw [Reader.u8, Reader.map_eq_ok, Array.getElem?_eq_some_iff]
  constructor
  · rintro ⟨n, hn, rfl⟩
    obtain ⟨bs, m, hbs, hn⟩ := Reader.bind_eq_ok.1 hn
    obtain ⟨hsize, rfl, rfl⟩ := Reader.exact_eq_ok.1 hbs
    cases hn
    refine ⟨⟨hsize, ?_⟩, rfl⟩
    rw [hbyte hsize, ofLittleEndian_singleton, UInt8.ofNat_toNat]
  · rintro ⟨⟨hsize, rfl⟩, rfl⟩
    refine ⟨data[p].toNat, Reader.bind_eq_ok.2 ⟨[data[p]], p + 1, ?_, rfl⟩, UInt8.ofNat_toNat⟩
    exact Reader.exact_eq_ok.2 ⟨hsize, (hbyte hsize).symm, rfl⟩

/-- `bytes` stand in the stream from `p` on. -/
def LiesAt (data : Bytes) (p : Nat) (bytes : List UInt8) : Prop := bytes <+: data.toList.drop p

namespace LiesAt

variable {data : Bytes} {p : Nat} {bytes a b : List UInt8}

theorem append_iff : LiesAt data p (a ++ b) ↔ LiesAt data p a ∧ LiesAt data (p + a.length) b := by
  unfold LiesAt
  rw [← List.drop_drop]
  constructor
  · rintro ⟨rest, h⟩
    rw [← h, List.append_assoc]
    exact ⟨List.prefix_append _ _, by simp⟩
  · rintro ⟨⟨rest, h⟩, hb⟩
    rw [← h, List.drop_left] at hb
    rw [← h]
    exact List.prefix_append_right_inj a |>.2 hb

theorem of_toList_eq {before after : List UInt8} (h : data.toList = before ++ bytes ++ after) :
    LiesAt data before.length bytes := by
  unfold LiesAt
  rw [h, List.append_assoc, List.drop_left]
  exact List.prefix_append bytes after

theorem length_le (h : LiesAt data p bytes) : bytes.length ≤ data.size - p := by
  simpa using List.IsPrefix.length_le h

theorem extract (data : Bytes) (start stop : Nat) :
    LiesAt data start (data.extract start stop).toList := by
  rw [Array.toList_extract, List.extract_eq_take_drop]
  exact List.take_prefix _ _

theorem take_eq (h : LiesAt data p bytes) :
    (data.extract p (p + bytes.length)).toList = bytes := by
  rw [Array.toList_extract, List.extract_eq_take_drop, Nat.add_sub_cancel_left]
  exact (List.prefix_iff_eq_take.1 h).symm

theorem of_flatMap_width {f : α → List UInt8} {w : Nat} (hf : ∀ a, (f a).length = w)
    {as : List α} (h : LiesAt data p (as.flatMap f)) {k : Nat} {c : α} (hc : as[k]? = some c) :
    LiesAt data (p + k * w) (f c) := by
  induction as generalizing p k with
  | nil => simp at hc
  | cons first as ih =>
    rw [List.flatMap_cons, append_iff, hf] at h
    cases k with
    | zero =>
      cases hc
      rw [Nat.zero_mul]
      exact h.1
    | succ k =>
      have := ih h.2 hc
      rwa [Nat.add_assoc, Nat.add_comm w, ← Nat.succ_mul] at this

end LiesAt

namespace Reader

/-- Where `bytes` stand, `r` answers `a` and stops behind them. -/
def Reads (r : Reader α) (bytes : List UInt8) (a : α) : Prop :=
  ∀ (data : Bytes) (p : Nat), LiesAt data p bytes → r data p = (.ok a, p + bytes.length)

namespace Reads

variable {r : Reader α} {f : α → Reader β} {bs rest : List UInt8} {a : α} {b : β}

theorem eval_eq {data : Bytes} {p : Nat} (hr : Reads r bs a) (h : LiesAt data p bs) :
    r.eval data p = .ok a := congrArg Prod.fst (hr data p h)

theorem pure (a : α) : Reads (Pure.pure a) [] a := fun _ _ _ => rfl

theorem bind_run {data : Bytes} {p : Nat} (hr : Reads r bs a) (h : LiesAt data p bs) :
    (r >>= f) data p = f a data (p + bs.length) := by
  rw [bind_apply, hr data p h]

theorem bind (hr : Reads r bs a) (hf : Reads (f a) rest b) :
    Reads (r >>= f) (bs ++ rest) b := by
  intro data p h
  obtain ⟨hb, hrest⟩ := LiesAt.append_iff.1 h
  rw [hr.bind_run hb, hf data _ hrest, List.length_append, Nat.add_assoc]

theorem bind_nil (hr : Reads r bs a) (hf : Reads (f a) [] b) : Reads (r >>= f) bs b := by
  simpa using hr.bind hf

theorem bind_pure {g : α → β} (hr : Reads r bs a) (hg : g a = b) :
    Reads (r >>= fun a => Pure.pure (g a)) bs b :=
  hr.bind_nil (hg ▸ Reads.pure (g a))

theorem map (g : α → β) (hr : Reads r bs a) : Reads (g <$> r) bs (g a) :=
  hr.bind_pure rfl

theorem exact {width : Nat} (hw : 0 < width) (hl : bs.length = width) :
    Reads (Reader.exact width) bs bs := by
  intro data p h
  have := h.length_le
  subst hl
  rw [exact_eq_ok]
  exact ⟨by omega, h.take_eq.symm, rfl⟩

theorem bytes (bs : List UInt8) : Reads (Reader.bytes bs.length) bs bs := by
  intro data p h
  simp only [Reader.bytes, if_pos h.length_le, h.take_eq]

theorem fixed {width n : Nat} (hw : 0 < width) (hn : n < 256 ^ width) :
    Reads (Reader.fixed width) (littleEndian width n) n := by
  apply (Reads.exact hw (length_littleEndian width n)).bind_pure
  rw [ofLittleEndian_littleEndian, Nat.mod_eq_of_lt hn]

theorem u8 (v : UInt8) : Reads Reader.u8 [v] v := by
  have hfixed : Reads (Reader.fixed 1) (littleEndian 1 v.toNat) v.toNat :=
    fixed (by decide) v.toNat_lt
  simpa [littleEndian, Reader.u8] using hfixed.map UInt8.ofNat

theorem u32 {n : Nat} (hn : n < 2 ^ 32) :
    Reads Reader.u32 (littleEndian 4 n) (UInt32.ofNat n) := by
  have hfixed : Reads (Reader.fixed 4) (littleEndian 4 n) n := fixed (by decide) hn
  exact hfixed.map UInt32.ofNat

theorem indexed {r : Nat → Reader α} {f : α → List UInt8} (start : Nat) (as : List α)
    (h : ∀ i (hi : i < as.length), Reads (r (start + i)) (f as[i]) as[i]) :
    Reads (Reader.indexed r start as.length) (as.flatMap f) as := by
  induction as generalizing start with
  | nil => exact Reads.pure []
  | cons a as ih =>
    rw [List.flatMap_cons]
    refine (h 0 (by simp)).bind ((ih (start + 1) fun i hi => ?_).bind_pure rfl)
    have := h (i + 1) (by simpa using hi)
    simpa [Nat.add_assoc, Nat.add_comm 1] using this

theorem replicate {f : α → List UInt8} (as : List α) (h : ∀ a ∈ as, Reads r (f a) a) :
    Reads (Reader.replicate as.length r) (as.flatMap f) as :=
  indexed 0 as fun _ hi => h _ (List.getElem_mem hi)

theorem traverse {r : γ → Reader β} {f : α → List UInt8} {known : α → γ} {g : α → β} (as : List α)
    (h : ∀ a ∈ as, Reads (r (known a)) (f a) (g a)) :
    Reads (Reader.traverse r (as.map known)) (as.flatMap f) (as.map g) := by
  induction as with
  | nil => exact Reads.pure []
  | cons a as ih =>
    have ⟨ha, has⟩ := List.forall_mem_cons.1 h
    exact ha.bind ((ih has).bind_pure rfl)

end Reads

section Indexed

variable {r : Nat → Reader α} {start count : Nat} {data : Bytes} {p q : Nat} {as : List α}

theorem length_of_indexed (h : indexed r start count data p = (.ok as, q)) :
    as.length = count := by
  induction count generalizing start p as with
  | zero =>
    cases h
    rfl
  | succ count ih =>
    obtain ⟨a, m, -, h⟩ := bind_eq_ok.1 h
    obtain ⟨rest, m', hrest, h⟩ := bind_eq_ok.1 h
    cases h
    rw [List.length_cons, ih hrest]

theorem exists_read_of_indexed (h : indexed r start count data p = (.ok as, q)) (k : Nat)
    (hk : k < as.length) : ∃ m m', r (start + k) data m = (.ok as[k], m') := by
  induction count generalizing start p q as k with
  | zero =>
    cases h
    cases hk
  | succ count ih =>
    obtain ⟨a, m, hfirst, h⟩ := bind_eq_ok.1 h
    obtain ⟨rest, m', hrest, h⟩ := bind_eq_ok.1 h
    cases h
    cases k with
    | zero => exact ⟨p, m, hfirst⟩
    | succ k =>
      have := ih hrest k (Nat.lt_of_succ_lt_succ hk)
      rwa [Nat.add_assoc, Nat.add_comm 1] at this

end Indexed

end Reader

end DebugSymbols
