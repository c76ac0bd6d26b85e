import DebugSymbols.Proofs.Bytes.Reading

namespace DebugSymbols

namespace LiesAt

variable {data : Bytes} {p : Nat} {b : UInt8} {bytes : List UInt8}

theorem singleton_iff : LiesAt data p [b] ↔ data[p]? = some b := by
  unfold LiesAt
  rw [List.singleton_prefix_iff_head?_eq_some, List.head?_drop, Array.getElem?_toList]

theorem cons_iff :
    LiesAt data p (b :: bytes) ↔ data[p]? = some b ∧ LiesAt data (p + 1) bytes := by
  rw [← singleton_iff]
  exact append_iff (a := [b])

end LiesAt

namespace Varint

/-- Bytes that stand for a number, with `more` of them at most behind the first.  Each byte but the
last announces another one; the last one that is allowed holds four bits. -/
inductive Form : Nat → List UInt8 → Nat → Prop
  | last {more : Nat} {b : UInt8} (ends : b < 0x80) (fits : more = 0 → b ≤ 0x0F) :
    Form more [b] b.toNat
  | group {more n : Nat} {b : UInt8} {bytes : List UInt8} (announces : 0x80 ≤ b)
    (rest : Form more bytes n) : Form (more + 1) (b :: bytes) (b.toNat - 128 + 128 * n)

variable {more n : Nat} {bytes : List UInt8}

theorem Form.reads (h : Form more bytes n) : Reader.Reads (groups more) bytes n := by
  induction h with
  | @last more b ends fits =>
    cases more with
    | zero =>
      apply (Reader.Reads.u8 b).bind_nil
      rw [if_neg (UInt8.not_lt.2 (fits rfl))]
      exact .pure _
    | succ more =>
      apply (Reader.Reads.u8 b).bind_nil
      rw [if_pos ends]
      exact .pure _
  | @group more n b bytes announces rest ih =>
    apply (Reader.Reads.u8 b).bind
    rw [if_neg (UInt8.not_lt.2 announces)]
    exact ih.bind_pure rfl

theorem exists_form {data : Bytes} {p q : Nat} (h : groups more data p = (.ok n, q)) :
    ∃ bytes, Form more bytes n ∧ LiesAt data p bytes ∧ q = p + bytes.length := by
  induction more generalizing p q n with
  | zero =>
    obtain ⟨b, m, hread, h⟩ := Reader.bind_eq_ok.1 h
    obtain ⟨hb, rfl⟩ := Reader.u8_eq_ok.1 hread
    split_ifs at h with hover
    · exact absurd h Reader.fail_ne_ok
    · have hle := UInt8.not_lt.1 hover
      cases h
      refine ⟨[b], .last (UInt8.lt_of_le_of_lt hle (by decide)) fun _ => hle, ?_, rfl⟩
      exact LiesAt.singleton_iff.2 hb
  | succ more ih =>
    obtain ⟨b, m, hread, h⟩ := Reader.bind_eq_ok.1 h
    obtain ⟨hb, rfl⟩ := Reader.u8_eq_ok.1 hread
    split_ifs at h with hends
    · cases h
      exact ⟨[b], .last hends nofun, LiesAt.singleton_iff.2 hb, rfl⟩
    · obtain ⟨high, m, hhigh, h⟩ := Reader.bind_eq_ok.1 h
      obtain ⟨bytes, hform, hlies, rfl⟩ := ih hhigh
      cases h
      refine ⟨b :: bytes, .group (UInt8.not_lt.1 hends) hform,
        LiesAt.cons_iff.2 ⟨hb, hlies⟩, ?_⟩
      rw [List.length_cons, Nat.add_assoc, Nat.add_comm 1]

end Varint

end DebugSymbols
