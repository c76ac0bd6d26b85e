import Mathlib.Data.List.Nodup

namespace DebugSymbols

theorem nodup_map_snoc {key : α → κ} {as : List α} {a : α} (h : (as.map key).Nodup)
    (hnew : key a ∉ as.map key) : ((as ++ [a]).map key).Nodup := by
  rw [List.map_append, List.map_singleton, ← List.concat_eq_append]
  exact h.concat hnew

section Searching

variable [BEq κ] [LawfulBEq κ] {key : α → κ} {as bs : List α} {a : α}

theorem find?_key_of_mem (h : (as.map key).Nodup) (ha : a ∈ as) :
    (as.find? fun b => key b == key a) = some a := by
  induction as with
  | nil => simp at ha
  | cons b as ih =>
    obtain ⟨hnew, hnodup⟩ := List.nodup_cons.1 h
    by_cases heq : b = a
    · rw [heq, List.find?_cons_of_pos (by simp)]
    · have hmem : a ∈ as := (List.mem_cons.1 ha).resolve_left (Ne.symm heq)
      have hkey : key b ≠ key a := fun hkey => hnew (hkey ▸ List.mem_map_of_mem hmem)
      rw [List.find?_cons_of_neg (by simpa using hkey)]
      exact ih hnodup hmem

theorem find?_key_of_perm (h : (as.map key).Nodup) (hperm : bs.Perm as) (wanted : κ) :
    (bs.find? fun a => key a == wanted) = as.find? fun a => key a == wanted := by
  cases hfind : as.find? fun a => key a == wanted with
  | none =>
    rw [List.find?_eq_none] at hfind ⊢
    exact fun a ha => hfind a (hperm.mem_iff.1 ha)
  | some a =>
    have hkey : key a = wanted := by simpa using List.find?_some hfind
    have hnodup : (bs.map key).Nodup := (hperm.map key).nodup_iff.2 h
    rw [← hkey]
    exact find?_key_of_mem hnodup (hperm.mem_iff.2 (List.mem_of_find?_eq_some hfind))

theorem find?_reverse_of_nodup (h : (as.map key).Nodup) (wanted : κ) :
    (as.reverse.find? fun a => key a == wanted) = as.find? fun a => key a == wanted :=
  find?_key_of_perm h (List.reverse_perm as) wanted

end Searching

theorem pairwise_mergeSort_of_nodup {k : α → UInt32} {as : List α} (h : (as.map k).Nodup) :
    (as.mergeSort fun a b => k a ≤ k b).Pairwise fun a b => k a < k b := by
  have hle : (as.mergeSort fun a b => k a ≤ k b).Pairwise fun a b => decide (k a ≤ k b) := by
    refine List.pairwise_mergeSort ?_ ?_ as
    · intro a b c hab hbc
      simp only [decide_eq_true_eq] at hab hbc ⊢
      exact UInt32.le_trans hab hbc
    · intro a b
      simp only [Bool.or_eq_true, decide_eq_true_eq]
      exact UInt32.le_total (k a) (k b)
  have hnodup := ((List.mergeSort_perm as fun a b => k a ≤ k b).map k).nodup_iff.2 h
  apply (hle.and (List.pairwise_map.1 hnodup)).imp
  intro a b hab
  exact UInt32.lt_of_le_of_ne (of_decide_eq_true hab.1) hab.2

end DebugSymbols
