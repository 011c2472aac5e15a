import Mathlib.Data.List.Basic
import ResourceScript.Text.Hex
import ResourceScript.Text.Numeral

namespace ResourceScript.Text

variable {base width n : Nat} {ds : List Nat}

theorem ofDigits_append_singleton (base : Nat) (ds : List Nat) (d : Nat) :
    ofDigits base (ds ++ [d]) = ofDigits base ds * base + d := by
  rw [ofDigits, List.foldl_append, ← ofDigits, List.foldl_cons, List.foldl_nil]

theorem ofDigits_zeros_append (base k : Nat) (ds : List Nat) :
    ofDigits base (List.replicate k 0 ++ ds) = ofDigits base ds := by
  induction k with
  | zero => rfl
  | succ k ih =>
    rw [List.replicate_succ, List.cons_append, ← ih, ofDigits, List.foldl_cons, Nat.zero_mul]
    rfl

theorem exists_digits (base : Nat) (hbase : 1 < base) (n : Nat) :
    ∃ ds, Nat.toDigits base n = ds.map Nat.digitChar ∧ (∀ d ∈ ds, d < base) ∧
      ofDigits base ds = n ∧ (ds.head? = some 0 → ds = [0]) := by
  induction n using Nat.strongRecOn with
  | ind n ih =>
    rw [Nat.toDigits_eq_if hbase]
    split
    case isTrue hn => exact ⟨[n], rfl, by simpa using hn, by simp [ofDigits], by simp⟩
    case isFalse hn =>
      have hlt : n / base < n := Nat.div_lt_self (by omega) hbase
      have hpos : 0 < n / base := Nat.div_pos (by omega) (by omega)
      obtain ⟨ds, hds, hall, hvalue, hhead⟩ := ih (n / base) hlt
      refine ⟨ds ++ [n % base], by rw [hds, List.map_append, List.map_singleton], ?_, ?_, ?_⟩
      · rw [List.forall_mem_append, List.forall_mem_singleton]
        exact ⟨hall, Nat.mod_lt n (by omega)⟩
      · rw [ofDigits_append_singleton, hvalue, Nat.div_add_mod']
      · intro hzero
        cases ds with
        | nil => exact absurd hvalue (Nat.ne_of_lt hpos)
        | cons d ds =>
          have hnone : ofDigits base [0] = 0 := by simp [ofDigits]
          rw [hhead hzero, hnone] at hvalue
          exact absurd hvalue (Nat.ne_of_lt hpos)

theorem isShown_iff_length_le : isShown n = true ↔ (Nat.toDigits 10 n).length ≤ decimalLimit := by
  have hpos : 0 < decimalLimit := by decide
  rw [isShown_iff]
  -- The limit stays a variable, for nothing is to compute its power.
  generalize decimalLimit = limit at hpos ⊢
  exact (Nat.length_toDigits_le_iff (by decide) hpos).symm

theorem exists_hexDigits (width n : Nat) :
    ∃ ds, hexDigits width n = ds.map Nat.digitChar ∧ (∀ d ∈ ds, d < 16) ∧
      ofDigits 16 ds = n := by
  obtain ⟨ds, hds, hall, hvalue, -⟩ := exists_digits 16 (by decide) n
  refine ⟨List.replicate (width - ds.length) 0 ++ ds, ?_, ?_, ?_⟩
  · simp only [hexDigits, hds, List.length_map, List.map_append, List.map_replicate]
    rfl
  · rw [List.forall_mem_append]
    refine ⟨?_, hall⟩
    intro d hd
    rw [List.eq_of_mem_replicate hd]
    decide
  · rw [ofDigits_zeros_append, hvalue]

theorem length_hexDigits (width n : Nat) :
    (hexDigits width n).length = max width (Nat.toDigits 16 n).length := by
  rw [hexDigits, List.length_append, List.length_replicate]
  omega

theorem mapM_map_eq_some {read : Char → Option Nat} {write : Nat → Char}
    (h : ∀ d ∈ ds, read (write d) = some d) : (ds.map write).mapM read = some ds := by
  induction ds with
  | nil => rfl
  | cons d ds ih =>
    obtain ⟨hd, hds⟩ := List.forall_mem_cons.mp h
    rw [List.map_cons, List.mapM_cons, hd, ih hds]
    rfl

end ResourceScript.Text
