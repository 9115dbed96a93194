/-
# Digits — numbers that are written and read back

A number written in decimal has at least one digit and nothing but digits, and its value is
the number.  So distinct numbers are written differently, with a sign or without one; the
files and addresses of signatures are told apart by that.

Digits that somebody else wrote may have zeros in front, so writing their value again takes
no more of them (`length_decimal_decimalValue_le`).
-/
import Mathlib.Data.List.Induction
import ImageTrust.Text.Basic

namespace ImageTrust

namespace CodePoint

theorem ofChar_val (c : Char) : (ofChar c).val = c.toNat := rfl

theorem ofChar_isDigit (c : Char) : (ofChar c).isDigit = c.isDigit := rfl

end CodePoint

namespace Text

theorem decimalValue_decimal (n : Nat) : (decimal n).decimalValue = n := by
  unfold decimal digits decimalValue
  rw [List.foldl_map]
  calc (Nat.toDigits 10 n).foldl (fun k c => k * 10 + ((CodePoint.ofChar c).val - 0x30)) 0
      = Nat.ofDigitChars 10 (Nat.toDigits 10 n) 0 := by
        simp only [Nat.ofDigitChars_eq_foldl, Nat.mul_comm, CodePoint.ofChar_val]
        rfl
    _ = n := Nat.ofDigitChars_ten_toDigits

theorem decimal_ne_nil (n : Nat) : decimal n ≠ [] := by
  unfold decimal digits
  simp [Nat.toDigits_ne_nil]

theorem isDigit_of_mem_decimal {n : Nat} {c : CodePoint} (hc : c ∈ decimal n) :
    c.isDigit = true := by
  obtain ⟨d, hd, rfl⟩ := List.mem_map.mp hc
  rw [CodePoint.ofChar_isDigit]
  exact Nat.isDigit_of_mem_toDigits (by decide) (by decide) hd

/-- Only zero is written with a leading zero. -/
theorem head_decimal_ne_zero {n : Nat} (hn : 0 < n) {c : CodePoint} {rest : Text}
    (h : decimal n = c :: rest) : c ≠ CodePoint.ofChar '0' := by
  unfold decimal digits at h
  induction n using Nat.strongRecOn generalizing rest with
  | ind n ih =>
      rcases Nat.lt_or_ge n 10 with hlt | hge
      · rw [Nat.toDigits_of_lt_base hlt] at h
        obtain ⟨rfl, -⟩ := List.cons.inj h
        have hdigit : ∀ k < 10, 0 < k →
            CodePoint.ofChar (Nat.digitChar k) ≠ CodePoint.ofChar '0' := by
          decide
        exact hdigit n hlt hn
      · obtain ⟨d, ds, hcons⟩ := List.exists_cons_of_ne_nil
          (Nat.toDigits_ne_nil (n := n / 10) (b := 10))
        rw [Nat.toDigits_of_base_le (by decide) hge, hcons] at h
        obtain ⟨rfl, -⟩ := List.cons.inj h
        have hrest : (Nat.toDigits 10 (n / 10)).map CodePoint.ofChar =
            CodePoint.ofChar d :: ds.map CodePoint.ofChar := by
          rw [hcons, List.map_cons]
        exact ih (n / 10) (by omega) (by omega) hrest

theorem decimal_injective {n m : Nat} (h : decimal n = decimal m) : n = m := by
  have hvalue := congrArg decimalValue h
  rwa [decimalValue_decimal, decimalValue_decimal] at hvalue

/-- So many digits are enough for a number just when it is below that power of ten. -/
theorem length_decimal_le_iff {n k : Nat} (hk : 0 < k) : (decimal n).length ≤ k ↔ n < 10 ^ k := by
  unfold decimal digits
  rw [List.length_map]
  exact Nat.length_toDigits_le_iff (by decide) hk

theorem decimalValue_append (t : Text) (c : CodePoint) :
    decimalValue (t ++ [c]) = decimalValue t * 10 + (c.val - 0x30) := by
  simp only [decimalValue, List.foldl_append, List.foldl_cons, List.foldl_nil]

theorem decimalValue_lt {t : Text} (ht : ∀ c ∈ t, c.isDigit = true) :
    t.decimalValue < 10 ^ t.length := by
  -- The last digit counts ones, so the digits are taken off at the end.
  induction t using List.reverseRecOn with
  | nil => decide
  | append_singleton t c ih =>
      have hbefore := ih fun d hd => ht d (List.mem_append_left _ hd)
      have hlast : c.val - 0x30 < 10 := by
        have hdigit := ht c (List.mem_append_right _ (List.mem_singleton_self c))
        simp only [CodePoint.isDigit, CodePoint.within, Bool.and_eq_true, decide_eq_true_eq] at hdigit
        omega
      rw [decimalValue_append, List.length_append, List.length_singleton, Nat.pow_succ]
      omega

theorem length_decimal_decimalValue_le {t : Text} (hne : t ≠ []) (ht : ∀ c ∈ t, c.isDigit = true) :
    (decimal t.decimalValue).length ≤ t.length :=
  (length_decimal_le_iff (List.length_pos_iff.mpr hne)).mpr (decimalValue_lt ht)

theorem integer_of_nonneg {i : Int} (hi : 0 ≤ i) : integer i = decimal i.natAbs :=
  if_neg (Int.not_lt.mpr hi)

theorem integer_of_neg {i : Int} (hi : i < 0) :
    integer i = CodePoint.ofChar '-' :: decimal i.natAbs :=
  if_pos hi

theorem integer_ne_nil (i : Int) : integer i ≠ [] := by
  rcases Int.lt_or_le i 0 with hi | hi
  · rw [integer_of_neg hi]
    exact List.cons_ne_nil _ _
  · rw [integer_of_nonneg hi]
    exact decimal_ne_nil _

/-- No sign is a digit. -/
theorem integer_ne_of_neg {i j : Int} (hi : i < 0) (hj : 0 ≤ j) : integer i ≠ integer j := by
  rw [integer_of_neg hi, integer_of_nonneg hj]
  intro h
  have hmem : CodePoint.ofChar '-' ∈ decimal j.natAbs := h ▸ List.mem_cons_self
  have hdigit := isDigit_of_mem_decimal hmem
  revert hdigit
  decide

theorem integer_injective {i j : Int} (h : integer i = integer j) : i = j := by
  rcases Int.lt_or_le i 0 with hi | hi <;> rcases Int.lt_or_le j 0 with hj | hj
  · rw [integer_of_neg hi, integer_of_neg hj] at h
    have habs := decimal_injective (List.cons.inj h).2
    omega
  · exact absurd h (integer_ne_of_neg hi hj)
  · exact absurd h.symm (integer_ne_of_neg hj hi)
  · rw [integer_of_nonneg hi, integer_of_nonneg hj] at h
    have habs := decimal_injective h
    omega

end Text

end ImageTrust
