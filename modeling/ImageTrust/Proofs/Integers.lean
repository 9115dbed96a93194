/-
# Integers — what is read can be written

An integer with too many digits has a value, and a decimal text, and is no part of a document all
the same.  So a document that was read could hold an integer that is not read again once it is
written, if some reader let one in by another way.

None does.  A number token is an integer only within the limit (`short_takeToken`), documents are
made of what tokens bring (`short_of_read`), and where an integer is asked for and the document has
a text, a double or a truth value instead, the value is bounded by the text, or by the sixty-four
bits of a word (`length_le_of_checkInteger`).
-/
import ImageTrust.Proofs.Origins

namespace ImageTrust

/-! ## Integers that texts write -/

namespace Text

variable {t : Text} {i : Int}

theorem natAbs_signed (negative : Bool) (n : Nat) :
    (if negative then -(Int.ofNat n) else Int.ofNat n).natAbs = n := by
  cases negative
  · rfl
  · exact Int.natAbs_neg _

/-- The digits are among the code points of the groups. -/
theorem grouped?_spec {run digits : Text} (h : grouped? run = some digits) :
    digits.length ≤ run.length ∧ ∀ c ∈ digits, c.isDigit = true := by
  unfold grouped? at h
  split at h
  · cases h
    exact ⟨Nat.zero_le _, fun c hc => absurd hc List.not_mem_nil⟩
  · split at h
    · cases h
      exact ⟨List.length_filter_le _ _, fun c hc => (List.mem_filter.mp hc).2⟩
    · cases h

/-- The integer that a text writes has no more digits than the text has code points. -/
theorem length_decimal_le_of_toInteger? (h : toInteger? t = some i) :
    (decimal i.natAbs).length ≤ t.length := by
  have hunsigned := (Json.cutSign_suffix t).length_le
  unfold toInteger? at h
  generalize t.cutSign = signed at h hunsigned
  obtain ⟨negative, unsigned⟩ := signed
  obtain ⟨⟨digits, rest⟩, htake, h⟩ := Option.bind_eq_some_iff.mp h
  obtain ⟨found, hgrouped, hpair⟩ := Option.bind_eq_some_iff.mp htake
  cases hpair
  obtain ⟨hfew, hdigits⟩ := grouped?_spec hgrouped
  have hrun := (List.takeWhile_prefix (l := unsigned) isDigitOrJoint).length_le
  -- Whatever follows the digits, the integer is their value.
  have hvalue : ∀ empty : Bool, (if digits = [] ∨ !empty then none
      else some (if negative then -(Int.ofNat digits.decimalValue)
        else Int.ofNat digits.decimalValue)) = some i →
      digits ≠ [] ∧ i.natAbs = digits.decimalValue := by
    intro empty hsome
    split at hsome
    · cases hsome
    · rename_i hnot
      refine ⟨fun hnil => hnot (.inl hnil), ?_⟩
      rw [← Option.some.inj hsome, natAbs_signed]
  obtain ⟨hne, habs⟩ : digits ≠ [] ∧ i.natAbs = digits.decimalValue := by
    dsimp only at h
    split at h
    · exact hvalue true h
    · split at h
      · exact hvalue _ h
      · cases h
  have hwritten := length_decimal_decimalValue_le hne hdigits
  rw [habs]
  dsimp only at hunsigned
  omega

end Text

namespace Json

/-! ## Documents of short integers -/

/-- Every integer in the document has as few digits as are read. -/
inductive Short : Json → Prop
  | null : Short .null
  | bool (b : Bool) : Short (.bool b)
  | int {i : Int} (short : (Text.decimal i.natAbs).length ≤ Number.maxDigits) : Short (.int i)
  | float (x : Binary64) : Short (.float x)
  | text (t : Text) : Short (.text t)
  | array {items : List Json} (inner : ∀ v ∈ items, Short v) : Short (.array items)
  | object {members : List (Text × Json)} (inner : ∀ e ∈ members, Short e.2) :
      Short (.object members)

namespace Short

variable {v w : Json} {i : Int} {name : Text}

theorem of_int (h : Short (.int i)) : (Text.decimal i.natAbs).length ≤ Number.maxDigits := by
  cases h with
  | int short => exact short

theorem of_member? (hv : v.Short) (h : v.member? name = some w) : w.Short := by
  obtain ⟨members, rfl, hmem⟩ := exists_mem_of_member? h
  cases hv with
  | object inner => exact inner (name, w) hmem

end Short

/-! ## Tokens -/

section Tokens

variable {t rest : Text} {token : Token}

/-- The token is no value with an integer that is too long. -/
def Token.Short (token : Token) : Prop := ∀ v, token = .scalar v → v.Short

end Tokens

/-! ## Documents that are read -/

theorem Made.short {v : Json} (hv : v.Made Short) : v.Short := by
  induction hv with
  | part brought => exact brought
  | array inner ih => exact .array ih
  | object names inner ih => exact .object ih

theorem Token.Short.brings {token : Token} (h : token.Short) : token.Brings Json.Short := by
  intro v hv
  cases token <;> cases hv
  · exact h v rfl
  · exact .text _

end Json

/-! ## Integers that are asked for -/

namespace Datum

variable {v : Json} {i : Int}

/-- An integer is taken from a document only if it is not too long to be written. -/
theorem length_le_of_checkInteger (hv : v.Short) (h : checkInteger (.ofJson v) = .ok i) :
    (Text.decimal i.natAbs).length ≤ Number.maxDigits := by
  cases v with
  | null => cases h
  | array items => cases h
  | object members => cases h
  | bool b =>
      cases h
      cases b <;> decide
  | int j =>
      cases h
      exact hv.of_int
  | float x =>
      have hword : i.natAbs < 2 ^ 63 := by
        cases x with
        | nan => cases h
        | infinite negative => cases h
        | finite negative m e =>
            simp only [ofJson, checkInteger] at h
            split at h
            · cases h
            · split at h
              · cases h
                assumption
              · cases h
      refine (Text.length_decimal_le_iff (by decide)).mpr (Nat.lt_trans hword ?_)
      calc 2 ^ 63 < 10 ^ 19 := by decide
        _ ≤ 10 ^ Number.maxDigits := Nat.pow_le_pow_right (by decide) (by decide)
  | text t =>
      simp only [ofJson, checkInteger] at h
      split at h
      · cases h
      · rename_i hfew
        have hwritten : Text.toInteger? (t.trimmed CodePoint.isBlank) = some i := by
          split at h
          · cases h
            assumption
          · cases h
        exact Nat.le_trans (Text.length_decimal_le_of_toInteger? hwritten) (Nat.not_lt.mp hfew)

end Datum

end ImageTrust
