/-
# Decimal numerals are read back

The digits of a number are digits indeed, there is at least one of them, and their value is the
number.
-/

import Untested.Text.Decimal
import Untested.Text.Blank
import Mathlib.Data.List.Basic

namespace Untested.Text

theorem digitValue_digitChar : ∀ value < 10, digitValue (digitChar value) = value := by
  decide

theorem isDigit_digitChar : ∀ value < 10, isDigit (digitChar value) = true := by
  decide

/-- Digits lie between the blanks of ASCII and those beyond it. -/
theorem isBlank_of_isDigit {c : Char} (hc : isDigit c = true) : isBlank c = false := by
  simp only [isDigit, Bool.and_eq_true, decide_eq_true_eq, Char.le_def,
    UInt32.le_iff_toNat_le] at hc
  have hlow : 48 ≤ c.toNat := hc.1
  have hhigh : c.toNat ≤ 57 := hc.2
  simp only [isBlank, blankRanges, List.any_cons, List.any_nil, Bool.or_false, Bool.or_eq_false_iff,
    Bool.and_eq_false_iff, decide_eq_false_iff_not]
  omega

/-- One more digit at the end moves all others up by one place. -/
theorem decimalValue_append_singleton (digits : List Char) (c : Char) :
    decimalValue (digits ++ [c]) = 10 * decimalValue digits + digitValue c := by
  rw [decimalValue, List.foldl_append]
  rfl

@[simp]
theorem decimalValue_decimalDigits (value : Nat) : decimalValue (decimalDigits value) = value := by
  induction value using decimalDigits.induct with
  | case1 value hlt =>
      rw [decimalDigits, if_pos hlt]
      have := decimalValue_append_singleton [] (digitChar value)
      rw [List.nil_append, digitValue_digitChar value hlt] at this
      simpa [decimalValue] using this
  | case2 value hge ih =>
      rw [decimalDigits, if_neg hge, decimalValue_append_singleton, ih,
        digitValue_digitChar _ (Nat.mod_lt _ (by decide))]
      exact Nat.div_add_mod value 10

theorem isDigit_of_mem_decimalDigits {value : Nat} {c : Char} (hc : c ∈ decimalDigits value) :
    isDigit c = true := by
  induction value using decimalDigits.induct with
  | case1 value hlt =>
      rw [decimalDigits, if_pos hlt, List.mem_singleton] at hc
      rw [hc]
      exact isDigit_digitChar value hlt
  | case2 value hge ih =>
      rw [decimalDigits, if_neg hge, List.mem_append, List.mem_singleton] at hc
      rcases hc with hc | hc
      · exact ih hc
      · rw [hc]
        exact isDigit_digitChar _ (Nat.mod_lt _ (by decide))

theorem decimalDigits_ne_nil (value : Nat) : decimalDigits value ≠ [] := by
  rw [decimalDigits]
  split
  · exact List.cons_ne_nil _ _
  · exact List.append_ne_nil_of_right_ne_nil _ (List.cons_ne_nil _ _)

end Untested.Text
