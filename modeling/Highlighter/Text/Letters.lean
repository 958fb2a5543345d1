import Highlighter.Text.Basic

/-!
ASCII letters. Beyond ASCII there are none of them, and what is no capital stays as it is in lower
case.
-/

namespace Highlighter.Text

variable {c : Char}

theorem not_le_of_wide (h : 128 ≤ c.toNat) {bound : UInt32} (hbound : bound.toNat < 128) :
    ¬c.val ≤ bound := by
  rw [UInt32.le_iff_toNat_le, Nat.not_le]
  exact Nat.lt_of_lt_of_le hbound h

theorem isLower_of_wide (h : 128 ≤ c.toNat) : c.isLower = false :=
  Bool.and_eq_false_iff.2 (.inr (decide_eq_false (not_le_of_wide h (by decide))))

theorem isUpper_of_wide (h : 128 ≤ c.toNat) : c.isUpper = false :=
  decide_eq_false fun hupper => not_le_of_wide h (by decide) hupper.2

theorem isDigit_of_wide (h : 128 ≤ c.toNat) : c.isDigit = false :=
  Bool.and_eq_false_iff.2 (.inr (decide_eq_false (not_le_of_wide h (by decide))))

theorem isAlphanum_of_wide (h : 128 ≤ c.toNat) : c.isAlphanum = false := by
  change ((c.isUpper || c.isLower) || c.isDigit) = false
  rw [isUpper_of_wide h, isLower_of_wide h, isDigit_of_wide h]
  rfl

theorem toLower_of_not_isUpper (h : c.isUpper = false) : c.toLower = c :=
  dif_neg (of_decide_eq_false h)

end Highlighter.Text
