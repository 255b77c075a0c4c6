import UtilityClass.Text.Word

/-!
# Characters of ASCII by their codes

Membership in the classes of ASCII characters as bounds on codes, for `omega`.
-/

namespace UtilityClass.Text

variable {c : Char}

/-- Characters are ordered by their codes. -/
private theorem le_iff_toNat_le {a b : Char} : a ≤ b ↔ a.toNat ≤ b.toNat :=
  UInt32.le_iff_toNat_le

/-- A character between two others by the codes. -/
private theorem between_iff {a b : Char} :
    (decide (a ≤ c) && decide (c ≤ b)) = true ↔ a.toNat ≤ c.toNat ∧ c.toNat ≤ b.toNat := by
  rw [Bool.and_eq_true, decide_eq_true_iff, decide_eq_true_iff, le_iff_toNat_le, le_iff_toNat_le]

/-- The digits of ASCII by their codes. -/
theorem isDigit_iff : c.isDigit = true ↔ 48 ≤ c.toNat ∧ c.toNat ≤ 57 :=
  between_iff

/-- The lower-case letters of ASCII by their codes. -/
theorem isAsciiLower_iff : isAsciiLower c = true ↔ 97 ≤ c.toNat ∧ c.toNat ≤ 122 :=
  between_iff

/-- The letters of ASCII by their codes. -/
theorem isAsciiLetter_iff :
    isAsciiLetter c = true ↔
      (65 ≤ c.toNat ∧ c.toNat ≤ 90) ∨ (97 ≤ c.toNat ∧ c.toNat ≤ 122) := by
  show (decide ('A' ≤ c ∧ c ≤ 'Z') || (decide ('a' ≤ c) && decide (c ≤ 'z'))) = true ↔ _
  rw [Bool.or_eq_true, decide_eq_true_iff, between_iff, le_iff_toNat_le, le_iff_toNat_le]
  exact Iff.rfl

/-- The letters and digits of ASCII are its letters and its digits. -/
theorem isAsciiAlphanumeric_iff :
    isAsciiAlphanumeric c = true ↔ isAsciiLetter c = true ∨ c.isDigit = true := by
  show (isAsciiLetter c || c.isDigit) = true ↔ _
  exact Bool.or_eq_true_iff

end UtilityClass.Text
