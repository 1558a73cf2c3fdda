import Mathlib.Tactic.SplitIfs
import OntologyStructs.Text.Cased

namespace OntologyStructs.CodePoint

variable {c : CodePoint}

theorem isUpper_iff : c.isUpper ↔ 65 ≤ c.val ∧ c.val ≤ 90 := by
  simp only [isUpper, Bool.and_eq_true, decide_eq_true_eq]
  rfl

theorem isLower_iff : c.isLower ↔ 97 ≤ c.val ∧ c.val ≤ 122 := by
  simp only [isLower, Bool.and_eq_true, decide_eq_true_eq]
  rfl

theorem isDigit_iff : c.isDigit ↔ 48 ≤ c.val ∧ c.val ≤ 57 := by
  simp only [isDigit, Bool.and_eq_true, decide_eq_true_eq]
  rfl

theorem isAlphanumeric_iff : c.isAlphanumeric ↔ c.isUpper ∨ c.isLower ∨ c.isDigit := by
  simp only [isAlphanumeric, isLetter, Bool.or_eq_true, or_assoc]

theorem not_isUpper_of_small (h : c.isLower ∨ c.isDigit) : ¬c.isUpper := by
  rw [isLower_iff, isDigit_iff] at h
  rw [isUpper_iff]
  omega

theorem isHighSurrogate_iff : c.isHighSurrogate ↔ 0xD800 ≤ c.val ∧ c.val < 0xDC00 := by
  simp only [isHighSurrogate, Bool.and_eq_true, decide_eq_true_eq]

theorem isLowSurrogate_iff : c.isLowSurrogate ↔ 0xDC00 ≤ c.val ∧ c.val < 0xE000 := by
  simp only [isLowSurrogate, Bool.and_eq_true, decide_eq_true_eq]

theorem isSurrogate_iff : c.isSurrogate ↔ 0xD800 ≤ c.val ∧ c.val < 0xE000 := by
  simp only [isSurrogate, Bool.and_eq_true, decide_eq_true_eq]

theorem val_lower : c.lower.val = if c.isUpper then c.val + 32 else c.val := by
  rw [lower]
  split
  next h =>
    have hc := isUpper_iff.mp h
    rw [Fin.val_add]
    exact Nat.mod_eq_of_lt (by change c.val + 32 < _; omega)
  · rfl

theorem val_upper : c.upper.val = if c.isLower then c.val - 32 else c.val := by
  rw [upper]
  split
  next h =>
    have hc := isLower_iff.mp h
    rw [Fin.sub_val_of_le]
    · rfl
    · change 32 ≤ c.val
      omega
  · rfl

theorem isLower_upper (c : CodePoint) : c.upper.isLower = false := by
  rw [Bool.eq_false_iff, ne_eq, isLower_iff, val_upper]
  split
  next h =>
    have hc := isLower_iff.mp h
    omega
  next h =>
    rwa [isLower_iff] at h

theorem lower_upper (c : CodePoint) : c.upper.lower = c.lower := by
  apply Fin.ext
  simp only [val_lower, isUpper_iff, val_upper, isLower_iff]
  split_ifs <;> omega

theorem lower_lower (c : CodePoint) : c.lower.lower = c.lower := by
  apply Fin.ext
  simp only [val_lower, isUpper_iff]
  split_ifs <;> omega

theorem isLower_lower (h : c.isUpper) : c.lower.isLower := by
  have hc := isUpper_iff.mp h
  rw [isLower_iff, val_lower, if_pos h]
  omega

/-- What is not small but becomes small is a capital. -/
theorem isUpper_of_isLower_lower (h : c.isLower = false) (hl : c.lower.isLower) : c.isUpper := by
  refine Classical.byContradiction fun hc ↦ ?_
  have hkeep : c.lower = c := if_neg hc
  rw [hkeep, h] at hl
  cases hl

theorem changesInLower_of_isUpper (h : c.isUpper) : c.changesInLower := by
  have hc := isUpper_iff.mp h
  have hascii : c.isAscii := decide_eq_true (by omega)
  rwa [changesInLower, if_pos hascii]

theorem changesInLower_of_isLower (h : c.isLower) : c.changesInLower = false := by
  have hc := isLower_iff.mp h
  have hascii : c.isAscii := decide_eq_true (by omega)
  rw [changesInLower, if_pos hascii, Bool.eq_false_iff, ne_eq, isUpper_iff]
  omega

theorem ne_of_isAlphanumeric {d : CodePoint} (hc : c.isAlphanumeric) (hd : d.isAlphanumeric = false) :
    c ≠ d := by
  rintro rfl
  rw [hc] at hd
  cases hd

theorem isAlphanumeric_upper (h : c.isAlphanumeric) : c.upper.isAlphanumeric := by
  simp only [isAlphanumeric, isLetter, Bool.or_eq_true] at h ⊢
  rw [isUpper_iff, val_upper]
  split
  next hc =>
    rw [isLower_iff] at hc
    omega
  next hc =>
    have hu : c.upper = c := if_neg hc
    rw [hu, ← isUpper_iff]
    exact h

theorem isAlphanumeric_lower (c : CodePoint) : c.lower.isAlphanumeric = c.isAlphanumeric := by
  rw [Bool.eq_iff_iff]
  simp only [isAlphanumeric, isLetter, Bool.or_eq_true, isUpper_iff, isLower_iff, isDigit_iff, val_lower]
  split_ifs <;> omega

end OntologyStructs.CodePoint
