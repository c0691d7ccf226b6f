import DocumentSql.Text
import Mathlib.Tactic.Common
/- The classes of characters that tell lexemes apart, by number, and the two cases of a letter. -/

namespace DocumentSql.Text

theorem isDigit_iff {c : Char} : c.isDigit = true ↔ 48 ≤ c.toNat ∧ c.toNat ≤ 57 := by
  simp only [Char.isDigit, Bool.and_eq_true, decide_eq_true_eq, ge_iff_le,
    UInt32.le_iff_toNat_le]
  exact Iff.rfl

theorem isUpper_iff {c : Char} : c.isUpper = true ↔ 65 ≤ c.toNat ∧ c.toNat ≤ 90 := by
  delta Char.isUpper
  simp only [decide_eq_true_eq, ge_iff_le, UInt32.le_iff_toNat_le]
  exact Iff.rfl

theorem isLower_iff {c : Char} : c.isLower = true ↔ 97 ≤ c.toNat ∧ c.toNat ≤ 122 := by
  delta Char.isLower
  simp only [Bool.and_eq_true, decide_eq_true_eq, ge_iff_le, UInt32.le_iff_toNat_le]
  exact Iff.rfl

theorem isNameStart_iff {c : Char} : isNameStart c = true ↔
    (65 ≤ c.toNat ∧ c.toNat ≤ 90) ∨ (97 ≤ c.toNat ∧ c.toNat ≤ 122) ∨ c.toNat = 95 := by
  have hunderscore : c = '_' ↔ c.toNat = 95 := Char.toNat_inj.symm
  delta isNameStart Char.isAlpha
  simp only [Bool.or_eq_true, isUpper_iff, isLower_iff, beq_iff_eq, hunderscore, or_assoc]

theorem isNameChar_iff {c : Char} : isNameChar c = true ↔
    isNameStart c = true ∨ c.isDigit = true := by
  simp only [isNameChar, isNameStart, Char.isAlphanum, Bool.or_eq_true]
  tauto

theorem isBlank_iff {c : Char} :
    isBlank c = true ↔ c = ' ' ∨ c = '\t' ∨ c = '\r' ∨ c = '\n' := by
  simp only [isBlank, Bool.or_eq_true, beq_iff_eq, or_assoc]

theorem isWhite_eq_false {c : Char} (h : 33 ≤ c.toNat ∧ c.toNat ≤ 126) : isWhite c = false := by
  obtain ⟨hlow, hhigh⟩ := h
  simp only [isWhite, Bool.or_eq_false_iff, Bool.and_eq_false_iff, decide_eq_false_iff_not,
    beq_eq_false_iff_ne]
  omega

theorem isWhite_digit {c : Char} (h : c.isDigit = true) : isWhite c = false := by
  have := isDigit_iff.mp h
  exact isWhite_eq_false (by omega)

theorem isWhite_nameChar {c : Char} (h : isNameChar c = true) : isWhite c = false := by
  rcases isNameChar_iff.mp h with hstart | hdigit
  · have := isNameStart_iff.mp hstart
    exact isWhite_eq_false (by omega)
  · exact isWhite_digit hdigit

theorem isNameChar_of_isWhite {c : Char} (h : isWhite c = true) : isNameChar c = false := by
  by_contra hname
  rw [isWhite_nameChar (Bool.of_not_eq_false hname)] at h
  cases h

theorem toLower_of_not_isUpper {c : Char} (h : ¬c.isUpper = true) : c.toLower = c := by
  unfold Char.toLower
  exact dif_neg fun hrange => h (isUpper_iff.2 hrange)

section Cases

variable {c : Char}

theorem not_isUpper_of_isLower (h : c.isLower = true) : ¬c.isUpper = true := by
  intro hupper
  have hlower := isLower_iff.1 h
  have hupper := isUpper_iff.1 hupper
  omega

theorem toLower_of_isLower (h : c.isLower = true) : c.toLower = c :=
  toLower_of_not_isUpper (not_isUpper_of_isLower h)

theorem toNat_toLower (h : c.isUpper = true) : c.toLower.toNat = c.toNat + 32 := by
  have hupper := isUpper_iff.1 h
  have hrange : 'A'.val ≤ c.val ∧ c.val ≤ 'Z'.val :=
    ⟨UInt32.le_iff_toNat_le.mpr hupper.1, UInt32.le_iff_toNat_le.mpr hupper.2⟩
  have hval : c.toLower.val = c.val + ('a'.val - 'A'.val) := by
    delta Char.toLower
    rw [dif_pos hrange]
  have hstep : ('a'.val - 'A'.val).toNat = 32 := by decide
  rw [← Char.toNat_val, hval, UInt32.toNat_add, hstep, Char.toNat_val]
  omega

theorem toNat_toUpper (h : c.isLower = true) : c.toUpper.toNat + 32 = c.toNat := by
  have hlower := isLower_iff.1 h
  have hrange : 'a'.val ≤ c.val ∧ c.val ≤ 'z'.val :=
    ⟨UInt32.le_iff_toNat_le.mpr hlower.1, UInt32.le_iff_toNat_le.mpr hlower.2⟩
  have hval : c.toUpper.val = c.val + ('A'.val - 'a'.val) := by
    delta Char.toUpper
    rw [dif_pos hrange]
  have hstep : ('A'.val - 'a'.val).toNat = 4294967264 := by decide
  rw [← Char.toNat_val, hval, UInt32.toNat_add, hstep, Char.toNat_val]
  omega

theorem isLower_toLower (h : c.isUpper = true) : c.toLower.isLower = true := by
  have hupper := isUpper_iff.1 h
  exact isLower_iff.2 (by rw [toNat_toLower h]; omega)

theorem isUpper_toUpper (h : c.isLower = true) : c.toUpper.isUpper = true := by
  have hlower := isLower_iff.1 h
  have hfall := toNat_toUpper h
  exact isUpper_iff.2 (by omega)

theorem toLower_toUpper (h : c.isLower = true) : c.toUpper.toLower = c := by
  refine Char.toNat_inj.mp ?_
  rw [toNat_toLower (isUpper_toUpper h), toNat_toUpper h]

theorem toUpper_toLower (h : c.isUpper = true) : c.toLower.toUpper = c := by
  have hback := toNat_toUpper (isLower_toLower h)
  rw [toNat_toLower h] at hback
  exact Char.toNat_inj.mp (Nat.add_right_cancel hback)

theorem isUpper_toLower (c : Char) : c.toLower.isUpper = false := by
  by_cases h : c.isUpper = true
  · exact Bool.eq_false_iff.mpr (not_isUpper_of_isLower (isLower_toLower h))
  · rw [toLower_of_not_isUpper h]
    exact Bool.eq_false_iff.mpr h

end Cases

/-- Only a letter becomes a small letter. -/
theorem isNameStart_of_isLower_toLower {c : Char} (h : c.toLower.isLower = true) :
    isNameStart c = true := by
  rw [isNameStart_iff]
  by_cases hupper : c.isUpper = true
  · exact .inl (isUpper_iff.1 hupper)
  · rw [toLower_of_not_isUpper hupper] at h
    exact .inr (.inl (isLower_iff.1 h))

end DocumentSql.Text
