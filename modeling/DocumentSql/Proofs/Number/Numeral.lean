import DocumentSql.Number.Numeral
import Mathlib.Data.List.Induction
/- Decimal notation: which digits stand for a number, and the value that is read off them. -/

namespace DocumentSql.Numeral

/-- Digits that stand for a number: its decimal notation, perhaps behind zeros. -/
def Spells (digits : List Char) (n : Nat) : Prop :=
  ∃ zeros, digits = List.replicate zeros '0' ++ Nat.toDigits 10 n

theorem spells_toDigits (n : Nat) : Spells (Nat.toDigits 10 n) n := ⟨0, rfl⟩

theorem digitChar_of_isDigit {c : Char} (h : c.isDigit = true) :
    c.toNat - '0'.toNat < 10 ∧ Nat.digitChar (c.toNat - '0'.toNat) = c := by
  obtain ⟨hlow, hhigh⟩ := Char.isDigit_iff_toNat.mp h
  have hlow : 48 ≤ c.toNat := hlow
  have hhigh : c.toNat ≤ 57 := hhigh
  have hdigit : c.toNat - '0'.toNat < 10 := by
    show c.toNat - 48 < 10
    omega
  refine ⟨hdigit, Char.toNat_inj.mp ?_⟩
  rw [Nat.toNat_digitChar_of_lt_ten hdigit]
  exact Nat.add_sub_cancel' hlow

theorem digitsValue_append_singleton (digits : List Char) (c : Char) :
    digitsValue (digits ++ [c]) = 10 * digitsValue digits + (c.toNat - '0'.toNat) :=
  List.foldl_append

/-- One more digit, at the end. -/
theorem Spells.append_singleton {digits : List Char} {n d : Nat} (h : Spells digits n)
    (hd : d < 10) : Spells (digits ++ [Nat.digitChar d]) (10 * n + d) := by
  obtain ⟨zeros, rfl⟩ := h
  have hdigit : [Nat.digitChar d] = Nat.toDigits 10 d := (Nat.toDigits_of_lt_base hd).symm
  obtain rfl | hpos := Nat.eq_zero_or_pos n
  · -- The zero in front of the new digit is a leading one now.
    refine ⟨zeros + 1, ?_⟩
    rw [Nat.toDigits_zero, ← List.replicate_succ', hdigit, Nat.mul_zero, Nat.zero_add]
  · refine ⟨zeros, ?_⟩
    rw [List.append_assoc, hdigit, Nat.toDigits_append_toDigits (by decide) hpos hd]

/-- What is read off digits is the number that they stand for. -/
theorem spells_digitsValue {digits : List Char} (hne : digits ≠ [])
    (hdigits : ∀ c ∈ digits, c.isDigit = true) : Spells digits (digitsValue digits) := by
  induction digits using List.reverseRecOn with
  | nil => exact absurd rfl hne
  | append_singleton digits c ih =>
    obtain ⟨hd, hc⟩ := digitChar_of_isDigit (hdigits c (by simp))
    rw [digitsValue_append_singleton]
    by_cases hempty : digits = []
    · subst hempty
      refine ⟨0, ?_⟩
      show [c] = Nat.toDigits 10 (10 * 0 + (c.toNat - '0'.toNat))
      rw [Nat.mul_zero, Nat.zero_add, Nat.toDigits_of_lt_base hd, hc]
    · have hspells := ih hempty fun d hd => hdigits d (List.mem_append_left _ hd)
      have happend := hspells.append_singleton hd
      rwa [hc] at happend

theorem Spells.digitsValue_eq {digits : List Char} {n : Nat} (h : Spells digits n) :
    digitsValue digits = n := by
  obtain ⟨zeros, rfl⟩ := h
  show Nat.ofDigitChars 10 (List.replicate zeros '0' ++ Nat.toDigits 10 n) 0 = n
  rw [Nat.ofDigitChars_append, Nat.ofDigitChars_replicate_zero, Nat.mul_zero,
    Nat.ofDigitChars_ten_toDigits]

end DocumentSql.Numeral
