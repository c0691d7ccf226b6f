import DocumentSql.Number.Notation
import Mathlib.Tactic.Common
/-
Whole numbers that 53 bits can hold. Rounding leaves them as they are, so the number made of such an
integer is that integer again, and is written as one.
-/

namespace DocumentSql

namespace Binary64

theorem roundEven_mul (m : Nat) {d : Nat} (hd : 0 < d) : roundEven (m * d) d = m := by
  have hmod : m * d % d = 0 := Nat.mul_mod_left m d
  rw [roundEven, hmod, if_pos (.inl (by omega)), Nat.mul_div_cancel m hd]

section Rounding

-- The sizes of the format stay parameters here: with the numerals in their place already the
-- equations of `ofRatio` would be computed.
variable {precision scale n m e : Nat}

/-- A significand that is full has all its bits. -/
theorem bitLength_mul_twoTo (hlow : twoTo precision ≤ m) (hhigh : m < twoTo (precision + 1)) :
    bitLength (m * twoTo e) = precision + 1 + e := by
  have hm : 0 < m := Nat.lt_of_lt_of_le (twoTo_pos precision) hlow
  have hne : m * twoTo e ≠ 0 := Nat.ne_of_gt (Nat.mul_pos hm (twoTo_pos e))
  have hlog : (m * twoTo e).log2 = precision + e := by
    refine (Nat.log2_eq_iff hne).mpr ⟨?_, ?_⟩
    · have hle : twoTo precision * twoTo e ≤ m * twoTo e := Nat.mul_le_mul_right _ hlow
      rwa [← twoTo_add] at hle
    · have hlt : m * twoTo e < twoTo (precision + 1) * twoTo e :=
        Nat.mul_lt_mul_of_pos_right hhigh (twoTo_pos e)
      rwa [← twoTo_add, Nat.add_right_comm] at hlt
  rw [bitLength, if_neg hne, hlog]
  omega

/-- What the significand can hold is not rounded. -/
theorem nearest_of_exact (hscaled : n * twoTo scale = m * twoTo e) (hlow : twoTo precision ≤ m)
    (hhigh : m < twoTo (precision + 1)) : nearest (precision + 1) scale n 1 = (m, e) := by
  have hexponent : bitLength (n * twoTo scale / 1) - (precision + 1) = e := by
    rw [Nat.div_one, hscaled, bitLength_mul_twoTo hlow hhigh]
    omega
  have hsignificand : roundEven (n * twoTo scale) (1 * twoTo e) = m := by
    rw [hscaled, Nat.one_mul, roundEven_mul m (twoTo_pos e)]
  simp only [nearest, hexponent, hsignificand, if_neg (Nat.ne_of_lt hhigh)]

/-- A positive integer fills the significand once its exponent is right. -/
theorem exists_significand (hscale : precision ≤ scale) (hpos : 0 < n)
    (hn : n ≤ twoTo (precision + 1)) : ∃ m e, n * twoTo scale = m * twoTo e ∧
      twoTo precision ≤ m ∧ m < twoTo (precision + 1) ∧ e ≤ scale + 1 := by
  by_cases hlt : n < twoTo (precision + 1)
  · have hne : n ≠ 0 := Nat.ne_of_gt hpos
    have hlog : n.log2 ≤ precision := Nat.lt_succ_iff.mp ((Nat.log2_lt hne).mpr hlt)
    obtain ⟨shift, rfl⟩ := Nat.exists_eq_add_of_le hlog
    refine ⟨n * twoTo shift, scale - shift, ?_, ?_, ?_, by omega⟩
    · rw [Nat.mul_assoc, ← twoTo_add, Nat.add_sub_cancel' (by omega)]
    · rw [twoTo_add]
      exact Nat.mul_le_mul_right _ (Nat.log2_self_le hne)
    · have hself : n < twoTo (n.log2 + 1) := Nat.lt_log2_self
      rw [Nat.add_right_comm, twoTo_add]
      exact Nat.mul_lt_mul_of_pos_right hself (twoTo_pos shift)
  · obtain rfl : n = twoTo (precision + 1) := by omega
    refine ⟨twoTo precision, scale + 1, ?_, Nat.le_refl _, ?_, Nat.le_refl _⟩
    · rw [← twoTo_add, ← twoTo_add, Nat.add_right_comm, Nat.add_assoc]
    · have hdouble := twoTo_succ precision
      have hprecision := twoTo_pos precision
      omega

/-- `ofRatio` with the sizes of the format as parameters. -/
def ofRatioAt (precision scale : Nat) (negative : Bool) (num den : Nat) : Binary64 :=
  let (m, e) := nearest precision scale num den
  if h : Canonical m e then .finite negative m e h else .infinite negative

theorem ofRatio_eq (negative : Bool) (num den : Nat) :
    ofRatio negative num den = ofRatioAt 53 1074 negative num den := rfl

theorem ofRatioAt_of_nearest {negative : Bool} {num den : Nat}
    (h : nearest precision scale num den = (m, e)) (hcanonical : Canonical m e) :
    ofRatioAt precision scale negative num den = .finite negative m e hcanonical := by
  simp only [ofRatioAt, h, dif_pos hcanonical]

end Rounding

theorem toInt?_of_exact {negative : Bool} {n m e : Nat} (hcanonical : Canonical m e)
    (hscaled : n * one = m * twoTo e) :
    (finite negative m e hcanonical).toInt? = some (if negative then -(n : Int) else n) := by
  have hpos : 0 < one := twoTo_pos 1074
  rw [toInt?, ← hscaled, if_pos (Nat.mul_mod_left n one), Nat.mul_div_cancel n hpos]

/-- An integer that has a significand of 53 bits, up to zeros at its end. -/
def Exact (i : Int) : Prop := ∃ m e : Nat, i.natAbs = m * twoTo e ∧ m ≤ twoTo 53

theorem exact_of_natAbs_le {i : Int} (h : i.natAbs ≤ twoTo 53) : Exact i :=
  ⟨i.natAbs, 0, (Nat.mul_one _).symm, h⟩

theorem signed_natAbs (i : Int) :
    (if decide (i < 0) = true then -(i.natAbs : Int) else i.natAbs) = i := by
  by_cases hneg : i < 0
  · rw [if_pos (decide_eq_true hneg)]
    omega
  · rw [if_neg (by simpa using hneg)]
    omega

/-- Nothing is lost of an integer with such a significand. -/
theorem toInt?_ofInt {i : Int} (hbound : i.natAbs < twoTo 64) (h : Exact i) :
    (ofInt i).toInt? = some i := by
  by_cases hzero : i = 0
  · subst hzero
    decide +kernel
  · obtain ⟨n, shift, hi, hn⟩ := h
    have hpos : 0 < n := by
      refine Nat.pos_of_ne_zero fun hn => hzero ?_
      rw [hn, Nat.zero_mul] at hi
      exact Int.natAbs_eq_zero.mp hi
    have hshift : shift < 64 := by
      refine (Nat.pow_lt_pow_iff_right (by decide)).mp (Nat.lt_of_le_of_lt ?_ hbound)
      rw [hi]
      exact Nat.le_mul_of_pos_left _ hpos
    have hscale : 52 ≤ 1074 := by decide
    obtain ⟨m, e, hscaled, hlow, hhigh, he⟩ := exists_significand hscale hpos hn
    have hscaled : i.natAbs * twoTo 1074 = m * twoTo (e + shift) := by
      rw [hi, Nat.mul_right_comm, hscaled, twoTo_add, Nat.mul_assoc]
    have hcanonical : Canonical m (e + shift) := ⟨hhigh, by omega, .inr hlow⟩
    have hnumber : ofInt i = finite (decide (i < 0)) m (e + shift) hcanonical := by
      rw [ofInt, ofRatio_eq]
      exact ofRatioAt_of_nearest (nearest_of_exact hscaled hlow hhigh) hcanonical
    rw [hnumber, toInt?_of_exact hcanonical hscaled, signed_natAbs]

theorem natAbs_signed (negative : Bool) (n : Nat) :
    (if negative = true then -(n : Int) else n).natAbs = n := by
  cases negative <;> simp

/-- A significand in units below one is a multiple of them. -/
theorem exists_significand_of_scaled {scale n m e : Nat} (h : n * twoTo scale = m * twoTo e) :
    n ≤ m ∨ ∃ shift, n = m * twoTo shift := by
  obtain hle | hle := Nat.le_total e scale
  · obtain ⟨shift, rfl⟩ := Nat.exists_eq_add_of_le hle
    rw [Nat.add_comm, twoTo_add, ← Nat.mul_assoc] at h
    have hm : n * twoTo shift = m := Nat.eq_of_mul_eq_mul_right (twoTo_pos e) h
    exact .inl (hm ▸ Nat.le_mul_of_pos_right n (twoTo_pos shift))
  · obtain ⟨shift, rfl⟩ := Nat.exists_eq_add_of_le hle
    rw [Nat.add_comm scale, twoTo_add, ← Nat.mul_assoc] at h
    exact .inr ⟨shift, Nat.eq_of_mul_eq_mul_right (twoTo_pos scale) h⟩

/-- Whatever integer a number is has such a significand. -/
theorem exact_of_toInt? {x : Binary64} {i : Int} (h : x.toInt? = some i) : Exact i := by
  cases x with
  | nan | infinite => cases h
  | finite negative m e hcanonical =>
    rw [toInt?] at h
    split at h
    · next hwhole =>
      have hi : i.natAbs = m * twoTo e / one := by
        rw [← Option.some.inj h]
        exact natAbs_signed negative _
      have hscaled : i.natAbs * twoTo 1074 = m * twoTo e := by
        rw [hi]
        exact Nat.div_mul_cancel (Nat.dvd_of_mod_eq_zero hwhole)
      have hm : m ≤ twoTo 53 := Nat.le_of_lt hcanonical.1
      obtain hle | ⟨shift, hshift⟩ := exists_significand_of_scaled hscaled
      · exact exact_of_natAbs_le (Nat.le_trans hle hm)
      · exact ⟨m, shift, hshift, hm⟩
    · cases h

/-- The number made of an integer of 53 bits is that integer. -/
theorem exactInt?_ofInt {i : Int} (h : i.natAbs ≤ twoTo 53) : (ofInt i).exactInt? = some i := by
  have hbound : i.natAbs < twoTo 64 := Nat.lt_of_le_of_lt h (by decide)
  rw [exactInt?, toInt?_ofInt hbound (exact_of_natAbs_le h)]
  exact Option.filter_some_pos (decide_eq_true h)

theorem text_of_exactInt? {x : Binary64} {i : Int} (h : x.exactInt? = some i) :
    x.text = toString i := by
  rw [text, h]

theorem text_ofInt {i : Int} (h : i.natAbs ≤ twoTo 53) : (ofInt i).text = toString i :=
  text_of_exactInt? (exactInt?_ofInt h)

end Binary64

end DocumentSql
