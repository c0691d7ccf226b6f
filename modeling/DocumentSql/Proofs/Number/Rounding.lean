import DocumentSql.Proofs.Number.Integer
import DocumentSql.Proofs.Number.Numeral
import Mathlib.Data.Nat.Dist
/-
Rounding is to nearest. What a quotient is rounded to is told here by its distance from the numbers
of the format alone: no number is nearer, and of two that are equally near it is the one with the
even significand. Whatever rounds a quotient in this way gives the same number.
-/

namespace DocumentSql.Binary64

/-- The significands and exponents of a format, one pair for each number. There is no greatest
exponent yet: a quotient is rounded first, and what the format cannot hold is infinite then. -/
def Normal (precision m e : Nat) : Prop :=
  m < 2 ^ precision ∧ (e = 0 ∨ 2 ^ (precision - 1) ≤ m)

/-- How far `v` units of `2 ^ -scale` are from `num / den`, times the denominator. -/
def distance (scale num den v : Nat) : Nat := Nat.dist (v * den) (num * 2 ^ scale)

/-- A number that is nearest to a quotient; if another one is as near, its significand is even. -/
structure IsNearest (precision scale num den m e : Nat) : Prop where
  normal : Normal precision m e
  le : ∀ m' e', Normal precision m' e' →
    distance scale num den (m * 2 ^ e) ≤ distance scale num den (m' * 2 ^ e')
  even : ∀ m' e', Normal precision m' e' → m' * 2 ^ e' ≠ m * 2 ^ e →
    distance scale num den (m' * 2 ^ e') = distance scale num den (m * 2 ^ e) → m % 2 = 0

/-- The number of 64 bits that a quotient with a sign is rounded to. -/
def IsRounded (x : Binary64) (negative : Bool) (num den : Nat) : Prop :=
  ∃ m e, IsNearest 53 1074 num den m e ∧
    ((∃ h : Canonical m e, x = finite negative m e h) ∨ 2045 < e ∧ x = infinite negative)

theorem IsRounded.ne_nan {x : Binary64} {negative : Bool} {num den : Nat}
    (h : x.IsRounded negative num den) : x ≠ nan := by
  obtain ⟨m, e, -, ⟨hcanonical, rfl⟩ | ⟨-, rfl⟩⟩ := h <;> nofun

section Integers

/-- Of all multiples of the denominator none is nearer than the one that rounding to an integer
chooses, and only an even one shares its place. -/
theorem roundEven_nearest (num : Nat) {den : Nat} (hden : 0 < den) (k : Nat) :
    (roundEven num den * den).dist num ≤ (k * den).dist num ∧
      (k ≠ roundEven num den → (k * den).dist num = (roundEven num den * den).dist num →
        roundEven num den % 2 = 0) := by
  have hsplit : num / den * den + num % den = num := Nat.div_add_mod' num den
  have hrest : num % den < den := Nat.mod_lt num hden
  have hnext : (num / den + 1) * den = num / den * den + den := Nat.succ_mul _ _
  have hbelow : k < num / den → k * den + den ≤ num / den * den := fun h =>
    Nat.succ_mul k den ▸ Nat.mul_le_mul_right den h
  have habove : num / den + 1 < k → num / den * den + den + den ≤ k * den := fun h => by
    rw [← hnext, ← Nat.succ_mul]
    exact Nat.mul_le_mul_right den h
  unfold roundEven Nat.dist
  obtain hk | rfl | rfl | hk : k < num / den ∨ k = num / den ∨ k = num / den + 1 ∨
      num / den + 1 < k := by omega
  · have hbelow := hbelow hk
    split <;> omega
  · split <;> omega
  · split <;> omega
  · have habove := habove hk
    split <;> omega

/-- Rounding to an integer passes no integer. -/
theorem le_roundEven {num den k : Nat} (hden : 0 < den) (h : k * den ≤ num) :
    k ≤ roundEven num den := by
  have hk : k ≤ num / den := (Nat.le_div_iff_mul_le hden).mpr h
  unfold roundEven
  split <;> omega

theorem roundEven_le {num den k : Nat} (hden : 0 < den) (h : num < k * den) :
    roundEven num den ≤ k := by
  have hk : num / den < k := (Nat.div_lt_iff_lt_mul hden).mpr h
  unfold roundEven
  split <;> omega

end Integers

theorem lt_two_pow_bitLength (n : Nat) : n < 2 ^ bitLength n := by
  unfold bitLength
  split
  · next hzero => exact hzero ▸ Nat.two_pow_pos 0
  · exact Nat.lt_log2_self

theorem two_pow_le_of_lt_bitLength {n k : Nat} (h : k < bitLength n) : 2 ^ k ≤ n := by
  unfold bitLength at h
  split at h
  · omega
  · next hne => exact (Nat.le_log2 hne).mp (Nat.lt_succ_iff.mp h)

-- As where whole numbers are rounded, the sizes of the format stay parameters.
variable {precision scale num den m e : Nat}

section Grid

/-- The exponent at which a quotient fills a significand, or the least one. -/
def gridExponent (precision scale num den : Nat) : Nat :=
  bitLength (num * 2 ^ scale / den) - precision

theorem nearest_eq (precision scale num den : Nat) :
    nearest precision scale num den =
      if roundEven (num * 2 ^ scale) (den * 2 ^ gridExponent precision scale num den) =
          2 ^ precision then
        (2 ^ (precision - 1), gridExponent precision scale num den + 1)
      else
        (roundEven (num * 2 ^ scale) (den * 2 ^ gridExponent precision scale num den),
          gridExponent precision scale num den) := rfl

theorem lt_of_gridExponent (precision scale num : Nat) (hden : 0 < den) :
    num * 2 ^ scale < 2 ^ precision * (den * 2 ^ gridExponent precision scale num den) := by
  have hlt := lt_two_pow_bitLength (num * 2 ^ scale / den)
  rw [Nat.div_lt_iff_lt_mul hden] at hlt
  refine Nat.lt_of_lt_of_le hlt ?_
  rw [Nat.mul_comm den, ← Nat.mul_assoc, ← Nat.pow_add]
  refine Nat.mul_le_mul_right den (Nat.pow_le_pow_right (by decide) ?_)
  unfold gridExponent
  omega

theorem le_of_gridExponent (precision scale num : Nat) (hden : 0 < den)
    (he : gridExponent (precision + 1) scale num den ≠ 0) :
    2 ^ precision * (den * 2 ^ gridExponent (precision + 1) scale num den) ≤
      num * 2 ^ scale := by
  have hle : 2 ^ (precision + gridExponent (precision + 1) scale num den) ≤
      num * 2 ^ scale / den := by
    refine two_pow_le_of_lt_bitLength ?_
    unfold gridExponent at he ⊢
    omega
  rw [Nat.le_div_iff_mul_le hden, Nat.pow_add] at hle
  rwa [Nat.mul_comm den, ← Nat.mul_assoc]

/-- Numbers with a smaller exponent lie below a full significand. -/
theorem Normal.lt_of_exponent_lt {m' e' : Nat} (h : Normal (precision + 1) m' e') (he : e' < e) :
    m' * 2 ^ e' < 2 ^ precision * 2 ^ e := by
  calc m' * 2 ^ e' < 2 ^ (precision + 1) * 2 ^ e' :=
        Nat.mul_lt_mul_of_pos_right h.1 (Nat.two_pow_pos e')
    _ = 2 ^ precision * 2 ^ (e' + 1) := by
        rw [← Nat.pow_add, ← Nat.pow_add, Nat.add_right_comm, Nat.add_assoc]
    _ ≤ 2 ^ precision * 2 ^ e :=
        Nat.mul_le_mul_left _ (Nat.pow_le_pow_right (by decide) he)

/-- On the grid of the right exponent rounding to an integer finds the nearest number. -/
theorem nearest_on_grid (hden : 0 < den)
    (hlow : e ≠ 0 → 2 ^ precision * (den * 2 ^ e) ≤ num * 2 ^ scale)
    (hround : roundEven (num * 2 ^ scale) (den * 2 ^ e) = m) {m' e' : Nat}
    (h : Normal (precision + 1) m' e') :
    distance scale num den (m * 2 ^ e) ≤ distance scale num den (m' * 2 ^ e') ∧
      (m' * 2 ^ e' ≠ m * 2 ^ e →
        distance scale num den (m' * 2 ^ e') = distance scale num den (m * 2 ^ e) →
        m % 2 = 0) := by
  have hpos : 0 < den * 2 ^ e := Nat.mul_pos hden (Nat.two_pow_pos e)
  have hunits : ∀ k, distance scale num den (k * 2 ^ e) =
      (k * (den * 2 ^ e)).dist (num * 2 ^ scale) := by
    intro k
    rw [distance, Nat.mul_assoc, Nat.mul_comm den]
  have hnearest := roundEven_nearest (num * 2 ^ scale) hpos
  rw [hround] at hnearest
  obtain hlt | hge := Nat.lt_or_ge e' e
  · -- The full significand is on the grid, and it is nearer already.
    have hvalue := Nat.mul_lt_mul_of_pos_right (h.lt_of_exponent_lt hlt) hden
    rw [Nat.mul_assoc (2 ^ precision), Nat.mul_comm (2 ^ e)] at hvalue
    have hfull := (hnearest (2 ^ precision)).1
    have hlow := hlow (Nat.ne_of_gt (Nat.zero_lt_of_lt hlt))
    rw [hunits, distance]
    unfold Nat.dist at hfull ⊢
    exact ⟨by omega, by omega⟩
  · obtain ⟨shift, rfl⟩ := Nat.exists_eq_add_of_le hge
    have hvalue : m' * 2 ^ (e + shift) = m' * 2 ^ shift * 2 ^ e := by
      rw [Nat.add_comm, Nat.pow_add, Nat.mul_assoc]
    obtain ⟨hle, heven⟩ := hnearest (m' * 2 ^ shift)
    rw [hvalue, hunits, hunits]
    exact ⟨hle, fun hne => heven fun heq => hne (congrArg (· * 2 ^ e) heq)⟩

end Grid

/-- The significand and exponent that a quotient is rounded to are those of the nearest number. -/
theorem isNearest_nearest (hprecision : 0 < precision) (hden : 0 < den)
    (h : nearest (precision + 1) scale num den = (m, e)) :
    IsNearest (precision + 1) scale num den m e := by
  have hlow := le_of_gridExponent precision scale num hden
  have hhigh := lt_of_gridExponent (precision + 1) scale num hden
  rw [nearest_eq] at h
  generalize gridExponent (precision + 1) scale num den = grid at h hlow hhigh
  have hpos : 0 < den * 2 ^ grid := Nat.mul_pos hden (Nat.two_pow_pos grid)
  have hmost := roundEven_le hpos hhigh
  have hleast := fun he => le_roundEven hpos (hlow he)
  have hnearest := fun m' e' (h' : Normal (precision + 1) m' e') =>
    nearest_on_grid hden hlow rfl h'
  split at h
  · next hcarry =>
    obtain ⟨rfl, rfl⟩ := Prod.mk.inj h
    rw [hcarry] at hnearest
    have hvalue : 2 ^ (precision + 1) * 2 ^ grid =
        2 ^ (precision + 1 - 1) * 2 ^ (grid + 1) := by
      rw [← Nat.pow_add, ← Nat.pow_add, Nat.add_sub_cancel, Nat.add_right_comm, Nat.add_assoc]
    refine ⟨⟨?_, .inr (Nat.le_refl _)⟩, fun m' e' h' => ?_, fun _ _ _ _ _ => ?_⟩
    · exact Nat.pow_lt_pow_right (by decide) (Nat.lt_succ_self precision)
    · rw [← hvalue]
      exact (hnearest m' e' h').1
    · obtain ⟨k, rfl⟩ := Nat.exists_eq_succ_of_ne_zero (Nat.ne_of_gt hprecision)
      exact Nat.mul_mod_left (2 ^ k) 2
  · next hfits =>
    obtain ⟨rfl, rfl⟩ := Prod.mk.inj h
    refine ⟨⟨by omega, ?_⟩, fun m' e' h' => (hnearest m' e' h').1,
      fun m' e' h' => (hnearest m' e' h').2⟩
    by_cases hzero : grid = 0
    · exact .inl hzero
    · exact .inr (hleast hzero)

theorem isRounded_ofRatio (negative : Bool) (num : Nat) (hden : 0 < den) :
    (ofRatio negative num den).IsRounded negative num den := by
  cases hnearest : nearest 53 1074 num den with
  | mk m e =>
    have h := isNearest_nearest (by decide) hden hnearest
    refine ⟨m, e, h, ?_⟩
    rw [ofRatio_eq]
    by_cases hcanonical : Canonical m e
    · exact .inl ⟨hcanonical, ofRatioAt_of_nearest hnearest hcanonical⟩
    · refine .inr ⟨?_, ?_⟩
      · by_contra hle
        exact hcanonical ⟨h.normal.1, Nat.not_lt.mp hle, h.normal.2⟩
      · rw [ofRatioAt, hnearest]
        exact dif_neg hcanonical

section Unique

variable {m' e' : Nat}

theorem Normal.lt (h : Normal (precision + 1) m e) (h' : Normal (precision + 1) m' e')
    (he : e < e') : m * 2 ^ e < m' * 2 ^ e' := by
  have hfull : 2 ^ precision ≤ m' := h'.2.resolve_left (Nat.ne_of_gt (Nat.zero_lt_of_lt he))
  exact Nat.lt_of_lt_of_le (h.lt_of_exponent_lt he) (Nat.mul_le_mul_right _ hfull)

theorem Normal.eq_of_value_eq (h : Normal (precision + 1) m e)
    (h' : Normal (precision + 1) m' e') (hvalue : m * 2 ^ e = m' * 2 ^ e') :
    m = m' ∧ e = e' := by
  obtain hlt | rfl | hlt := Nat.lt_trichotomy e e'
  · exact absurd hvalue (Nat.ne_of_lt (h.lt h' hlt))
  · exact ⟨Nat.eq_of_mul_eq_mul_right (Nat.two_pow_pos e) hvalue, rfl⟩
  · exact absurd hvalue (Nat.ne_of_gt (h'.lt h hlt))

/-- Between a number and the next one on its grid there is no other. -/
theorem Normal.succ_le (h : Normal (precision + 1) m e) (h' : Normal (precision + 1) m' e')
    (hlt : m * 2 ^ e < m' * 2 ^ e') : (m + 1) * 2 ^ e ≤ m' * 2 ^ e' := by
  have he : e ≤ e' := Nat.not_lt.mp fun he => Nat.lt_asymm hlt (h'.lt h he)
  obtain ⟨shift, rfl⟩ := Nat.exists_eq_add_of_le he
  rw [Nat.pow_add, Nat.mul_comm (2 ^ e), ← Nat.mul_assoc] at hlt ⊢
  exact Nat.mul_le_mul_right _ (Nat.lt_of_mul_lt_mul_right hlt)

/-- An even significand does not fill its bits. -/
theorem Normal.succ (h : Normal (precision + 1) m e) (heven : m % 2 = 0) :
    Normal (precision + 1) (m + 1) e := by
  obtain ⟨hm, hfull⟩ := h
  rw [Nat.pow_succ] at hm
  refine ⟨?_, hfull.imp id Nat.le_succ_of_le⟩
  rw [Nat.pow_succ]
  omega

/-- Of two nearest numbers none is the smaller one: the next number after it would be nearer, or it
would be the other one and have an odd significand. -/
theorem IsNearest.not_lt (hden : 0 < den) (h : IsNearest (precision + 1) scale num den m e)
    (h' : IsNearest (precision + 1) scale num den m' e') : ¬m * 2 ^ e < m' * 2 ^ e' := by
  intro hlt
  have hdistance := Nat.le_antisymm (h.le _ _ h'.normal) (h'.le _ _ h.normal)
  have heven := h.even _ _ h'.normal (Nat.ne_of_gt hlt) hdistance.symm
  have heven' := h'.even _ _ h.normal (Nat.ne_of_lt hlt) hdistance
  have hnext := h.normal.succ heven
  obtain heq | hbetween := Nat.eq_or_lt_of_le (h.normal.succ_le h'.normal hlt)
  · obtain ⟨rfl, -⟩ := hnext.eq_of_value_eq h'.normal heq
    omega
  · have hvalue : m * 2 ^ e < (m + 1) * 2 ^ e :=
      Nat.mul_lt_mul_of_pos_right (Nat.lt_succ_self m) (Nat.two_pow_pos e)
    have hleft := Nat.mul_lt_mul_of_pos_right hvalue hden
    have hright := Nat.mul_lt_mul_of_pos_right hbetween hden
    have hle := h.le _ _ hnext
    unfold distance Nat.dist at hdistance hle
    omega

theorem IsNearest.unique (hden : 0 < den) (h : IsNearest (precision + 1) scale num den m e)
    (h' : IsNearest (precision + 1) scale num den m' e') : m = m' ∧ e = e' :=
  h.normal.eq_of_value_eq h'.normal
    (Nat.le_antisymm (Nat.not_lt.mp (h'.not_lt hden h)) (Nat.not_lt.mp (h.not_lt hden h')))

theorem IsRounded.unique {x y : Binary64} {negative : Bool} (hden : 0 < den)
    (h : x.IsRounded negative num den) (h' : y.IsRounded negative num den) : x = y := by
  obtain ⟨m, e, hnearest, hx⟩ := h
  obtain ⟨m', e', hnearest', hy⟩ := h'
  obtain ⟨rfl, rfl⟩ := hnearest.unique hden hnearest'
  obtain ⟨hcanonical, rfl⟩ | ⟨hbeyond, rfl⟩ := hx <;>
    obtain ⟨hcanonical', rfl⟩ | ⟨hbeyond', rfl⟩ := hy
  · rfl
  · exact absurd hcanonical.2.1 (Nat.not_le.mpr hbeyond')
  · exact absurd hcanonical'.2.1 (Nat.not_le.mpr hbeyond)
  · rfl

end Unique

section Extremes

/-- At most half a unit is rounded to zero. -/
theorem isNearest_zero (h : 2 * (num * 2 ^ scale) ≤ den) :
    IsNearest precision scale num den 0 0 := by
  refine ⟨⟨Nat.two_pow_pos precision, .inl rfl⟩, fun m' e' _ => ?_, fun _ _ _ _ _ => rfl⟩
  rw [Nat.zero_mul]
  obtain hzero | hpos := Nat.eq_zero_or_pos (m' * 2 ^ e')
  · rw [hzero]
  · have hunit : den ≤ m' * 2 ^ e' * den := Nat.le_mul_of_pos_left den hpos
    unfold distance Nat.dist
    omega

theorem isRounded_zero {negative : Bool} (h : 2 * (num * 2 ^ 1074) ≤ den) :
    (ofRatio negative 0 1).IsRounded negative num den := by
  refine ⟨0, 0, isNearest_zero h, .inl ⟨by decide, ?_⟩⟩
  cases negative <;> decide +kernel

/-- No number that the format holds is the nearest to one beyond all of them. -/
theorem IsNearest.exponent_gt {limit : Nat} (h : IsNearest (precision + 1) scale num den m e)
    (hden : 0 < den) (hbeyond : 2 ^ (precision + (limit + 1)) * den ≤ num * 2 ^ scale) :
    limit < e := by
  by_contra hle
  have hfull : Normal (precision + 1) (2 ^ precision) (limit + 1) :=
    ⟨Nat.pow_lt_pow_right (by decide) (Nat.lt_succ_self precision), .inr (Nat.le_refl _)⟩
  have hlt := Nat.mul_lt_mul_of_pos_right (h.normal.lt hfull (by omega)) hden
  have hnear := h.le _ _ hfull
  rw [← Nat.pow_add] at hlt hnear
  unfold distance Nat.dist at hnear
  omega

end Extremes

end DocumentSql.Binary64

namespace DocumentSql.Numeral

open Binary64

/-- What a decimal numeral denotes: the number that its digits over a power of ten are rounded
to. -/
def Denotes (negative : Bool) (whole places : List Char) (x : Binary64) : Prop :=
  ∃ n, Spells (whole ++ places) n ∧ x.IsRounded negative n (10 ^ places.length)

/-- An integer is the number that its own digits denote. -/
theorem denotes_ofInt {i : Int} {digits : List Char} (h : Spells digits i.natAbs) :
    Denotes (decide (i < 0)) digits [] (Binary64.ofInt i) :=
  ⟨i.natAbs, (List.append_nil digits).symm ▸ h, isRounded_ofRatio _ _ (tenTo_pos 0)⟩

theorem lt_ten_pow_length (n : Nat) : n < 10 ^ (Nat.toDigits 10 n).length :=
  (Nat.length_toDigits_le_iff (by decide) Nat.length_toDigits_pos).mp (Nat.le_refl _)

theorem ten_pow_le_of_lt_length {n k : Nat} (hk : 0 < k) (h : k < (Nat.toDigits 10 n).length) :
    10 ^ k ≤ n :=
  Nat.not_lt.mp fun hlt =>
    Nat.not_le.mpr h ((Nat.length_toDigits_le_iff (by decide) hk).mpr hlt)

/-- So many places that at most half a unit is left. -/
theorem half_unit_of_length {n places : Nat} (h : (Nat.toDigits 10 n).length + 400 ≤ places) :
    2 * (n * 2 ^ 1074) ≤ 10 ^ places := by
  obtain ⟨more, rfl⟩ := Nat.exists_eq_add_of_le h
  have hdigits := Nat.le_of_lt (lt_ten_pow_length n)
  calc 2 * (n * 2 ^ 1074) = n * (2 * 2 ^ 1074) := Nat.mul_left_comm 2 n _
    _ ≤ 10 ^ (Nat.toDigits 10 n).length * 10 ^ 400 :=
        Nat.mul_le_mul hdigits (by decide +kernel)
    _ ≤ 10 ^ (Nat.toDigits 10 n).length * 10 ^ 400 * 10 ^ more :=
        Nat.le_mul_of_pos_right _ (tenTo_pos more)
    _ = 10 ^ ((Nat.toDigits 10 n).length + 400 + more) := by rw [Nat.pow_add, Nat.pow_add]

/-- So many digits in front of the places that no exponent is great enough. -/
theorem beyond_of_length {n places : Nat} (h : 400 + places < (Nat.toDigits 10 n).length) :
    2 ^ (52 + (2045 + 1)) * 10 ^ places ≤ n * 2 ^ 1074 := by
  calc 2 ^ (52 + (2045 + 1)) * 10 ^ places ≤ 10 ^ 400 * 2 ^ 1074 * 10 ^ places :=
        Nat.mul_le_mul_right _ (by decide +kernel)
    _ = 10 ^ (400 + places) * 2 ^ 1074 := by rw [Nat.pow_add, Nat.mul_right_comm]
    _ ≤ n * 2 ^ 1074 := Nat.mul_le_mul_right _ (ten_pow_le_of_lt_length (by omega) h)

/-- A decimal numeral has the value of its digits over a power of ten, rounded once. -/
theorem isRounded_toBinary64 (negative : Bool) (n places : Nat) :
    (decimal negative n (-(places : Int))).toBinary64.IsRounded negative n (10 ^ places) := by
  have hpos : 0 < 10 ^ places := tenTo_pos places
  unfold toBinary64 roundDecimal
  dsimp only
  split
  · next hsmall =>
    apply isRounded_zero
    obtain rfl | hsmall := hsmall
    · rw [Nat.zero_mul]
      exact Nat.zero_le _
    · exact half_unit_of_length (by omega)
  · split
    · next hlarge =>
      obtain ⟨m, e, hnearest, -⟩ := isRounded_ofRatio negative n hpos
      have hexponent := hnearest.exponent_gt hpos (beyond_of_length (by omega))
      exact ⟨m, e, hnearest, .inr ⟨hexponent, rfl⟩⟩
    · split
      · next hwhole =>
        obtain rfl : places = 0 := by omega
        have hnum : n * tenTo (-((0 : Nat) : Int)).natAbs = n := Nat.mul_one n
        rw [hnum]
        exact isRounded_ofRatio negative n hpos
      · rw [Int.natAbs_neg, Int.natAbs_natCast]
        exact isRounded_ofRatio negative n hpos

end DocumentSql.Numeral
