import DocumentSql.Uuid
import Mathlib.Data.String.Basic
/-
Identifiers order as their texts do: digits of one width order as the numbers that they write, and
the hyphens stand at the same places in every text.
-/

namespace DocumentSql

namespace Text

@[simp] theorem length_hexDigits (n count : Nat) : (hexDigits n count).length = count := by
  induction count generalizing n with
  | zero => rfl
  | succ count ih => rw [hexDigits, List.length_append, ih, List.length_singleton]

theorem hexDigit_lt_hexDigit {d e : Nat} (h : d < e) (he : e < 16) : hexDigit d < hexDigit e := by
  have hall : ∀ e < 16, ∀ d < e, hexDigit d < hexDigit e := by decide
  exact hall e he d h

/-- Of two texts with heads of one length the heads decide first. -/
theorem append_lt_append_iff {s t u v : List Char} (h : s.length = t.length) :
    s ++ u < t ++ v ↔ s < t ∨ s = t ∧ u < v := by
  induction s generalizing t with
  | nil =>
    cases t with
    | nil => simp
    | cons d t => cases h
  | cons c s ih =>
    cases t with
    | nil => cases h
    | cons d t =>
      have hst : s.length = t.length := Nat.succ.inj h
      simp only [List.cons_append, List.cons_lt_cons_iff, List.cons.injEq, ih hst]
      tauto

theorem hexDigits_lt_hexDigits {n m count : Nat} (h : n < m) (hm : m < 16 ^ count) :
    hexDigits n count < hexDigits m count := by
  induction count generalizing n m with
  | zero => omega
  | succ count ih =>
    rw [hexDigits, hexDigits, append_lt_append_iff (by simp)]
    rw [Nat.pow_succ] at hm
    by_cases hhigh : n / 16 < m / 16
    · exact .inl (ih hhigh (by omega))
    · have hsame : n / 16 = m / 16 := by omega
      have hlow : hexDigit (n % 16) < hexDigit (m % 16) :=
        hexDigit_lt_hexDigit (by omega) (Nat.mod_lt _ (by decide))
      rw [hsame]
      exact .inr ⟨rfl, List.cons_lt_cons_iff.mpr (.inl hlow)⟩

end Text

namespace Uuid

open Text

/-- Five groups with hyphens between them order as they do without. -/
theorem hyphened_lt_iff {a b c d e a' b' c' d' e' : List Char} (ha : a.length = a'.length)
    (hb : b.length = b'.length) (hc : c.length = c'.length) (hd : d.length = d'.length) :
    a ++ '-' :: b ++ '-' :: c ++ '-' :: d ++ '-' :: e <
        a' ++ '-' :: b' ++ '-' :: c' ++ '-' :: d' ++ '-' :: e' ↔
      a ++ (b ++ (c ++ (d ++ e))) < a' ++ (b' ++ (c' ++ (d' ++ e'))) := by
  simp only [List.append_assoc, List.cons_append, append_lt_append_iff, ha, hb, hc, hd,
    List.cons_lt_cons_iff, lt_irrefl, true_and, false_or]

theorem groups_append (ds : List Char) :
    ds.take 8 ++ ((ds.drop 8).take 4 ++ ((ds.drop 12).take 4 ++ ((ds.drop 16).take 4 ++
      ds.drop 20))) = ds := by
  rw [show ds.drop 20 = (ds.drop 16).drop 4 by rw [List.drop_drop], List.take_append_drop,
    show ds.drop 16 = (ds.drop 12).drop 4 by rw [List.drop_drop], List.take_append_drop,
    show ds.drop 12 = (ds.drop 8).drop 4 by rw [List.drop_drop], List.take_append_drop,
    List.take_append_drop]

theorem chars_lt_chars {u v : Uuid} (h : u.bits.toNat < v.bits.toNat) : u.chars < v.chars := by
  have hdigits : hexDigits u.bits.toNat 32 < hexDigits v.bits.toNat 32 :=
    hexDigits_lt_hexDigits h v.bits.isLt
  simp only [chars]
  rw [hyphened_lt_iff (by simp) (by simp) (by simp) (by simp), groups_append, groups_append]
  exact hdigits

theorem text_lt_text {u v : Uuid} (h : u.bits.toNat < v.bits.toNat) : u.text < v.text := by
  rw [String.lt_iff_toList_lt, text, text, String.toList_ofList, String.toList_ofList]
  exact chars_lt_chars h

/-- The order of the bits is the order of the texts. -/
theorem compare_text (u v : Uuid) : Ord.compare u.text v.text = u.compare v := by
  unfold Uuid.compare
  rcases lt_trichotomy u.bits.toNat v.bits.toNat with h | h | h
  · rw [compare_lt_iff_lt.mpr h, compare_lt_iff_lt.mpr (text_lt_text h)]
  · have huv : u = v := by
      cases u
      cases v
      exact congrArg mk (BitVec.eq_of_toNat_eq h)
    rw [huv, compare_eq_iff_eq.mpr rfl, compare_eq_iff_eq.mpr rfl]
  · rw [compare_gt_iff_gt.mpr h, compare_gt_iff_gt.mpr (text_lt_text h)]

end Uuid

end DocumentSql
