import DocumentSql.Proofs.Value.Comparison
/-
The order of sorted lists is the same from both sides, but carries over along chains only where no
`nan` stands among unequal numbers: it ties with every number, and the others do not tie with each
other. On all other values the order is total and transitive, as a sort needs it to be.
-/

namespace DocumentSql

theorem Binary64.exists_key {x : Binary64} (h : x ≠ .nan) : ∃ place, x.key = some place := by
  cases x with
  | nan => exact absurd rfl h
  | infinite negative => exact ⟨_, rfl⟩
  | finite negative m e canonical => exact ⟨_, rfl⟩

namespace Value

theorem sortCompare_swap (a b : Value) : b.sortCompare a = (a.sortCompare b).swap := by
  unfold sortCompare
  rw [Ordering.swap_then, compare?_swap a b, Nat.compare_swap]
  cases a.compare? b <;> rfl

/-- Not `nan`, so comparable with all values of its kind that are no `nan` either. -/
def Sortable (v : Value) : Prop := v ≠ number .nan

theorem exists_compare? {a b : Value} (ha : a.Sortable) (hb : b.Sortable)
    (hrank : a.sortRank = b.sortRank) : ∃ o, a.compare? b = some o := by
  cases a <;> cases b <;> cases hrank
  case number.number x y =>
    obtain ⟨i, hi⟩ := Binary64.exists_key fun h : x = .nan => ha (congrArg number h)
    obtain ⟨j, hj⟩ := Binary64.exists_key fun h : y = .nan => hb (congrArg number h)
    exact ⟨compare i j, by simp only [compare?, Binary64.compare?, hi, hj]⟩
  all_goals exact ⟨_, rfl⟩

theorem sortCompare_of_rank_lt {a b : Value} (h : a.sortRank < b.sortRank) :
    a.sortCompare b = .lt := by
  rw [sortCompare, Nat.compare_eq_lt.mpr h]
  rfl

theorem sortCompare_of_rank_eq {a b : Value} (h : a.sortRank = b.sortRank) :
    a.sortCompare b = (a.compare? b).getD .eq := by
  rw [sortCompare, Nat.compare_eq_eq.mpr h]
  rfl

theorem rank_le_of_sortCompare {a b : Value} (h : a.sortCompare b ≠ .gt) :
    a.sortRank ≤ b.sortRank := by
  by_contra hlt
  apply h
  rw [sortCompare_swap, sortCompare_of_rank_lt (Nat.lt_of_not_le hlt)]
  rfl

/-- Of a chain either the ranks rise, or all three values are of one rank. -/
theorem rank_chain {a b c : Value} (hab : a.sortCompare b ≠ .gt) (hbc : b.sortCompare c ≠ .gt) :
    a.sortRank < c.sortRank ∨ a.sortRank = b.sortRank ∧ b.sortRank = c.sortRank := by
  have hab := rank_le_of_sortCompare hab
  have hbc := rank_le_of_sortCompare hbc
  omega

theorem sortCompare_trans {a b c : Value} (ha : a.Sortable) (hb : b.Sortable) (hc : c.Sortable)
    (hab : a.sortCompare b ≠ .gt) (hbc : b.sortCompare c ≠ .gt) : a.sortCompare c ≠ .gt := by
  rcases rank_chain hab hbc with hlt | ⟨hranks, hranks'⟩
  · rw [sortCompare_of_rank_lt hlt]
    nofun
  · obtain ⟨o, ho⟩ := exists_compare? ha hb hranks
    obtain ⟨p, hp⟩ := exists_compare? hb hc hranks'
    rw [sortCompare_of_rank_eq hranks, ho] at hab
    rw [sortCompare_of_rank_eq hranks', hp] at hbc
    have hab : o.isLE = true := Ordering.isLE_iff_ne_gt.mpr hab
    have hbc : p.isLE = true := Ordering.isLE_iff_ne_gt.mpr hbc
    rw [sortCompare_of_rank_eq (hranks.trans hranks'), compare?_chain ho hp hab hbc]
    exact Ordering.isLE_iff_ne_gt.mp (Ordering.isLE_then_iff_and.mpr ⟨hab, .inr hbc⟩)

theorem sortCompare_number (x y : Binary64) :
    (number x).sortCompare (number y) = (x.compare? y).getD .eq :=
  sortCompare_of_rank_eq (Eq.refl (sortRank (number x)))

theorem sortCompare_nan_left (x : Binary64) : (number .nan).sortCompare (number x) = .eq := rfl

theorem sortCompare_nan_right (x : Binary64) : (number x).sortCompare (number .nan) = .eq := by
  rw [sortCompare_swap, sortCompare_nan_left]
  rfl

theorem exists_number {v : Value} (h : v.sortRank = sortRank (number .nan)) :
    ∃ x, v = number x := by
  cases v <;> cases h
  exact ⟨_, rfl⟩

theorem compare?_of_sortCompare_gt {x y : Binary64}
    (h : (number x).sortCompare (number y) = .gt) : y.compare? x = some .lt := by
  rw [sortCompare_number] at h
  rw [Binary64.compare?_swap x y]
  cases ho : x.compare? y with
  | none =>
    rw [ho] at h
    cases h
  | some o =>
    rw [ho, Option.getD_some] at h
    rw [h]
    rfl

/-- A `nan` and two unequal numbers are among the values. -/
def NanAmong (values : Set Value) : Prop :=
  number .nan ∈ values ∧ ∃ x y, number x ∈ values ∧ number y ∈ values ∧ x.compare? y = some .lt

theorem NanAmong.breaks_chain {values : Set Value} (h : NanAmong values) :
    ∃ a ∈ values, ∃ b ∈ values, ∃ c ∈ values,
      a.sortCompare b ≠ .gt ∧ b.sortCompare c ≠ .gt ∧ a.sortCompare c = .gt := by
  obtain ⟨hnan, x, y, hx, hy, hxy⟩ := h
  refine ⟨number y, hy, number .nan, hnan, number x, hx, ?_, ?_, ?_⟩
  · rw [sortCompare_nan_right]
    nofun
  · rw [sortCompare_nan_left]
    nofun
  · rw [sortCompare_swap (number x), sortCompare_number, hxy]
    rfl

theorem nanAmong_of_gt {values : Set Value} {a b c : Value} (ha : a ∈ values) (hb : b ∈ values)
    (hc : c ∈ values) (hab : a.sortCompare b ≠ .gt) (hbc : b.sortCompare c ≠ .gt)
    (hac : a.sortCompare c = .gt) : NanAmong values := by
  rcases rank_chain hab hbc with hlt | ⟨hranks, hranks'⟩
  · rw [sortCompare_of_rank_lt hlt] at hac
    cases hac
  · -- Were none of the three a `nan`, the chain would carry over.
    have hnan : ∃ v ∈ values, ¬v.Sortable ∧ v.sortRank = b.sortRank := by
      by_contra hall
      push Not at hall
      have sortable {v : Value} (hv : v ∈ values) (hrank : v.sortRank = b.sortRank) : v.Sortable :=
        by_contra fun hn => hall v hv hn hrank
      exact sortCompare_trans (sortable ha hranks) (sortable hb rfl) (sortable hc hranks'.symm)
        hab hbc hac
    obtain ⟨v, hv, hsortable, hrank⟩ := hnan
    obtain rfl : v = number .nan := not_not.mp hsortable
    obtain ⟨x, rfl⟩ := exists_number (hranks.trans hrank.symm)
    obtain ⟨y, rfl⟩ := exists_number (hranks'.symm.trans hrank.symm)
    exact ⟨hv, y, x, hc, ha, compare?_of_sortCompare_gt hac⟩

/-- Of any values, those that are sorted together say, the order is a total preorder just if no
`nan` is among unequal numbers. -/
theorem sortCompare_preorder_iff (values : Set Value) :
    (∀ a b : Value, b.sortCompare a = (a.sortCompare b).swap) ∧
    ((∀ a ∈ values, ∀ b ∈ values, ∀ c ∈ values,
        a.sortCompare b ≠ .gt → b.sortCompare c ≠ .gt → a.sortCompare c ≠ .gt) ↔
      ¬NanAmong values) := by
  refine ⟨sortCompare_swap, ?_, ?_⟩
  · intro htrans hnan
    obtain ⟨a, ha, b, hb, c, hc, hab, hbc, hac⟩ := hnan.breaks_chain
    exact htrans a ha b hb c hc hab hbc hac
  · intro hnone a ha b hb c hc hab hbc hac
    exact hnone (nanAmong_of_gt ha hb hc hab hbc hac)

/-- Two is not after `nan`, nor `nan` after one, but two is after one. -/
theorem nan_breaks_preorder :
    ¬∀ a b c : Value, a.sortCompare b ≠ .gt → b.sortCompare c ≠ .gt → a.sortCompare c ≠ .gt := by
  intro htrans
  have htwo : (number (.ofInt 2)).sortCompare (number .nan) ≠ .gt := by decide +kernel
  have hone : (number .nan).sortCompare (number (.ofInt 1)) ≠ .gt := by decide +kernel
  have hgt : (number (.ofInt 2)).sortCompare (number (.ofInt 1)) = .gt := by decide +kernel
  exact htrans _ _ _ htwo hone hgt

end Value

end DocumentSql
