import DocumentSql.Pattern.Like
/-
The matcher of regular expressions fills one row for each suffix of the text. Each entry of a row
says whether one suffix of the items matches there.
-/

namespace DocumentSql.Regex

/-- What a row holds: for each suffix of the items, longest first, whether it matches. -/
def marks (whole : Bool) (s : List Char) : List Item → List Bool
  | [] => [true]
  | item :: items => matchesAt (item :: items) whole s :: marks whole s items

@[simp] theorem head_marks (items : List Item) (whole : Bool) (s : List Char) :
    (marks whole s items).head?.getD false = matchesAt items whole s := by
  cases items <;> simp [marks, matchesAt]

theorem emptyRow_eq_marks (whole : Bool) (items : List Item) :
    emptyRow whole items = marks whole [] items := by
  induction items with
  | nil => rfl
  | cons item items ih =>
    cases item <;> simp [emptyRow, ih, marks, matchesAt, properSuffixes]

/-- A run that starts one character later is the run of the rest, matched or not so far. -/
theorem rowBefore_eq_marks (c : Char) (whole : Bool) (items : List Item) (s : List Char) :
    rowBefore c whole items (marks false s items) = marks whole (c :: s) items := by
  induction items with
  | nil => rfl
  | cons item items ih =>
    cases item <;> simp [rowBefore, marks, ih, matchesAt, properSuffixes]

theorem row_eq_marks (items : List Item) (whole : Bool) (s : List Char) :
    row items whole s = marks whole s items := by
  induction s generalizing whole with
  | nil => exact emptyRow_eq_marks whole items
  | cons c s ih => rw [row, ih, rowBefore_eq_marks]

theorem search_fst (items : List Item) (s : List Char) :
    (search items s).1 = marks false s items := by
  induction s with
  | nil => exact emptyRow_eq_marks false items
  | cons c s ih => simp only [search, ih, rowBefore_eq_marks]

/-- Behind the beginning of a text no pattern matches that starts with the anchor. -/
theorem search_textStart (items : List Item) (s : List Char) :
    (search (.textStart :: items) s).2 = false := by
  induction s with
  | nil => simp [search, emptyRow]
  | cons c s ih => simp [search, search_fst, rowBefore_eq_marks, matchesAt, ih]

theorem isMatch_textStart (items : List Item) (s : List Char) :
    isMatch (.textStart :: items) s =
      matchesAt (items.map foldItem) true (s.map CaseFolding.fold) := by
  simp [isMatch, foldItem, row_eq_marks, matchesAt, search_textStart]

/-- A text and its proper suffixes are all its suffixes. -/
theorem or_any_properSuffixes (holds : List Char → Bool) (s : List Char) :
    (holds s || (properSuffixes s).any holds) = true ↔ ∃ t u, s = t ++ u ∧ holds u = true := by
  induction s with
  | nil =>
    simp only [properSuffixes, List.any_nil, Bool.or_false]
    constructor
    · exact fun h => ⟨[], [], rfl, h⟩
    · rintro ⟨t, u, hs, hu⟩
      obtain ⟨-, rfl⟩ := List.append_eq_nil_iff.1 hs.symm
      exact hu
  | cons c s ih =>
    rw [properSuffixes, List.any_cons, Bool.or_eq_true, ih]
    constructor
    · rintro (h | ⟨t, u, rfl, hu⟩)
      · exact ⟨[], c :: s, rfl, h⟩
      · exact ⟨c :: t, u, rfl, hu⟩
    · rintro ⟨t, u, hs, hu⟩
      cases t with
      | nil => exact .inl (by rw [hs]; exact hu)
      | cons d t => exact .inr ⟨t, u, (List.cons.inj hs).2, hu⟩

end DocumentSql.Regex
