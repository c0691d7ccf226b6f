import DocumentSql.Proofs.Pattern.Search
/-
`LIKE` patterns mean what they say. `Matches` is their meaning without regular expressions; the
expression made for a pattern is always well formed and matches exactly those texts.
-/

namespace DocumentSql.Like

/-- A whole text under a pattern: `%` stands for any run of characters, `_` for any one, and every
other character for itself in either case. -/
inductive Matches : List Char → List Char → Prop
  | nil : Matches [] []
  | anyRun {p s : List Char} (t : List Char) : Matches p s → Matches ('%' :: p) (t ++ s)
  | anyOne {p s : List Char} (c : Char) : Matches p s → Matches ('_' :: p) (c :: s)
  | letter {p s : List Char} {l c : Char} : l ≠ '%' → l ≠ '_' →
      CaseFolding.fold l = CaseFolding.fold c → Matches p s → Matches (l :: p) (c :: s)

theorem matches_anyRun_iff {p s : List Char} :
    Matches ('%' :: p) s ↔ ∃ t u, s = t ++ u ∧ Matches p u := by
  constructor
  · intro h
    cases h with
    | anyRun t h => exact ⟨t, _, rfl, h⟩
    | letter hrun => exact absurd rfl hrun
  · rintro ⟨t, u, rfl, h⟩
    exact .anyRun t h

theorem matches_anyOne_iff {p s : List Char} :
    Matches ('_' :: p) s ↔ ∃ c u, s = c :: u ∧ Matches p u := by
  constructor
  · intro h
    cases h with
    | anyOne c h => exact ⟨c, _, rfl, h⟩
    | letter _ hone => exact absurd rfl hone
  · rintro ⟨c, u, rfl, h⟩
    exact .anyOne c h

theorem matches_letter_iff {l : Char} {p s : List Char} (hrun : l ≠ '%') (hone : l ≠ '_') :
    Matches (l :: p) s ↔
      ∃ c u, s = c :: u ∧ CaseFolding.fold l = CaseFolding.fold c ∧ Matches p u := by
  constructor
  · intro h
    cases h with
    | anyRun => exact absurd rfl hrun
    | anyOne => exact absurd rfl hone
    | letter _ _ hfold h => exact ⟨_, _, rfl, hfold, h⟩
  · rintro ⟨c, u, rfl, hfold, h⟩
    exact .letter hrun hone hfold h

/-- The items of a pattern from some character on match exactly the texts under the pattern. Where
the match starts does not count, since the anchor comes before all of them. -/
theorem matchesAt_items_iff (p : List Char) (whole : Bool) (s : List Char) :
    Regex.matchesAt ((p.map item ++ [Regex.Item.textEnd]).map Regex.foldItem) whole
      (s.map CaseFolding.fold) = true ↔ Matches p s := by
  induction p generalizing whole s with
  | nil =>
    simp only [List.map_nil, List.nil_append, List.map_cons, Regex.foldItem, Regex.matchesAt,
      Bool.and_true, List.isEmpty_iff, List.map_eq_nil_iff]
    constructor
    · rintro rfl
      exact .nil
    · intro h
      cases h
      rfl
  | cons l p ih =>
    have hwhole : Regex.matchesAt ((p.map item ++ [Regex.Item.textEnd]).map Regex.foldItem) whole
        (s.map CaseFolding.fold) = Regex.matchesAt
        ((p.map item ++ [Regex.Item.textEnd]).map Regex.foldItem) false (s.map CaseFolding.fold) :=
      Bool.eq_iff_iff.2 ((ih whole s).trans (ih false s).symm)
    simp only [List.map_cons, List.cons_append]
    by_cases hrun : l = '%'
    · subst hrun
      have hitem : Regex.foldItem (item '%') = .anyRun := rfl
      rw [hitem, Regex.matchesAt, hwhole, Regex.or_any_properSuffixes, matches_anyRun_iff]
      constructor
      · rintro ⟨t, u, hs, hu⟩
        obtain ⟨t', u', rfl, rfl, rfl⟩ := List.map_eq_append_iff.1 hs
        exact ⟨t', u', rfl, (ih false u').1 hu⟩
      · rintro ⟨t, u, rfl, hu⟩
        exact ⟨_, _, List.map_append, (ih false u).2 hu⟩
    · by_cases hone : l = '_'
      · subst hone
        have hitem : Regex.foldItem (item '_') = .anyOne := rfl
        rw [hitem, matches_anyOne_iff]
        cases s with
        | nil => simp [Regex.matchesAt]
        | cons c s =>
          rw [List.map_cons, Regex.matchesAt, ih]
          constructor
          · intro h
            exact ⟨c, s, rfl, h⟩
          · rintro ⟨_, _, hs, h⟩
            obtain ⟨-, rfl⟩ := List.cons.inj hs
            exact h
      · have hitem : Regex.foldItem (item l) = .letter (CaseFolding.fold l) := by
          simp only [item, if_neg hrun, if_neg hone, Regex.foldItem]
        rw [hitem, matches_letter_iff hrun hone]
        cases s with
        | nil => simp [Regex.matchesAt]
        | cons c s =>
          rw [List.map_cons, Regex.matchesAt, Bool.and_eq_true, beq_iff_eq, ih]
          constructor
          · rintro ⟨hfold, h⟩
            exact ⟨c, s, rfl, hfold, h⟩
          · rintro ⟨_, _, hs, hfold, h⟩
            obtain ⟨rfl, rfl⟩ := List.cons.inj hs
            exact ⟨hfold, h⟩

theorem isMatch_items_iff (p s : List Char) :
    Regex.isMatch (items p) s = true ↔ Matches p s := by
  rw [items, List.cons_append, Regex.isMatch_textStart, matchesAt_items_iff]

instance (p s : List Char) : Decidable (Matches p s) :=
  decidable_of_iff _ (isMatch_items_iff p s)

/-- No expression of a pattern goes on with a star, which would turn a point into a run. -/
theorem flatMap_itemText_ne_star (p rest : List Char) :
    p.flatMap itemText ++ ['$'] ≠ '*' :: rest := by
  cases p with
  | nil => simp
  | cons l p =>
    simp only [List.flatMap_cons, itemText]
    split
    · simp
    · split
      · simp
      · intro h
        unfold Regex.escape at h
        split at h
        · simp at h
        · next hmeta =>
          obtain rfl : l = '*' := by simpa using congrArg List.head? h
          exact hmeta rfl

theorem read?_escape (l : Char) (rest : List Char) :
    Regex.read? (Regex.escape l ++ rest) = (Regex.read? rest).map (.letter l :: ·) := by
  unfold Regex.escape
  split
  · next hmeta => simp only [List.cons_append, List.nil_append, Regex.read?, if_pos hmeta]
  · next hmeta =>
    have hplain : l ≠ '\\' ∧ l ≠ '.' ∧ l ≠ '^' ∧ l ≠ '$' := by
      refine ⟨?_, ?_, ?_, ?_⟩ <;> rintro rfl <;> exact hmeta rfl
    rw [List.cons_append, List.nil_append, Regex.read?]
    · simp [hplain, hmeta]
    · exact fun _ _ h => absurd h hplain.1
    · exact fun _ h => absurd h hplain.2.1

theorem read?_flatMap_itemText (p : List Char) :
    Regex.read? (p.flatMap itemText ++ ['$']) = some (p.map item ++ [.textEnd]) := by
  induction p with
  | nil => rfl
  | cons l p ih =>
    rw [List.flatMap_cons, List.append_assoc, itemText, List.map_cons, List.cons_append, item]
    split
    · rw [List.cons_append, List.cons_append, List.nil_append, Regex.read?, ih, Option.map_some]
    · split
      · rw [List.cons_append, List.nil_append, Regex.read?]
        · simp [ih]
        · simp
        · exact fun rest _ h => flatMap_itemText_ne_star p rest h
      · rw [read?_escape, ih, Option.map_some]

theorem read?_regexText (p : List Char) : Regex.read? (regexText p) = some (items p) := by
  rw [regexText, List.cons_append, Regex.read?]
  · simp [read?_flatMap_itemText, items]
  · simp
  · simp

end DocumentSql.Like
