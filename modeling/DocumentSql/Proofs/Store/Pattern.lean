import DocumentSql.Proofs.Store.Condition
import DocumentSql.Proofs.Store.Operation
/-
Conditions with `LIKE` in the store. The expression that stands for a pattern always compiles, and
it holds of a stored value just if that is a text, or an identifier taken by its text, that matches
the pattern from end to end.
-/

namespace DocumentSql

namespace Value

/-- Null, numbers, truth values and timestamps match nothing. -/
theorem like_text_iff (actual : Value) (pattern : String) :
    actual.like (.text pattern) = true ↔
      (∃ s, actual = .text s ∧ Like.Matches pattern.toList s.toList) ∨
        ∃ u, actual = .id u ∧ Like.Matches pattern.toList u.chars := by
  cases actual with
  | text s =>
    have hlike : (text s).like (.text pattern) =
        decide (Like.Matches pattern.toList s.toList) := rfl
    simp [hlike]
  | id u =>
    have hlike : (id u).like (.text pattern) = decide (Like.Matches pattern.toList u.chars) := rfl
    simp [hlike]
  | _ => simp [like, likeText?]

end Value

namespace Document

/-- The pattern matches what stands in a field. -/
def FieldMatches (d : Document) (field pattern : String) : Prop :=
  (∃ s, d.get? field = some (.text s) ∧ Like.Matches pattern.toList s.toList) ∨
    ∃ u, d.get? field = some (.id u) ∧ Like.Matches pattern.toList u.chars

theorem like_read_iff (d : Document) (field pattern : String) :
    (d.read field).like (.text pattern) = true ↔ d.FieldMatches field pattern := by
  rw [Value.like_text_iff, FieldMatches, read]
  cases d.get? field <;> simp

end Document

namespace Condition

/-- A pattern becomes the condition that its expression matches. The condition compiles, and a
search with it finds the documents whose field matches the pattern, and no others. -/
theorem like_finds_matches {params : List Value} {source : ValueSource} {pattern : String}
    (h : source.resolve params = .ok (.text pattern)) (field : String) :
    ∃ c test, ofPredicate params (.like field source) = .ok c ∧
      c = ⟨NameCase.storeName field, .regex,
        .text (String.ofList (Like.regexText pattern.toList))⟩ ∧
      c.compile = .ok test ∧
      (∀ d, test d = true ↔ d.FieldMatches (NameCase.storeName field) pattern) ∧
      ∀ name s, Store.find name { filter := [c] } s =
        (.ok ((s.documents name).filter test), s) := by
  obtain ⟨holds, hholds, hlike⟩ := test_likeValue (NameCase.storeName field) (.text pattern)
  have hcompile : compile ⟨NameCase.storeName field, .regex, likeValue (.text pattern)⟩ =
      .ok fun d => holds (d.read (NameCase.storeName field)) := map_eq_ok_iff.2 ⟨holds, hholds, rfl⟩
  refine ⟨_, _, bind_eq_ok_iff.2 ⟨_, h, rfl⟩, rfl, hcompile, fun d => ?_, fun name s => ?_⟩
  · rw [hlike, Document.like_read_iff]
  · refine Store.find_of_compile (map_eq_ok_iff.2 ⟨_, mapM_eq_ok_iff.2 (.cons hcompile .nil), ?_⟩)
      name s
    funext d
    exact Bool.and_true _

/-- A point in a pattern is no wildcard, while letters match in either case. -/
theorem like_finds_matches_mail :
    let params : List Value := [.text "_nn@%.ORG"]
    ∃ c test, ofPredicate params (.like "mail" (.parameter 1)) = .ok c ∧
      c.compile = .ok test ∧
      test (NameMap.empty.insert "mail" (.text "Ann@a.b.org")) = true ∧
      test (NameMap.empty.insert "mail" (.text "ann@borg")) = false := by
  intro params
  have hpattern : (ValueSource.parameter 1).resolve params = .ok (.text "_nn@%.ORG") := rfl
  obtain ⟨c, test, hc, -, hcompile, hholds, -⟩ := like_finds_matches hpattern "mail"
  refine ⟨c, test, hc, hcompile, (hholds _).2 (.inl ⟨_, rfl, by decide +kernel⟩), ?_⟩
  rw [← Bool.not_eq_true, hholds]
  rintro (⟨s, hs, hmatches⟩ | ⟨u, hu, -⟩)
  · obtain rfl : "ann@borg" = s := Value.text.inj (Option.some.inj hs)
    revert hmatches
    decide +kernel
  · cases hu

end Condition

end DocumentSql
