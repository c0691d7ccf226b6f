import DocumentSql.Proofs.Store.Uniqueness
import Mathlib.Data.List.Find
/-
Two checks of unique keys. An insertion compares the new document with those that are there; the
full check compares all of them with each other. As long as the collection was in order before, the
two find the same index, also where a document breaks several of them at once.
-/

namespace DocumentSql

namespace Index

theorem duplicated_append (index : Index) (documents : List Document) (d : Document) :
    index.duplicated (documents ++ [d]) =
      (index.duplicated documents || documents.any (index.sameKey · d)) := by
  induction documents with
  | nil => rfl
  | cons first later ih =>
    simp only [List.cons_append, duplicated, ih, List.any_append, List.any_cons, List.any_nil,
      Bool.or_false]
    ac_rfl

/-- Behind documents that violate nothing, only the last one can be at fault. -/
theorem firstViolated_append {c : Collection} (h : firstViolated c.indexes c.documents = none)
    (d : Document) :
    firstViolated c.indexes (c.documents ++ [d]) = Store.firstRefusing c d := by
  refine List.find?_congr fun index hindex => ?_
  have hsound : index.duplicated c.documents = false :=
    Bool.eq_false_iff.mpr (List.find?_eq_none.mp h index hindex)
  rw [duplicated_append, hsound, Bool.false_or]

end Index

namespace Store

/-- An insertion that compares all documents with each other, the new one among them. -/
def insertFullyChecked (fresh : Uuid) (name : String) (given : Document) :
    Operation Store Inserted := fun s =>
  let c := s.collection name
  let (d, id) := identified fresh given
  match Index.firstViolated c.indexes (c.documents ++ [d]) with
  | some index => (.error (.duplicateKey name index.name), s)
  | none => (.ok ⟨id, d⟩, appended s name d)

theorem insert_eq_insertFullyChecked {s : Store} {name : String}
    (h : Index.firstViolated (s.collection name).indexes (s.collection name).documents = none)
    (fresh : Uuid) (given : Document) :
    insert fresh name given s = insertFullyChecked fresh name given s := by
  simp only [insertFullyChecked, Index.firstViolated_append h]
  exact insert_eq fresh name given s

/-- In a sound store it makes no difference which of the two checks is made. -/
theorem Sound.insert_eq {s : Store} (h : Sound s) (fresh : Uuid) (name : String)
    (given : Document) :
    Store.insert fresh name given s = insertFullyChecked fresh name given s :=
  insert_eq_insertFullyChecked
    (Index.firstViolated_eq_none_iff.mpr (h.collection name).separated) fresh given

/-- An insertion into a collection that is in order is refused just if the full check finds a fault
in the documents with the new one behind them, and then by the index that this check names first. If
it finds none, the new document comes last. Nothing else changes in either case. -/
theorem insert_iff_firstViolated {s : Store} {name : String}
    (h : Index.firstViolated (s.collection name).indexes (s.collection name).documents = none)
    (fresh : Uuid) (given : Document) :
    let c := s.collection name
    let d := (identified fresh given).1
    let violated := Index.firstViolated c.indexes (c.documents ++ [d])
    let run := insert fresh name given s
    (∀ index, run.1 = .error (.duplicateKey name index) ↔ violated.map (·.name) = some index) ∧
    (violated ≠ none → run.2 = s) ∧
    (violated = none → run.1 = .ok ⟨(identified fresh given).2, d⟩ ∧
      run.2.get? name = some { c with documents := c.documents ++ [d] } ∧
      ∀ other, other ≠ name → run.2.get? other = s.get? other) := by
  intro c d violated run
  have hinsert : run = match violated with
      | some index => (.error (.duplicateKey name index.name), s)
      | none => (.ok ⟨(identified fresh given).2, d⟩, appended s name d) :=
    insert_eq_insertFullyChecked h fresh given
  cases hviolated : violated with
  | some index =>
    rw [hinsert, hviolated]
    refine ⟨fun found => ?_, fun _ => rfl, nofun⟩
    simp only [Except.error.injEq, StoreError.duplicateKey.injEq, true_and, Option.map_some,
      Option.some.injEq]
  | none =>
    rw [hinsert, hviolated]
    refine ⟨fun found => ⟨nofun, nofun⟩, fun hsome => absurd rfl hsome, fun _ => ⟨rfl, ?_, ?_⟩⟩
    · exact (NameMap.get?_insert ..).trans (if_pos rfl)
    · intro other hother
      exact (NameMap.get?_insert ..).trans (if_neg hother)

/-- `nan` is no duplicate of `nan`, but a field that both documents lack is one; the index on it
comes before that on the field they share. -/
theorem insert_iff_firstViolated_users :
    let ann : Document :=
      .ofList [("_id", .text "a"), ("email", .text "x"), ("score", .number .nan)]
    let bob : Document :=
      .ofList [("_id", .text "b"), ("email", .text "x"), ("score", .number .nan)]
    let c : Collection := { documents := [ann], indexes := [⟨"by_score", ["score"], true⟩,
      ⟨"by_city", ["city"], true⟩, ⟨"by_email", ["email"], true⟩] }
    let s : Store := NameMap.empty.insert "users" c
    Index.firstViolated c.indexes c.documents = none ∧
    (insert ⟨0⟩ "users" bob s).1 = .error (.duplicateKey "users" "by_city") ∧
    (insert ⟨0⟩ "users" bob s).2 = s := by
  intro ann bob c s
  have hsound : Index.firstViolated (s.collection "users").indexes
      (s.collection "users").documents = none := by decide +kernel
  obtain ⟨hrefused, hstate, -⟩ := insert_iff_firstViolated hsound ⟨0⟩ bob
  have hcity : (Index.firstViolated (s.collection "users").indexes
      ((s.collection "users").documents ++ [(identified ⟨0⟩ bob).1])).map (·.name) =
        some "by_city" := by decide +kernel
  refine ⟨hsound, (hrefused "by_city").mpr hcity, hstate ?_⟩
  intro hnone
  rw [hnone] at hcity
  cases hcity

end Store

end DocumentSql
