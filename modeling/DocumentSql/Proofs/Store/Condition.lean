import DocumentSql.Proofs.Pattern.Like
import DocumentSql.Proofs.Traversal
import DocumentSql.Store.Memory
/-
What the conditions of a statement say about a document, without filters and without regular
expressions. The filter made for them always compiles, and it selects the documents for which all
of them hold.
-/

namespace DocumentSql

namespace ValueSource

/-- The parameter that the source asks for is there. -/
def Covered (params : List Value) : ValueSource → Prop
  | literal _ => True
  | parameter n => 0 < n ∧ n ≤ params.length

def value (params : List Value) : ValueSource → Value
  | literal value => value
  | parameter n => params.getD (n - 1) .null

theorem resolve_of_covered {params : List Value} {source : ValueSource}
    (h : source.Covered params) : source.resolve params = .ok (source.value params) := by
  cases source with
  | literal value => rfl
  | parameter n =>
    obtain ⟨hpos, hlength⟩ := h
    cases n with
    | zero => exact absurd hpos (Nat.lt_irrefl 0)
    | succ n =>
      have hget : params[n]? = some params[n] := List.getElem?_eq_getElem (by omega)
      simp only [resolve, value, Nat.add_sub_cancel, List.getD_eq_getElem?_getD, hget,
        Option.getD_some]

end ValueSource

namespace Value

/-- Only texts and identifiers can match a pattern. -/
def likeText? : Value → Option (List Char)
  | text s => some s.toList
  | id u => some u.chars
  | _ => none

def like (actual pattern : Value) : Bool :=
  match actual.likeText? with
  | some s => decide (Like.Matches pattern.display.toList s)
  | none => false

end Value

namespace Comparison

/-- Values that do not compare differ, and no range holds between them. -/
def holds (actual : Value) : Comparison → Value → Bool
  | eq, operand => actual.agrees operand
  | ne, operand => !actual.agrees operand
  | lt, operand => (actual.compare? operand).any Ordering.isLT
  | le, operand => (actual.compare? operand).any Ordering.isLE
  | gt, operand => (actual.compare? operand).any Ordering.isGT
  | ge, operand => (actual.compare? operand).any Ordering.isGE

end Comparison

namespace Predicate

def Covered (params : List Value) (p : Predicate) : Prop :=
  ∀ source, p.operand? = some source → source.Covered params

def holdsOf (params : List Value) (actual : Value) : Predicate → Bool
  | isNull _ => actual.agrees .null
  | isNotNull _ => !actual.agrees .null
  | like _ pattern => actual.like (pattern.value params)
  | compare _ comparison operand => comparison.holds actual (operand.value params)

/-- The field is looked up under its store name. -/
def holds (params : List Value) (d : Document) (p : Predicate) : Bool :=
  p.holdsOf params (d.read (NameCase.storeName p.field))

end Predicate

/-- The documents that a `WHERE` clause is about. -/
def selected (params : List Value) (predicates : List Predicate) (d : Document) : Bool :=
  predicates.all (Predicate.holds params d)

namespace Condition

theorem test_ofComparison (field : String) (comparison : Comparison) (operand : Value) :
    ∃ test, Condition.test ⟨field, .ofComparison comparison, operand⟩ = .ok test ∧
      ∀ actual, test actual = comparison.holds actual operand := by
  cases comparison <;> refine ⟨_, rfl, fun actual => ?_⟩
  case eq => rfl
  case ne => rfl
  -- The four ranges differ in the orderings that fit.
  all_goals
    simp only [Comparison.holds]
    cases actual.compare? operand with
    | none => rfl
    | some o => cases o <;> rfl

theorem test_likeValue (field : String) (pattern : Value) :
    ∃ test, Condition.test ⟨field, .regex, likeValue pattern⟩ = .ok test ∧
      ∀ actual, test actual = actual.like pattern := by
  refine ⟨matchesText (Like.items pattern.display.toList), ?_, fun actual => ?_⟩
  · simp only [likeValue, Condition.test, String.toList_ofList, Like.read?_regexText]
  · have hmatch : ∀ s : List Char, Regex.isMatch (Like.items pattern.display.toList) s =
        decide (Like.Matches pattern.display.toList s) := by
      intro s
      rw [Bool.eq_iff_iff, Like.isMatch_items_iff, decide_eq_true_iff]
    cases actual with
    | text s => exact hmatch s.toList
    | id u => exact hmatch u.chars
    | _ => rfl

theorem compile_ofPredicate {params : List Value} {p : Predicate} (hp : p.Covered params) :
    ∃ c test, Condition.ofPredicate params p = .ok c ∧ c.compile = .ok test ∧
      ∀ d, test d = p.holds params d := by
  cases p with
  | isNull field => exact ⟨_, _, rfl, rfl, fun _ => rfl⟩
  | isNotNull field => exact ⟨_, _, rfl, rfl, fun _ => rfl⟩
  | like field pattern =>
    obtain ⟨test, htest, hholds⟩ :=
      test_likeValue (NameCase.storeName field) (pattern.value params)
    have hpattern := ValueSource.resolve_of_covered (hp pattern rfl)
    refine ⟨_, _, bind_eq_ok_iff.2 ⟨_, hpattern, rfl⟩, map_eq_ok_iff.2 ⟨test, htest, rfl⟩, ?_⟩
    exact fun d => hholds _
  | compare field comparison operand =>
    obtain ⟨test, htest, hholds⟩ :=
      test_ofComparison (NameCase.storeName field) comparison (operand.value params)
    have hoperand := ValueSource.resolve_of_covered (hp operand rfl)
    refine ⟨_, _, bind_eq_ok_iff.2 ⟨_, hoperand, rfl⟩, map_eq_ok_iff.2 ⟨test, htest, rfl⟩, ?_⟩
    exact fun d => hholds _

end Condition

namespace Filter

/-- The tests of a filter, one for each condition of the statement and in the same order. -/
theorem tests_ofPredicates {params : List Value} {predicates : List Predicate}
    (hcovered : ∀ p ∈ predicates, p.Covered params) :
    ∃ filter tests, Filter.ofPredicates params predicates = .ok filter ∧
      filter.mapM Condition.compile = .ok tests ∧
      List.Forall₂ (fun test p => ∀ d, test d = Predicate.holds params d p) tests predicates := by
  simp only [ofPredicates, mapM_eq_ok_iff]
  induction predicates with
  | nil => exact ⟨[], [], .nil, .nil, .nil⟩
  | cons p predicates ih =>
    obtain ⟨c, test, hc, htest, hholds⟩ :=
      Condition.compile_ofPredicate (hcovered p List.mem_cons_self)
    obtain ⟨filter, tests, hfilter, htests, hall⟩ :=
      ih fun q hq => hcovered q (List.mem_cons_of_mem _ hq)
    exact ⟨c :: filter, test :: tests, .cons hc hfilter, .cons htest htests, .cons hholds hall⟩

theorem compile_ofPredicates {params : List Value} {predicates : List Predicate}
    (hcovered : ∀ p ∈ predicates, p.Covered params) :
    ∃ filter, Filter.ofPredicates params predicates = .ok filter ∧
      Filter.compile filter = .ok (selected params predicates) := by
  obtain ⟨filter, tests, hfilter, htests, hall⟩ := tests_ofPredicates hcovered
  refine ⟨filter, hfilter, map_eq_ok_iff.2 ⟨tests, htests, funext fun d => ?_⟩⟩
  unfold selected
  clear hfilter htests hcovered
  induction hall with
  | nil => rfl
  | cons htest _ ih => rw [List.all_cons, List.all_cons, htest, ih]

end Filter

end DocumentSql
