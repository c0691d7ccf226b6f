import DocumentSql.Proofs.Grammar.Definition
import DocumentSql.Proofs.Grammar.Operands
/-
What a statement may rely on once it has been read. Later stages take names, lists and operands as
they come; the readers see to it that none of them is empty, missing or out of place.
-/

namespace DocumentSql

theorem mem_of_mem_intercalate {α : Type} {separator : List α} {pieces : List (List α)} {a : α}
    (h : a ∈ separator.intercalate pieces) : a ∈ separator ∨ ∃ piece ∈ pieces, a ∈ piece := by
  induction pieces with
  | nil => cases h
  | cons piece pieces ih =>
    cases pieces with
    | nil =>
      rw [List.intercalate_singleton] at h
      exact .inr ⟨piece, List.mem_cons_self, h⟩
    | cons next pieces =>
      rw [List.intercalate_cons_cons, List.append_assoc, List.mem_append, List.mem_append] at h
      obtain hpiece | hseparator | hrest := h
      · exact .inr ⟨piece, List.mem_cons_self, hpiece⟩
      · exact .inl hseparator
      · exact (ih hrest).imp id fun ⟨p, hp, ha⟩ => ⟨p, List.mem_cons_of_mem _ hp, ha⟩

/-- A name made of names is a name. -/
theorem CreateIndex.isName_defaultName {collection : String} {fields : List String}
    (hcollection : IsName collection) (hfields : ∀ n ∈ fields, IsName n) :
    IsName (CreateIndex.defaultName collection fields) := by
  have hletters : (CreateIndex.defaultName collection fields).toList = collection.toList ++
      ('_' :: (['_'].intercalate (fields.map String.toList) ++ "_idx".toList)) := by
    simp [CreateIndex.defaultName, String.toList_append, String.toList_intercalate]
  rw [IsName, hletters]
  refine ⟨by simp, fun hquote => ?_⟩
  obtain hquote | hquote := List.mem_append.mp hquote
  · exact hcollection.2 hquote
  obtain heq | hquote := List.mem_cons.mp hquote
  · exact absurd heq (by decide)
  obtain hquote | hquote := List.mem_append.mp hquote
  · obtain hseparator | ⟨piece, hpiece, hquote⟩ := mem_of_mem_intercalate hquote
    · exact absurd hseparator (by decide)
    · obtain ⟨field, hfield, rfl⟩ := List.mem_map.mp hpiece
      exact (hfields field hfield).2 hquote
  · exact absurd hquote (by decide)

namespace Statement

/-- The collection of a statement, its fields, and the name of its index. -/
def names : Statement → List String
  | select s => s.collection ::
      (s.projection ++ s.predicates.map Predicate.field ++ s.orderBy.toList.map OrderBy.field)
  | insert s => s.collection :: (s.fields.map Prod.fst ++ s.returning.getD [])
  | update s => s.collection :: (s.assignments.map Prod.fst ++ s.predicates.map Predicate.field)
  | delete s => s.collection :: s.predicates.map Predicate.field
  | createTable s => [s.collection]
  | createIndex s => s.indexName :: s.collection :: s.fields
  | alterTable collection => [collection]
  | inert _ | unsupported _ => []

/-- What later stages rely on. The readers see to all of it but `operands`. -/
structure WellFormed (s : Statement) : Prop where
  collection : s.collection? = none → s.kind = .unsupported ∨ ∃ kind, s.kind = .inert kind
  names : ∀ n ∈ s.names, n ≠ "" ∧ '"' ∉ n.toList
  inserted : ∀ i, s = insert i → i.fields ≠ []
  assigned : ∀ u, s = update u → u.assignments ≠ []
  indexed : ∀ c, s = createIndex c → c.fields ≠ []
  parameters : ∀ n ∈ s.parameters, 1 ≤ n
  numbers : ∀ x, .literal (.number x) ∈ s.sources → x ≠ .nan
  /-- No reader has a part in this: every condition there is has its operand by its constructor. -/
  operands : ∀ p ∈ s.predicates,
    p.operand? = none ↔ p.operatorText = "IS NULL" ∨ p.operatorText = "IS NOT NULL"
  patterns : ∀ field pattern, .like field pattern ∈ s.predicates →
    (∃ t, pattern = .literal (.text t)) ∨ ∃ n, pattern = .parameter n

end Statement

namespace Grammar

section Names

variable {V : ValueSource → Tokens} {s : Statement}

theorem Writes.field {p : Predicate} (h : Writes (condition V p)) : IsName p.field := by
  cases p with
  | isNull | isNotNull | like | compare => exact (writes_mul.mp h).1.isName

theorem Writes.fields {ps : List Predicate} (h : Writes (whereClause V ps)) :
    ∀ n ∈ ps.map Predicate.field, IsName n := by
  intro n hn
  obtain ⟨p, hp, rfl⟩ := List.mem_map.mp hn
  exact (h.of_mem_whereClause hp).field

theorem Writes.indexName {c : CreateIndex} (h : Writes (Grammar.indexName c))
    (hcollection : IsName c.collection) (hfields : ∀ n ∈ c.fields, IsName n) :
    IsName c.indexName := by
  obtain ⟨ls, hname | ⟨-, hdefault⟩, hwell⟩ := h
  · exact Writes.isName ⟨ls, hname, hwell⟩
  · rw [hdefault]
    exact CreateIndex.isName_defaultName hcollection hfields

theorem Writes.names (h : Writes (statement V s)) : ∀ n ∈ s.names, IsName n := by
  cases s with
  | select s =>
    simp only [statement, select, writes_mul] at h
    obtain ⟨-, hprojection, -, hcollection, hwhere, horder, -⟩ := h
    have horder : ∀ n ∈ s.orderBy.toList.map OrderBy.field, IsName n := by
      intro n hn
      obtain ⟨o, ho, rfl⟩ := List.mem_map.mp hn
      exact horder.orderBy o (Option.mem_toList.mp ho)
    have hfields := List.forall_mem_append.mpr ⟨hprojection.projection, hwhere.fields⟩
    exact List.forall_mem_cons.mpr
      ⟨hcollection.isName, List.forall_mem_append.mpr ⟨hfields, horder⟩⟩
  | insert s =>
    simp only [statement, insert, writes_mul] at h
    obtain ⟨-, hcollection, hcolumns, -, -, hreturning, -⟩ := h
    have hinserted : ∀ n ∈ s.fields.map Prod.fst, IsName n := fun n hn =>
      (hcolumns.of_parenthesized.of_mem_separated hn).isName
    have hreturned : ∀ n ∈ s.returning.getD [], IsName n := by
      cases hcolumns : s.returning with
      | none => exact fun n hn => absurd hn List.not_mem_nil
      | some columns => exact hreturning.returning columns hcolumns
    exact List.forall_mem_cons.mpr
      ⟨hcollection.isName, List.forall_mem_append.mpr ⟨hinserted, hreturned⟩⟩
  | update s =>
    simp only [statement, update, writes_mul] at h
    obtain ⟨-, hcollection, -, hassignments, hwhere, -⟩ := h
    have hassigned : ∀ n ∈ s.assignments.map Prod.fst, IsName n := by
      intro n hn
      obtain ⟨a, ha, rfl⟩ := List.mem_map.mp hn
      exact (hassignments.of_mem_separated ha).assigned.1
    exact List.forall_mem_cons.mpr
      ⟨hcollection.isName, List.forall_mem_append.mpr ⟨hassigned, hwhere.fields⟩⟩
  | delete s =>
    simp only [statement, delete, writes_mul] at h
    obtain ⟨-, hcollection, hwhere, -⟩ := h
    exact List.forall_mem_cons.mpr ⟨hcollection.isName, hwhere.fields⟩
  | createIndex s =>
    simp only [statement, createIndex, writes_mul] at h
    obtain ⟨-, -, -, -, hindex, -, hcollection, -, hcolumns, -⟩ := h
    have hfields : ∀ n ∈ s.fields, IsName n := fun n hn =>
      (writes_mul.mp (hcolumns.of_parenthesized.of_mem_separated hn)).1.isName
    have hcollection := hcollection.isName
    exact List.forall_mem_cons.mpr
      ⟨hindex.indexName hcollection hfields, List.forall_mem_cons.mpr ⟨hcollection, hfields⟩⟩
  | createTable | alterTable | inert | unsupported =>
    obtain ⟨ls, hls, -⟩ := h
    exact absurd hls (Language.notMem_zero ls)

theorem Writes.of_mem_predicates (h : Writes (statement V s)) {p : Predicate}
    (hp : p ∈ s.predicates) : Writes (condition V p) := by
  cases s with
  | select s =>
    simp only [statement, select, writes_mul] at h
    obtain ⟨-, -, -, -, hwhere, -⟩ := h
    exact hwhere.of_mem_whereClause hp
  | update s =>
    simp only [statement, update, writes_mul] at h
    obtain ⟨-, -, -, -, hwhere, -⟩ := h
    exact hwhere.of_mem_whereClause hp
  | delete s =>
    simp only [statement, delete, writes_mul] at h
    obtain ⟨-, -, hwhere, -⟩ := h
    exact hwhere.of_mem_whereClause hp
  | insert | createTable | createIndex | alterTable | inert | unsupported => cases hp

theorem Writes.ne_nan {moment : Moment} {x : Binary64}
    (h : Writes (value moment (.literal (.number x))) ∨ Writes (pattern (.literal (.number x)))) :
    x ≠ .nan := by
  obtain ⟨_, ⟨negative, whole, places, ⟨n, -, hrounded⟩, -⟩, -⟩ | ⟨ls, hls, -⟩ := h
  · exact hrounded.ne_nan
  · exact absurd hls (Language.notMem_zero ls)

end Names

end Grammar

namespace Predicate

/-- The tests for null are the operators without an operand. -/
theorem operand?_eq_none_iff (p : Predicate) :
    p.operand? = none ↔ p.operatorText = "IS NULL" ∨ p.operatorText = "IS NOT NULL" := by
  cases p with
  | isNull | isNotNull | like => simp [operand?, operatorText]
  | compare field comparison operand =>
    cases comparison <;> simp [operand?, operatorText, Comparison.text]

end Predicate

section Definitions

theorem isName_of_identifier {s rest : List Char} {n : String}
    (h : Token.identifier s = some (n, rest)) : IsName n := by
  obtain ⟨l, hl, hnext⟩ := Token.identifier_eq_some_iff.mp h
  exact Grammar.Writes.isName ⟨[l], ⟨l, hl, rfl⟩, (lays_singleton.mpr hnext).wellFormed⟩

theorem AlterTable.isName_of_read {full : List Char} {collection : String}
    (h : AlterTable.read full = .ok collection) : IsName collection := by
  unfold AlterTable.read at h
  obtain ⟨s, -, h⟩ := bind_eq_ok_iff.mp h
  obtain ⟨⟨name, rest⟩, hread, h⟩ := bind_eq_ok_iff.mp h
  obtain rfl := pure_eq_ok_iff.mp h
  exact isName_of_identifier (Token.expect_eq_ok_iff.mp hread)

theorem CreateTable.isName_of_read {full : List Char} {t : CreateTable}
    (h : CreateTable.read full = .ok t) : IsName t.collection := by
  obtain ⟨ls, hls, s, hlays, -⟩ := Grammar.read_createTable_iff.mp h
  have hwrites : Grammar.Writes (Grammar.tableHead t) := ⟨ls, hls, hlays.wellFormed⟩
  exact (Grammar.writes_mul.mp (Grammar.writes_mul.mp hwrites).2).2.isName

end Definitions

namespace Statement

variable {moment : Moment} {text : String} {s : Statement}

theorem isName_of_parse (h : parse moment text = .ok s) : ∀ n ∈ s.names, IsName n := by
  cases s with
  | select | insert | update | delete => exact (writes_of_parse h rfl).names
  | createIndex c =>
    have hcovers := Grammar.covers_createIndex (read_of_ofTrimmed_createIndex h)
    have hwrites : Grammar.Writes (Grammar.statement (Grammar.value moment) (createIndex c)) :=
      hcovers.writes
    exact hwrites.names
  | createTable t =>
    exact List.forall_mem_singleton.mpr
      (CreateTable.isName_of_read (ofTrimmed_createTable_iff.mp h))
  | alterTable collection =>
    exact List.forall_mem_singleton.mpr
      (AlterTable.isName_of_read (read_of_ofTrimmed_alterTable h))
  | inert | unsupported => nofun

/-- Only statements on documents have conditions. -/
theorem actsOnDocuments_of_mem_predicates {p : Predicate} (h : p ∈ s.predicates) :
    s.actsOnDocuments = true := by
  cases s with
  | select | update | delete => rfl
  | insert | createTable | createIndex | alterTable | inert | unsupported => cases h

theorem isPattern_of_parse (h : parse moment text = .ok s) {field : String} {pattern : ValueSource}
    (hp : .like field pattern ∈ s.predicates) : pattern.IsPattern := by
  have hwrites := writes_of_parse h (actsOnDocuments_of_mem_predicates hp)
  have hcondition := hwrites.of_mem_predicates hp
  rw [Grammar.condition, Grammar.writes_mul, Grammar.writes_mul] at hcondition
  obtain ⟨-, -, hpattern⟩ := hcondition
  exact hpattern.isPattern

/-- Whatever the text, the statement read from it is well formed. -/
theorem wellFormed_of_parse (h : parse moment text = .ok s) : s.WellFormed where
  collection := by
    intro hnone
    cases s with
    | inert kind => exact .inr ⟨kind, rfl⟩
    | unsupported => exact .inl rfl
    | select | insert | update | delete | createTable | createIndex | alterTable => cases hnone
  names := by
    intro n hn
    obtain ⟨hne, hquote⟩ := isName_of_parse h n hn
    exact ⟨fun hempty => hne (hempty ▸ rfl), hquote⟩
  inserted := by
    rintro i rfl hnil
    have hwrites := writes_of_parse h rfl
    simp only [Grammar.statement, Grammar.insert, Grammar.writes_mul] at hwrites
    obtain ⟨-, -, hcolumns, -⟩ := hwrites
    exact hcolumns.of_parenthesized.ne_nil (by rw [hnil]; rfl)
  assigned := by
    rintro u rfl
    have hwrites := writes_of_parse h rfl
    simp only [Grammar.statement, Grammar.update, Grammar.writes_mul] at hwrites
    obtain ⟨-, -, -, hassignments, -⟩ := hwrites
    exact hassignments.ne_nil
  indexed := by
    rintro c rfl
    have hwrites := (Grammar.covers_createIndex (read_of_ofTrimmed_createIndex h)).writes
    simp only [Grammar.createIndex, Grammar.writes_mul] at hwrites
    obtain ⟨-, -, -, -, -, -, -, -, hcolumns, -⟩ := hwrites
    exact hcolumns.of_parenthesized.ne_nil
  parameters := fun n hn => parameter_pos h hn
  numbers := fun x hx => Grammar.Writes.ne_nan (writes_source_of_parse h hx)
  operands := fun p _ => p.operand?_eq_none_iff
  patterns := by
    intro field pattern hp
    have hpattern := isPattern_of_parse h hp
    cases pattern with
    | parameter n => exact .inr ⟨n, rfl⟩
    | literal value =>
      cases value with
      | text t => exact .inl ⟨t, rfl⟩
      | null | bool | number | timestamp | id => cases hpattern

theorem wellFormed_of_parse_update :
    let moment := Moment.series ⟨0⟩ 0 0
    let text := "UPDATE users SET age = 7 WHERE \"e-mail\" LIKE $1 AND left_at IS NULL;"
    let s := update ⟨"users", [("age", .literal (.number (.ofInt 7)))],
      [.like "e-mail" (.parameter 1), .isNull "left_at"]⟩
    parse moment text = .ok s ∧ s.WellFormed := by
  intro moment text s
  have h : parse moment text = .ok s := by decide +kernel
  exact ⟨h, wellFormed_of_parse h⟩

end Statement

end DocumentSql
