import DocumentSql.Engine
import DocumentSql.Proofs.NameCase
import DocumentSql.Proofs.Traversal
/-
The spelling of field names. A statement means the fields that its names have in the store, at every
place where it names one: what it reads, tests, sorts by, writes, returns and indexes. So a change
of spelling that keeps the store names keeps the whole run, on every store.
-/

namespace DocumentSql

namespace Predicate

def mapField (f : String → String) : Predicate → Predicate
  | isNull field => isNull (f field)
  | isNotNull field => isNotNull (f field)
  | like field source => like (f field) source
  | compare field comparison source => compare (f field) comparison source

end Predicate

section Statements

variable (f : String → String)

def Select.mapFields (s : Select) : Select :=
  { s with
    projection := s.projection.map f
    predicates := s.predicates.map (Predicate.mapField f)
    orderBy := s.orderBy.map fun o => { o with field := f o.field } }

def Insert.mapFields (s : Insert) : Insert :=
  { s with
    fields := s.fields.map fun field => (f field.1, field.2)
    returning := s.returning.map (List.map f) }

def Update.mapFields (s : Update) : Update :=
  { s with
    assignments := s.assignments.map fun a => (f a.1, a.2)
    predicates := s.predicates.map (Predicate.mapField f) }

def Delete.mapFields (s : Delete) : Delete :=
  { s with predicates := s.predicates.map (Predicate.mapField f) }

def CreateIndex.mapFields (c : CreateIndex) : CreateIndex :=
  { c with fields := c.fields.map f }

/-- Respells each field. The names of collections and of indexes stay. -/
def Statement.mapFields : Statement → Statement
  | select s => select (s.mapFields f)
  | insert s => insert (s.mapFields f)
  | update s => update (s.mapFields f)
  | delete s => delete (s.mapFields f)
  | createIndex c => createIndex (c.mapFields f)
  | s => s

end Statements

/-- A plan still has the columns of `RETURNING` as callers spell them. -/
def Plan.mapReturning (f : String → String) : Plan → Plan
  | insert collection d returning => insert collection d (returning.map (List.map f))
  | plan => plan

theorem Engine.returnedRows_columns (d : Document) {columns : List String} (h : columns ≠ []) :
    returnedRows d (some columns) = [Row.ofDocument (.ofList
      ((columns.map NameCase.storeName).map fun field => (field, d.read field)))] := by
  cases columns with
  | nil => exact absurd rfl h
  | cons => rfl

section Respelling

variable {f : String → String} (hf : ∀ name, NameCase.storeName (f name) = NameCase.storeName name)

include hf

theorem map_storeName_map (names : List String) :
    (names.map f).map NameCase.storeName = names.map NameCase.storeName := by
  rw [List.map_map]
  exact List.map_congr_left fun name _ => hf name

theorem Condition.ofPredicate_mapField (params : List Value) (p : Predicate) :
    ofPredicate params (p.mapField f) = ofPredicate params p := by
  cases p <;> simp only [Predicate.mapField, ofPredicate, hf]

theorem Filter.ofPredicates_mapField (params : List Value) (ps : List Predicate) :
    ofPredicates params (ps.map (Predicate.mapField f)) = ofPredicates params ps := by
  rw [ofPredicates, ofPredicates, List.mapM_map]
  exact mapM_congr fun p _ => Condition.ofPredicate_mapField hf params p

theorem resolveFields_mapField (params : List Value) (fields : List (String × ValueSource)) :
    resolveFields params (fields.map fun field => (f field.1, field.2)) =
      resolveFields params fields := by
  rw [resolveFields, resolveFields, List.mapM_map]
  refine mapM_congr fun field _ => ?_
  simp only [Function.comp_apply, hf]

theorem Select.options_mapFields (s : Select) (filter : Filter) :
    (s.mapFields f).options filter = s.options filter := by
  simp only [options, mapFields, map_storeName_map hf, Option.map_map, Function.comp_def, hf]

theorem CreateIndex.index_mapFields (c : CreateIndex) : (c.mapFields f).index = c.index := by
  simp only [index, mapFields, map_storeName_map hf]

/-- Planning turns every name into its store name, except for the columns that are returned. -/
theorem Plan.ofStatement_mapFields (policy : Policy) (params : List Value) (s : Statement) :
    ofStatement policy params (s.mapFields f) =
      (ofStatement policy params s).map (mapReturning f) := by
  cases s with
  | select s =>
    simp only [Statement.mapFields, ofStatement, Select.options_mapFields hf]
    simp only [Select.mapFields, Filter.ofPredicates_mapField hf]
    cases Filter.ofPredicates params s.predicates <;> rfl
  | insert s =>
    simp only [Statement.mapFields, Insert.mapFields, ofStatement, resolveFields_mapField hf]
    cases resolveFields params s.fields <;> rfl
  | update s =>
    simp only [Statement.mapFields, Update.mapFields, ofStatement, resolveFields_mapField hf,
      Filter.ofPredicates_mapField hf]
    cases resolveFields params s.assignments with
    | error e => rfl
    | ok fields => cases Filter.ofPredicates params s.predicates <;> rfl
  | delete s =>
    simp only [Statement.mapFields, Delete.mapFields, ofStatement, Filter.ofPredicates_mapField hf]
    cases Filter.ofPredicates params s.predicates <;> rfl
  | createIndex c =>
    simp only [Statement.mapFields, ofStatement, CreateIndex.index_mapFields hf]
    rfl
  | createTable | alterTable | inert => rfl
  | unsupported text =>
    simp only [Statement.mapFields, ofStatement]
    split <;> rfl

namespace Engine

theorem returnedRows_map (d : Document) (returning : Option (List String)) :
    returnedRows d (returning.map (List.map f)) = returnedRows d returning := by
  cases returning with
  | none => rfl
  | some columns =>
    by_cases hall : columns = []
    · rw [hall]
      rfl
    · have hsome : columns.map f ≠ [] := fun hnil => hall (List.map_eq_nil_iff.mp hnil)
      rw [Option.map_some, returnedRows_columns d hsome, returnedRows_columns d hall,
        map_storeName_map hf]

variable {σ : Type} (store : DocumentStore σ)

theorem run_mapReturning (fresh : Uuid) (plan : Plan) (state : σ) :
    run store fresh (plan.mapReturning f) state = run store fresh plan state := by
  cases plan with
  | insert collection d returning =>
    simp only [Plan.mapReturning, run, returnedRows_map hf]
    rfl
  | _ => rfl

/-- Names that are one to a store are one to its callers. -/
theorem execute_mapFields (policy : Policy) (fresh : Uuid) (params : List Value) (s : Statement)
    (state : σ) :
    execute store policy fresh params (s.mapFields f) state =
      execute store policy fresh params s state := by
  simp only [execute, Plan.ofStatement_mapFields hf]
  cases Plan.ofStatement policy params s with
  | error e => rfl
  | ok plan => exact run_mapReturning hf store fresh plan state

end Engine

end Respelling

/-- A statement does the same with its fields as a store spells them: the same rows under the same
keys or the same error, and the same state. Any name, with whatever letters, has one store spelling,
which spelling it for a store again does not change. -/
theorem Engine.execute_store_spelling :
    (∀ name, NameCase.storeName (NameCase.storeName name) = NameCase.storeName name) ∧
    ∀ {σ : Type} (store : DocumentStore σ) (policy : Policy) (fresh : Uuid) (params : List Value)
      (s : Statement) (state : σ),
      execute store policy fresh params (s.mapFields NameCase.storeName) state =
        execute store policy fresh params s state :=
  ⟨NameCase.storeName_storeName, execute_mapFields NameCase.storeName_storeName⟩

example : (Statement.select ⟨"blog_posts", ["created_at"], [.isNull "deleted_at"],
    some ⟨"userId", .desc⟩, none, none⟩).mapFields NameCase.storeName =
      .select ⟨"blog_posts", ["createdAt"], [.isNull "deletedAt"],
        some ⟨"userId", .desc⟩, none, none⟩ := by
  decide +kernel

end DocumentSql
