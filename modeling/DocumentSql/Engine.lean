import DocumentSql.Grammar.Reader
import DocumentSql.Log
import DocumentSql.QueryResult
/-
Running statements on a document store. A statement is first planned: its parameters are filled in
and its names turned into store names. The plan then asks the store at most once, and the answer is
shaped into rows.
-/

namespace DocumentSql

/-- A strict policy makes statements of no known kind fail. -/
structure Policy where
  strict : Bool := false
deriving DecidableEq, Repr

/-- A statement that is ready to run: a result that needs no store, or one request to it. -/
inductive Plan
  | acceptTable (collection : String)
  | acceptInert (kind : InertKind)
  | ignore (text : String)
  | find (collection : String) (options : FindOptions)
  | insert (collection : String) (document : Document) (returning : Option (List String))
  | update (collection : String) (filter : Filter) (set : Document)
  | delete (collection : String) (filter : Filter)
  | probe (collection : String)
  | createIndex (collection : String) (index : Index)

namespace Select

def options (s : Select) (filter : Filter) : FindOptions where
  filter := filter
  projection := s.projection.map NameCase.storeName
  sort := s.orderBy.map fun o => { o with field := NameCase.storeName o.field }
  skip := s.offset
  limit := s.limit

end Select

namespace CreateIndex

def index (s : CreateIndex) : Index where
  name := s.indexName
  keys := s.fields.map NameCase.storeName
  unique := s.unique

end CreateIndex

namespace Plan

/-- Parameters are resolved in written order, assignments before conditions. -/
def resolved {α : Type} (r : Except ParameterError α) : Except QueryError α :=
  r.mapError .parameter

def ofStatement (policy : Policy) (params : List Value) : Statement → Except QueryError Plan
  | .select s => do
    let filter ← resolved (Filter.ofPredicates params s.predicates)
    return find s.collection (s.options filter)
  | .insert s => do
    let fields ← resolved (resolveFields params s.fields)
    return insert s.collection (.ofList fields) s.returning
  | .update s => do
    let fields ← resolved (resolveFields params s.assignments)
    let filter ← resolved (Filter.ofPredicates params s.predicates)
    return update s.collection filter (.ofList fields)
  | .delete s => do
    let filter ← resolved (Filter.ofPredicates params s.predicates)
    return delete s.collection filter
  | .createTable s => return probe s.collection
  | .createIndex s => return createIndex s.collection s.index
  | .alterTable collection => return acceptTable collection
  | .inert kind => return acceptInert kind
  | .unsupported text => if policy.strict then throw (.unsupported text) else return ignore text

end Plan

structure Execution (σ : Type) where
  outcome : Except QueryError QueryResult
  state : σ
  events : List Log.Event

namespace Engine

variable {σ : Type}

/-- Projected fields that the document lacks read as null. -/
def fillMissing (projection : List String) (d : Document) : Document :=
  projection.foldl (fun d field => d.insertIfNew field .null) d

/-- The row of `RETURNING`: the whole document, or the named columns. -/
def returnedRows (d : Document) : Option (List String) → List Row
  | none => []
  | some [] => [Row.ofDocument d]
  | some columns =>
    let fields := columns.map NameCase.storeName
    [Row.ofDocument (.ofList (fields.map fun field => (field, d.read field)))]

def announcement : Plan → List Log.Event
  | .acceptTable collection => [.tableAccepted collection]
  | .acceptInert kind => [.inertAccepted kind]
  | .ignore text => [.ignored text]
  | .find collection options => [.find collection options.filter.toJson]
  | .insert collection d _ => [.insert collection d.size]
  | .update collection filter _ => [.update collection filter.toJson]
  | .delete collection filter => [.delete collection filter.toJson]
  | .probe _ => []
  | .createIndex collection index => [.createIndex index.name collection]

def ask {α : Type} (operation : Operation σ α) (s : σ) (result : α → QueryResult)
    (events : List Log.Event) : Execution σ :=
  match operation s with
  | (.ok a, s) => ⟨.ok (result a), s, events⟩
  | (.error e, s) => ⟨.error (.store e), s, events⟩

/-- An index whose name is taken already counts as created. -/
def askForIndex (operation : Operation σ Unit) (s : σ) (events : List Log.Event) : Execution σ :=
  let done : Except QueryError QueryResult := .ok { command := .createIndex }
  match operation s with
  | (.ok (), s) => ⟨done, s, events⟩
  | (.error (.indexExists name), s) => ⟨done, s, events ++ [.indexPresent name]⟩
  | (.error e, s) => ⟨.error (.store e), s, events⟩

def askWhether (operation : Operation σ Bool) (collection : String) (s : σ) : Execution σ :=
  match operation s with
  | (.ok present, s) => ⟨.ok { command := .createTable }, s, [.probed collection present]⟩
  | (.error e, s) => ⟨.error (.store e), s, []⟩

/-- `fresh` is the identifier for a document that comes without one. -/
def run (store : DocumentStore σ) (fresh : Uuid) (plan : Plan) (s : σ) : Execution σ :=
  let events := announcement plan
  match plan with
  | .acceptTable _ => ⟨.ok { command := .alterTable }, s, events⟩
  | .acceptInert _ => ⟨.ok { command := .inert }, s, events⟩
  | .ignore _ => ⟨.ok { command := .ignored }, s, events⟩
  | .find collection options =>
    ask (store.find collection options) s
      (fun found => .ofRows .select
        (found.map fun d => Row.ofDocument (fillMissing options.projection d))) events
  | .insert collection d returning =>
    ask (store.insert fresh collection d) s
      (fun inserted =>
        { command := .insert, rows := returnedRows inserted.document returning, rowCount := 1
          insertedId := some inserted.id }) events
  | .update collection filter set =>
    ask (store.update collection filter set) s
      (fun updated => .affected .update (updated.modified.getD 0)) events
  | .delete collection filter =>
    ask (store.delete collection filter) s
      (fun deleted => .affected .delete (deleted.deleted.getD 0)) events
  | .probe collection => askWhether (store.collectionExists collection) collection s
  | .createIndex collection index => askForIndex (store.createIndex collection index) s events

def execute (store : DocumentStore σ) (policy : Policy) (fresh : Uuid) (params : List Value)
    (statement : Statement) (s : σ) : Execution σ :=
  match Plan.ofStatement policy params statement with
  | .error e => ⟨.error e, s, []⟩
  | .ok plan => run store fresh plan s

def query (store : DocumentStore σ) (policy : Policy) (moment : Moment) (text : String)
    (params : List Value) (s : σ) : Execution σ :=
  match Statement.parse moment text with
  | .error e => ⟨.error (.parse e), s, []⟩
  | .ok statement =>
    let execution := execute store policy (moment.fresh 0) params statement s
    { execution with
      events := .statement statement.kind statement.collection? :: execution.events }

end Engine

end DocumentSql
