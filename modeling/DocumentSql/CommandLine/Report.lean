import DocumentSql.CommandLine.Arguments
import DocumentSql.CommandLine.Table
import DocumentSql.Engine
/- What the command line prints about results and statements. -/

namespace DocumentSql.CommandLine

/-- A piece of output, in the order in which it is written. -/
inductive Output
  | out (line : String)
  | err (line : String)
  | log (event : Log.Event)

def rowLines (rows : List Row) : List String :=
  tableLines rows ++ ["", toString rows.length ++ " row(s) returned"]

def affectedLines (r : QueryResult) : List String :=
  (if r.rows.isEmpty then [] else rowLines r.rows) ++
    ["✓ " ++ r.command.text ++ ": " ++ toString r.rowCount ++ " row(s) affected"] ++
    match r.insertedId with
    | some id => ["  id: " ++ id.display]
    | none => []

def resultLines (r : QueryResult) : List String :=
  match r.command with
  | .select => if r.rows.isEmpty then ["(no results)"] else rowLines r.rows
  | .passthrough => if r.rows.isEmpty then affectedLines r else rowLines r.rows
  | .ignored => ["⚠ Unsupported statement ignored"]
  | .inert | .alterTable => ["✓ " ++ r.command.text ++ " (no changes)"]
  | _ => affectedLines r

def formatResult (format : OutputFormat) (r : QueryResult) : List String :=
  match format with
  | .json => [r.toJson.pretty]
  | .table => resultLines r

def operationName : Statement → String
  | .select _ => "find"
  | .insert _ => "insertOne"
  | .update _ => "updateMany"
  | .delete _ => "deleteMany"
  | .createTable _ => "collection exists probe"
  | .createIndex _ => "createIndex"
  | .alterTable _ | .inert _ => "none (inert)"
  | .unsupported _ => "none (ignored)"

def orderLines (s : Select) : List String :=
  let sort := s.orderBy.map fun o =>
    let document := Json.object [(NameCase.storeName o.field, .integer o.order.direction)]
    "  Sort: " ++ document.compact
  let skip := s.offset.map fun n => "  Skip: " ++ toString n
  let limit := s.limit.map fun n => "  Limit: " ++ toString n
  sort.toList ++ skip.toList ++ limit.toList

def filterText (params : List Value) (predicates : List Predicate) : String :=
  match Filter.ofPredicates params predicates with
  | .ok filter => filter.toJson.compact
  | .error e => e.message

def predicateLines (params : List Value) (predicates : List Predicate) : List String :=
  if predicates.isEmpty then []
  else "  Predicates:" :: predicates.map (fun p => "    • " ++ p.text) ++
    ["  Filter: " ++ filterText params predicates]

def statementLines (params : List Value) (statement : Statement) : List String :=
  let collection := statement.collection?.map fun name => "  Collection: " ++ name
  let order := match statement with
    | .select s => orderLines s
    | _ => []
  ("  Kind: " ++ statement.kind.text) :: collection.toList ++
    ["  Operation: " ++ operationName statement] ++ order ++
    predicateLines params statement.predicates ++ [""]

def explain (moment : Moment) (params : List Value) (text : String) : List Output :=
  .out ("Statement: " ++ text) ::
    match Statement.parse moment text with
    | .ok statement => (statementLines params statement).map .out
    | .error e => [.err ("Parse Error: " ++ e.message)]

end DocumentSql.CommandLine
