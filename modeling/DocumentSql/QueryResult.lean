import DocumentSql.Row
import DocumentSql.Statement
/- What a statement gives back. -/

namespace DocumentSql

/-- The operation behind a result. `passthrough` is a statement that a relational server ran as it
was, without its kind being known. -/
inductive CommandTag
  | select
  | insert
  | update
  | delete
  | createTable
  | createIndex
  | alterTable
  | inert
  | ignored
  | passthrough
deriving DecidableEq, Repr

namespace CommandTag

def text : CommandTag → String
  | select => "SELECT"
  | insert => "INSERT"
  | update => "UPDATE"
  | delete => "DELETE"
  | createTable => "CREATE TABLE"
  | createIndex => "CREATE INDEX"
  | alterTable => "ALTER TABLE"
  | inert => "INERT"
  | ignored => "IGNORED"
  | passthrough => "PASSTHROUGH"

def jsonName : CommandTag → String
  | select => "select"
  | insert => "insert"
  | update => "update"
  | delete => "delete"
  | createTable => "create_table"
  | createIndex => "create_index"
  | alterTable => "alter_table"
  | inert => "inert"
  | ignored => "ignored"
  | passthrough => "passthrough"

def ofKind : StatementKind → CommandTag
  | .select => select
  | .insert => insert
  | .update => update
  | .delete => delete
  | .createTable => createTable
  | .createIndex => createIndex
  | .alterTable => alterTable
  | .inert _ => inert
  | .unsupported => passthrough

end CommandTag

/-- `rowCount` counts returned rows for reads and affected documents for writes. -/
structure QueryResult where
  command : CommandTag
  rows : List Row := []
  rowCount : Nat := 0
  insertedId : Option Value := none

namespace QueryResult

/-- Row counts stop at the greatest number of 32 bits. -/
def saturate (n : Nat) : Nat := min n (twoTo 32 - 1)

def ofRows (command : CommandTag) (rows : List Row) : QueryResult :=
  { command, rows, rowCount := saturate rows.length }

def affected (command : CommandTag) (count : Nat) : QueryResult :=
  { command, rowCount := saturate count }

def isInert (r : QueryResult) : Bool := r.command == .inert || r.command == .alterTable

def isIgnored (r : QueryResult) : Bool := r.command == .ignored

def toJson (r : QueryResult) : Json :=
  .object <|
    [("rows", .array (r.rows.map Row.toJson)), ("rowCount", .integer r.rowCount),
      ("command", .text r.command.jsonName)] ++
    match r.insertedId with
    | some id => [("insertedId", id.toJson)]
    | none => []

end QueryResult

end DocumentSql
