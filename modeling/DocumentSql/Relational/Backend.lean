import DocumentSql.Engine
import DocumentSql.Relational.Wire
/-
Running statements on a relational server as they are. Results have the shape of those of a
document store, so that callers may change between the two.
-/

namespace DocumentSql

namespace DatabaseError

/-- The code of a violated unique constraint. -/
def uniqueViolation : String := "23505"

/-- The code for a relation, such as an index, whose name is taken. -/
def duplicateRelation : String := "42P07"

def toStoreError (e : DatabaseError) : StoreError :=
  if e.code = uniqueViolation then .duplicateKey (e.table.getD "") (e.constraint.getD "")
  else if e.code = duplicateRelation then .indexExists e.message
  else .backend ("error returned from database: " ++ e.message)

end DatabaseError

namespace Relational

variable {σ : Type}

def isWrite : StatementKind → Bool
  | .insert | .update | .delete => true
  | _ => false

/-- Whether the word `RETURNING` occurs anywhere in a text. -/
def mentionsReturning (text : List Char) : Bool :=
  (Text.split (fun c => !Text.isNameChar c) text).any fun piece =>
    Text.lower piece == "returning".toList

/-- Whether the statement is taken to hand rows back. -/
def returnsRows (kind : StatementKind) (text : List Char) : Bool :=
  kind == .select || isWrite kind && mentionsReturning text

def insertedId (kind : StatementKind) (rows : List Row) : Option Value :=
  if kind == .insert then
    rows.head?.bind fun row => (row.get? "id").or (row.get? "_id")
  else none

def rowsResult (kind : StatementKind) (r : ResultSet) : QueryResult :=
  let rows := r.readRows.map Row.ofColumns
  { QueryResult.ofRows (.ofKind kind) rows with insertedId := insertedId kind rows }

/-- Rows that come without being asked for are dropped. -/
def affectedResult (kind : StatementKind) (r : ResultSet) : QueryResult :=
  .affected (.ofKind kind) (if isWrite kind then r.affected else 0)

def failed (e : StoreError) : Except QueryError QueryResult := .error (.store e)

/-- Creating an index whose name is taken counts as done. -/
def settle (kind : StatementKind) (e : StoreError) :
    Except QueryError QueryResult × List Log.Event :=
  match e with
  | .indexExists message =>
    if kind == .createIndex then
      (.ok { command := .createIndex }, [.serverIndexPresent message])
    else (failed e, [])
  | _ => (failed e, [])

def query (server : RelationalServer σ) (text : String) (params : List Value) (s : σ) :
    Execution σ :=
  let kind := StatementKind.ofText text.toList
  let event := Log.Event.passedThrough kind params.length
  let (reply, s) := server.run ⟨text, params.map Bound.ofValue⟩ s
  if returnsRows kind text.toList then
    match reply with
    | .ok r => ⟨.ok (rowsResult kind r), s, [event]⟩
    | .error e => ⟨failed e.toStoreError, s, [event]⟩
  else
    match reply with
    | .ok r => ⟨.ok (affectedResult kind r), s, [event]⟩
    | .error e =>
      let (outcome, events) := settle kind e.toStoreError
      ⟨outcome, s, event :: events⟩

end Relational

end DocumentSql
