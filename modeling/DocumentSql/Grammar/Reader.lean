import DocumentSql.Grammar.Condition
import DocumentSql.Grammar.Kind
/-
Statement readers. What a statement must have is required with `expect`; what it may have is tried
and left out if it is not there.
-/

namespace DocumentSql

open Token

namespace SortOrder

def read (s : List Char) : SortOrder × List Char :=
  match keyword "desc" s with
  | some rest => (.desc, rest)
  | none => (.asc, (optional (keyword "asc") s).2)

end SortOrder

namespace Select

def readOrder (full s : List Char) : Parse (Option OrderBy × List Char) :=
  match keywords ["order", "by"] s with
  | none => .ok (none, s)
  | some rest => do
    let (field, rest) ← expect full rest identifier "field after ORDER BY"
    let (order, rest) := SortOrder.read rest
    return (some ⟨field, order⟩, rest)

/-- One of the two row counts after its keyword, unless it was given before. -/
def readCount (full : List Char) (word what : String) (given : Option Nat) (s : List Char) :
    Parse (Option (Nat × List Char)) :=
  match given, keyword word s with
  | none, some rest => do return some (← expect full rest unsigned what)
  | _, _ => return none

/-- `LIMIT` and `OFFSET` in either order, each at most once. -/
def readPage (full : List Char) :
    Nat → Option Nat → Option Nat → List Char → Parse (Option Nat × Option Nat × List Char)
  | 0, limit, offset, s => return (limit, offset, s)
  | bound + 1, limit, offset, s => do
    match ← readCount full "limit" "row count after LIMIT" limit s with
    | some (n, rest) => readPage full bound (some n) offset rest
    | none =>
      match ← readCount full "offset" "row count after OFFSET" offset s with
      | some (n, rest) => readPage full bound limit (some n) rest
      | none => return (limit, offset, s)

def read (moment : Moment) (full : List Char) : Parse Select := do
  let s ← expectText full full (keyword "select") "SELECT"
  let (projection, s) ← expect full s Token.projection "column list or *"
  let s ← expectText full s (keyword "from") "FROM"
  let (collection, s) ← expect full s identifier "collection name after FROM"
  let (predicates, s) ← whereClause moment full s
  let (orderBy, s) ← readOrder full s
  let (limit, offset, s) ← readPage full 2 none none s
  endOfStatement full s
  return { collection, projection, predicates, orderBy, limit, offset }

end Select

namespace Insert

def readReturning (full s : List Char) : Parse (Option (List String) × List Char) :=
  match keyword "returning" s with
  | none => .ok (none, s)
  | some rest => do
    let (columns, rest) ← expect full rest Token.projection "column list or * after RETURNING"
    return (some columns, rest)

def read (moment : Moment) (full : List Char) : Parse Insert := do
  let s ← expectText full full (keywords ["insert", "into"]) "INSERT INTO"
  let (collection, s) ← expect full s identifier "collection name after INTO"
  let (columns, s) ← expect full s parenIdentifierList "column list"
  let beforeValues ← expectText full s (keyword "values") "VALUES"
  let (values, s) ← expect full beforeValues (parenValueList moment) "value list"
  if columns.length ≠ values.length then
    throw (.faultAt full beforeValues
      (toString columns.length ++ " columns but " ++ toString values.length ++ " values"))
  let (returning, s) ← readReturning full s
  endOfStatement full s
  return { collection, fields := columns.zip values, returning }

end Insert

namespace Update

def assignment (moment : Moment) (s : List Char) : Option ((String × ValueSource) × List Char) :=
  match identifier s with
  | none => none
  | some (field, s) =>
    match symbol "=" s with
    | none => none
    | some s =>
      match Token.value moment s with
      | none => none
      | some (source, rest) => some ((field, source), rest)

/-- One assignment or more; after a comma another one must follow. -/
def assignmentList (moment : Moment) (full : List Char) :
    Nat → List Char → Parse (List (String × ValueSource) × List Char)
  | 0, s => .ok ([], s)
  | bound + 1, s => do
    let (first, rest) ← expect full s (assignment moment) "field = value assignment"
    match symbol "," rest with
    | none => return ([first], rest)
    | some afterComma =>
      let (more, rest) ← assignmentList moment full bound afterComma
      return (first :: more, rest)

def read (moment : Moment) (full : List Char) : Parse Update := do
  let s ← expectText full full (keyword "update") "UPDATE"
  let (collection, s) ← expect full s identifier "collection name after UPDATE"
  let s ← expectText full s (keyword "set") "SET"
  let (assignments, s) ← assignmentList moment full (s.length + 1) s
  let (predicates, s) ← whereClause moment full s
  endOfStatement full s
  return { collection, assignments, predicates }

end Update

namespace Delete

def read (moment : Moment) (full : List Char) : Parse Delete := do
  let s ← expectText full full (keywords ["delete", "from"]) "DELETE FROM"
  let (collection, s) ← expect full s identifier "collection name after FROM"
  let (predicates, s) ← whereClause moment full s
  endOfStatement full s
  return { collection, predicates }

end Delete

namespace CreateTable

/-- The columns are skipped: a document store has nothing to apply them to. -/
def skipColumns (s : List Char) : List Char :=
  match balancedParens s with
  | some (_, rest) => rest
  | none => s

def read (full : List Char) : Parse CreateTable := do
  let s ← expectText full full (keywords ["create", "table"]) "CREATE TABLE"
  let (ifNotExists, s) := optional (keywords ["if", "not", "exists"]) s
  let (collection, s) ← expect full s identifier "collection name after TABLE"
  endOfStatement full (skipColumns s)
  return { collection, ifNotExists }

end CreateTable

namespace CreateIndex

/-- A column and its direction, which is dropped. -/
def column (s : List Char) : Option (String × List Char) :=
  (identifier s).map fun (field, rest) => (field, (SortOrder.read rest).2)

/-- Columns up to the closing parenthesis; after a comma another one must follow. -/
def columnsFrom : Nat → List Char → Option (List String × List Char)
  | 0, _ => none
  | bound + 1, s =>
    match column s with
    | none => none
    | some (field, rest) =>
      match symbol "," rest with
      | some afterComma =>
        (columnsFrom bound afterComma).map fun (fields, rest) => (field :: fields, rest)
      | none => (symbol ")" rest).map fun rest => ([field], rest)

def columns (s : List Char) : Option (List String × List Char) :=
  match symbol "(" s with
  | some rest => columnsFrom (rest.length + 1) rest
  | none => none

def readName (s : List Char) : Option String × List Char :=
  match identifier s with
  | some (name, rest) => (some name, rest)
  | none => (none, s)

/-- An access method is read and dropped. -/
def skipMethod (s : List Char) : List Char :=
  match (keyword "using" s).bind identifier with
  | some (_, rest) => rest
  | none => s

def defaultName (collection : String) (fields : List String) : String :=
  collection ++ "_" ++ String.intercalate "_" fields ++ "_idx"

def read (full : List Char) : Parse CreateIndex := do
  let s ← expectText full full (keyword "create") "CREATE"
  let (unique, s) := optional (keyword "unique") s
  let s ← expectText full s (keyword "index") "INDEX"
  let (ifNotExists, s) := optional (keywords ["if", "not", "exists"]) s
  let (name?, s) := readName s
  let s ← expectText full s (keyword "on") "ON"
  let (collection, s) ← expect full s identifier "collection name after ON"
  let (fields, s) ← expect full (skipMethod s) columns "indexed column list"
  endOfStatement full s
  return {
    indexName := name?.getD (defaultName collection fields)
    collection, fields, unique, ifNotExists }

end CreateIndex

namespace AlterTable

/-- Only the collection is read; what follows it is ignored. -/
def read (full : List Char) : Parse String := do
  let s ← expectText full full (keywords ["alter", "table"]) "ALTER TABLE"
  let (_, s) := optional (keywords ["if", "exists"]) s
  let (_, s) := optional (keyword "only") s
  let (collection, _) ← expect full s identifier "collection name after TABLE"
  return collection

end AlterTable

namespace Statement

/-- Reads the statement of a text without white space at its ends. -/
def ofTrimmed (moment : Moment) (text : List Char) : Parse Statement :=
  match StatementKind.ofText text with
  | .select => (Select.read moment text).map select
  | .insert => (Insert.read moment text).map insert
  | .update => (Update.read moment text).map update
  | .delete => (Delete.read moment text).map delete
  | .createTable => (CreateTable.read text).map createTable
  | .createIndex => (CreateIndex.read text).map createIndex
  | .alterTable => (AlterTable.read text).map alterTable
  | .inert kind => .ok (inert kind)
  | .unsupported => .ok (unsupported (String.ofList text))

/-- Fails only for a malformed statement of a known kind. -/
def parse (moment : Moment) (text : String) : Parse Statement :=
  ofTrimmed moment (Text.trim text.toList)

end Statement

end DocumentSql
