import DocumentSql.Value.Source
/- Parsed statements. -/

namespace DocumentSql

inductive Comparison
  | eq
  | ne
  | le
  | ge
  | lt
  | gt
deriving DecidableEq, Repr

namespace Comparison

def text : Comparison → String
  | eq => "="
  | ne => "!="
  | le => "<="
  | ge => ">="
  | lt => "<"
  | gt => ">"

end Comparison

/-- One condition of a `WHERE` clause. Only the last two forms have an operand. -/
inductive Predicate
  | isNull (field : String)
  | isNotNull (field : String)
  | like (field : String) (pattern : ValueSource)
  | compare (field : String) (comparison : Comparison) (operand : ValueSource)
deriving DecidableEq

namespace Predicate

def field : Predicate → String
  | isNull field | isNotNull field | like field _ | compare field _ _ => field

def operand? : Predicate → Option ValueSource
  | isNull _ | isNotNull _ => none
  | like _ source | compare _ _ source => some source

def operatorText : Predicate → String
  | isNull _ => "IS NULL"
  | isNotNull _ => "IS NOT NULL"
  | like _ _ => "LIKE"
  | compare _ comparison _ => comparison.text

def isUnary (p : Predicate) : Bool := p.operand?.isNone

def text (p : Predicate) : String :=
  let test := p.field ++ " " ++ p.operatorText
  match p.operand? with
  | some source => test ++ " " ++ source.text
  | none => test

end Predicate

inductive SortOrder
  | asc
  | desc
deriving DecidableEq, Repr

namespace SortOrder

/-- As document stores write it: 1 upwards, -1 downwards. -/
def direction : SortOrder → Int
  | asc => 1
  | desc => -1

end SortOrder

structure OrderBy where
  field : String
  order : SortOrder
deriving DecidableEq, Repr

/-- An empty projection stands for all fields. -/
structure Select where
  collection : String
  projection : List String
  predicates : List Predicate
  orderBy : Option OrderBy
  limit : Option Nat
  offset : Option Nat
deriving DecidableEq

/-- `returning` is absent without the clause and empty for `RETURNING *`. -/
structure Insert where
  collection : String
  fields : List (String × ValueSource)
  returning : Option (List String)
deriving DecidableEq

structure Update where
  collection : String
  assignments : List (String × ValueSource)
  predicates : List Predicate
deriving DecidableEq

structure Delete where
  collection : String
  predicates : List Predicate
deriving DecidableEq

structure CreateTable where
  collection : String
  ifNotExists : Bool
deriving DecidableEq, Repr

structure CreateIndex where
  indexName : String
  collection : String
  fields : List String
  unique : Bool
  ifNotExists : Bool
deriving DecidableEq, Repr

inductive InertKind
  | block
  | begin
  | commit
  | rollback
deriving DecidableEq, Repr

inductive Statement
  | select (s : Select)
  | insert (s : Insert)
  | update (s : Update)
  | delete (s : Delete)
  | createTable (s : CreateTable)
  | createIndex (s : CreateIndex)
  | alterTable (collection : String)
  | inert (kind : InertKind)
  | unsupported (text : String)
deriving DecidableEq

inductive StatementKind
  | select
  | insert
  | update
  | delete
  | createTable
  | createIndex
  | alterTable
  | inert (kind : InertKind)
  | unsupported
deriving DecidableEq, Repr

namespace InertKind

def text : InertKind → String
  | block => "DO"
  | begin => "BEGIN"
  | commit => "COMMIT"
  | rollback => "ROLLBACK"

end InertKind

namespace StatementKind

def text : StatementKind → String
  | select => "SELECT"
  | insert => "INSERT"
  | update => "UPDATE"
  | delete => "DELETE"
  | createTable => "CREATE TABLE"
  | createIndex => "CREATE INDEX"
  | alterTable => "ALTER TABLE"
  | inert kind => kind.text
  | unsupported => "UNSUPPORTED"

end StatementKind

namespace Statement

def kind : Statement → StatementKind
  | select _ => .select
  | insert _ => .insert
  | update _ => .update
  | delete _ => .delete
  | createTable _ => .createTable
  | createIndex _ => .createIndex
  | alterTable _ => .alterTable
  | inert kind => .inert kind
  | unsupported _ => .unsupported

def collection? : Statement → Option String
  | select s => some s.collection
  | insert s => some s.collection
  | update s => some s.collection
  | delete s => some s.collection
  | createTable s => some s.collection
  | createIndex s => some s.collection
  | alterTable collection => some collection
  | inert _ | unsupported _ => none

def predicates : Statement → List Predicate
  | select s => s.predicates
  | update s => s.predicates
  | delete s => s.predicates
  | _ => []

end Statement

end DocumentSql
