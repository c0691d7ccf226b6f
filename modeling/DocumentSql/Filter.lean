import DocumentSql.NameCase
import DocumentSql.Pattern.Like
import DocumentSql.Statement
/-
Filters: conditions on the fields of a document, all of which must hold, and their rendering as
one JSON document in which the conditions on a field share an object of operators.
-/

namespace DocumentSql

/-- The value of a `regex` condition is the text of the expression. -/
inductive FilterOperator
  | eq
  | ne
  | lt
  | lte
  | gt
  | gte
  | regex
deriving DecidableEq, Repr

namespace FilterOperator

def name : FilterOperator → String
  | eq => "$eq"
  | ne => "$ne"
  | lt => "$lt"
  | lte => "$lte"
  | gt => "$gt"
  | gte => "$gte"
  | regex => "$regex"

def ofComparison : Comparison → FilterOperator
  | .eq => eq
  | .ne => ne
  | .le => lte
  | .ge => gte
  | .lt => lt
  | .gt => gt

end FilterOperator

/-- A test of a field under its store name. -/
structure Condition where
  field : String
  operator : FilterOperator
  value : Value
deriving DecidableEq

abbrev Filter := List Condition

namespace Condition

/-- A pattern that is no text is taken by its display. -/
def likeValue (pattern : Value) : Value :=
  .text (String.ofList (Like.regexText pattern.display.toList))

def ofPredicate (params : List Value) : Predicate → Except ParameterError Condition
  | .isNull field => .ok ⟨NameCase.storeName field, .eq, .null⟩
  | .isNotNull field => .ok ⟨NameCase.storeName field, .ne, .null⟩
  | .like field pattern => do
    return ⟨NameCase.storeName field, .regex, likeValue (← pattern.resolve params)⟩
  | .compare field comparison operand => do
    return ⟨NameCase.storeName field, .ofComparison comparison, ← operand.resolve params⟩

end Condition

namespace Filter

/-- The first parameter that is missing is the error. -/
def ofPredicates (params : List Value) (predicates : List Predicate) :
    Except ParameterError Filter :=
  predicates.mapM (Condition.ofPredicate params)

/-- Enters an operator; a regular expression brings its options along. -/
def insertOperator (operators : List (String × Json)) (operator : FilterOperator) (value : Json) :
    List (String × Json) :=
  let operators := Fields.insert operators operator.name value
  match operator with
  | .regex => Fields.insert operators "$options" (.text "is")
  | _ => operators

def startsWithDollar (name : String) : Bool := name.toList.head? == some '$'

def isOperatorObject (fields : List (String × Json)) : Bool :=
  !fields.isEmpty && fields.all fun field => startsWithDollar field.1

/-- The entry of a field after one more condition. A first equality is the bare value; from the
second condition on there is an object of operators. -/
def mergeEntry (entry : Option Json) (operator : FilterOperator) (value : Json) : Json :=
  match entry, operator with
  | none, .eq => value
  | none, operator => .object (insertOperator [] operator value)
  | some (.object fields), operator =>
    if isOperatorObject fields then .object (insertOperator fields operator value)
    else .object (insertOperator [("$eq", .object fields)] operator value)
  | some earlier, operator => .object (insertOperator [("$eq", earlier)] operator value)

def addCondition (document : NameMap Json) (condition : Condition) : NameMap Json :=
  document.insert condition.field
    (mergeEntry (document.get? condition.field) condition.operator condition.value.toFilterJson)

def document (filter : Filter) : NameMap Json := filter.foldl addCondition .empty

def toJson (filter : Filter) : Json := .object (document filter).fields

end Filter

/-- Assigned fields under their store names, in written order. -/
def resolveFields (params : List Value) (fields : List (String × ValueSource)) :
    Except ParameterError (List (String × Value)) :=
  fields.mapM fun (field, source) => do
    return (NameCase.storeName field, ← source.resolve params)

end DocumentSql
