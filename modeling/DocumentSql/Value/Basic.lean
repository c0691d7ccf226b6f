import DocumentSql.Instant
import DocumentSql.Json.Basic
import DocumentSql.Uuid
/- Typed values: what documents hold, parameters bind and rows return. -/

namespace DocumentSql

inductive Value
  | null
  | bool (value : Bool)
  | number (value : Binary64)
  | text (value : String)
  | timestamp (value : Instant)
  | id (value : Uuid)
deriving DecidableEq

namespace Value

instance : Inhabited Value := ⟨null⟩

def isNull : Value → Bool
  | null => true
  | _ => false

def asText? : Value → Option String
  | text value => some value
  | _ => none

def asNumber? : Value → Option Binary64
  | number value => some value
  | _ => none

def asTimestamp? : Value → Option Instant
  | timestamp value => some value
  | _ => none

def kind : Value → String
  | null => "null"
  | bool _ => "bool"
  | number _ => "number"
  | text _ => "text"
  | timestamp _ => "timestamp"
  | id _ => "id"

/-- Values of one kind are ordered, except for `nan`; an identifier also compares with a text, by
its own text. Values of other kinds are not comparable. -/
def compare? : Value → Value → Option Ordering
  | null, null => some .eq
  | bool a, bool b => some (compare a b)
  | number a, number b => a.compare? b
  | text a, text b => some (compare a b)
  | timestamp a, timestamp b => some (a.compare b)
  | id a, id b => some (a.compare b)
  | id a, text b => some (compare a.text b)
  | text a, id b => some (compare a b.text)
  | _, _ => none

/-- Equality in queries. -/
def agrees (a b : Value) : Bool := a.compare? b == some .eq

/-- Whether storing `b` in place of `a` changes nothing: an identifier differs from its text here,
and `nan` from itself. -/
def unchanged : Value → Value → Bool
  | null, null => true
  | bool a, bool b => a == b
  | number a, number b => a.same b
  | text a, text b => a == b
  | timestamp a, timestamp b => a == b
  | id a, id b => a == b
  | _, _ => false

def display : Value → String
  | null => "NULL"
  | bool value => if value then "true" else "false"
  | number value => value.text
  | text value => value
  | timestamp value => value.text
  | id value => value.text

/-- Numbers that no JSON number can write become null. -/
def numberJson (x : Binary64) : Json :=
  match x.exactInt?, x with
  | some i, _ => .integer i
  | none, .finite .. => .number x
  | none, _ => .null

def toJson : Value → Json
  | null => .null
  | bool value => .bool value
  | number value => numberJson value
  | text value => .text value
  | timestamp value => .text value.text
  | id value => .text value.text

/-- In a filter document timestamps are tagged. -/
def toFilterJson : Value → Json
  | timestamp value => .object [("$date", .text value.text)]
  | value => value.toJson

/-- JSON scalars; arrays and objects have no value. -/
def ofJson? : Json → Option Value
  | .null => some null
  | .bool value => some (bool value)
  | .integer value => some (number (Binary64.ofInt value))
  | .number value => some (number value)
  | .text value => some (text value)
  | .array _ | .object _ => none

end Value

end DocumentSql
