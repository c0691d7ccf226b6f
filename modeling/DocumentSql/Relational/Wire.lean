import DocumentSql.Text.Bytes
import DocumentSql.Value.Basic
/-
What passes between a client and a relational server: statements with bound parameters one way,
rows of typed cells or a refusal the other way.
-/

namespace DocumentSql

/-- A parameter as the server receives it. Instants are microseconds from the server's epoch. -/
inductive Bound
  | null
  | bool (value : Bool)
  | int8 (value : Int)
  | float8 (value : Binary64)
  | text (value : String)
  | timestamptz (microseconds : Int)
  | uuid (value : Uuid)
deriving DecidableEq

namespace Bound

/-- A null has no type of its own and goes as a text. -/
def typeName : Bound → String
  | null => "TEXT"
  | bool _ => "BOOL"
  | int8 _ => "INT8"
  | float8 _ => "FLOAT8"
  | text _ => "TEXT"
  | timestamptz _ => "TIMESTAMPTZ"
  | uuid _ => "UUID"

def text? : Bound → Option String
  | null => none
  | bool value => some (if value then "true" else "false")
  | int8 value => some (toString value)
  | float8 value => some value.plainText
  | text value => some value
  | timestamptz microseconds => some (Instant.ofServerMicroseconds microseconds).microsecondText
  | uuid value => some value.text

/-- Numbers without a fraction go as integers where 64 bits hold them. -/
def ofNumber (x : Binary64) : Bound :=
  match x.toInt?.filter fun i => i.natAbs < twoTo 63 with
  | some i => int8 i
  | none => float8 x

def ofValue : Value → Bound
  | .null => null
  | .bool value => bool value
  | .number value => ofNumber value
  | .text value => text value
  | .timestamp value => timestamptz value.serverMicroseconds
  | .id value => uuid value

end Bound

structure SentStatement where
  text : String
  parameters : List Bound
deriving DecidableEq

inductive Cell
  | null
  | bool (value : Bool)
  | integer (value : Int)
  | float (value : Binary64)
  | timestamp (microseconds : Int)
  | uuid (value : Uuid)
  | text (value : String)
deriving DecidableEq

namespace Cell

def unsigned (bytes : List UInt8) : Nat := bytes.foldl (fun n b => 256 * n + b.toNat) 0

/-- The same number with the first bit as its sign. -/
def signed (bytes : List UInt8) : Int :=
  let n := unsigned bytes
  if 2 * n < twoTo (8 * bytes.length) then n else n - twoTo (8 * bytes.length)

def textTypes : List String := ["TEXT", "VARCHAR", "BPCHAR", "NAME", "UNKNOWN"]

/-- A cell by the name of its type and its binary form. More bytes than the type has do not count,
except for identifiers; what cannot be read is null. -/
def ofBytes (typeName : String) (bytes : List UInt8) : Cell :=
  match typeName with
  | "BOOL" => bool (bytes.head? ≠ some 0)
  | "INT2" => integer (signed (bytes.take 2))
  | "INT4" => integer (signed (bytes.take 4))
  | "INT8" => integer (signed (bytes.take 8))
  | "FLOAT4" => float (.ofBits 8 23 (unsigned (bytes.take 4)))
  | "FLOAT8" => float (.ofBits 11 52 (unsigned (bytes.take 8)))
  | "TIMESTAMP" => timestamp (signed (bytes.take 8))
  | "TIMESTAMPTZ" => timestamp (signed (bytes.take 8))
  | "UUID" =>
    if bytes.length = 16 then uuid ⟨BitVec.ofNat 128 (unsigned bytes)⟩ else null
  | _ =>
    if textTypes.contains typeName then
      match Text.decode bytes with
      | .ok s => text (String.ofList s)
      | .error _ => null
    else null

/-- Reads a cell by the name of its column's type. What does not fit, and every type without a
reading of its own that is no text, reads as null. -/
def toValue (typeName : String) (cell : Cell) : Value :=
  match typeName, cell with
  | "BOOL", bool value => .bool value
  | "INT2", integer value | "INT4", integer value | "INT8", integer value =>
    .number (Binary64.ofInt value)
  | "FLOAT4", float value | "FLOAT8", float value => .number value
  | "TIMESTAMP", timestamp microseconds | "TIMESTAMPTZ", timestamp microseconds =>
    .timestamp (Instant.ofServerMicroseconds microseconds)
  | "UUID", uuid value => .id value
  | _, text value => if textTypes.contains typeName then .text value else .null
  | _, _ => .null

end Cell

structure Column where
  name : String
  typeName : String
deriving DecidableEq, Repr

structure ResultSet where
  columns : List Column := []
  rows : List (List Cell) := []
  affected : Nat := 0

namespace ResultSet

/-- Of two columns with one name the later counts. -/
def readRow (columns : List Column) (cells : List Cell) : NameMap Value :=
  .ofList ((columns.zip cells).map fun (column, cell) =>
    (column.name, cell.toValue column.typeName))

def readRows (r : ResultSet) : List (NameMap Value) := r.rows.map (readRow r.columns)

end ResultSet

/-- A refusal by the server, with its code of five characters. -/
structure DatabaseError where
  code : String
  message : String
  table : Option String
  constraint : Option String
deriving DecidableEq, Repr

/-- A server is any state that answers statements. -/
structure RelationalServer (σ : Type) where
  run : SentStatement → σ → Except DatabaseError ResultSet × σ

/-- A server that gives prepared answers in turn and notes what it receives. -/
structure ScriptedServer where
  replies : List (Except DatabaseError ResultSet)
  received : List SentStatement := []

namespace ScriptedServer

def respond (statement : SentStatement) (s : ScriptedServer) :
    Except DatabaseError ResultSet × ScriptedServer :=
  let received := s.received ++ [statement]
  match s.replies with
  | [] => (.ok {}, ⟨[], received⟩)
  | reply :: replies => (reply, ⟨replies, received⟩)

def server : RelationalServer ScriptedServer := ⟨respond⟩

end ScriptedServer

end DocumentSql
