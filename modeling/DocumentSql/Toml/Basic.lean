import DocumentSql.NameMap
/-
Configuration trees in TOML: texts, booleans, arrays and tables, with the rules for defining a
table only once.
-/

namespace DocumentSql

namespace Toml

/-- How a table came about, which decides who may still add to it: nobody to an inline table, other
dotted keys to a dotted one, one later header to an implied one, and subtables to a headed one. -/
inductive Origin
  | inline
  | dotted
  | implied
  | headed
deriving DecidableEq, Repr

end Toml

/-- `scalar` is a number, a date or a time. `tables` holds the tables that share a header in double
brackets, at least one. -/
inductive Toml
  | bool (value : Bool)
  | text (value : String)
  | scalar
  | array (items : List Toml)
  | table (origin : Toml.Origin) (fields : List (String × Toml))
  | tables (items : List (List (String × Toml)))

namespace Toml

abbrev Table := List (String × Toml)

def isVoid : Toml → Bool
  | array items => items.isEmpty
  | table _ fields => fields.isEmpty
  | _ => false

/-- Whether a dotted key may go on through a table that is there already, `left` keys before its
end. It adds no value of its own to a table that a header implied. -/
def Origin.admits (origin : Origin) (left : Nat) : Bool :=
  match origin with
  | dotted => true
  | implied => 1 < left
  | inline | headed => false

/-- Enters a value under a dotted key. No key is given a value twice. -/
def insertDotted (value : Toml) : List String → Table → Option Table
  | [], _ => none
  | [key], fields =>
    match Fields.get? fields key with
    | none => some (Fields.insert fields key value)
    | some _ => none
  | key :: path, fields =>
    match Fields.get? fields key with
    | none => (insertDotted value path []).map fun t => Fields.insert fields key (.table .dotted t)
    | some (.table origin t) =>
      if origin.admits path.length then
        (insertDotted value path t).map fun t => Fields.insert fields key (.table origin t)
      else none
    | some (.tables items) =>
      if 1 < path.length then
        (insertDotted value path (items.getLast?.getD [])).map fun t =>
          Fields.insert fields key (.tables (items.dropLast ++ [t]))
      else none
    | some _ => none

abbrev Entries := List (List String × Toml)

def insertAll (entries : Entries) (fields : Table) : Option Table :=
  entries.foldlM (fun fields (path, value) => insertDotted value path fields) fields

/-- What a key stands for after a section of that name. A header in double brackets adds a table to
those of the name. -/
def afterSection (adds : Bool) (entries : Entries) : Option Toml → Option Toml
  | none =>
    (insertAll entries []).map fun t => if adds then .tables [t] else .table .headed t
  | some (.table .implied t) =>
    if adds then none else (insertAll entries t).map (.table .headed)
  | some (.tables items) =>
    if adds then (insertAll entries []).map fun t => .tables (items ++ [t]) else none
  | some _ => none

/-- Enters a section. The tables on the way to it are made if they are missing. -/
def insertSection (adds : Bool) (entries : Entries) : List String → Table → Option Table
  | [], _ => none
  | [key], fields =>
    (afterSection adds entries (Fields.get? fields key)).map fun v => Fields.insert fields key v
  | key :: path, fields =>
    match Fields.get? fields key with
    | none =>
      (insertSection adds entries path []).map fun t => Fields.insert fields key (.table .implied t)
    | some (.table .inline _) => none
    | some (.table origin t) =>
      (insertSection adds entries path t).map fun t => Fields.insert fields key (.table origin t)
    | some (.tables items) =>
      (insertSection adds entries path (items.getLast?.getD [])).map fun t =>
        Fields.insert fields key (.tables (items.dropLast ++ [t]))
    | some _ => none

end Toml

end DocumentSql
