import DocumentSql.Filter
/-
What a document store can be asked. A store is any state with these six operations; an operation
answers or fails, and leaves a state in both cases.
-/

namespace DocumentSql

/-- A document maps store names to values. -/
abbrev Document := NameMap Value

namespace Document

/-- A field that is not there reads as null. -/
def read (d : Document) (field : String) : Value := (d.get? field).getD .null

end Document

/-- An empty projection returns whole documents. -/
structure FindOptions where
  filter : Filter := []
  projection : List String := []
  sort : Option OrderBy := none
  skip : Option Nat := none
  limit : Option Nat := none

/-- An index on the named fields; a unique one keeps any two documents apart in them. -/
structure Index where
  name : String
  keys : List String
  unique : Bool
deriving DecidableEq, Repr

/-- The document as it was stored, and the identifier under which it can be found. -/
structure Inserted where
  id : Value
  document : Document

/-- Counts may be absent if a store does not report them. -/
structure Updated where
  matched : Option Nat
  modified : Option Nat
deriving DecidableEq, Repr

structure Deleted where
  deleted : Option Nat
deriving DecidableEq, Repr

abbrev Operation (σ α : Type) := σ → Except StoreError α × σ

/-- `insert` is given the identifier to use for a document without one; `update` sets fields. -/
structure DocumentStore (σ : Type) where
  find : String → FindOptions → Operation σ (List Document)
  insert : Uuid → String → Document → Operation σ Inserted
  update : String → Filter → Document → Operation σ Updated
  delete : String → Filter → Operation σ Deleted
  createIndex : String → Index → Operation σ Unit
  collectionExists : String → Operation σ Bool

end DocumentSql
