import DocumentSql.NameCase
import DocumentSql.Store.Request
/-
Result rows. A row shows each field under both of its spellings, so that callers may ask for
`created_at` or `createdAt`.
-/

namespace DocumentSql

abbrev Row := NameMap Value

namespace Row

/-- Adds each field under its other spelling as well, except where that name is taken. -/
def withAliases (spelling : String → String) (fields : NameMap Value) : Row :=
  fields.fields.foldl
    (fun row (name, value) =>
      if spelling name = name then row else row.insertIfNew (spelling name) value)
    fields

def ofDocument (d : Document) : Row := withAliases NameCase.callerName d

def ofColumns (columns : NameMap Value) : Row := withAliases NameCase.storeName columns

def toJson (row : Row) : Json :=
  .object (row.fields.map fun (name, value) => (name, value.toJson))

end Row

end DocumentSql
