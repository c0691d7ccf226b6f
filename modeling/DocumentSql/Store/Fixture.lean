import DocumentSql.Store.Memory
/- Stores read from JSON: an array of flat objects for each collection. -/

namespace DocumentSql.Store

/-- No identifier is added and no name is changed. -/
def fixtureDocument (collection : String) : Json → Except StoreError Document
  | .object fields => do
    let entries ← fields.mapM fun (name, value) =>
      match Value.ofJson? value with
      | some value => .ok (name, value)
      | none =>
        .error (.backend ("field '" ++ name ++ "' in '" ++ collection ++ "' holds a nested value"))
    return .ofList entries
  | _ => .error (.backend ("documents in '" ++ collection ++ "' must be JSON objects"))

def fixtureCollection (name : String) : Json → Except StoreError Collection
  | .array items => do return { documents := ← items.mapM (fixtureDocument name) }
  | _ => .error (.backend ("fixture collection '" ++ name ++ "' must be an array"))

/-- The first fault in the order of the names is the error. -/
def ofFixture : Json → Except StoreError Store
  | .object fields => do
    let entries ← fields.mapM fun (name, value) => do
      return (name, ← fixtureCollection name value)
    return .ofList entries
  | _ => .error (.backend "fixture must be a JSON object")

end DocumentSql.Store
