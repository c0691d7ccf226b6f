import DocumentSql.Engine
import DocumentSql.Toml.Reader
/- The configuration file. -/

namespace DocumentSql

inductive BackendKind
  | memory
  | postgres
deriving DecidableEq, Repr

structure BackendConfig where
  kind : BackendKind := .memory
  databaseUrl : Option String := none
  fixture : Option String := none
deriving DecidableEq, Repr

/-- `logFilter` holds log directives, used when the environment has none. -/
structure Config where
  strict : Bool := false
  logFilter : Option String := none
  backend : BackendConfig := {}
deriving DecidableEq, Repr

namespace BackendKind

def ofName? : String → Option BackendKind
  | "memory" => some memory
  | "postgres" => some postgres
  | _ => none

/-- A name, or a table with the name as its only key and nothing below it. -/
def ofToml? : Toml → Option BackendKind
  | .text name => ofName? name
  | .table _ [(name, content)] => if content.isVoid then ofName? name else none
  | _ => none

end BackendKind

namespace BackendConfig

def setField (config : BackendConfig) : String × Toml → Option BackendConfig
  | ("kind", value) => (BackendKind.ofToml? value).map fun kind => { config with kind }
  | ("database_url", .text url) => some { config with databaseUrl := some url }
  | ("fixture", .text path) => some { config with fixture := some path }
  | _ => none

/-- The values of the fields in their order; any more than these are not looked at. -/
def ofItems? (items : List Toml) : Option BackendConfig :=
  (["kind", "database_url", "fixture"].zip items).foldlM setField {}

/-- A table, or the values of its fields in their order. -/
def ofToml? : Toml → Option BackendConfig
  | .table _ fields => fields.foldlM setField {}
  | .array items => ofItems? items
  | .tables items => ofItems? (items.map (.table .headed))
  | _ => none

end BackendConfig

namespace Config

def setField (config : Config) : String × Toml → Option Config
  | ("strict", .bool strict) => some { config with strict }
  | ("log_filter", .text filter) => some { config with logFilter := some filter }
  | ("backend", value) => (BackendConfig.ofToml? value).map fun backend => { config with backend }
  | _ => none

/-- None for a text that is malformed, has an unknown field or a value of the wrong sort. -/
def ofText? (text : String) : Option Config :=
  (Toml.ofText? text).bind fun fields => fields.foldlM setField {}

def policy (config : Config) : Policy := ⟨config.strict⟩

end Config

end DocumentSql
