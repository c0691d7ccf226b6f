import DocumentSql.Filter
import DocumentSql.Text.Quoted
/- Log events and their wording. -/

namespace DocumentSql

namespace Log

inductive Level
  | error
  | warn
  | info
  | debug
  | trace
deriving DecidableEq, Repr

namespace Level

def text : Level → String
  | error => "ERROR"
  | warn => "WARN"
  | info => "INFO"
  | debug => "DEBUG"
  | trace => "TRACE"

/-- How much a level lets through: 1 for errors alone, up to 5 for all. -/
def verbosity : Level → Nat
  | error => 1
  | warn => 2
  | info => 3
  | debug => 4
  | trace => 5

end Level

inductive Event
  | statement (kind : StatementKind) (collection : Option String)
  | find (collection : String) (filter : Json)
  | insert (collection : String) (fieldCount : Nat)
  | update (collection : String) (filter : Json)
  | delete (collection : String) (filter : Json)
  | probed (collection : String) (present : Bool)
  | createIndex (name collection : String)
  | indexPresent (name : String)
  | tableAccepted (collection : String)
  | inertAccepted (kind : InertKind)
  | ignored (text : String)
  | passedThrough (kind : StatementKind) (parameterCount : Nat)
  | serverIndexPresent (message : String)

/-- Characters that a terminal may act on are shown by their code; line ends stay. -/
def escapeControl (c : Char) : List Char :=
  let n := c.toNat
  if n == 0x7 || n == 0x8 || n == 0xC || n == 0x1B || n == 0x7F then
    '\\' :: 'x' :: Text.hexDigits n 2
  else if 0x80 ≤ n && n ≤ 0x9F then
    '\\' :: 'u' :: '\x7b' :: Nat.toDigits 16 n ++ ['\x7d']
  else [c]

namespace Event

def level : Event → Level
  | tableAccepted _ | inertAccepted _ => .info
  | ignored _ => .warn
  | _ => .debug

def source : Event → String
  | passedThrough _ _ | serverIndexPresent _ => "sqlshim::relational"
  | _ => "sqlshim::engine"

def wording : Event → String
  | statement kind collection =>
    let target := match collection with
      | some name => "Some(" ++ Text.quote name ++ ")"
      | none => "None"
    kind.text ++ " statement on " ++ target
  | find collection filter => "find " ++ collection ++ " where " ++ filter.compact
  | insert collection count => "insert into " ++ collection ++ " (" ++ toString count ++ " fields)"
  | update collection filter => "update " ++ collection ++ " where " ++ filter.compact
  | delete collection filter => "delete from " ++ collection ++ " where " ++ filter.compact
  | probed collection present =>
    "collection " ++ collection ++ " exists: " ++ (if present then "true" else "false")
  | createIndex name collection => "create index " ++ name ++ " on " ++ collection
  | indexPresent name => "index " ++ name ++ " already exists"
  | tableAccepted collection => "ALTER TABLE " ++ collection ++ " accepted without changes"
  | inertAccepted kind => kind.text ++ " accepted without changes"
  | ignored skipped => "Ignoring unsupported statement: " ++ skipped
  | passedThrough kind count =>
    kind.text ++ " passed through to postgres (" ++ toString count ++ " params)"
  | serverIndexPresent message => "index already exists: " ++ message

/-- The wording, harmless to a terminal. -/
def message (e : Event) : String := String.ofList (e.wording.toList.flatMap escapeControl)

end Event

end Log

end DocumentSql
