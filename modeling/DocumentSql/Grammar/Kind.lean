import DocumentSql.Grammar.Token
import DocumentSql.Statement
/- The kind of a statement, from its first words. -/

namespace DocumentSql.StatementKind

def leadingWords : Nat → List Char → List String
  | 0, _ => []
  | count + 1, s =>
    match Token.word s with
    | some (w, rest) => String.ofList (Text.lower w) :: leadingWords count rest
    | none => []

def ofWords : List String → StatementKind
  | "select" :: _ => select
  | "insert" :: _ => insert
  | "update" :: _ => update
  | "delete" :: _ => delete
  | "create" :: "table" :: _ => createTable
  | "create" :: "index" :: _ => createIndex
  | "create" :: "unique" :: "index" :: _ => createIndex
  | "alter" :: "table" :: _ => alterTable
  | "do" :: _ => inert .block
  | "begin" :: _ => inert .begin
  | "start" :: "transaction" :: _ => inert .begin
  | "commit" :: _ => inert .commit
  | "end" :: _ => inert .commit
  | "rollback" :: _ => inert .rollback
  | "abort" :: _ => inert .rollback
  | _ => unsupported

/-- Never fails: a statement of no known kind is unsupported. -/
def ofText (text : List Char) : StatementKind := ofWords (leadingWords 3 text)

end DocumentSql.StatementKind
