import DocumentSql.NameMap
import DocumentSql.Number.Notation
/- JSON trees and their two texts, compact and indented. -/

namespace DocumentSql

/-- Objects keep their fields in written order; `Fields.insert` enters them by name. -/
inductive Json
  | null
  | bool (value : Bool)
  | integer (value : Int)
  | number (value : Binary64)
  | text (value : String)
  | array (items : List Json)
  | object (fields : List (String × Json))

namespace Json

instance : Inhabited Json := ⟨null⟩

/-- Only the quote, the backslash and the control characters below the blank are escaped. -/
def escape (c : Char) : List Char :=
  if c = '"' then ['\\', '"']
  else if c = '\\' then ['\\', '\\']
  else if c = '\n' then ['\\', 'n']
  else if c = '\r' then ['\\', 'r']
  else if c = '\t' then ['\\', 't']
  else if c.toNat = 0x8 then ['\\', 'b']
  else if c.toNat = 0xC then ['\\', 'f']
  else if c.toNat < 0x20 then '\\' :: 'u' :: Text.hexDigits c.toNat 4
  else [c]

def quote (s : String) : String := String.ofList ('"' :: s.toList.flatMap escape ++ ['"'])

def scalarText : Json → String
  | bool value => if value then "true" else "false"
  | integer value => toString value
  | number value => value.jsonText
  | text value => quote value
  | _ => "null"

mutual

/-- Without any blank. -/
def compact : Json → String
  | array items => "[" ++ String.intercalate "," (compactItems items) ++ "]"
  | object fields => "\x7b" ++ String.intercalate "," (compactFields fields) ++ "\x7d"
  | scalar => scalar.scalarText

def compactItems : List Json → List String
  | [] => []
  | item :: rest => item.compact :: compactItems rest

def compactFields : List (String × Json) → List String
  | [] => []
  | (name, value) :: rest => (quote name ++ ":" ++ value.compact) :: compactFields rest

end

def block (opening closing margin : String) (entries : List String) : String :=
  if entries.isEmpty then opening ++ closing
  else opening ++ "\n" ++ String.intercalate ",\n" entries ++ "\n" ++ margin ++ closing

mutual

/-- Two blanks of indentation for each level; `margin` is that of the current line. -/
def indented (margin : String) : Json → String
  | array items => block "[" "]" margin (indentedItems (margin ++ "  ") items)
  | object fields => block "\x7b" "\x7d" margin (indentedFields (margin ++ "  ") fields)
  | scalar => scalar.scalarText

def indentedItems (margin : String) : List Json → List String
  | [] => []
  | item :: rest => (margin ++ item.indented margin) :: indentedItems margin rest

def indentedFields (margin : String) : List (String × Json) → List String
  | [] => []
  | (name, value) :: rest =>
    (margin ++ quote name ++ ": " ++ value.indented margin) :: indentedFields margin rest

end

def pretty (j : Json) : String := j.indented ""

end Json

end DocumentSql
