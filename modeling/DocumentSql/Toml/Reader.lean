import DocumentSql.Toml.Basic
import DocumentSql.Toml.Scalar
/- Reading TOML texts. -/

namespace DocumentSql.Toml

namespace Reader

def isSpace (c : Char) : Bool := c == ' ' || c == '\t'

def skipSpace (s : List Char) : List Char := s.dropWhile isSpace

/-- Control characters other than the tab occur nowhere in a text. -/
def isControl (c : Char) : Bool := (c.toNat < 0x20 && c ≠ '\t') || c.toNat == 0x7F

def isBareKeyChar (c : Char) : Bool := Text.isNameChar c || c == '-'

def lineBreak? : List Char → Option (List Char)
  | '\n' :: rest => some rest
  | '\r' :: '\n' :: rest => some rest
  | _ => none

/-- What follows a comment, the line break left in place; none if it holds a control character. -/
def skipComment : List Char → Option (List Char)
  | '#' :: rest =>
    let after := rest.dropWhile fun c => !isControl c
    if after.isEmpty || (lineBreak? after).isSome then some after else none
  | s => some s

/-- Blanks, comments and line breaks between the items of an array. -/
def skipLines : Nat → List Char → Option (List Char)
  | 0, s => some s
  | bound + 1, s =>
    match skipComment (skipSpace s) with
    | none => none
    | some t =>
      match lineBreak? t with
      | some rest => skipLines bound rest
      | none => some t

def escaped : List Char → Option (Char × List Char)
  | 'b' :: rest => some (Char.ofNat 0x8, rest)
  | 't' :: rest => some ('\t', rest)
  | 'n' :: rest => some ('\n', rest)
  | 'f' :: rest => some (Char.ofNat 0xC, rest)
  | 'r' :: rest => some ('\r', rest)
  | '"' :: rest => some ('"', rest)
  | '\\' :: rest => some ('\\', rest)
  | 'u' :: rest => Text.codePoint? 4 rest
  | 'U' :: rest => Text.codePoint? 8 rest
  | _ => none

/-- The text up to the closing quote, after the characters read before, last one first. -/
def basicBody : Nat → List Char → List Char → Option (String × List Char)
  | 0, _, _ => none
  | _ + 1, _, [] => none
  | bound + 1, done, c :: rest =>
    if c = '"' then some (String.ofList done.reverse, rest)
    else if c = '\\' then
      match escaped rest with
      | some (e, rest) => basicBody bound (e :: done) rest
      | none => none
    else if isControl c then none
    else basicBody bound (c :: done) rest

/-- A text between apostrophes has no escapes. -/
def literalBody (s : List Char) : Option (String × List Char) :=
  match s.dropWhile fun c => c ≠ '\'' && !isControl c with
  | '\'' :: rest => some (String.ofList (s.takeWhile fun c => c ≠ '\'' && !isControl c), rest)
  | _ => none

def skipBlankLines : List Char → List Char
  | '\r' :: '\n' :: rest => skipBlankLines rest
  | c :: rest => if isSpace c || c == '\n' then skipBlankLines rest else c :: rest
  | [] => []

/-- What follows a backslash at the end of a line, and the blank lines after it. -/
def foldLine (s : List Char) : Option (List Char) := (lineBreak? (skipSpace s)).map skipBlankLines

/-- Three quotes end a text of several lines, and up to two more before them belong to it. -/
def tripleEnd (quote : Char) (s : List Char) : Option (List Char × List Char) :=
  let quotes := s.takeWhile (· == quote)
  if quotes.length < 3 then none
  else
    let extra := min (quotes.length - 3) 2
    some (List.replicate extra quote, s.drop (3 + extra))

/-- A text of several lines; `quote` says of which of the two sorts. -/
def multilineBody (quote : Char) : Nat → List Char → List Char → Option (String × List Char)
  | 0, _, _ => none
  | _ + 1, _, [] => none
  | bound + 1, done, c :: rest =>
    match tripleEnd quote (c :: rest) with
    | some (extra, rest) => some (String.ofList (done.reverse ++ extra), rest)
    | none =>
      if c = '\\' ∧ quote = '"' then
        match foldLine rest with
        | some rest => multilineBody quote bound done rest
        | none =>
          match escaped rest with
          | some (e, rest) => multilineBody quote bound (e :: done) rest
          | none => none
      else
        match lineBreak? (c :: rest) with
        | some after => multilineBody quote bound ('\n' :: done) after
        | none => if isControl c then none else multilineBody quote bound (c :: done) rest

/-- A line break right after the opening quotes does not count. -/
def multiline (quote : Char) (s : List Char) : Option (String × List Char) :=
  let s := (lineBreak? s).getD s
  multilineBody quote (s.length + 1) [] s

def string? : List Char → Option (String × List Char)
  | '"' :: '"' :: '"' :: rest => multiline '"' rest
  | '\'' :: '\'' :: '\'' :: rest => multiline '\'' rest
  | '"' :: rest => basicBody (rest.length + 1) [] rest
  | '\'' :: rest => literalBody rest
  | _ => none

def simpleKey (s : List Char) : Option (String × List Char) :=
  match s with
  | '"' :: rest => basicBody (rest.length + 1) [] rest
  | '\'' :: rest => literalBody rest
  | s =>
    let name := s.takeWhile isBareKeyChar
    if name.isEmpty then none else some (String.ofList name, s.dropWhile isBareKeyChar)

/-- Keys joined by points, with blanks around them. -/
def keyParts : Nat → List Char → Option (List String × List Char)
  | 0, _ => none
  | bound + 1, s =>
    match simpleKey (skipSpace s) with
    | none => none
    | some (key, rest) =>
      match skipSpace rest with
      | '.' :: rest => (keyParts bound rest).map fun (keys, rest) => (key :: keys, rest)
      | rest => some ([key], rest)

/-- Arrays and tables inside each other, and the parts of a key, are fewer than this. -/
def nestingLimit : Nat := 80

def dottedKey (s : List Char) : Option (List String × List Char) :=
  (keyParts nestingLimit s).filter fun (keys, _) => keys.length < nestingLimit

mutual

/-- A value inside of `depth` arrays and tables. -/
def value (depth : Nat) : Nat → List Char → Option (Toml × List Char)
  | 0, _ => none
  | bound + 1, s =>
    match s with
    | '[' :: rest => if depth + 1 < nestingLimit then items (depth + 1) bound [] rest else none
    | '\x7b' :: rest =>
      if depth + 1 < nestingLimit then
        match skipSpace rest with
        | '\x7d' :: rest => some (.table .inline [], rest)
        | rest => inlineTable (depth + 1) bound [] rest
      else none
    | 't' :: rest => (Text.dropText? "rue".toList rest).map fun rest => (.bool true, rest)
    | 'f' :: rest => (Text.dropText? "alse".toList rest).map fun rest => (.bool false, rest)
    | s =>
      match string? s with
      | some (t, rest) => some (.text t, rest)
      | none => (Scalar.skip? s).map fun rest => (.scalar, rest)

def items (depth : Nat) : Nat → List Toml → List Char → Option (Toml × List Char)
  | 0, _, _ => none
  | bound + 1, done, s =>
    match skipLines s.length s with
    | none => none
    | some (']' :: rest) => some (.array done.reverse, rest)
    | some s =>
      match value depth bound s with
      | none => none
      | some (item, rest) =>
        match skipLines rest.length rest with
        | some (',' :: rest) => items depth bound (item :: done) rest
        | some (']' :: rest) => some (.array (item :: done).reverse, rest)
        | _ => none

/-- The entries of an inline table, on one line and without a last comma. -/
def inlineTable (depth : Nat) : Nat → Table → List Char → Option (Toml × List Char)
  | 0, _, _ => none
  | bound + 1, done, s =>
    match keyValue depth bound s with
    | none => none
    | some (path, item, rest) =>
      match insertDotted item path done, skipSpace rest with
      | some done, ',' :: rest => inlineTable depth bound done rest
      | some done, '\x7d' :: rest => some (.table .inline done, rest)
      | _, _ => none

def keyValue (depth : Nat) : Nat → List Char → Option (List String × Toml × List Char)
  | 0, _ => none
  | bound + 1, s =>
    match dottedKey s with
    | some (path, '=' :: rest) =>
      (value depth bound (skipSpace rest)).map fun (item, rest) => (path, item, rest)
    | _ => none

end

def endOfLine (s : List Char) : Option (List Char) :=
  match skipComment (skipSpace s) with
  | none => none
  | some [] => some []
  | some t => lineBreak? t

/-- A header after its first bracket, and whether its brackets are double. -/
def header (s : List Char) : Option (Bool × List String × List Char) :=
  match s with
  | '[' :: rest =>
    match dottedKey rest with
    | some (path, ']' :: ']' :: rest) => some (true, path, rest)
    | _ => none
  | s =>
    match dottedKey s with
    | some (path, ']' :: rest) => some (false, path, rest)
    | _ => none

/-- The entries up to the next header or the end, after those read before, last one first. -/
def entries : Nat → Entries → List Char → Option (Entries × List Char)
  | 0, _, _ => none
  | bound + 1, done, s =>
    match skipLines s.length s with
    | none => none
    | some [] => some (done.reverse, [])
    | some ('[' :: rest) => some (done.reverse, '[' :: rest)
    | some s =>
      match keyValue 0 bound s with
      | none => none
      | some (path, item, rest) =>
        match endOfLine rest with
        | some rest => entries bound ((path, item) :: done) rest
        | none => none

def sections : Nat → Table → List Char → Option Table
  | 0, _, _ => none
  | bound + 1, fields, s =>
    match s with
    | [] => some fields
    | '[' :: rest =>
      match header rest with
      | none => none
      | some (adds, path, rest) =>
        match (endOfLine rest).bind (entries bound []) with
        | none => none
        | some (es, rest) =>
          match insertSection adds es path fields with
          | some fields => sections bound fields rest
          | none => none
    | _ => none

end Reader

/-- The table that a whole text defines. A byte order mark at its start does not count. -/
def ofText? (text : String) : Option Table :=
  let s := match text.toList with
    | '\uFEFF' :: rest => rest
    | s => s
  let bound := 2 * s.length + 2
  match Reader.entries bound [] s with
  | none => none
  | some (es, rest) => (insertAll es []).bind fun fields => Reader.sections bound fields rest

end DocumentSql.Toml
