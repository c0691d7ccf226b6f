import DocumentSql.Number.Numeral
import DocumentSql.Value.Source
/-
Lexemes of statements. A reader takes the text still unread and gives back a value and what remains
after it, or nothing. Each reader skips the blanks and comments in front of its lexeme.
-/

namespace DocumentSql.Token

abbrev Reader (α : Type) := List Char → Option (α × List Char)

/-- Drops blanks and `--` comments; `comment` holds the text from the dashes of the comment being
read. A carriage return without its line feed cannot end a comment, so the dashes stay. -/
def gapFrom : Option (List Char) → List Char → List Char
  | none, '-' :: '-' :: rest => gapFrom (some ('-' :: '-' :: rest)) rest
  | none, c :: rest => if Text.isBlank c then gapFrom none rest else c :: rest
  | none, [] => []
  | some _, '\n' :: rest => gapFrom none rest
  | some _, '\r' :: '\n' :: rest => gapFrom none rest
  | some comment, '\r' :: _ => comment
  | some comment, _ :: rest => gapFrom (some comment) rest
  | some _, [] => []

def skipGap (s : List Char) : List Char := gapFrom none s

/-- What follows a word in a text that begins with it in some letter case. Words are ASCII letters,
so no other case mapping counts. -/
def dropWord? : List Char → List Char → Option (List Char)
  | [], s => some s
  | _ :: _, [] => none
  | w :: ws, c :: s => if c.toLower = w.toLower then dropWord? ws s else none

def startsWithName : List Char → Bool
  | [] => false
  | c :: _ => Text.isNameChar c

/-- A whole word: `from` is not the beginning of `fromage`. -/
def keyword (word : String) (s : List Char) : Option (List Char) :=
  match dropWord? word.toList (skipGap s) with
  | some rest => if startsWithName rest then none else some rest
  | none => none

def keywords : List String → List Char → Option (List Char)
  | [], s => some s
  | word :: words, s =>
    match keyword word s with
    | some rest => keywords words rest
    | none => none

def symbol (text : String) (s : List Char) : Option (List Char) :=
  Text.dropText? text.toList (skipGap s)

/-- Name characters in a row, reserved or not. -/
def word (s : List Char) : Option (List Char × List Char) :=
  let t := skipGap s
  let name := t.takeWhile Text.isNameChar
  if name.isEmpty then none else some (name, t.dropWhile Text.isNameChar)

def reserved : List String :=
  ["alter", "and", "asc", "by", "create", "delete", "desc", "from", "ilike", "index", "insert",
    "into", "is", "like", "limit", "not", "null", "offset", "on", "or", "order", "returning",
    "select", "set", "table", "unique", "update", "values", "where"]

def isReserved (name : List Char) : Bool := reserved.contains (String.ofList (Text.lower name))

/-- A name without quotes starts with a letter or an underscore. -/
def bareName (s : List Char) : Option (String × List Char) :=
  let name := s.takeWhile Text.isNameChar
  match name with
  | [] => none
  | c :: _ =>
    if Text.isNameStart c && !isReserved name then
      some (String.ofList name, s.dropWhile Text.isNameChar)
    else none

/-- A name in double quotes may be any text without one. -/
def quotedName (s : List Char) : Option (String × List Char) :=
  match s with
  | '"' :: rest =>
    match rest.dropWhile (· != '"') with
    | _ :: after =>
      let name := rest.takeWhile (· != '"')
      if name.isEmpty then none else some (String.ofList name, after)
    | [] => none
  | _ => none

def identifier (s : List Char) : Option (String × List Char) :=
  (quotedName (skipGap s)).or (bareName (skipGap s))

/-- Items that each follow a comma. A comma without an item is left unread. Every item takes up at
least its comma, so a bound by the length of the text is never met. -/
def moreItems {α : Type} (item : Reader α) : Nat → List Char → List α × List Char
  | 0, s => ([], s)
  | bound + 1, s =>
    match symbol "," s with
    | none => ([], s)
    | some afterComma =>
      match item afterComma with
      | none => ([], s)
      | some (a, rest) =>
        let (more, rest) := moreItems item bound rest
        (a :: more, rest)

def commaList {α : Type} (item : Reader α) (s : List Char) : Option (List α × List Char) :=
  match item s with
  | none => none
  | some (a, rest) =>
    let (more, rest) := moreItems item rest.length rest
    some (a :: more, rest)

def parenthesized {α : Type} (inner : Reader α) (s : List Char) : Option (α × List Char) :=
  match symbol "(" s with
  | none => none
  | some s =>
    match inner s with
    | none => none
    | some (a, s) =>
      match symbol ")" s with
      | none => none
      | some rest => some (a, rest)

def identifierList : Reader (List String) := commaList identifier

def parenIdentifierList : Reader (List String) := parenthesized identifierList

/-- A star, read as the empty list, or names. -/
def projection (s : List Char) : Option (List String × List Char) :=
  match symbol "*" s with
  | some rest => some ([], rest)
  | none => identifierList s

def unsigned (s : List Char) : Option (Nat × List Char) :=
  let t := skipGap s
  let digits := t.takeWhile Char.isDigit
  let n := Numeral.digitsValue digits
  if digits.isEmpty || twoTo 32 ≤ n then none else some (n, t.dropWhile Char.isDigit)

def parameter (s : List Char) : Option (Nat × List Char) :=
  match skipGap s with
  | '$' :: t =>
    let digits := t.takeWhile Char.isDigit
    let n := Numeral.digitsValue digits
    if digits.isEmpty || n = 0 || twoTo 32 ≤ n then none else some (n, t.dropWhile Char.isDigit)
  | _ => none

/-- The text up to the closing quote; two quotes in a row stand for one. -/
def stringBody : List Char → Option (List Char × List Char)
  | [] => none
  | '\'' :: '\'' :: rest =>
    match stringBody rest with
    | some (body, after) => some ('\'' :: body, after)
    | none => none
  | c :: rest =>
    if c = '\'' then some ([], rest)
    else match stringBody rest with
      | some (body, after) => some (c :: body, after)
      | none => none

def stringLiteral (s : List Char) : Option (String × List Char) :=
  match skipGap s with
  | '\'' :: rest =>
    match stringBody rest with
    | some (body, after) => some (String.ofList body, after)
    | none => none
  | _ => none

/-- Digits after a point, if both are there. -/
def fraction : List Char → List Char × List Char
  | '.' :: t =>
    let digits := t.takeWhile Char.isDigit
    if digits.isEmpty then ([], '.' :: t) else (digits, t.dropWhile Char.isDigit)
  | t => ([], t)

def number (s : List Char) : Option (Binary64 × List Char) :=
  let t := skipGap s
  let (negative, t) := match t with
    | '-' :: rest => (true, rest)
    | t => (false, t)
  let whole := t.takeWhile Char.isDigit
  if whole.isEmpty then none
  else
    let (places, rest) := fraction (t.dropWhile Char.isDigit)
    let numeral := Numeral.decimal negative (Numeral.digitsValue (whole ++ places)) (-places.length)
    some (numeral.toBinary64, rest)

def emptyParens (s : List Char) : Bool × List Char :=
  match (symbol "(" s).bind (symbol ")") with
  | some rest => (true, rest)
  | none => (false, s)

/-- Only `CURRENT_TIMESTAMP` may go without its parentheses. -/
def marker (s : List Char) : Option (Marker × List Char) :=
  match word s with
  | none => none
  | some (name, rest) =>
    let (called, rest) := emptyParens rest
    match Marker.ofName? name with
    | none => none
    | some m =>
      if called || Text.lower name == "current_timestamp".toList then some (m, rest) else none

/-- A value of an insertion, an assignment or a comparison. Markers turn into literals at once;
their place is the length of the text that was unread before them. -/
def value (moment : Moment) (s : List Char) : Option (ValueSource × List Char) :=
  match parameter s with
  | some (n, rest) => some (.parameter n, rest)
  | none =>
  match keyword "null" s with
  | some rest => some (.literal .null, rest)
  | none =>
  match keyword "true" s with
  | some rest => some (.literal (.bool true), rest)
  | none =>
  match keyword "false" s with
  | some rest => some (.literal (.bool false), rest)
  | none =>
  match number s with
  | some (x, rest) => some (.literal (.number x), rest)
  | none =>
  match stringLiteral s with
  | some (t, rest) => some (.literal (.text t), rest)
  | none =>
  match marker s with
  | some (m, rest) => some (.literal (m.value moment s.length), rest)
  | none => none

def parenValueList (moment : Moment) : Reader (List ValueSource) :=
  parenthesized (commaList (value moment))

/-- The text up to the parenthesis that closes `depth` open ones, those in quotes aside. -/
def closing : Nat → Bool → List Char → Option (List Char × List Char)
  | _, _, [] => none
  | depth, quoted, c :: rest =>
    if c = '\'' then (closing depth (!quoted) rest).map fun (body, after) => (c :: body, after)
    else if c = '(' ∧ !quoted then
      (closing (depth + 1) quoted rest).map fun (body, after) => (c :: body, after)
    else if c = ')' ∧ !quoted then
      if depth = 1 then some ([], rest)
      else (closing (depth - 1) quoted rest).map fun (body, after) => (c :: body, after)
    else (closing depth quoted rest).map fun (body, after) => (c :: body, after)

/-- A parenthesized block, nested ones and quoted texts included. -/
def balancedParens (s : List Char) : Option (List Char × List Char) :=
  match skipGap s with
  | '(' :: rest => closing 1 false rest
  | _ => none

end DocumentSql.Token
