import DocumentSql.Pattern.CaseFolding
/-
Regular expressions without choice and counting: anchors, any character, any run of characters
and letters, with the reader of their text. Letters match in either case and a run may cross
lines. `matchesAt` says what a match is; `row` computes it for all suffixes at once.
-/

namespace DocumentSql

namespace Regex

inductive Item
  | textStart
  | textEnd
  | anyOne
  | anyRun
  | letter (c : Char)
deriving DecidableEq, Repr

/-- Characters with a meaning of their own in a pattern, which a backslash takes away. -/
def isMeta (c : Char) : Bool :=
  c == '\\' || c == '.' || c == '+' || c == '*' || c == '?' || c == '(' || c == ')' || c == '|' ||
    c == '[' || c == ']' || c == '\x7b' || c == '\x7d' || c == '^' || c == '$' || c == '#' ||
    c == '&' || c == '-' || c == '~'

/-- Those of them that may stand unescaped for themselves. -/
def isPlainMeta (c : Char) : Bool :=
  c == ']' || c == '\x7d' || c == '#' || c == '&' || c == '-' || c == '~'

def escape (c : Char) : List Char := if isMeta c then ['\\', c] else [c]

/-- Reads a pattern; none for one that needs more than the items above. -/
def read? : List Char → Option (List Item)
  | [] => some []
  | '\\' :: c :: rest => if isMeta c then (read? rest).map (.letter c :: ·) else none
  | '.' :: '*' :: rest => (read? rest).map (.anyRun :: ·)
  | c :: rest =>
    if c = '.' then (read? rest).map (.anyOne :: ·)
    else if c = '^' then (read? rest).map (.textStart :: ·)
    else if c = '$' then (read? rest).map (.textEnd :: ·)
    else if isMeta c && !isPlainMeta c then none
    else (read? rest).map (.letter c :: ·)

def properSuffixes : List Char → List (List Char)
  | [] => []
  | _ :: rest => rest :: properSuffixes rest

/-- Whether the items match a beginning of the text; `whole` says that nothing stands before it.
Letters and text are folded. -/
def matchesAt : List Item → Bool → List Char → Bool
  | [], _, _ => true
  | .textStart :: items, whole, s => whole && matchesAt items whole s
  | .textEnd :: items, whole, s => s.isEmpty && matchesAt items whole s
  | .anyOne :: items, _, s =>
    match s with
    | [] => false
    | _ :: rest => matchesAt items false rest
  | .letter l :: items, _, s =>
    match s with
    | [] => false
    | c :: rest => l == c && matchesAt items false rest
  | .anyRun :: items, whole, s =>
    matchesAt items whole s || (properSuffixes s).any (matchesAt items false)

/-- For each suffix of the items, longest first, whether it matches the empty text. -/
def emptyRow (whole : Bool) : List Item → List Bool
  | [] => [true]
  | item :: items =>
    let row := emptyRow whole items
    let next := row.headD false
    (match item with
      | .textStart => whole && next
      | .textEnd | .anyRun => next
      | .anyOne | .letter _ => false) :: row

def rowBefore (c : Char) (whole : Bool) : List Item → List Bool → List Bool
  | [], _ => [true]
  | item :: items, rest =>
    let row := rowBefore c whole items rest.tail
    let next := row.headD false
    let further := rest.tail.headD false
    (match item with
      | .textStart => whole && next
      | .textEnd => false
      | .anyOne => further
      | .letter l => l == c && further
      | .anyRun => next || rest.headD false) :: row

/-- For each suffix of the items, longest first, whether it matches a beginning of the text. -/
def row (items : List Item) (whole : Bool) : List Char → List Bool
  | [] => emptyRow whole items
  | c :: rest => rowBefore c whole items (row items false rest)

/-- The row of a text, and whether any of its suffixes begins with a match. -/
def search (items : List Item) : List Char → List Bool × Bool
  | [] => (emptyRow false items, (emptyRow false items).headD false)
  | c :: rest =>
    let (later, found) := search items rest
    let here := rowBefore c false items later
    (here, here.headD false || found)

def foldItem : Item → Item
  | .letter c => .letter (CaseFolding.fold c)
  | item => item

def isMatch (items : List Item) (text : List Char) : Bool :=
  let items := items.map foldItem
  let folded := text.map CaseFolding.fold
  (row items true folded).headD false || (search items (folded.drop 1)).2 && !folded.isEmpty

end Regex

end DocumentSql
