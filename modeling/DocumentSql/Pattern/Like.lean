import DocumentSql.Pattern.Regex
/- `LIKE` patterns and the regular expressions they stand for. -/

namespace DocumentSql.Like

/-- `%` is any run of characters, `_` any one character, and all else the letter itself. -/
def item (c : Char) : Regex.Item :=
  if c = '%' then .anyRun else if c = '_' then .anyOne else .letter c

def items (pattern : List Char) : List Regex.Item :=
  .textStart :: pattern.map item ++ [.textEnd]

def itemText (c : Char) : List Char :=
  if c = '%' then ['.', '*'] else if c = '_' then ['.'] else Regex.escape c

def regexText (pattern : List Char) : List Char :=
  '^' :: pattern.flatMap itemText ++ ['$']

end DocumentSql.Like
