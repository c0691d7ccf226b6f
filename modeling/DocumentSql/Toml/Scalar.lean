import DocumentSql.Number.Numeral
/-
Numbers, dates and times in TOML texts. No setting takes one of them, so the readers only check
their form and give back what follows.
-/

namespace DocumentSql.Toml.Scalar

/-- The digits in front of a text, without the single underscores that may stand between two of
them. -/
def digitRun (isDigit : Char → Bool) : List Char → List Char × List Char
  | [] => ([], [])
  | [c] => if isDigit c then ([c], []) else ([], [c])
  | c :: d :: rest =>
    if isDigit c then
      let (digits, rest) := digitRun isDigit (d :: rest)
      (c :: digits, rest)
    else if c = '_' ∧ isDigit d then
      let (digits, rest) := digitRun isDigit rest
      (d :: digits, rest)
    else ([], c :: d :: rest)

def digits? (isDigit : Char → Bool) (s : List Char) : Option (List Char × List Char) :=
  if s.head?.any isDigit then some (digitRun isDigit s) else none

def sign : List Char → List Char × List Char
  | '+' :: rest => (['+'], rest)
  | '-' :: rest => (['-'], rest)
  | s => ([], s)

/-- A whole number in decimal. It has no leading zeros. -/
def whole? (s : List Char) : Option (List Char × List Char) :=
  let (sign, rest) := sign s
  match rest with
  | '0' :: rest => some (sign ++ ['0'], rest)
  | rest => (digits? Char.isDigit rest).map fun (digits, rest) => (sign ++ digits, rest)

def fraction? : List Char → Option (List Char × List Char)
  | '.' :: rest => (digits? Char.isDigit rest).map fun (digits, rest) => ('.' :: digits, rest)
  | _ => none

def exponent? : List Char → Option (List Char × List Char)
  | c :: rest =>
    if c = 'e' ∨ c = 'E' then
      let (sign, rest) := sign rest
      (digits? Char.isDigit rest).map fun (digits, rest) => (c :: sign ++ digits, rest)
    else none
  | [] => none

/-- What makes a number fractional: a fraction, an exponent or both. -/
def fractional? (s : List Char) : Option (List Char × List Char) :=
  match fraction? s with
  | some (fraction, rest) =>
    match exponent? rest with
    | some (exponent, rest) => some (fraction ++ exponent, rest)
    | none => some (fraction, rest)
  | none => exponent? s

def special? (s : List Char) : Option (List Char) :=
  match (sign s).2 with
  | 'i' :: 'n' :: 'f' :: rest => some rest
  | 'n' :: 'a' :: 'n' :: rest => some rest
  | _ => none

/-- A fractional number. One that rounds to infinity is refused, one below every number is not. -/
def float? (s : List Char) : Option (List Char) := do
  let (whole, rest) ← whole? s
  let (fractional, rest) ← fractional? rest
  let numeral ← Numeral.ofText? (whole ++ fractional)
  if numeral.toBinary64 = .infinite false then none else some rest

def basedValue (base : Nat) (digits : List Char) : Nat :=
  digits.foldl (fun n c => base * n + (Text.hexValue? c).getD 0) 0

def based? (base : Nat) (s : List Char) : Option (List Char) :=
  let isDigit (c : Char) : Bool := (Text.hexValue? c).any (· < base)
  match digits? isDigit s with
  | some (digits, rest) => if basedValue base digits < twoTo 63 then some rest else none
  | none => none

/-- An integer that 64 bits hold. -/
def integer? : List Char → Option (List Char)
  | '0' :: 'x' :: rest => based? 16 rest
  | '0' :: 'o' :: rest => based? 8 rest
  | '0' :: 'b' :: rest => based? 2 rest
  | s =>
    match whole? s with
    | some (digits, rest) => (int64OfText? digits).map fun _ => rest
    | none => none

/-- A number of exactly `count` digits between two bounds. -/
def field? (count least greatest : Nat) (s : List Char) : Option (Nat × List Char) :=
  let digits := s.take count
  let n := Numeral.digitsValue digits
  if digits.length = count ∧ digits.all Char.isDigit ∧ least ≤ n ∧ n ≤ greatest then
    some (n, s.drop count)
  else none

def char? (c : Char) : List Char → Option (List Char)
  | d :: rest => if c = d then some rest else none
  | [] => none

def daysOfMonth (year month : Nat) : Nat :=
  if month = 2 then
    if year % 4 = 0 ∧ (year % 100 ≠ 0 ∨ year % 400 = 0) then 29 else 28
  else if month = 4 ∨ month = 6 ∨ month = 9 ∨ month = 11 then 30
  else 31

def date? (s : List Char) : Option (List Char) := do
  let (year, rest) ← field? 4 0 9999 s
  let (month, rest) ← field? 2 1 12 (← char? '-' rest)
  let (_, rest) ← field? 2 1 (daysOfMonth year month) (← char? '-' rest)
  some rest

def skipSecondFraction : List Char → List Char
  | '.' :: rest => if rest.head?.any Char.isDigit then rest.dropWhile Char.isDigit else '.' :: rest
  | s => s

/-- A time of day, with room for a leap second. -/
def time? (s : List Char) : Option (List Char) := do
  let (_, rest) ← field? 2 0 23 s
  let (_, rest) ← field? 2 0 59 (← char? ':' rest)
  let (_, rest) ← field? 2 0 60 (← char? ':' rest)
  some (skipSecondFraction rest)

def offset? : List Char → Option (List Char)
  | [] => none
  | c :: rest =>
    if c = 'Z' ∨ c = 'z' then some rest
    else if c = '+' ∨ c = '-' then do
      let (_, rest) ← field? 2 0 23 rest
      let (_, rest) ← field? 2 0 59 (← char? ':' rest)
      some rest
    else none

/-- The time that may follow a date, with or without an offset. -/
def timeOfDate? : List Char → Option (List Char)
  | [] => none
  | c :: rest =>
    if c = 'T' ∨ c = 't' ∨ c = ' ' then (time? rest).map fun rest => (offset? rest).getD rest
    else none

def dateTime? (s : List Char) : Option (List Char) :=
  match date? s with
  | some rest => some ((timeOfDate? rest).getD rest)
  | none => time? s

def skip? (s : List Char) : Option (List Char) :=
  (dateTime? s).or ((float? s).or ((special? s).or (integer? s)))

end DocumentSql.Toml.Scalar
