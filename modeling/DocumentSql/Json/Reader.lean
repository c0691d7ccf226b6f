import DocumentSql.Json.Basic
import DocumentSql.Number.Numeral
/-
Reading JSON texts. A numeral without point and exponent stays an integer as long as 64 bits hold
it. Any other is its leading digits, as many as 64 bits hold, rounded and then scaled by a rounded
power of ten.
-/

namespace DocumentSql.Json

namespace Reader

def isSpace (c : Char) : Bool := c == ' ' || c == '\n' || c == '\t' || c == '\r'

def skipSpace (s : List Char) : List Char := s.dropWhile isSpace

/-- Appends digits while the number stays below `2 ^ 64`; the digits left over come back. -/
def significand : Nat → List Char → Nat × List Char
  | n, [] => (n, [])
  | n, c :: rest =>
    let next := 10 * n + (c.toNat - '0'.toNat)
    if next < twoTo 64 then significand next rest else (n, c :: rest)

def powerOfTen (n : Nat) : Binary64 := Binary64.ofRatio false (tenTo n) 1

/-- Scales by powers of ten of at most 308 each; nothing is read beyond the greatest number. -/
def scale : Nat → Binary64 → Int → Option Binary64
  | 0, _, _ => none
  | fuel + 1, x, exponent =>
    if exponent.natAbs ≤ 308 then
      if 0 ≤ exponent then
        match x.mul (powerOfTen exponent.natAbs) with
        | .infinite _ => none
        | y => some y
      else some (x.div (powerOfTen exponent.natAbs))
    else if x.key = some 0 then some x
    else if 0 ≤ exponent then none
    else scale fuel (x.div (powerOfTen 308)) (exponent + 308)

/-- Three steps of 308 places take every significand to zero. -/
def scaled (digits : Nat) (exponent : Int) : Option Binary64 :=
  scale 8 (Binary64.ofInt digits) exponent

def signed (negative : Bool) (x : Binary64) : Binary64 :=
  if negative then x.mul (Binary64.ofInt (-1)) else x

/-- The written exponent: the digits after the letter, and whether they exceed 31 bits. -/
structure Exponent where
  negative : Bool
  value : Nat

/-- `e` with an optional sign and at least one digit. -/
def exponentPart : List Char → Option (Option Exponent × List Char)
  | [] => some (none, [])
  | c :: rest =>
    if c = 'e' ∨ c = 'E' then
      let (negative, t) := Numeral.sign rest
      let digits := t.takeWhile Char.isDigit
      if digits.isEmpty then none
      else some (some ⟨negative, Numeral.digitsValue digits⟩, t.dropWhile Char.isDigit)
    else some (none, c :: rest)

def numeralValue (negative : Bool) (whole : List Char) (fraction : Option (List Char))
    (exponent : Option Exponent) : Option Json :=
  let (leading, dropped) := significand 0 whole
  match fraction, exponent with
  | none, none =>
    if dropped.isEmpty then
      if !negative then some (.integer leading)
      else if 0 < leading ∧ leading ≤ twoTo 63 then some (.integer (-(leading : Int)))
      else some (.number (signed true (Binary64.ofInt leading)))
    else (scaled leading dropped.length).map fun x => .number (signed negative x)
  | _, _ =>
    let written := fraction.getD []
    let (digits, unused) := significand leading written
    let places : Int := (dropped.length : Int) - (written.length - unused.length : Nat)
    match exponent with
    | none => (scaled digits places).map fun x => .number (signed negative x)
    | some e =>
      if twoTo 31 ≤ e.value then
        if digits ≠ 0 ∧ !e.negative then none
        else some (.number (signed negative (Binary64.ofInt 0)))
      else
        let total := if e.negative then places - e.value else places + e.value
        (scaled digits total).map fun x => .number (signed negative x)

/-- No digit may follow a leading zero, and a point needs digits on both sides. -/
def numeral (negative : Bool) (s : List Char) : Option (Json × List Char) := do
  let whole := s.takeWhile Char.isDigit
  let afterWhole := s.dropWhile Char.isDigit
  if whole.isEmpty ∨ (whole.head? = some '0' ∧ 1 < whole.length) then none
  else
    let (fraction, afterFraction) ← match afterWhole with
      | '.' :: t =>
        let digits := t.takeWhile Char.isDigit
        if digits.isEmpty then none else some (some digits, t.dropWhile Char.isDigit)
      | t => some (none, t)
    let (exponent, rest) ← exponentPart afterFraction
    let value ← numeralValue negative whole fraction exponent
    some (value, rest)

def codeUnit (s : List Char) : Option (Nat × List Char) :=
  let digits := s.take 4
  if digits.length < 4 then none else (Text.hexNumber? digits).map fun n => (n, s.drop 4)

def isHighSurrogate (n : Nat) : Bool := 0xD800 ≤ n && n ≤ 0xDBFF

def isLowSurrogate (n : Nat) : Bool := 0xDC00 ≤ n && n ≤ 0xDFFF

/-- The character of a `\u` escape; a high surrogate needs its low one. -/
def unicodeEscape (s : List Char) : Option (Char × List Char) := do
  let (unit, rest) ← codeUnit s
  if isHighSurrogate unit then
    match rest with
    | '\\' :: 'u' :: t =>
      let (low, rest) ← codeUnit t
      if isLowSurrogate low then
        some (Char.ofNat (0x10000 + (unit - 0xD800) * 0x400 + (low - 0xDC00)), rest)
      else none
    | _ => none
  else if isLowSurrogate unit then none
  else some (Char.ofNat unit, rest)

def simpleEscape : Char → Option Char
  | '"' => some '"'
  | '\\' => some '\\'
  | '/' => some '/'
  | 'b' => some (Char.ofNat 0x8)
  | 'f' => some (Char.ofNat 0xC)
  | 'n' => some '\n'
  | 'r' => some '\r'
  | 't' => some '\t'
  | _ => none

/-- The characters up to the closing quote, last one first. -/
def stringBody : Nat → List Char → List Char → Option (List Char × List Char)
  | 0, _, _ => none
  | _ + 1, _, [] => none
  | fuel + 1, done, c :: rest =>
    if c = '"' then some (done, rest)
    else if c = '\\' then
      match rest with
      | 'u' :: t => match unicodeEscape t with
        | some (c, t) => stringBody fuel (c :: done) t
        | none => none
      | e :: t => match simpleEscape e with
        | some c => stringBody fuel (c :: done) t
        | none => none
      | [] => none
    else if c.toNat < 0x20 then none
    else stringBody fuel (c :: done) rest

def string (fuel : Nat) (s : List Char) : Option (String × List Char) :=
  (stringBody fuel [] s).map fun (done, rest) => (String.ofList done.reverse, rest)

mutual

/-- One value; `depth` is the number of brackets that may still open. -/
def value : Nat → Nat → List Char → Option (Json × List Char)
  | 0, _, _ => none
  | fuel + 1, depth, s =>
    match skipSpace s with
    | [] => none
    | c :: rest =>
      if c = '"' then (string fuel rest).map fun (s, rest) => (.text s, rest)
      else if c = '[' then
        if depth = 0 then none
        else match skipSpace rest with
          | ']' :: rest => some (.array [], rest)
          | rest => items fuel (depth - 1) [] rest
      else if c = '\x7b' then
        if depth = 0 then none
        else match skipSpace rest with
          | '\x7d' :: rest => some (.object [], rest)
          | rest => fields fuel (depth - 1) [] rest
      else if c = 'n' then (Text.dropText? "ull".toList rest).map fun rest => (.null, rest)
      else if c = 't' then (Text.dropText? "rue".toList rest).map fun rest => (.bool true, rest)
      else if c = 'f' then (Text.dropText? "alse".toList rest).map fun rest => (.bool false, rest)
      else if c = '-' then numeral true rest
      else if c.isDigit then numeral false (c :: rest)
      else none

/-- The items up to the closing bracket, after those already read, last one first. -/
def items : Nat → Nat → List Json → List Char → Option (Json × List Char)
  | 0, _, _, _ => none
  | fuel + 1, depth, done, s =>
    match value fuel depth s with
    | none => none
    | some (item, rest) =>
      match skipSpace rest with
      | ',' :: rest => items fuel depth (item :: done) rest
      | ']' :: rest => some (.array (item :: done).reverse, rest)
      | _ => none

/-- The fields up to the closing brace; the last field of a name counts. -/
def fields : Nat → Nat → List (String × Json) → List Char → Option (Json × List Char)
  | 0, _, _, _ => none
  | fuel + 1, depth, done, s =>
    match skipSpace s with
    | '"' :: rest =>
      match string fuel rest with
      | none => none
      | some (name, rest) =>
        match skipSpace rest with
        | ':' :: rest =>
          match value fuel depth rest with
          | none => none
          | some (item, rest) =>
            match skipSpace rest with
            | ',' :: rest => fields fuel depth (Fields.insert done name item) rest
            | '\x7d' :: rest => some (.object (Fields.insert done name item), rest)
            | _ => none
        | _ => none
    | _ => none

end

/-- Brackets nest at most this deep. -/
def maxDepth : Nat := 127

end Reader

/-- Reads a text that holds one value and nothing else but white space. -/
def ofText? (text : String) : Option Json :=
  let s := text.toList
  match Reader.value (2 * s.length + 2) Reader.maxDepth s with
  | some (j, rest) => if (Reader.skipSpace rest).isEmpty then some j else none
  | none => none

end DocumentSql.Json
