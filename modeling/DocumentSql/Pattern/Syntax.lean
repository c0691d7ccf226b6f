import DocumentSql.Pattern.Regex
import DocumentSql.Text
import DocumentSql.Text.Alphanumeric
/-
Whether a text is a regular expression that an automaton can run. The text has no closing brace, so
nothing that needs one, such as a counted repetition, can be well-formed.
-/

namespace DocumentSql.Regex

/-- What a backslash and the characters after it stand for: a letter, a set of letters, or a place
between letters, which may be the edge of a word. -/
inductive Escape
  | letter (c : Char)
  | set
  | place
  | wordEdge
deriving DecidableEq, Repr

def isOneOf (choices : String) (c : Char) : Bool := choices.toList.contains c

def escaped? : List Char → Option (Escape × List Char)
  | [] => none
  | 'x' :: rest => (Text.codePoint? 2 rest).map fun (c, rest) => (.letter c, rest)
  | 'u' :: rest => (Text.codePoint? 4 rest).map fun (c, rest) => (.letter c, rest)
  | 'U' :: rest => (Text.codePoint? 8 rest).map fun (c, rest) => (.letter c, rest)
  | c :: rest =>
    if isOneOf "pP" c then
      if rest.head?.any fun d => isOneOf "clmnpsz" d.toLower then some (.set, rest.drop 1) else none
    else if isOneOf "dswDSW" c then some (.set, rest)
    else if isOneOf "Az" c then some (.place, rest)
    else if isOneOf "bB<>" c then some (.wordEdge, rest)
    else if c = 't' then some (.letter '\t', rest)
    else if c = 'n' then some (.letter '\n', rest)
    else if c = 'r' then some (.letter '\r', rest)
    else if c = 'a' then some (.letter (Char.ofNat 0x7), rest)
    else if c = 'v' then some (.letter (Char.ofNat 0xB), rest)
    else if c = 'f' then some (.letter (Char.ofNat 0xC), rest)
    else if c.toNat < 0x80 && !c.isAlphanum then some (.letter c, rest)
    else none

/-! Sets in brackets -/

def namedSets : List String :=
  ["alnum", "alpha", "ascii", "blank", "cntrl", "digit", "graph", "lower", "print", "punct",
    "space", "upper", "word", "xdigit"]

/-- A set by its name between colons, after its opening bracket. -/
def namedSet? : List Char → Option (List Char)
  | ':' :: rest =>
    let body := if rest.head? = some '^' then rest.drop 1 else rest
    match body.dropWhile (· ≠ ':') with
    | ':' :: ']' :: rest =>
      if namedSets.contains (String.ofList (body.takeWhile (· ≠ ':'))) then some rest else none
    | _ => none
  | _ => none

/-- Without the marks that count only right after an opening bracket: a negation, then dashes or a
closing bracket that stand for themselves. -/
def dropSetStart (s : List Char) : List Char :=
  let s := if s.head? = some '^' then s.drop 1 else s
  match s with
  | ']' :: rest => rest
  | s => s.dropWhile (· == '-')

def member? : List Char → Option (Option Char × List Char)
  | '\\' :: rest =>
    match escaped? rest with
    | some (.letter c, rest) => some (some c, rest)
    | some (.set, rest) => some (none, rest)
    | _ => none
  | c :: rest => some (some c, rest)
  | [] => none

def memberRange? (s : List Char) : Option (List Char) :=
  match member? s with
  | none => none
  | some (first, rest) =>
    match rest with
    | '-' :: c :: after =>
      if c = ']' ∨ c = '-' then some rest
      else
        match first, member? (c :: after) with
        | some a, some (some b, rest) => if a ≤ b then some rest else none
        | _, _ => none
    | rest => some rest

/-- What follows the bracket that closes a set; `depth` counts the sets around it. -/
def setRest? : Nat → Nat → List Char → Option (List Char)
  | 0, _, _ => none
  | _ + 1, _, [] => none
  | bound + 1, depth, c :: rest =>
    if c = ']' then
      match depth with
      | 0 => some rest
      | depth + 1 => setRest? bound depth rest
    else if c = '[' then
      match namedSet? rest with
      | some rest => setRest? bound depth rest
      | none => setRest? bound (depth + 1) (dropSetStart rest)
    else if isOneOf "&-~" c && rest.head? = some c then setRest? bound depth (rest.drop 1)
    else (memberRange? (c :: rest)).bind (setRest? bound depth)

/-! Whole expressions -/

inductive Piece
  | operand
  | wordEdge
  | bar
  | opening
  | named (name : List Char)
  | closing
  | flags
  | repetition
deriving DecidableEq, Repr

/-- The flags after `(?`, up to the colon of a group or the closing bracket; `seen` holds those
before, last one first. None occurs twice and a minus is not the last. -/
def flags? : List Char → List Char → Option (Piece × List Char)
  | _, [] => none
  | seen, c :: rest =>
    if c = ':' then if seen.head? = some '-' then none else some (.opening, rest)
    else if c = ')' then
      if seen.isEmpty || seen.head? = some '-' then none else some (.flags, rest)
    else if isOneOf "imsUuRx-" c && !seen.contains c then flags? (c :: seen) rest
    else none

def groupName? (s : List Char) : Option (Piece × List Char) :=
  let isInner (c : Char) : Bool := Text.isAlphanumeric c || isOneOf "_.[]" c
  match s.takeWhile (· ≠ '>'), s.dropWhile (· ≠ '>') with
  | c :: more, '>' :: rest =>
    if (c = '_' || Text.isAlphanumeric c && !c.isDigit) && more.all isInner then
      some (.named (c :: more), rest)
    else none
  | _, _ => none

def piece? : List Char → Option (Piece × List Char)
  | [] => none
  | '(' :: '?' :: 'P' :: '<' :: rest => groupName? rest
  | '(' :: '?' :: '<' :: rest => groupName? rest
  | '(' :: '?' :: rest => flags? [] rest
  | '(' :: rest => some (.opening, rest)
  | ')' :: rest => some (.closing, rest)
  | '|' :: rest => some (.bar, rest)
  | '[' :: rest =>
    (setRest? (rest.length + 1) 0 (dropSetStart rest)).map fun rest => (.operand, rest)
  | '\\' :: rest =>
    (escaped? rest).map fun (e, rest) => (if e = .wordEdge then .wordEdge else .operand, rest)
  | c :: rest =>
    if c = '\x7b' then none
    else if isOneOf "*+?" c then some (.repetition, rest)
    else some (.operand, rest)

def pieces? : Nat → List Char → Option (List Piece)
  | _, [] => some []
  | 0, _ => none
  | bound + 1, s =>
    match piece? s with
    | none => none
    | some (piece, rest) => (pieces? bound rest).map (piece :: ·)

/-- Whether groups are closed in turn and each repetition has something to repeat. `depth` groups
are open, and `ready` says that the piece before can be repeated. -/
def wellNested : Nat → Bool → List Piece → Bool
  | depth, _, [] => depth == 0
  | depth, ready, piece :: rest =>
    match piece, depth with
    | .opening, _ => wellNested (depth + 1) false rest
    | .named _, _ => wellNested (depth + 1) false rest
    | .closing, 0 => false
    | .closing, depth + 1 => wellNested depth true rest
    | .bar, _ => wellNested depth false rest
    | .flags, _ => wellNested depth false rest
    | .repetition, _ => ready && wellNested depth true rest
    | .operand, _ => wellNested depth true rest
    | .wordEdge, _ => wellNested depth true rest

def Piece.name? : Piece → Option (List Char)
  | named name => some name
  | _ => none

/-- Why a text is no expression for an automaton: its form, or an edge of a word, which no automaton
finds among all letters. -/
inductive Fault
  | malformed
  | wordEdge
deriving DecidableEq, Repr

def fault? (s : List Char) : Option Fault :=
  match pieces? s.length s with
  | none => some .malformed
  | some pieces =>
    if !wellNested 0 false pieces || !decide (pieces.filterMap Piece.name?).Nodup then
      some .malformed
    else if pieces.contains .wordEdge then some .wordEdge
    else none

end DocumentSql.Regex
