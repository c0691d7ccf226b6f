import DocumentSql.Grammar.Failure
import DocumentSql.Statement
/-
`WHERE` clauses: conditions joined by `AND`. `OR` and parenthesized groups are refused with errors
of their own.
-/

namespace DocumentSql.Token

/-- The operators, those of two characters first, so that `<=` is not read as `<`. -/
def comparison (s : List Char) : Option (Comparison × List Char) :=
  let operators : List (String × Comparison) :=
    [("!=", .ne), ("<>", .ne), ("<=", .le), (">=", .ge), ("<", .lt), (">", .gt), ("=", .eq)]
  operators.findSome? fun (text, c) => (symbol text s).map fun rest => (c, rest)

def likeOperand (s : List Char) : Option (ValueSource × List Char) :=
  match stringLiteral s with
  | some (t, rest) => some (.literal (.text t), rest)
  | none => (parameter s).map fun (n, rest) => (.parameter n, rest)

def likeTail (field : String) (s : List Char) : Option (Predicate × List Char) :=
  match (keyword "like" s).or (keyword "ilike" s) with
  | some rest => (likeOperand rest).map fun (pattern, rest) => (.like field pattern, rest)
  | none => none

def compareTail (moment : Moment) (field : String) (s : List Char) :
    Option (Predicate × List Char) :=
  match comparison s with
  | some (c, rest) =>
    (value moment rest).map fun (operand, rest) => (.compare field c operand, rest)
  | none => none

def condition (moment : Moment) (s : List Char) : Option (Predicate × List Char) :=
  match identifier s with
  | none => none
  | some (field, s) =>
  match keywords ["is", "not", "null"] s with
  | some rest => some (.isNotNull field, rest)
  | none =>
  match keywords ["is", "null"] s with
  | some rest => some (.isNull field, rest)
  | none => (likeTail field s).or (compareTail moment field s)

/-- Where a clause that follows `WHERE`, or the end, comes at once. -/
def atClauseBoundary (s : List Char) : Bool :=
  let trimmed := Text.trim s
  trimmed.isEmpty || trimmed == [';'] || (keywords ["order", "by"] s).isSome ||
    (keyword "limit" s).isSome || (keyword "offset" s).isSome || (keyword "returning" s).isSome

/-- Why no condition could be read; `first` says that none was read before. -/
def conditionFault (first : Bool) (s : List Char) : String :=
  if (symbol "(" s).isSome then "grouped predicates are not supported"
  else if first && atClauseBoundary s then "empty WHERE clause"
  else "unrecognized condition in WHERE clause"

/-- The conditions up to the first that no `AND` follows. Every condition takes up text, so a bound
by the length of the text is never met. -/
def conditions (moment : Moment) (full : List Char) :
    Nat → Bool → List Char → Parse (List Predicate × List Char)
  | 0, first, s => .error (.faultAt full s (conditionFault first s))
  | bound + 1, first, s =>
    match condition moment s with
    | none => .error (.faultAt full s (conditionFault first s))
    | some (p, rest) =>
      match keyword "and" rest with
      | some afterAnd =>
        match conditions moment full bound false afterAnd with
        | .ok (ps, rest) => .ok (p :: ps, rest)
        | .error e => .error e
      | none =>
        if (keyword "or" rest).isSome then
          .error (.faultAt full rest "OR is not supported, only AND-combined conditions")
        else .ok ([p], rest)

def whereClause (moment : Moment) (full s : List Char) : Parse (List Predicate × List Char) :=
  match keyword "where" s with
  | none => .ok ([], s)
  | some rest => conditions moment full (rest.length + 1) true rest

end DocumentSql.Token
