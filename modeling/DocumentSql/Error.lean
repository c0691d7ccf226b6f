import DocumentSql.Text
/- The ways a statement or a store request fails. -/

namespace DocumentSql

inductive StoreError
  | indexExists (name : String)
  | duplicateKey (collection index : String)
  | backend (message : String)
deriving DecidableEq, Repr

namespace StoreError

def message : StoreError → String
  | indexExists name => "Index '" ++ name ++ "' already exists"
  | duplicateKey collection index =>
    "Duplicate key for unique index '" ++ index ++ "' on '" ++ collection ++ "'"
  | backend message => message

end StoreError

/-- Where reading a statement stopped, as a byte offset, and why. -/
structure ParseError where
  position : Nat
  reason : String
deriving DecidableEq, Repr

structure ParameterError where
  index : Nat
  supplied : Nat
deriving DecidableEq, Repr

inductive QueryError
  | parse (cause : ParseError)
  | parameter (cause : ParameterError)
  | store (cause : StoreError)
  | unsupported (statement : String)
deriving DecidableEq, Repr

namespace ParseError

def message (e : ParseError) : String :=
  "Parse error at position " ++ toString e.position ++ ": " ++ e.reason

end ParseError

namespace ParameterError

def message (e : ParameterError) : String :=
  "Parameter $" ++ toString e.index ++ " is out of range (" ++ toString e.supplied ++ " supplied)"

end ParameterError

namespace QueryError

def message : QueryError → String
  | parse cause => cause.message
  | parameter cause => cause.message
  | store cause => "Store error: " ++ cause.message
  | unsupported statement => "Unsupported statement: '" ++ statement ++ "'"

/-- Whether the statement or its parameters are at fault, so that no store was asked. -/
def isParseError : QueryError → Bool
  | parse _ | parameter _ => true
  | _ => false

/-- The message and those of its causes, outermost first. -/
def chain : QueryError → List String
  | store cause => [(store cause).message, cause.message]
  | e => [e.message]

end QueryError

end DocumentSql
