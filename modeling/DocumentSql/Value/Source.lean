import DocumentSql.Error
import DocumentSql.Value.Basic
/- Where the values of a statement come from: literals, parameters and generated values. -/

namespace DocumentSql

/-- What a statement may draw from its surroundings: readings of the clock and fresh identifiers,
one of each for every place. Place 0 is the store's own. -/
structure Moment where
  now : Nat → Instant
  fresh : Nat → Uuid

namespace Moment

/-- The moments of statements that run one after another under a clock that stands still. Their
identifiers count up from a seed in the 48 bits in front of the version, so that already the first
digits tell two of them apart; each statement has a million places of its own. -/
def series (now : Instant) (seed statement : Nat) : Moment where
  now := fun _ => now
  fresh := fun place => Uuid.version4 (seed + (statement * twoTo 20 + place) * twoTo 80)

end Moment

inductive ValueSource
  | literal (value : Value)
  | parameter (index : Nat)
deriving DecidableEq

namespace ValueSource

/-- Parameters count from 1. -/
def resolve (params : List Value) : ValueSource → Except ParameterError Value
  | literal value => .ok value
  | parameter 0 => .error ⟨0, params.length⟩
  | parameter (n + 1) =>
    match params[n]? with
    | some value => .ok value
    | none => .error ⟨n + 1, params.length⟩

/-- A text between quotes, each quote inside written twice. -/
def quoteText (s : List Char) : List Char :=
  '\'' :: s.flatMap (fun c => if c = '\'' then ['\'', '\''] else [c]) ++ ['\'']

def text : ValueSource → String
  | literal (.text s) => String.ofList (quoteText s.toList)
  | literal value => value.display
  | parameter n => "$" ++ toString n

end ValueSource

/-- Function-like words that stand for a generated value. -/
inductive Marker
  | currentTimestamp
  | generateId
deriving DecidableEq, Repr

namespace Marker

def ofName? (name : List Char) : Option Marker :=
  let word := String.ofList (Text.lower name)
  if word = "now" ∨ word = "current_timestamp" then some currentTimestamp
  else if word = "gen_random_uuid" ∨ word = "uuid_generate_v4" then some generateId
  else none

def value (moment : Moment) (place : Nat) : Marker → Value
  | currentTimestamp => .timestamp (moment.now place)
  | generateId => .id (moment.fresh place)

end Marker

end DocumentSql
