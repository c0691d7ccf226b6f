import DocumentSql.Number.Binary64
import DocumentSql.Text
/- Reading numerals: signed integers of 64 bits, and decimal numerals of any length. -/

namespace DocumentSql

/-- What a numeral denotes before it is rounded. -/
inductive Numeral
  | nan
  | infinite (negative : Bool)
  | decimal (negative : Bool) (digits : Nat) (exponent : Int)
deriving DecidableEq

namespace Numeral

def digitsValue (digits : List Char) : Nat :=
  digits.foldl (fun n c => 10 * n + (c.toNat - '0'.toNat)) 0

/-- Rounds `digits * 10 ^ exponent`. Numerals far outside the range of every format are settled
by their leading digit's place, so that no huge power is formed. -/
def roundDecimal (round : Bool → Nat → Nat → Binary64) (negative : Bool) (digits : Nat)
    (exponent : Int) : Binary64 :=
  let places : Int := exponent + (Nat.toDigits 10 digits).length
  if digits = 0 ∨ places < -400 then round negative 0 1
  else if 400 < places then .infinite negative
  else if 0 ≤ exponent then round negative (digits * tenTo exponent.natAbs) 1
  else round negative digits (tenTo exponent.natAbs)

def toBinary64 : Numeral → Binary64
  | nan => .nan
  | infinite negative => .infinite negative
  | decimal negative digits exponent => roundDecimal Binary64.ofRatio negative digits exponent

def toBinary32 : Numeral → Binary64
  | nan => .nan
  | infinite negative => .infinite negative
  | decimal negative digits exponent => roundDecimal Binary64.ofRatio32 negative digits exponent

def sign : List Char → Bool × List Char
  | '-' :: rest => (true, rest)
  | '+' :: rest => (false, rest)
  | s => (false, s)

def exponentValue (s : List Char) : Option Int :=
  let (negative, digits) := sign s
  if digits.isEmpty || !digits.all Char.isDigit then none
  else some (if negative then -(digitsValue digits : Int) else digitsValue digits)

/-- Digits with an optional point, at least one digit in all, and an optional exponent. -/
def decimalBody (negative : Bool) (s : List Char) : Option Numeral :=
  let whole := s.takeWhile Char.isDigit
  let afterWhole := s.dropWhile Char.isDigit
  let (fraction, rest) := match afterWhole with
    | '.' :: t => (t.takeWhile Char.isDigit, t.dropWhile Char.isDigit)
    | t => ([], t)
  if whole.isEmpty && fraction.isEmpty then none
  else
    let exponent? := match rest with
      | [] => some 0
      | c :: t => if c = 'e' ∨ c = 'E' then exponentValue t else none
    exponent?.map fun exponent =>
      decimal negative (digitsValue (whole ++ fraction)) (exponent - fraction.length)

/-- A numeral takes up the whole text; `inf`, `infinity` and `nan` count in any letter case. -/
def ofText? (s : List Char) : Option Numeral :=
  let (negative, body) := sign s
  let word := String.ofList (Text.lower body)
  if word = "inf" ∨ word = "infinity" then some (infinite negative)
  else if word = "nan" then some nan
  else decimalBody negative body

/-- Why a text is no whole number up to a limit. -/
inductive LimitFault
  | empty
  | digit
  | tooLarge
deriving DecidableEq, Repr

def LimitFault.message : LimitFault → String
  | empty => "cannot parse integer from empty string"
  | digit => "invalid digit found in string"
  | tooLarge => "number too large to fit in target type"

/-- A whole number up to a limit, in decimal and perhaps after a plus sign. The first character that
is no digit or leads beyond the limit decides what is wrong. -/
def upTo (limit : Nat) (s : List Char) : Except LimitFault Nat :=
  let digits := match s with
    | '+' :: c :: rest => c :: rest
    | s => s
  if digits.isEmpty then .error .empty
  else digits.foldlM
    (fun n c =>
      let next := 10 * n + (c.toNat - '0'.toNat)
      if !c.isDigit then .error .digit else if limit < next then .error .tooLarge else .ok next) 0

end Numeral

def int64OfText? (s : List Char) : Option Int :=
  let (negative, digits) := Numeral.sign s
  if digits.isEmpty || !digits.all Char.isDigit then none
  else
    let n := Numeral.digitsValue digits
    let i : Int := if negative then -(n : Int) else n
    if -(twoTo 63) ≤ i ∧ i < twoTo 63 then some i else none

end DocumentSql
