import DocumentSql.Number.Binary64
/-
The fewest decimal digits that read back to a binary number. The search walks the grids of one,
two, … digits; the two grid points beside the value are the only candidates on each.
-/

namespace DocumentSql

/-- The value `digits * 10 ^ exponent`. -/
structure Decimal where
  digits : Nat
  exponent : Int
deriving DecidableEq, Repr

namespace Decimal

inductive Tie
  | toEven
  | up
deriving DecidableEq

/-- `count * 10 ^ k` as a fraction in quarters of the unit `2 ^ -1074`. -/
def gridPoint (count : Nat) (k : Int) : Nat × Nat :=
  if k < 0 then (count * (4 * Binary64.one), tenTo k.natAbs)
  else (count * tenTo k.natAbs * (4 * Binary64.one), 1)

/-- The reals that round to a positive number, in quarters of the unit; the ends belong to it
exactly when the significand is even. -/
def lowerEnd (m e : Nat) : Nat :=
  4 * (m * twoTo e) - (if m = twoTo 52 ∧ 0 < e then twoTo e else 2 * twoTo e)

def upperEnd (m e : Nat) : Nat := 4 * (m * twoTo e) + 2 * twoTo e

def readsBack (m e count : Nat) (k : Int) : Bool :=
  let (num, den) := gridPoint count k
  if m % 2 = 0 then lowerEnd m e * den ≤ num && num ≤ upperEnd m e * den
  else lowerEnd m e * den < num && num < upperEnd m e * den

def below (m e : Nat) (k : Int) : Nat :=
  if k < 0 then m * twoTo e * tenTo k.natAbs / Binary64.one
  else m * twoTo e / (Binary64.one * tenTo k.natAbs)

/-- The candidate on the grid `10 ^ k`, the nearer one where both sides read back. -/
def onGrid (tie : Tie) (m e : Nat) (k : Int) : Option Nat :=
  let low := below m e k
  match readsBack m e low k, readsBack m e (low + 1) k with
  | true, true =>
    let (num, den) := gridPoint (2 * low + 1) k
    match compare (2 * (4 * (m * twoTo e)) * den) num with
    | .lt => some low
    | .gt => some (low + 1)
    | .eq => match tie with
      | .up => some (low + 1)
      | .toEven => some (if low % 2 = 0 then low else low + 1)
  | true, false => some low
  | false, true => some (low + 1)
  | false, false => none

/-- The decimal exponent of the leading digit. Every positive number exceeds `10 ^ -400`. -/
def leading (m e : Nat) : Int :=
  ((Nat.toDigits 10 (m * twoTo e * tenTo 400 / Binary64.one)).length : Int) - 401

/-- A candidate that carried over to ten is one on the next grid. -/
def normalize (d : Decimal) : Decimal :=
  if d.digits = 10 then ⟨1, d.exponent + 1⟩ else d

/-- Seventeen digits always read back, so the search ends with a candidate. -/
def shortest (tie : Tie) (m e : Nat) : Decimal :=
  let top := leading m e
  let hit := (List.range 17).findSome? fun (n : Nat) =>
    (onGrid tie m e (top - n)).map fun digits => (⟨digits, top - n⟩ : Decimal)
  (hit.getD ⟨0, 0⟩).normalize

end Decimal

end DocumentSql
