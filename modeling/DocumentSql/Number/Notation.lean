import DocumentSql.Number.Shortest
import DocumentSql.Text
/- Number texts: positional for people and bound parameters, positional or scientific in JSON. -/

namespace DocumentSql

namespace Decimal

def digitText (d : Decimal) : List Char := Nat.toDigits 10 d.digits

def magnitude (d : Decimal) : Int := d.exponent + d.digitText.length - 1

/-- Positional notation, with a point only where there is a fraction. -/
def positional (d : Decimal) : List Char :=
  let ds := d.digitText
  if 0 ≤ d.exponent then ds ++ List.replicate d.exponent.natAbs '0'
  else
    let fraction := d.exponent.natAbs
    if fraction < ds.length then
      ds.take (ds.length - fraction) ++ '.' :: ds.drop (ds.length - fraction)
    else '0' :: '.' :: List.replicate (fraction - ds.length) '0' ++ ds

def scientific (d : Decimal) : List Char :=
  let mantissa := match d.digitText with
    | [] => []
    | [c] => [c]
    | c :: rest => c :: '.' :: rest
  mantissa ++ 'e' :: (if d.magnitude < 0 then '-' else '+') :: Nat.toDigits 10 d.magnitude.natAbs

end Decimal

namespace Binary64

def signText (negative : Bool) : String := if negative then "-" else ""

/-- Shortest digits in positional notation, whatever the size; of two equally near digits the
upper one. -/
def plainText : Binary64 → String
  | nan => "NaN"
  | infinite negative => signText negative ++ "inf"
  | finite negative m e _ =>
    signText negative ++
      (if m = 0 then "0" else String.ofList (Decimal.shortest .up m e).positional)

/-- As `plainText`, with the integers of magnitude at most `2 ^ 53` as integers, so that the
negative zero loses its sign. -/
def text (x : Binary64) : String :=
  match x.exactInt? with
  | some i => toString i
  | none => x.plainText

/-- Scientific outside of `10 ^ -5` to `10 ^ 16`, and always with a fraction inside; of two
equally near digits the even one. -/
def jsonDigits (m e : Nat) : List Char :=
  if m = 0 then ['0', '.', '0']
  else
    let d := Decimal.shortest .toEven m e
    if -5 ≤ d.magnitude ∧ d.magnitude < 16 then
      if 0 ≤ d.exponent then d.positional ++ ['.', '0'] else d.positional
    else d.scientific

/-- There is no JSON number for `nan` and the infinities. -/
def jsonText : Binary64 → String
  | finite negative m e _ => signText negative ++ String.ofList (jsonDigits m e)
  | _ => "null"

end Binary64

end DocumentSql
