import DocumentSql.Number.Power
/-
Binary floating-point numbers of 64 bits as exact dyadic values, with the one rounding that all
conversions share: to nearest, halves to the even significand.
-/

namespace DocumentSql

/-- A significand of 53 bits, full unless the exponent is the least. -/
def Binary64.Canonical (significand exponent : Nat) : Prop :=
  significand < twoTo 53 ∧ exponent ≤ 2045 ∧ (exponent = 0 ∨ twoTo 52 ≤ significand)

instance (significand exponent : Nat) : Decidable (Binary64.Canonical significand exponent) :=
  inferInstanceAs (Decidable (_ ∧ _ ∧ _))

/-- A finite number is `significand * 2 ^ exponent` in units of `2 ^ -1074`. -/
inductive Binary64
  | nan
  | infinite (negative : Bool)
  | finite (negative : Bool) (significand exponent : Nat)
      (canonical : Binary64.Canonical significand exponent)
deriving DecidableEq

namespace Binary64

def one : Nat := twoTo 1074

instance : Inhabited Binary64 := ⟨.finite false 0 0 (by decide)⟩

/-- The place of a number on the line; the infinities lie beyond every finite number. -/
def key : Binary64 → Option Int
  | nan => none
  | infinite negative => some (if negative then -(twoTo 2100 : Int) else twoTo 2100)
  | finite negative m e _ =>
    some (if negative then -((m * twoTo e : Nat) : Int) else (m * twoTo e : Nat))

/-- `nan` has no place in the order; both zeros are one number. -/
def compare? (x y : Binary64) : Option Ordering :=
  match x.key, y.key with
  | some a, some b => some (compare a b)
  | _, _ => none

/-- Numeric equality: `nan` differs from itself and the zeros are equal. -/
def same (x y : Binary64) : Bool := x.compare? y == some .eq

/-- The nearest integer to a quotient, the even one of two. -/
def roundEven (num den : Nat) : Nat :=
  if 2 * (num % den) < den ∨ (2 * (num % den) = den ∧ num / den % 2 = 0) then num / den
  else num / den + 1

def bitLength (n : Nat) : Nat := if n = 0 then 0 else n.log2 + 1

/-- Significand and exponent nearest to `num / den` among those of `precision` bits, in units of
`2 ^ -scale`. -/
def nearest (precision scale num den : Nat) : Nat × Nat :=
  let scaled := num * twoTo scale
  let exponent := bitLength (scaled / den) - precision
  let significand := roundEven scaled (den * twoTo exponent)
  if significand = twoTo precision then (twoTo (precision - 1), exponent + 1)
  else (significand, exponent)

/-- The number nearest to `num / den`; beyond the greatest finite one lies infinity. -/
def ofRatio (negative : Bool) (num den : Nat) : Binary64 :=
  let (m, e) := nearest 53 1074 num den
  if h : Canonical m e then .finite negative m e h else .infinite negative

def ofInt (i : Int) : Binary64 := ofRatio (i < 0) i.natAbs 1

/-- The number nearest to `num / den` that 32 bits can hold. -/
def ofRatio32 (negative : Bool) (num den : Nat) : Binary64 :=
  let (m, e) := nearest 24 149 num den
  if e ≤ 253 then ofRatio negative (m * twoTo e) (twoTo 149) else .infinite negative

/-- The number that the bits of a binary format stand for: a sign, an exponent and the fraction of
the significand. The least exponent has no leading bit, the greatest no finite number. -/
def ofBits (exponentBits fractionBits bits : Nat) : Binary64 :=
  let fraction := bits % twoTo fractionBits
  let exponent := bits / twoTo fractionBits % twoTo exponentBits
  let negative := bits / twoTo (fractionBits + exponentBits) % 2 = 1
  if exponent + 1 = twoTo exponentBits then
    if fraction = 0 then .infinite negative else .nan
  else
    let significand := if exponent = 0 then fraction else fraction + twoTo fractionBits
    ofRatio negative (significand * twoTo (exponent - 1))
      (twoTo (fractionBits + twoTo (exponentBits - 1) - 2))

def toInt? : Binary64 → Option Int
  | finite negative m e _ =>
    if m * twoTo e % one = 0 then
      let n : Nat := m * twoTo e / one
      some (if negative then -(n : Int) else n)
    else none
  | _ => none

/-- The integers of magnitude at most `2 ^ 53`, where every integer is a number. -/
def exactInt? (x : Binary64) : Option Int :=
  x.toInt?.filter fun i => i.natAbs ≤ twoTo 53

def mul : Binary64 → Binary64 → Binary64
  | nan, _ | _, nan => nan
  | infinite s, infinite t => infinite (s != t)
  | infinite s, finite t m _ _ | finite t m _ _, infinite s =>
    if m = 0 then nan else infinite (s != t)
  | finite s m e _, finite t n f _ => ofRatio (s != t) (m * twoTo e * (n * twoTo f)) (one * one)

def div : Binary64 → Binary64 → Binary64
  | nan, _ | _, nan => nan
  | infinite _, infinite _ => nan
  | infinite s, finite t _ _ _ => infinite (s != t)
  | finite s _ _ _, infinite t => ofRatio (s != t) 0 1
  | finite s m e _, finite t n f _ =>
    if n = 0 then (if m = 0 then nan else infinite (s != t))
    else ofRatio (s != t) (m * twoTo e) (n * twoTo f)

end Binary64

end DocumentSql
