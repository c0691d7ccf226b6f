import DocumentSql.Text
/- Identifiers of 128 bits in their hyphenated text. -/

namespace DocumentSql

structure Uuid where
  bits : BitVec 128
deriving DecidableEq

namespace Uuid

instance : Inhabited Uuid := ⟨⟨0⟩⟩

def compare (a b : Uuid) : Ordering := Ord.compare a.bits.toNat b.bits.toNat

/-- Groups of 8, 4, 4, 4 and 12 lower-case digits. -/
def chars (u : Uuid) : List Char :=
  let ds := Text.hexDigits u.bits.toNat 32
  ds.take 8 ++ '-' :: (ds.drop 8).take 4 ++ '-' :: (ds.drop 12).take 4 ++
    '-' :: (ds.drop 16).take 4 ++ '-' :: ds.drop 20

def text (u : Uuid) : String := String.ofList u.chars

def ofChars? (s : List Char) : Option Uuid :=
  match Text.split (· == '-') s with
  | [a, b, c, d, e] =>
    if a.length = 8 ∧ b.length = 4 ∧ c.length = 4 ∧ d.length = 4 ∧ e.length = 12 then
      (Text.hexNumber? (a ++ b ++ c ++ d ++ e)).map fun n => ⟨BitVec.ofNat 128 n⟩
    else none
  | _ => none

/-- The bits of version 4 and the usual variant, all others from `seed`. -/
def version4 (seed : Nat) : Uuid :=
  let mask : BitVec 128 := BitVec.ofNat 128 (0xF <<< 76 ||| 0x3 <<< 62)
  let fixed : BitVec 128 := BitVec.ofNat 128 (0x4 <<< 76 ||| 0x2 <<< 62)
  ⟨BitVec.ofNat 128 seed &&& ~~~mask ||| fixed⟩

end Uuid

end DocumentSql
