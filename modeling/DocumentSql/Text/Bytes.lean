import DocumentSql.Text
/-
Texts as bytes: UTF-8 with the place and extent of what is wrong, and the percent escapes of
addresses.
-/

namespace DocumentSql.Text

/-- What is wrong with bytes as UTF-8. An incomplete sequence stands at the end. -/
inductive Utf8Fault
  | invalid (length index : Nat)
  | incomplete (index : Nat)
deriving DecidableEq, Repr

def Utf8Fault.message : Utf8Fault → String
  | invalid length index =>
    "invalid utf-8 sequence of " ++ toString length ++ " bytes from index " ++ toString index
  | incomplete index => "incomplete utf-8 byte sequence from index " ++ toString index

def tailLength? (b : UInt8) : Option Nat :=
  if b < 0x80 then some 0
  else if 0xC2 ≤ b ∧ b ≤ 0xDF then some 1
  else if 0xE0 ≤ b ∧ b ≤ 0xEF then some 2
  else if 0xF0 ≤ b ∧ b ≤ 0xF4 then some 3
  else none

def isContinuation (b : UInt8) : Bool := 0x80 ≤ b && b ≤ 0xBF

/-- Whether `b` may follow the first byte: no character has two forms, no surrogate has any. -/
def mayFollow (first b : UInt8) : Bool :=
  isContinuation b &&
    if first = 0xE0 then 0xA0 ≤ b
    else if first = 0xED then b ≤ 0x9F
    else if first = 0xF0 then 0x90 ≤ b
    else if first = 0xF4 then b ≤ 0x8F
    else true

def soundTail (first : UInt8) (tail : List UInt8) : List UInt8 :=
  match tail with
  | b :: rest => if mayFollow first b then b :: rest.takeWhile isContinuation else []
  | [] => []

def charOfBytes (first : UInt8) (tail : List UInt8) : Char :=
  let base := if tail.isEmpty then 0
    else if tail.length = 1 then 0xC0 else if tail.length = 2 then 0xE0 else 0xF0
  Char.ofNat (tail.foldl (fun n b => 64 * n + (b.toNat - 0x80)) (first.toNat - base))

def decodeFirst (index : Nat) (first : UInt8) (rest : List UInt8) : Except Utf8Fault Char × Nat :=
  match tailLength? first with
  | none => (.error (.invalid 1 index), 1)
  | some n =>
    let tail := soundTail first (rest.take n)
    if tail.length = n then (.ok (charOfBytes first tail), n + 1)
    else if tail.length = rest.length then (.error (.incomplete index), rest.length + 1)
    else (.error (.invalid (tail.length + 1) index), tail.length + 1)

/-- The characters and faults from a place on; `bound` is the number of bytes left. -/
def decodeFrom : Nat → Nat → List UInt8 → List (Except Utf8Fault Char)
  | 0, _, _ => []
  | _ + 1, _, [] => []
  | bound + 1, index, first :: rest =>
    let (c, size) := decodeFirst index first rest
    c :: decodeFrom bound (index + size) (rest.drop (size - 1))

def decode (bytes : List UInt8) : Except Utf8Fault (List Char) :=
  (decodeFrom bytes.length 0 bytes).mapM id

/-- Each fault becomes one replacement character. -/
def decodeLossy (bytes : List UInt8) : List Char :=
  (decodeFrom bytes.length 0 bytes).map fun c => c.toOption.getD '\uFFFD'

/-- The bytes of a text in which `%` and two digits stand for a byte. -/
def percentDecode : List Char → List UInt8
  | [] => []
  | '%' :: a :: b :: rest =>
    match hexValue? a, hexValue? b with
    | some high, some low => UInt8.ofNat (16 * high + low) :: percentDecode rest
    | _, _ => String.utf8EncodeChar '%' ++ percentDecode (a :: b :: rest)
  | c :: rest => String.utf8EncodeChar c ++ percentDecode rest

end DocumentSql.Text
