import DocumentSql.Number.Numeral
import DocumentSql.Text.Bytes
/-
Hosts in addresses: names, and the numeric forms of both versions of the protocol. `isIpv4` and
`isIpv6` take the plain forms alone; an address for the web may write its numbers in other ways.
-/

namespace DocumentSql.Host

inductive Fault
  | empty
  | ipv4
  | ipv6
  | character
  | name
deriving DecidableEq, Repr

def Fault.message : Fault → String
  | empty => "empty host"
  | ipv4 => "invalid IPv4 address"
  | ipv6 => "invalid IPv6 address"
  | character => "invalid domain character"
  | name => "invalid international domain name"

/-! The plain forms -/

/-- A number up to 255 without leading zeros. -/
def isOctet (s : List Char) : Bool :=
  !s.isEmpty && s.length ≤ 3 && s.all Char.isDigit && Numeral.digitsValue s ≤ 255 &&
    (s.length == 1 || s.head? != some '0')

def isIpv4 (s : List Char) : Bool :=
  let parts := Text.split (· == '.') s
  parts.length == 4 && parts.all isOctet

def isGroup (s : List Char) : Bool :=
  !s.isEmpty && s.length ≤ 4 && s.all fun c => (Text.hexValue? c).isSome

/-- How many groups of 16 bits the parts between colons are. The last part may be an address of the
other version, which counts as two. -/
def countGroups : List (List Char) → Option Nat
  | [] => some 0
  | [part] => if isGroup part then some 1 else if isIpv4 part then some 2 else none
  | part :: parts => if isGroup part then (countGroups parts).map (· + 1) else none

def cutAtGap : List Char → Option (List Char × List Char)
  | ':' :: ':' :: rest => some ([], rest)
  | c :: rest => (cutAtGap rest).map fun (before, after) => (c :: before, after)
  | [] => none

def colonParts (s : List Char) : List (List Char) :=
  if s.isEmpty then [] else Text.split (· == ':') s

/-- Eight groups, of which a double colon stands for one or more. -/
def isIpv6 (s : List Char) : Bool :=
  match cutAtGap s with
  | none => countGroups (colonParts s) == some 8
  | some (before, after) =>
    match (colonParts before).all isGroup, countGroups (colonParts after) with
    | true, some n => (colonParts before).length + n ≤ 7
    | _, _ => false

/-! Hosts of the web -/

/-- Why a part of a host is not a number to be used. -/
inductive PartFault
  | notNumber
  | tooLarge
deriving DecidableEq, Repr

/-- The value of digits to the base 8, 10 or 16, of which there may be none. -/
def digitsOf (base : Nat) (s : List Char) : Except PartFault Nat :=
  let digit? (c : Char) : Option Nat := (Text.hexValue? c).filter (· < base)
  match s.foldlM (fun n c => (digit? c).map (base * n + ·)) 0 with
  | none => .error .notNumber
  | some n => if n < twoTo 32 then .ok n else .error .tooLarge

/-- A number in a host. A leading `0x` or `0` sets its base. -/
def hostNumber : List Char → Except PartFault Nat
  | [] => .error .notNumber
  | '0' :: 'x' :: rest => digitsOf 16 rest
  | '0' :: 'X' :: rest => digitsOf 16 rest
  | '0' :: c :: rest => digitsOf 8 (c :: rest)
  | s => digitsOf 10 s

/-- The parts between points; one point at the end does not count. -/
def pointParts (s : List Char) : List (List Char) :=
  let parts := Text.split (· == '.') s
  if 1 < parts.length ∧ parts.getLast? = some [] then parts.dropLast else parts

/-- A host whose last part is a number can only be an address. -/
def endsInNumber (s : List Char) : Bool :=
  match (pointParts s).getLast? with
  | none => false
  | some part =>
    match hostNumber part with
    | .error .notNumber => !part.isEmpty && part.all Char.isDigit
    | _ => true

/-- Up to four numbers, the last of which fills what the others leave. -/
def isNumericHost (s : List Char) : Bool :=
  match (pointParts s).mapM hostNumber with
  | .error _ => false
  | .ok numbers =>
    numbers.length ≤ 4 && numbers.dropLast.all (· ≤ 255) &&
      match numbers.getLast? with
      | some last => last < twoTo (8 * (5 - numbers.length))
      | none => false

def isForbidden (c : Char) : Bool :=
  c.toNat = 0 || "\t\n\r #/:<>?@[\\]^|".toList.contains c

/-- Characters that no name has once it is decoded. -/
def isForbiddenInName (c : Char) : Bool :=
  c.toNat ≤ 0x20 || c.toNat = 0x7F || c = '%' || c = '\uFFFD' || isForbidden c

def bracketed (s : List Char) : Except Fault Unit :=
  if s.getLast? = some ']' ∧ isIpv6 (s.drop 1).dropLast then .ok () else .error .ipv6

/-- Checks a host whose form only its scheme knows. It may be empty. -/
def checkOpaque (s : List Char) : Except Fault Unit :=
  if s.head? = some '[' then bracketed s
  else if s.any isForbidden then .error .character
  else .ok ()

def checkDomain (s : List Char) : Except Fault Unit :=
  if s.head? = some '[' then bracketed s
  else
    let name := Text.decodeLossy (Text.percentDecode s)
    if name.any isForbiddenInName then .error .name
    else if name.isEmpty then .error .empty
    else if endsInNumber name && !isNumericHost name then .error .ipv4
    else .ok ()

end DocumentSql.Host
