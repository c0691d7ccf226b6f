import DocumentSql.Relational.Host
import DocumentSql.Text.Quoted
/-
Addresses of relational servers. They are URLs: a scheme, who connects to which host, the name of a
database, and parameters after a question mark.
-/

namespace DocumentSql

/-- What an address comes to: the directory of a local socket, if it names one. -/
structure Address where
  socket : Option String := none
deriving DecidableEq, Repr

namespace Address

inductive Fault
  | noScheme
  | host (fault : Host.Fault)
  | port
  | text (fault : Text.Utf8Fault)
  | number (fault : Numeral.LimitFault)
  | encryption (mode : String)
  | ipSyntax
deriving DecidableEq, Repr

def configurationMessage (cause : String) : String := "error with configuration: " ++ cause

def Fault.cause : Fault → String
  | noScheme => "relative URL without a base"
  | host fault => fault.message
  | port => "invalid port number"
  | text fault => fault.message
  | number fault => fault.message
  | encryption mode =>
    configurationMessage ("unknown value " ++ Text.quote mode ++ " for `ssl_mode`")
  | ipSyntax => "invalid IP address syntax"

def Fault.message (fault : Fault) : String := configurationMessage fault.cause

inductive SchemeKind
  | web
  | file
  | other
deriving DecidableEq, Repr

def SchemeKind.ofName (name : List Char) : SchemeKind :=
  match String.ofList (Text.lower name) with
  | "http" | "https" | "ws" | "wss" | "ftp" => web
  | "file" => file
  | _ => other

/-- Without the controls and blanks at both ends and the line breaks and tabs everywhere. -/
def clean (s : List Char) : List Char :=
  let isEdge (c : Char) : Bool := c.toNat ≤ 0x20
  let trimmed := ((s.dropWhile isEdge).reverse.dropWhile isEdge).reverse
  trimmed.filter fun c => c ≠ '\t' && c ≠ '\n' && c ≠ '\r'

/-- A scheme is a letter, then letters, digits and `+`, `-`, `.`, up to a colon. -/
def scheme? (s : List Char) : Option (SchemeKind × List Char) :=
  let isInner (c : Char) : Bool := c.isAlphanum || c == '+' || c == '-' || c == '.'
  if !(s.head?.any Char.isAlpha) then none
  else
    match s.dropWhile isInner with
    | ':' :: rest => some (.ofName (s.takeWhile isInner), rest)
    | _ => none

def isSlash (kind : SchemeKind) (c : Char) : Bool := c == '/' || (kind ≠ .other && c == '\\')

def isAuthorityEnd (kind : SchemeKind) (c : Char) : Bool := isSlash kind c || c == '?' || c == '#'

def cutAtLastAt (s : List Char) : Option (List Char × List Char) :=
  match s.reverse.dropWhile (· ≠ '@') with
  | _ :: before => some (before.reverse, (s.reverse.takeWhile (· ≠ '@')).reverse)
  | [] => none

/-- The length of the host: it ends at a colon that no brackets enclose. -/
def hostLength : Bool → List Char → Nat
  | _, [] => 0
  | enclosed, c :: rest =>
    if c = ':' ∧ !enclosed then 0
    else hostLength (if c = '[' then true else if c = ']' then false else enclosed) rest + 1

/-- Checks a port up to the end of the part with the host; it may be empty. -/
def checkPort (s : List Char) : Except Fault Unit :=
  let digits := s.takeWhile (· ≠ '\\')
  if digits.all Char.isDigit && Numeral.digitsValue digits ≤ 65535 then .ok () else .error .port

/-- Checks host and port; `named` says that somebody is named who connects. -/
def checkHostAndPort (kind : SchemeKind) (named : Bool) (s : List Char) : Except Fault Unit := do
  let n := hostLength false s
  let host := s.take n
  let port := s.drop n
  if host.isEmpty ∧ (kind = .web ∨ !port.isEmpty) then throw (.host .empty)
  (if kind = .web then Host.checkDomain host else Host.checkOpaque host).mapError .host
  checkPort (port.drop 1)
  if host.isEmpty ∧ named then throw (.host .empty)

/-- Checks that a text with escapes is one in UTF-8. -/
def checkText (s : List Char) : Except Fault (List Char) :=
  (Text.decode (Text.percentDecode s)).mapError .text

def isHere (part : List Char) : Bool :=
  [".", "%2e"].contains (String.ofList (Text.lower part))

def isAbove (part : List Char) : Bool :=
  ["..", ".%2e", "%2e.", "%2e%2e"].contains (String.ofList (Text.lower part))

/-- The parts of a path from its root, last one first, after those in `done`. -/
def resolve (done : List (List Char)) : List (List Char) → List (List Char)
  | [] => done
  | part :: rest =>
    let done := if isAbove part then done.drop 1 else done
    if isAbove part ∨ isHere part then resolve (if rest.isEmpty then [] :: done else done) rest
    else resolve (part :: done) rest

/-- A path with the names of places replaced, without its first slashes. -/
def plainPath (kind : SchemeKind) (s : List Char) : List Char :=
  let s := match s with
    | c :: rest => if isSlash kind c then rest else c :: rest
    | [] => []
  let parts := (resolve [] (Text.split (isSlash kind) s)).reverse
  (['/'].intercalate parts).dropWhile (· == '/')

def parameter (s : List Char) : String × List Char :=
  let read (t : List Char) : List Char :=
    Text.decodeLossy (Text.percentDecode (t.map fun c => if c = '+' then ' ' else c))
  (String.ofList (read (s.takeWhile (· ≠ '='))), read ((s.dropWhile (· ≠ '=')).drop 1))

def parameters (query : List Char) : List (String × List Char) :=
  ((Text.split (· == '&') query).filter (!·.isEmpty)).map parameter

def encryptionModes : List String :=
  ["disable", "allow", "prefer", "require", "verify-ca", "verify-full"]

/-- Takes one parameter over. Those that no answer depends on are left out. -/
def setParameter (address : Address) : String × List Char → Except Fault Address
  | (key, value) =>
    match key with
    | "sslmode" | "ssl-mode" =>
      if encryptionModes.contains (String.ofList (Text.lower value)) then .ok address
      else .error (.encryption (String.ofList value))
    | "statement-cache-capacity" =>
      ((Numeral.upTo (twoTo 64 - 1) value).mapError .number).map fun _ => address
    | "port" => ((Numeral.upTo 65535 value).mapError .number).map fun _ => address
    | "hostaddr" =>
      if Host.isIpv4 value || Host.isIpv6 value then .ok address else .error .ipSyntax
    | "host" =>
      if value.head? = some '/' then .ok { address with socket := some (String.ofList value) }
      else .ok address
    | _ => .ok address

structure Parts where
  user : List Char := []
  password : List Char := []
  host : List Char := []
  path : List Char := []
  query : List Char := []

def Parts.ofPath (kind : SchemeKind) (opaquely : Bool) (s : List Char) : Parts :=
  let path := s.takeWhile fun c => c ≠ '?' && c ≠ '#'
  let query := match s.dropWhile fun c => c ≠ '?' && c ≠ '#' with
    | '?' :: query => query.takeWhile (· ≠ '#')
    | _ => []
  { path := if opaquely then path.dropWhile (· == '/') else plainPath kind path, query }

/-- What follows the two slashes: perhaps who connects, the host and the path. -/
def Parts.ofAuthority (kind : SchemeKind) (s : List Char) : Except Fault Parts := do
  let authority := s.takeWhile fun c => !isAuthorityEnd kind c
  let rest := s.dropWhile fun c => !isAuthorityEnd kind c
  let (identity, place) ← match cutAtLastAt authority with
    | none => pure ([], authority)
    | some ([], place) =>
      if place.isEmpty ∧ !rest.isEmpty then throw (.host .empty) else pure ([], place)
    | some cut => pure cut
  let user := identity.takeWhile (· ≠ ':')
  let password := (identity.dropWhile (· ≠ ':')).drop 1
  checkHostAndPort kind (!user.isEmpty || !password.isEmpty) place
  let host := place.take (hostLength false place)
  let afterPort := (place.drop host.length).dropWhile (· ≠ '\\')
  return { Parts.ofPath kind false (afterPort ++ rest) with user, password, host }

/-- The letter of a drive, which is no host. -/
def isDrive : List Char → Bool
  | [letter, mark] => letter.isAlpha && (mark == ':' || mark == '|')
  | _ => false

/-- A file may have a host after two slashes. -/
def Parts.ofFile (s : List Char) : Except Fault Parts := do
  match s with
  | c :: d :: rest =>
    if isSlash .file c && isSlash .file d then
      let host := rest.takeWhile fun c => !isAuthorityEnd .file c
      if host.isEmpty || isDrive host then return .ofPath .file false rest
      (Host.checkDomain host).mapError .host
      return .ofPath .file false (rest.dropWhile fun c => !isAuthorityEnd .file c)
    else return .ofPath .file false s
  | _ => return .ofPath .file false s

def Parts.ofText (text : List Char) : Except Fault Parts :=
  match scheme? (clean text) with
  | none => .error .noScheme
  | some (.file, rest) => Parts.ofFile rest
  | some (.web, rest) => Parts.ofAuthority .web (rest.dropWhile (isSlash .web))
  | some (.other, rest) =>
    match rest with
    | '/' :: '/' :: rest => Parts.ofAuthority .other rest
    | '/' :: rest => .ok (Parts.ofPath .other false ('/' :: rest))
    | rest => .ok (Parts.ofPath .other true rest)

/-- Reads an address. A host that begins with a slash, once decoded, is the directory of a local
socket. -/
def ofText (text : String) : Except Fault Address := do
  let parts ← Parts.ofText text.toList
  let address ←
    if (Text.percentDecode parts.host).head? = some 0x2F then
      (checkText parts.host).map fun path => { socket := some (String.ofList path) : Address }
    else pure {}
  discard (checkText parts.user)
  discard (checkText parts.password)
  discard (checkText parts.path)
  (parameters parts.query).foldlM setParameter address

end Address

end DocumentSql
