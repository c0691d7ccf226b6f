import DocumentSql.Log
import DocumentSql.Number.Numeral
import DocumentSql.Pattern.Syntax
/-
Directives that say which events are shown. A directive names a target, which is the beginning of a
source, and in brackets a span, a field or both; after an equals sign comes the level.
-/

namespace DocumentSql

namespace Log

/-- A level by name or number; `off` lets nothing through. -/
def verbosity? (s : List Char) : Option Nat :=
  match String.ofList (Text.lower s) with
  | "off" => some 0
  | "error" => some 1
  | "warn" => some 2
  | "info" => some 3
  | "debug" => some 4
  | "trace" => some 5
  | _ =>
    let digits := if s.head? = some '+' then s.drop 1 else s
    let n := Numeral.digitsValue digits
    if !digits.isEmpty && digits.all Char.isDigit && n ≤ 5 then some n else none

inductive DirectiveFault
  | form
  | level
  | field (fault : Regex.Fault)
deriving DecidableEq, Repr

def DirectiveFault.message : DirectiveFault → String
  | form => "invalid filter directive"
  | level =>
    "error parsing level filter: expected one of \"off\", \"error\", \"warn\", \"info\", " ++
      "\"debug\", \"trace\", or a number 0-5"
  | field .malformed => "invalid field filter: error building NFA"
  | field .wordEdge =>
    "invalid field filter: unsupported regex feature for DFAs: cannot build DFAs for regexes " ++
      "with Unicode word boundaries; switch to ASCII word boundaries, or heuristically enable " ++
      "Unicode word boundaries or use a different regex engine"

/-- A field that an event has to have, perhaps with a value that is asked for as well. -/
structure FieldFilter where
  name : List Char
  hasValue : Bool
deriving DecidableEq, Repr

/-- Lets events through up to a verbosity: those of the sources that begin with `target`, inside of
the span and with the field. -/
structure Directive where
  target : Option (List Char) := none
  span : Option (List Char) := none
  field : Option FieldFilter := none
  verbosity : Nat := 5
deriving DecidableEq, Repr

/-- A name, and a value after an equals sign: a number or a pattern. -/
def FieldFilter.ofText (s : List Char) : Except DirectiveFault FieldFilter :=
  match Text.split (· == '=') s with
  | name :: value :: _ =>
    match Numeral.ofText? value, Regex.fault? value with
    | none, some fault => .error (.field fault)
    | _, _ => .ok ⟨name, true⟩
  | _ => .ok ⟨s, false⟩

namespace Directive

def isStart (c : Char) : Bool := Text.isAlphanumeric c || c == '-' || c == ':' || c == '_'

/-- The length of what stands at place `n`, up to one of two characters. -/
def lengthUntil (c d : Char) (n : Nat) (s : List Char) : Nat :=
  ((s.drop n).takeWhile fun e => e ≠ c && e ≠ d).length

def slice (first last : Nat) (s : List Char) : List Char := (s.drop first).take (last - first)

/-- Without a level everything passes. -/
def levelFrom (place : Nat) (s : List Char) : Except DirectiveFault Nat :=
  match s.drop place with
  | [] => .ok 5
  | level =>
    match verbosity? level with
    | some n => .ok n
    | none => .error .level

def afterBrackets (d : Directive) (place : Nat) (trimmed s : List Char) :
    Except DirectiveFault Directive :=
  match trimmed.drop place with
  | [] => .ok d
  | '=' :: _ => (levelFrom (place + 1) s).map fun verbosity => { d with verbosity }
  | _ => .error .form

def inBrackets (target : Option (List Char)) (place : Nat) (trimmed s : List Char) :
    Except DirectiveFault Directive :=
  let spanEnd := place + lengthUntil ']' '\x7b' place trimmed
  let span := slice place spanEnd s
  match trimmed.drop spanEnd with
  | ']' :: _ => afterBrackets { target, span := some span } (spanEnd + 1) trimmed s
  | [] => .error .form
  | _ =>
    let fieldEnd := spanEnd + 1 + lengthUntil '\x7d' '\x7d' (spanEnd + 1) trimmed
    let text := slice (spanEnd + 1) fieldEnd s
    if fieldEnd = trimmed.length ∨ text.isEmpty then .error .form
    else do
      let field ← FieldFilter.ofText text
      let span := if span.isEmpty then none else some span
      match trimmed.drop (fieldEnd + 1) with
      | ']' :: _ => afterBrackets { target, span, field := some field } (fieldEnd + 2) trimmed s
      | _ => .error .form

/-- Reads a directive. A level alone is one for all sources. The parts are looked for without the
blanks around the text, but cut out at the same places of the whole text. -/
def ofText (s : List Char) : Except DirectiveFault Directive :=
  let trimmed := Text.trim s
  if !(trimmed.head?.any fun c => c == '[' || isStart c) then .error .form
  else
    let targetEnd := lengthUntil '=' '[' 0 trimmed
    let target := s.take targetEnd
    match trimmed.drop targetEnd with
    | [] =>
      match verbosity? s with
      | some verbosity => .ok { verbosity }
      | none => .ok { target := some s }
    | '[' :: _ =>
      inBrackets (if targetEnd = 0 then none else some target) (targetEnd + 1) trimmed s
    | _ =>
      (levelFrom (targetEnd + 1) s).map fun verbosity => { target := some target, verbosity }

/-- Whether the directive applies to an event of a source. Events are in no span, and the message is
their only field, whose value is not looked at. -/
def applies (d : Directive) (source : List Char) : Bool :=
  d.target.all (·.isPrefixOf source) && d.span.isNone &&
    d.field.all fun field => field.name = "message".toList && !field.hasValue

/-- How narrow the directive is: first by its target, then by its field. -/
def specificity (d : Directive) : Nat :=
  let target := match d.target with
    | none => 0
    | some target => Text.byteLength target + 1
  2 * target + if d.field.isSome then 1 else 0

end Directive

abbrev Directives := List Directive

def directiveTexts (s : List Char) : List (List Char) :=
  (Text.split (· == ',') s).filter (!·.isEmpty)

/-- Without any directive only errors pass. -/
def orErrors (directives : Directives) : Directives :=
  if directives.isEmpty then [{ verbosity := 1 }] else directives

def Directives.ofText? (s : List Char) : Option Directives :=
  (((directiveTexts s).mapM Directive.ofText).toOption).map orErrors

/-- The directives of a text that can be read, and a remark on each other one. -/
def Directives.ofTextLossy (s : List Char) : Directives × List String :=
  let read := (directiveTexts s).map fun text => (text, Directive.ofText text)
  let faults := read.filterMap fun (text, directive) =>
    match directive with
    | .ok _ => none
    | .error fault => some ("ignoring `" ++ String.ofList text ++ "`: " ++ fault.message)
  (orErrors (read.filterMap fun (_, directive) => directive.toOption), faults)

/-- The last of the narrowest directives that apply. -/
def Directives.decisive (directives : Directives) (source : List Char) : Option Directive :=
  directives.foldl
    (fun best d =>
      if !d.applies source then best
      else match best with
        | none => some d
        | some b => if b.specificity ≤ d.specificity then some d else best)
    none

def Directives.shows (directives : Directives) (event : Event) : Bool :=
  match directives.decisive event.source.toList with
  | some d => event.level.verbosity ≤ d.verbosity
  | none => false

end Log

end DocumentSql
