import DocumentSql.Grammar.Token
/- Positions and texts of parse errors. -/

namespace DocumentSql

namespace ParseError

/-- A fault at the first lexeme of `rest`, which is an end of the text `full`. -/
def faultAt (full rest : List Char) (reason : String) : ParseError :=
  let rest := Token.skipGap rest
  let near := if rest.isEmpty then "end of input" else "'" ++ String.ofList (rest.take 24) ++ "'"
  ⟨Text.byteLength full - Text.byteLength rest, reason ++ " near " ++ near⟩

end ParseError

/-- Readers of which a failure is an error of the whole statement. -/
abbrev Parse (α : Type) := Except ParseError α

namespace Token

/-- Requires a lexeme and says what it would have been. -/
def expect {α : Type} (full s : List Char) (reader : Reader α) (what : String) :
    Parse (α × List Char) :=
  match reader s with
  | some read => .ok read
  | none => .error (.faultAt full s ("expected " ++ what))

def expectText (full s : List Char) (reader : List Char → Option (List Char)) (what : String) :
    Parse (List Char) :=
  match reader s with
  | some rest => .ok rest
  | none => .error (.faultAt full s ("expected " ++ what))

def optional (reader : List Char → Option (List Char)) (s : List Char) : Bool × List Char :=
  match reader s with
  | some rest => (true, rest)
  | none => (false, s)

/-- Nothing may follow but one semicolon. -/
def endOfStatement (full s : List Char) : Parse Unit :=
  let rest := skipGap (optional (symbol ";") s).2
  if rest.isEmpty then .ok () else .error (.faultAt full rest "unexpected trailing content")

end Token

end DocumentSql
