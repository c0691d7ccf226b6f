import DocumentSql.Text
/- Field names in two spellings: `created_at` for callers, `createdAt` in the store. -/

namespace DocumentSql.NameCase

/-- Each underscore that a lower-case letter follows goes, and the letter rises. -/
def joinWords : List Char → List Char
  | [] => []
  | '_' :: c :: rest =>
    if c.isLower then c.toUpper :: joinWords rest else '_' :: joinWords (c :: rest)
  | c :: rest => c :: joinWords rest

/-- Each upper-case letter falls, with an underscore before it. -/
def splitWords : List Char → List Char
  | [] => []
  | c :: rest => if c.isUpper then '_' :: c.toLower :: splitWords rest else c :: splitWords rest

/-- A leading underscore is kept, so `_id` is its own store spelling. -/
def toStore : List Char → List Char
  | [] => []
  | c :: rest => c :: joinWords rest

def toCaller : List Char → List Char
  | [] => []
  | c :: rest => c.toLower :: splitWords rest

def storeName (name : String) : String := String.ofList (toStore name.toList)

def callerName (name : String) : String := String.ofList (toCaller name.toList)

end DocumentSql.NameCase
