import DocumentSql.Grammar.Reader
import DocumentSql.Proofs.Grammar.Token
import Mathlib.Computability.Language
/-
The grammar of statements: for each tree, the lexemes it can be written with. A language is a set of
sequences of lexemes; a product puts sequences one after another, a sum leaves a choice, and 1 is
the empty sequence.

What stands for a value is a parameter of the grammar. Texts of a user spell literals; a reader also
meets the calls that stand for generated values.
-/

namespace DocumentSql.Grammar

abbrev Tokens := Language Lexeme

/-- A word or a symbol from a list; names between quotes are neither. -/
def IsOneOf (words signs : List String) : Lexeme → Prop
  | .word letters => String.ofList (Text.lower letters) ∈ words
  | .symbol mark => mark ∈ signs
  | _ => False

section Lists

variable {words signs : List String}

theorem isOneOf_word {letters : List Char} {kw : String}
    (hletters : Text.lower letters = kw.toList) :
    IsOneOf words signs (.word letters) ↔ kw ∈ words := by
  rw [IsOneOf, hletters, String.ofList_toList]

theorem IsOneOf.mono {words' signs' : List String} {l : Lexeme} (h : IsOneOf words' signs' l)
    (hwords : words' ⊆ words) (hsigns : signs' ⊆ signs) : IsOneOf words signs l := by
  cases l with
  | word letters => exact hwords h
  | symbol mark => exact hsigns h
  | _ => exact h

end Lists

section Lexemes

/-- A word in any letter case. -/
def keyword (kw : String) : Tokens :=
  {ls | ∃ letters, Text.lower letters = kw.toList ∧ ls = [.word letters]}

def keywords (kws : List String) : Tokens := (kws.map keyword).prod

def symbol (mark : String) : Tokens := {[.symbol mark]}

/-- A name between double quotes, or bare if it is no reserved word. -/
def name (n : String) : Tokens := {ls | ∃ l : Lexeme, l.Names n ∧ ls = [l]}

def anyName : Tokens := {ls | ∃ n, ls ∈ name n}

/-- A parameter that 32 bits can count. -/
def parameter (n : Nat) : Tokens :=
  {ls | ∃ digits, Numeral.Spells digits n ∧ 0 < n ∧ n < 2 ^ 32 ∧ ls = [.parameter digits]}

def text (s : String) : Tokens := {[.text s.toList]}

/-- A row count of 32 bits. -/
def count (n : Nat) : Tokens :=
  {ls | ∃ digits, Numeral.Spells digits n ∧ n < 2 ^ 32 ∧ ls = [.number false digits []]}

def comparison (c : Comparison) : Tokens := {ls | ∃ mark ∈ c.marks, ls = [.symbol mark]}

end Lexemes

section Combinations

variable {α : Type}

def optional (language : Tokens) : Tokens := language + 1

def flag (language : Tokens) : Bool → Tokens
  | true => language
  | false => 1

def followers (separator : Tokens) (item : α → Tokens) : List α → Tokens
  | [] => 1
  | a :: more => separator * (item a * followers separator item more)

def separated (separator : Tokens) (item : α → Tokens) : List α → Tokens
  | [] => 0
  | a :: more => item a * followers separator item more

def commaList (item : α → Tokens) : List α → Tokens := separated (symbol ",") item

def parenthesized (language : Tokens) : Tokens := symbol "(" * (language * symbol ")")

end Combinations

section Values

def call (kw : String) : Tokens := keyword kw * (symbol "(" * symbol ")")

def marker : Marker → Tokens
  | .currentTimestamp => call "now" + call "current_timestamp" + keyword "current_timestamp"
  | .generateId => call "gen_random_uuid" + call "uuid_generate_v4"

/-- What a reader takes for a value: literals, parameters, and the calls that stand for the clock
and for fresh identifiers. -/
def value (moment : Moment) : ValueSource → Tokens
  | .parameter n => parameter n
  | .literal .null => keyword "null"
  | .literal (.bool true) => keyword "true"
  | .literal (.bool false) => keyword "false"
  | .literal (.number x) => {ls | ∃ negative whole places,
      Numeral.Denotes negative whole places x ∧ ls = [.number negative whole places]}
  | .literal (.text s) => text s
  | .literal (.timestamp t) =>
      {ls | (∃ place, t = moment.now place) ∧ ls ∈ marker .currentTimestamp}
  | .literal (.id u) => {ls | (∃ place, u = moment.fresh place) ∧ ls ∈ marker .generateId}

/-- What a user writes for a value. An integer that a number holds exactly has its sign and its
digits. -/
def written : ValueSource → Tokens
  | .parameter n => parameter n
  | .literal .null => keyword "null"
  | .literal (.bool true) => keyword "true"
  | .literal (.bool false) => keyword "false"
  | .literal (.number x) => {ls | ∃ (i : Int) (digits : List Char), i.natAbs ≤ 2 ^ 53 ∧
      x = Binary64.ofInt i ∧ Numeral.Spells digits i.natAbs ∧
      ls = [.number (decide (i < 0)) digits []]}
  | .literal (.text s) => text s
  | .literal (.timestamp _) | .literal (.id _) => 0

def pattern : ValueSource → Tokens
  | .literal (.text s) => text s
  | .parameter n => parameter n
  | .literal _ => 0

end Values

section Statements

variable (V : ValueSource → Tokens)

def condition : Predicate → Tokens
  | .isNull field => name field * keywords ["is", "null"]
  | .isNotNull field => name field * keywords ["is", "not", "null"]
  | .like field p => name field * ((keyword "like" + keyword "ilike") * pattern p)
  | .compare field c operand => name field * (comparison c * V operand)

def conditions : List Predicate → Tokens := separated (keyword "and") (condition V)

def whereClause : List Predicate → Tokens
  | [] => 1
  | p :: more => keyword "where" * conditions V (p :: more)

def projection : List String → Tokens
  | [] => symbol "*"
  | n :: more => commaList name (n :: more)

def order : SortOrder → Tokens
  | .asc => optional (keyword "asc")
  | .desc => keyword "desc"

def orderBy : Option OrderBy → Tokens
  | none => 1
  | some o => keywords ["order", "by"] * (name o.field * order o.order)

def countClause (kw : String) : Option Nat → Tokens
  | none => 1
  | some n => keyword kw * count n

def page (limit offset : Option Nat) : Tokens :=
  countClause "limit" limit * countClause "offset" offset +
    countClause "offset" offset * countClause "limit" limit

def ending : Tokens := optional (symbol ";")

def select (s : Select) : Tokens :=
  keyword "select" * (projection s.projection * (keyword "from" * (name s.collection *
    (whereClause V s.predicates * (orderBy s.orderBy * (page s.limit s.offset * ending))))))

def returning : Option (List String) → Tokens
  | none => 1
  | some columns => keyword "returning" * projection columns

def insert (s : Insert) : Tokens :=
  keywords ["insert", "into"] * (name s.collection *
    (parenthesized (commaList name (s.fields.map (·.1))) * (keyword "values" *
      (parenthesized (commaList V (s.fields.map (·.2))) * (returning s.returning * ending)))))

def assignment (a : String × ValueSource) : Tokens := name a.1 * (symbol "=" * V a.2)

def update (s : Update) : Tokens :=
  keyword "update" * (name s.collection * (keyword "set" *
    (commaList (assignment V) s.assignments * (whereClause V s.predicates * ending))))

def delete (s : Delete) : Tokens :=
  keywords ["delete", "from"] * (name s.collection * (whereClause V s.predicates * ending))

/-- The direction of an indexed field does not count. -/
def column (field : String) : Tokens :=
  name field * optional (keyword "asc" + keyword "desc")

/-- An index without a name of its own has the default name. -/
def indexName (s : CreateIndex) : Tokens :=
  {ls | ls ∈ name s.indexName ∨
    ls = [] ∧ s.indexName = CreateIndex.defaultName s.collection s.fields}

/-- The access method does not count either. -/
def method : Tokens := optional (keyword "using" * anyName)

def createIndex (s : CreateIndex) : Tokens :=
  keyword "create" * (flag (keyword "unique") s.unique * (keyword "index" *
    (flag (keywords ["if", "not", "exists"]) s.ifNotExists * (indexName s * (keyword "on" *
      (name s.collection * (method * (parenthesized (commaList column s.fields) * ending))))))))

/-- The statements that a document store acts on. -/
def statement : Statement → Tokens
  | .select s => select V s
  | .insert s => insert V s
  | .update s => update V s
  | .delete s => delete V s
  | .createIndex s => createIndex s
  | _ => 0

end Statements

end DocumentSql.Grammar
