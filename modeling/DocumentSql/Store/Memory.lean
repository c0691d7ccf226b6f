import DocumentSql.Store.Request
/-
The store in memory. A missing field reads as null, ranges compare values of one kind only, and
regular expressions match texts and the texts of identifiers. Unique indexes are enforced by
insertions, updates and the creation of an index.
-/

namespace DocumentSql

structure Collection where
  documents : List Document := []
  indexes : List Index := []
deriving DecidableEq

abbrev Store := NameMap Collection

namespace Condition

/-- The expression of a `regex` condition on a field's value. -/
def matchesText (items : List Regex.Item) : Value → Bool
  | .text s => Regex.isMatch items s.toList
  | .id u => Regex.isMatch items u.chars
  | _ => false

/-- What the condition says about the value of its field. -/
def test : Condition → Except StoreError (Value → Bool)
  | ⟨_, .eq, value⟩ => .ok fun actual => actual.agrees value
  | ⟨_, .ne, value⟩ => .ok fun actual => !actual.agrees value
  | ⟨_, .lt, value⟩ => .ok fun actual => actual.compare? value == some .lt
  | ⟨_, .lte, value⟩ => .ok fun actual =>
      actual.compare? value == some .lt || actual.compare? value == some .eq
  | ⟨_, .gt, value⟩ => .ok fun actual => actual.compare? value == some .gt
  | ⟨_, .gte, value⟩ => .ok fun actual =>
      actual.compare? value == some .gt || actual.compare? value == some .eq
  | ⟨_, .regex, .text pattern⟩ =>
    match Regex.read? pattern.toList with
    | some items => .ok (matchesText items)
    | none => .error (.backend ("invalid pattern: " ++ pattern))
  | ⟨_, .regex, value⟩ => .error (.backend ("$regex expects text, got " ++ value.kind))

def compile (c : Condition) : Except StoreError (Document → Bool) :=
  c.test.map fun holds d => holds (d.read c.field)

end Condition

namespace Filter

def compile (filter : Filter) : Except StoreError (Document → Bool) :=
  (filter.mapM Condition.compile).map fun tests d => tests.all fun holds => holds d

end Filter

namespace Value

/-- The place of a kind among the others in a sorted list. -/
def sortRank : Value → Nat
  | null => 0
  | number _ => 1
  | text _ => 2
  | id _ => 3
  | bool _ => 4
  | timestamp _ => 5

/-- The order of sorted lists: by kind, and within a kind as values compare. -/
def sortCompare (a b : Value) : Ordering :=
  (compare a.sortRank b.sortRank).then ((a.compare? b).getD .eq)

end Value

namespace SortOrder

def apply : SortOrder → Ordering → Ordering
  | asc, o => o
  | desc, o => o.swap

end SortOrder

namespace Document

def sortCompare (sort : OrderBy) (a b : Document) : Ordering :=
  sort.order.apply ((a.read sort.field).sortCompare (b.read sort.field))

/-- Enters a document from the end of a sorted list that stands last one first, before all that it
precedes. -/
def enterSorted (sort : OrderBy) (d : Document) : List Document → List Document
  | [] => [d]
  | last :: earlier =>
    if sortCompare sort d last = .lt then last :: enterSorted sort d earlier
    else d :: last :: earlier

/-- Stable: documents that compare as equal keep their order, in both directions. -/
def sortBy (sort : OrderBy) (documents : List Document) : List Document :=
  (documents.foldl (fun sorted d => enterSorted sort d sorted) []).reverse

/-- The fields that a projection names and the document has. -/
def project (fields : List String) (d : Document) : Document :=
  if fields.isEmpty then d
  else .ofList (fields.filterMap fun field => (d.get? field).map fun value => (field, value))

/-- Sets one field, and says whether that changed the document. -/
def assign (state : Document × Bool) (field : String × Value) : Document × Bool :=
  if (state.1.get? field.1).any (·.unchanged field.2) then state
  else (state.1.insert field.1 field.2, true)

def assignAll (set d : Document) : Document × Bool := set.fields.foldl assign (d, false)

/-- `id` or else `_id`. -/
def identifier? (d : Document) : Option Value := (d.get? "id").or (d.get? "_id")

end Document

namespace Index

def sameKey (index : Index) (a b : Document) : Bool :=
  index.keys.all fun key => (a.read key).agrees (b.read key)

/-- Whether two documents at different places agree on all keys. -/
def duplicated (index : Index) : List Document → Bool
  | [] => false
  | d :: later => later.any (index.sameKey d) || index.duplicated later

def firstViolated (indexes : List Index) (documents : List Document) : Option Index :=
  (indexes.filter (·.unique)).find? (·.duplicated documents)

end Index

namespace Store

def empty : Store := NameMap.empty

/-- A collection that is not there holds nothing. -/
def collection (s : Store) (name : String) : Collection := (s.get? name).getD {}

/-- The store with the collection in it, new if need be. -/
def ensure (s : Store) (name : String) : Store := s.insertIfNew name {}

def setDocuments (s : Store) (name : String) (documents : List Document) : Store :=
  s.insert name { s.collection name with documents := documents }

def find (name : String) (options : FindOptions) : Operation Store (List Document) := fun s =>
  match Filter.compile options.filter with
  | .error e => (.error e, s)
  | .ok selects =>
    let found := (s.collection name).documents.filter selects
    let sorted := match options.sort with
      | some sort => Document.sortBy sort found
      | none => found
    let skipped := sorted.drop (options.skip.getD 0)
    let page := match options.limit with
      | some n => skipped.take n
      | none => skipped
    (.ok (page.map (Document.project options.projection)), s)

/-- The document with an identifier, and that identifier. -/
def identified (fresh : Uuid) (d : Document) : Document × Value :=
  match d.identifier? with
  | some id => (d, id)
  | none => (d.insert "_id" (.id fresh), .id fresh)

def insert (fresh : Uuid) (name : String) (d : Document) : Operation Store Inserted := fun s =>
  let (d, id) := identified fresh d
  let s := ensure s name
  let c := s.collection name
  match (c.indexes.filter (·.unique)).find? fun index => c.documents.any (index.sameKey · d) with
  | some index => (.error (.duplicateKey name index.name), s)
  | none => (.ok ⟨id, d⟩, setDocuments s name (c.documents ++ [d]))

/-- Nothing is stored if any unique index would be violated. -/
def update (name : String) (filter : Filter) (set : Document) : Operation Store Updated := fun s =>
  match Filter.compile filter with
  | .error e => (.error e, s)
  | .ok selects =>
    match s.get? name with
    | none => (.ok ⟨some 0, some 0⟩, s)
    | some c =>
      let steps := c.documents.map fun d =>
        if selects d then Document.assignAll set d else (d, false)
      let matched := c.documents.countP selects
      let modified := steps.countP (·.2)
      if modified = 0 then (.ok ⟨some matched, some 0⟩, s)
      else
        let documents := steps.map (·.1)
        match Index.firstViolated c.indexes documents with
        | some index => (.error (.duplicateKey name index.name), s)
        | none => (.ok ⟨some matched, some modified⟩, setDocuments s name documents)

def delete (name : String) (filter : Filter) : Operation Store Deleted := fun s =>
  match Filter.compile filter with
  | .error e => (.error e, s)
  | .ok selects =>
    match s.get? name with
    | none => (.ok ⟨some 0⟩, s)
    | some c =>
      let kept := c.documents.filter fun d => !selects d
      (.ok ⟨some (c.documents.length - kept.length)⟩, setDocuments s name kept)

def createIndex (name : String) (index : Index) : Operation Store Unit := fun s =>
  let s := ensure s name
  let c := s.collection name
  if c.indexes.any (·.name == index.name) then (.error (.indexExists index.name), s)
  else if index.unique && index.duplicated c.documents then
    (.error (.duplicateKey name index.name), s)
  else (.ok (), NameMap.insert s name { c with indexes := c.indexes ++ [index] })

def collectionExists (name : String) : Operation Store Bool := fun s => (.ok (s.contains name), s)

def memory : DocumentStore Store where
  find := find
  insert := insert
  update := update
  delete := delete
  createIndex := createIndex
  collectionExists := collectionExists

/-- Replaces the documents of a collection; its indexes stay, unchecked. -/
def seed (s : Store) (name : String) (documents : List Document) : Store :=
  setDocuments (ensure s name) name documents

def documents (s : Store) (name : String) : List Document := (s.collection name).documents

def indexNames (s : Store) (name : String) : List String :=
  (s.collection name).indexes.map (·.name)

end Store

end DocumentSql
