import DocumentSql.Proofs.NameCase
import DocumentSql.Proofs.Traversal
import DocumentSql.Row
/-
The rows of the two kinds of stores. A row adds the other spelling of each name where it is free, so
what it shows is plain only if no two names meet in a spelling. Names without upper-case letters do
not meet, and rows of columns so named are those of the document that has the same names as a store
spells them. Whatever the names, each value of a row is that of a field that callers spell as the
name.
-/

namespace DocumentSql

namespace NameMap

variable {α : Type} {m : NameMap α} {spelling : String → String} {name : String} {value : α}

def renamed (spelling : String → String) (m : NameMap α) : NameMap α :=
  ofList (m.fields.map fun entry => (spelling entry.1, entry.2))

theorem get?_eq_some_iff : m.get? name = some value ↔ (name, value) ∈ m.fields :=
  ⟨Fields.mem_of_get?, Fields.get?_of_mem m.ordered⟩

theorem mem_keys_iff : name ∈ m.keys ↔ ∃ value, m.get? name = some value := by
  simp only [keys, List.mem_map, get?_eq_some_iff]
  constructor
  · rintro ⟨entry, hmem, rfl⟩
    exact ⟨entry.2, hmem⟩
  · rintro ⟨value, hmem⟩
    exact ⟨(name, value), hmem, rfl⟩

/-- No two names share a spelling, and none is the spelling of another. -/
structure Separates (spelling : String → String) (m : NameMap α) : Prop where
  injective : ∀ a ∈ m.keys, ∀ b ∈ m.keys, spelling a = spelling b → a = b
  apart : ∀ a ∈ m.keys, spelling a ∈ m.keys → spelling a = a

theorem get?_renamed (h : ∀ a ∈ m.keys, ∀ b ∈ m.keys, spelling a = spelling b → a = b) :
    (m.renamed spelling).get? name = some value ↔
      ∃ key, m.get? key = some value ∧ spelling key = name := by
  have hsound : ∀ {value}, (m.renamed spelling).get? name = some value →
      ∃ key, m.get? key = some value ∧ spelling key = name := fun hget => by
    obtain ⟨⟨key, v⟩, hmem, heq⟩ := List.mem_map.mp (mem_of_get?_ofList hget)
    obtain ⟨rfl, rfl⟩ := Prod.mk.inj heq
    exact ⟨key, get?_eq_some_iff.mpr hmem, rfl⟩
  refine ⟨hsound, ?_⟩
  rintro ⟨key, hkey, rfl⟩
  have hmem : (spelling key, value) ∈ m.fields.map fun entry => (spelling entry.1, entry.2) :=
    List.mem_map.mpr ⟨(key, value), get?_eq_some_iff.mp hkey, rfl⟩
  obtain ⟨found, hfound⟩ := exists_get?_ofList hmem
  obtain ⟨other, hother, hsame⟩ := hsound hfound
  have hknown : other ∈ m.keys := mem_keys_iff.mpr ⟨found, hother⟩
  obtain rfl := h other hknown key (mem_keys_iff.mpr ⟨value, hkey⟩) hsame
  rwa [← hother.symm.trans hkey]

end NameMap

namespace Row

variable {spelling : String → String}

def addAlias (spelling : String → String) (row : Row) (field : String × Value) : Row :=
  if spelling field.1 = field.1 then row else row.insertIfNew (spelling field.1) field.2

/-- The first field of a list that has the name for its other spelling. -/
def alias? (spelling : String → String) (fields : List (String × Value)) (name : String) :
    Option Value :=
  fields.findSome? fun field => if spelling field.1 = name then some field.2 else none

theorem alias?_cons (field : String × Value) (rest : List (String × Value)) (name : String) :
    alias? spelling (field :: rest) name =
      (if spelling field.1 = name then some field.2 else none).or (alias? spelling rest name) := by
  by_cases hname : spelling field.1 = name <;> simp [alias?, hname]

theorem get?_addAlias {row : Row} {key : String} (hkey : row.contains key = true) (value : Value)
    (name : String) : (addAlias spelling row (key, value)).get? name =
      (row.get? name).or (if spelling key = name then some value else none) := by
  obtain ⟨present, hpresent⟩ := Option.isSome_iff_exists.mp hkey
  unfold addAlias
  dsimp only
  by_cases hname : spelling key = name
  · subst hname
    rw [if_pos rfl]
    split
    · next hsame =>
      rw [hsame, hpresent]
      rfl
    · rw [NameMap.get?_insertIfNew, if_pos rfl]
      cases row.get? (spelling key) <;> rfl
  · rw [if_neg hname, Option.or_none]
    split
    · rfl
    · rw [NameMap.get?_insertIfNew, if_neg (Ne.symm hname)]

theorem get?_foldl_addAlias (fields : List (String × Value)) (row : Row)
    (h : ∀ field ∈ fields, row.contains field.1 = true) (name : String) :
    (fields.foldl (addAlias spelling) row).get? name =
      (row.get? name).or (alias? spelling fields name) := by
  induction fields generalizing row with
  | nil => exact (Option.or_none).symm
  | cons field rest ih =>
    obtain ⟨hfield, hrest⟩ := List.forall_mem_cons.mp h
    have hkept : ∀ later ∈ rest, (addAlias spelling row field).contains later.1 = true :=
      fun later hlater => by
        rw [NameMap.contains, get?_addAlias hfield, Option.isSome_or]
        exact Bool.or_eq_true_iff.mpr (.inl (hrest later hlater))
    rw [List.foldl_cons, ih _ hkept, get?_addAlias hfield, Option.or_assoc, alias?_cons]

/-- A field keeps its name; any other name shows the first field that is spelled so. -/
theorem get?_withAliases (spelling : String → String) (fields : NameMap Value) (name : String) :
    (withAliases spelling fields).get? name =
      (fields.get? name).or (alias? spelling fields.fields name) := by
  refine get?_foldl_addAlias fields.fields fields (fun field hfield => ?_) name
  rw [NameMap.contains, NameMap.get?_eq_some_iff.mpr hfield]
  rfl

theorem alias?_eq_none_iff {fields : List (String × Value)} {name : String} :
    alias? spelling fields name = none ↔ ∀ field ∈ fields, spelling field.1 ≠ name := by
  simp only [alias?, List.findSome?_eq_none_iff, ite_eq_right_iff, reduceCtorEq, ne_eq, imp_false]

theorem exists_of_alias? {fields : List (String × Value)} {name : String} {value : Value}
    (h : alias? spelling fields name = some value) :
    ∃ key, (key, value) ∈ fields ∧ spelling key = name := by
  obtain ⟨⟨key, v⟩, hmem, hv⟩ := List.exists_of_findSome?_eq_some h
  obtain ⟨hname, hvalue⟩ := Option.ite_none_right_eq_some.mp hv
  obtain rfl := Option.some.inj hvalue
  exact ⟨key, hmem, hname⟩

/-- Where no two names meet, a row shows each field under both of its spellings and nothing else. -/
theorem get?_withAliases_eq_some_iff {fields : NameMap Value} (h : fields.Separates spelling)
    {name : String} {value : Value} :
    (withAliases spelling fields).get? name = some value ↔
      ∃ key, fields.get? key = some value ∧ (name = key ∨ name = spelling key) := by
  rw [get?_withAliases]
  constructor
  · intro hget
    obtain hkey | ⟨-, halias⟩ := Option.or_eq_some_iff.mp hget
    · exact ⟨name, hkey, .inl rfl⟩
    · obtain ⟨key, hmem, hname⟩ := exists_of_alias? halias
      exact ⟨key, NameMap.get?_eq_some_iff.mpr hmem, .inr hname.symm⟩
  · rintro ⟨key, hkey, rfl | rfl⟩
    · rw [hkey]
      rfl
    · have hmem : key ∈ fields.keys := NameMap.mem_keys_iff.mpr ⟨value, hkey⟩
      cases htaken : fields.get? (spelling key) with
      | some found =>
        have hsame : spelling key = key :=
          h.apart key hmem (NameMap.mem_keys_iff.mpr ⟨found, htaken⟩)
        rw [hsame, hkey] at htaken
        exact htaken.symm
      | none =>
        rw [Option.none_or]
        cases halias : alias? spelling fields.fields (spelling key) with
        | none =>
          exact absurd rfl (alias?_eq_none_iff.mp halias _ (NameMap.get?_eq_some_iff.mp hkey))
        | some found =>
          obtain ⟨other, hother, hsame⟩ := exists_of_alias? halias
          have hget := NameMap.get?_eq_some_iff.mpr hother
          obtain rfl := h.injective other (NameMap.mem_keys_iff.mpr ⟨found, hget⟩) key hmem hsame
          exact hget.symm.trans hkey

variable {columns : NameMap Value}

theorem separates_columns (h : ∀ name ∈ columns.keys, NameCase.Plain name) :
    columns.Separates NameCase.storeName where
  injective a ha b hb hsame := NameCase.storeName_injective (h a ha) (h b hb) hsame
  apart _ _ hmem := NameCase.storeName_eq_self (h _ hmem)

theorem separates_document (h : ∀ name ∈ columns.keys, NameCase.Plain name) :
    (columns.renamed NameCase.storeName).Separates NameCase.callerName := by
  have hkeys : ∀ name ∈ (columns.renamed NameCase.storeName).keys,
      ∃ column ∈ columns.keys, NameCase.storeName column = name := fun name hname => by
    obtain ⟨value, hvalue⟩ := NameMap.mem_keys_iff.mp hname
    obtain ⟨column, hcolumn, hspelled⟩ :=
      (NameMap.get?_renamed (separates_columns h).injective).mp hvalue
    exact ⟨column, NameMap.mem_keys_iff.mpr ⟨value, hcolumn⟩, hspelled⟩
  constructor
  · intro a ha b hb hsame
    obtain ⟨k, hk, rfl⟩ := hkeys a ha
    obtain ⟨l, hl, rfl⟩ := hkeys b hb
    rw [NameCase.callerName_storeName (h k hk), NameCase.callerName_storeName (h l hl)] at hsame
    rw [hsame]
  · intro a ha hmem
    obtain ⟨k, hk, rfl⟩ := hkeys a ha
    rw [NameCase.callerName_storeName (h k hk)] at hmem ⊢
    -- A column that a store spells as another one changes nothing on the way, so it is that one.
    obtain ⟨l, -, hl⟩ := hkeys k hmem
    have hsame : NameCase.storeName l = l := NameCase.storeName_eq_self (hl ▸ h k hk)
    rw [← hl, hsame, hsame]

/-- Columns without upper-case letters give the row of the document with the same names as a store
spells them: each column under both spellings, and nothing else. -/
theorem ofColumns_eq_ofDocument (h : ∀ name ∈ columns.keys, NameCase.Plain name) :
    ofColumns columns = ofDocument (columns.renamed NameCase.storeName) ∧
    ∀ name value, (ofColumns columns).get? name = some value ↔
      ∃ column, columns.get? column = some value ∧
        (name = column ∨ name = NameCase.storeName column) := by
  have hseparates := separates_columns h
  have hcolumns : ∀ name value, (ofColumns columns).get? name = some value ↔
      ∃ column, columns.get? column = some value ∧
        (name = column ∨ name = NameCase.storeName column) := fun name value =>
    get?_withAliases_eq_some_iff hseparates
  refine ⟨NameMap.ext fun name => Option.ext fun value => ?_, hcolumns⟩
  rw [hcolumns, ofDocument, get?_withAliases_eq_some_iff (separates_document h)]
  simp only [NameMap.get?_renamed hseparates.injective]
  have hback : ∀ column, columns.get? column = some value →
      NameCase.callerName (NameCase.storeName column) = column := fun column hcolumn =>
    NameCase.callerName_storeName (h column (NameMap.mem_keys_iff.mpr ⟨value, hcolumn⟩))
  constructor
  · rintro ⟨column, hcolumn, hname⟩
    refine ⟨_, ⟨column, hcolumn, rfl⟩, ?_⟩
    rw [hback column hcolumn]
    exact hname.symm
  · rintro ⟨_, ⟨column, hcolumn, rfl⟩, hname⟩
    rw [hback column hcolumn] at hname
    exact ⟨column, hcolumn, hname.symm⟩

/-- The underscores of `_id`, and all but the last of `a__b`, are kept. -/
theorem ofColumns_eq_ofDocument_underscores :
    let columns : NameMap Value :=
      .ofList [("_id", .text "x"), ("a__b", .null), ("created_at", .bool true)]
    (∀ name ∈ columns.keys, NameCase.Plain name) ∧
      ofColumns columns = ofDocument (columns.renamed NameCase.storeName) ∧
      (columns.renamed NameCase.storeName).keys = ["_id", "a_B", "createdAt"] ∧
      (ofColumns columns).keys = ["_id", "a_B", "a__b", "createdAt", "created_at"] ∧
      (ofColumns columns).get? "a_B" = some .null := by
  intro columns
  have hplain : ∀ name ∈ columns.keys, NameCase.Plain name := by decide +kernel
  obtain ⟨hrow, hshows⟩ := ofColumns_eq_ofDocument hplain
  refine ⟨hplain, hrow, by decide +kernel, by decide +kernel, ?_⟩
  exact (hshows "a_B" .null).mpr ⟨"a__b", by decide +kernel, .inr (by decide +kernel)⟩

end Row

/-- What a result row is made of. -/
inductive Row.Source
  | document (d : Document)
  | columns (c : NameMap Value)

namespace Row.Source

def fields : Source → NameMap Value
  | document d => d
  | columns c => c

def spelling : Source → String → String
  | document _ => NameCase.callerName
  | columns _ => NameCase.storeName

def row : Source → Row
  | document d => ofDocument d
  | columns c => ofColumns c

theorem row_eq (s : Source) : s.row = withAliases s.spelling s.fields := by
  cases s <;> rfl

/-- Callers know a field and its copy by one name. -/
theorem callerName_spelling (s : Source) (name : String) :
    NameCase.callerName (s.spelling name) = NameCase.callerName name := by
  cases s with
  | document d => exact NameCase.callerName_callerName name
  | columns c => exact NameCase.callerName_respelled name

/-- Every value of a row is that of a field, under its name or a copy of it. -/
theorem exists_field {s : Source} {name : String} {value : Value}
    (h : s.row.get? name = some value) :
    ∃ key, s.fields.get? key = some value ∧ (key = name ∨ s.spelling key = name) := by
  rw [row_eq, get?_withAliases] at h
  obtain hkey | ⟨-, halias⟩ := Option.or_eq_some_iff.mp h
  · exact ⟨name, hkey, .inl rfl⟩
  · obtain ⟨key, hmem, hname⟩ := exists_of_alias? halias
    exact ⟨key, NameMap.get?_eq_some_iff.mpr hmem, .inr hname⟩

theorem callerName_of_field {s : Source} {key name : String}
    (h : key = name ∨ s.spelling key = name) :
    NameCase.callerName key = NameCase.callerName name := by
  obtain rfl | rfl := h
  · rfl
  · exact (s.callerName_spelling key).symm

/-- A copy of a column that callers spell as it stands is the column itself. -/
theorem eq_callerName_of_column {key name : String}
    (h : key = NameCase.callerName name ∨ NameCase.storeName key = NameCase.callerName name) :
    key = NameCase.callerName name :=
  h.elim id NameCase.eq_of_storeName_eq_callerName

theorem contains_row_iff {s : Source} {name : String} : s.row.contains name = true ↔
    ∃ key, s.fields.contains key = true ∧ (key = name ∨ s.spelling key = name) := by
  constructor
  · intro h
    obtain ⟨value, hvalue⟩ := Option.isSome_iff_exists.mp h
    obtain ⟨key, hkey, hname⟩ := exists_field hvalue
    exact ⟨key, Option.isSome_of_eq_some hkey, hname⟩
  · rintro ⟨key, hkey, hname⟩
    obtain ⟨value, hvalue⟩ := Option.isSome_iff_exists.mp hkey
    rw [row_eq, NameMap.contains, get?_withAliases, Option.isSome_or, Bool.or_eq_true]
    obtain rfl | rfl := hname
    · exact .inl hkey
    · refine .inr (Option.isSome_iff_ne_none.mpr fun hnone => ?_)
      exact alias?_eq_none_iff.mp hnone _ (NameMap.get?_eq_some_iff.mp hvalue) rfl

/-- In the callers' spelling of a field, the row of a document shows a field that they spell so. -/
theorem exists_get?_callerName {d : Document} {field : String} (h : d.contains field = true) :
    ∃ key value, d.get? key = some value ∧
      NameCase.callerName key = NameCase.callerName field ∧
      (ofDocument d).get? (NameCase.callerName field) = some value := by
  have hcopy : (document d).row.contains (NameCase.callerName field) = true :=
    contains_row_iff.mpr ⟨field, h, .inr rfl⟩
  obtain ⟨value, hvalue⟩ := Option.isSome_iff_exists.mp hcopy
  obtain ⟨key, hkey, hname⟩ := exists_field hvalue
  have hcaller := callerName_of_field hname
  rw [NameCase.callerName_callerName] at hcaller
  exact ⟨key, value, hkey, hcaller, hvalue⟩

/-- Whether a name of the row is there in the callers' spelling, too. Of a document it always is,
among columns only where it is a column itself. -/
def HasCallerName : Source → String → Prop
  | document _, _ => True
  | columns c, name => c.contains (NameCase.callerName name) = true

theorem contains_callerName_iff {s : Source} {name : String} (h : s.row.contains name = true) :
    s.row.contains (NameCase.callerName name) = true ↔ s.HasCallerName name := by
  cases s with
  | document d =>
    obtain ⟨key, hkey, hname⟩ := contains_row_iff.mp h
    exact iff_of_true (contains_row_iff.mpr ⟨key, hkey, .inr (callerName_of_field hname)⟩) trivial
  | columns c =>
    constructor
    · intro hcaller
      obtain ⟨key, hkey, hname⟩ := contains_row_iff.mp hcaller
      rwa [eq_callerName_of_column hname] at hkey
    · intro hcaller
      exact contains_row_iff.mpr ⟨_, hcaller, .inl rfl⟩

/-- Fields that meet in the callers' spelling hold one value. Among columns only those count that
meet in the name of a column. -/
def Clear : Source → Prop
  | document d => ∀ a ∈ d.fields, ∀ b ∈ d.fields,
      NameCase.callerName a.1 = NameCase.callerName b.1 → a.2 = b.2
  | columns c => ∀ a ∈ c.fields, ∀ b ∈ c.fields, NameCase.callerName a.1 = b.1 → a.2 = b.2

instance (s : Source) : Decidable s.Clear :=
  match s with
  | document d => inferInstanceAs (Decidable (∀ a ∈ d.fields, ∀ b ∈ d.fields,
      NameCase.callerName a.1 = NameCase.callerName b.1 → a.2 = b.2))
  | columns c => inferInstanceAs (Decidable (∀ a ∈ c.fields, ∀ b ∈ c.fields,
      NameCase.callerName a.1 = b.1 → a.2 = b.2))

/-- Then no name of the row is at odds with the callers' spelling of it. -/
theorem value_of_clear {s : Source} (h : s.Clear) {name : String} {value other : Value}
    (hvalue : s.row.get? name = some value)
    (hother : s.row.get? (NameCase.callerName name) = some other) : value = other := by
  obtain ⟨key, hkey, hname⟩ := exists_field hvalue
  obtain ⟨key', hkey', hname'⟩ := exists_field hother
  have hspelled : NameCase.callerName key = NameCase.callerName name := callerName_of_field hname
  have hmem := NameMap.get?_eq_some_iff.mp hkey
  have hmem' := NameMap.get?_eq_some_iff.mp hkey'
  cases s with
  | document d =>
    have hspelled' : NameCase.callerName key' = NameCase.callerName name :=
      (callerName_of_field hname').trans (NameCase.callerName_callerName name)
    exact h _ hmem _ hmem' (hspelled.trans hspelled'.symm)
  | columns c => exact h _ hmem _ hmem' (hspelled.trans (eq_callerName_of_column hname').symm)

end Row.Source

end DocumentSql
