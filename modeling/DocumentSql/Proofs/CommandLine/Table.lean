import DocumentSql.CommandLine.Table
import DocumentSql.Proofs.Row
import Mathlib.Data.List.Induction
import Mathlib.Data.List.Nodup
/-
What a result table shows. A row leaves a name out where it also has the callers' spelling of it,
and the columns are the names that some row does not leave out. What is left out is a copy in most
rows, so no value is lost. One can be lost only where fields of a document, or columns of a server,
meet in the callers' spelling and differ.
-/

namespace DocumentSql.CommandLine

section Columns

variable {rows : List Row} {row : Row} {key : String}

theorem eraseDups_concat (keys : List String) (key : String) :
    (keys ++ [key]).eraseDups =
      if keys.contains key then keys.eraseDups else keys.eraseDups ++ [key] := by
  rw [List.eraseDups_append, List.cons_removeAll]
  cases keys.contains key with
  | true => exact List.append_nil _
  | false => rfl

theorem nodup_eraseDups (keys : List String) : keys.eraseDups.Nodup := by
  induction keys using List.reverseRecOn with
  | nil => exact List.nodup_nil
  | append_singleton keys key ih =>
    rw [eraseDups_concat]
    split
    · exact ih
    · next hnew =>
      refine List.nodup_append.mpr ⟨ih, List.nodup_singleton key, ?_⟩
      rintro other hother _ hkey rfl
      rw [List.mem_singleton.mp hkey, List.mem_eraseDups] at hother
      exact hnew (List.contains_iff_mem.mpr hother)

def visibleKeys (row : Row) : List String := row.keys.filter (isVisible row)

/-- The columns behind one more key of a row. -/
def enterKey (row : Row) (columns : List String) (key : String) : List String :=
  if isVisible row key && !columns.contains key then columns ++ [key] else columns

theorem columns_concat (rows : List Row) (row : Row) :
    columns (rows ++ [row]) = row.keys.foldl (enterKey row) (columns rows) := by
  rw [columns, List.foldl_append]
  rfl

theorem enterKey_eraseDups (row : Row) (keys : List String) (key : String) :
    enterKey row keys.eraseDups key = (keys ++ [key].filter (isVisible row)).eraseDups := by
  unfold enterKey
  cases hvisible : isVisible row key with
  | false =>
    rw [List.filter_cons_of_neg (Bool.eq_false_iff.mp hvisible), List.filter_nil, List.append_nil]
    rfl
  | true =>
    rw [List.filter_cons_of_pos hvisible, List.filter_nil, eraseDups_concat]
    simp only [List.contains_eq_mem, List.mem_eraseDups]
    by_cases hmem : key ∈ keys <;> simp [hmem]

theorem foldl_enterKey (row : Row) (front keys : List String) :
    keys.foldl (enterKey row) front.eraseDups =
      (front ++ keys.filter (isVisible row)).eraseDups := by
  induction keys using List.reverseRecOn with
  | nil => rw [List.foldl_nil, List.filter_nil, List.append_nil]
  | append_singleton keys key ih =>
    rw [List.foldl_append, ih, List.foldl_cons, List.foldl_nil, enterKey_eraseDups,
      List.filter_append, List.append_assoc]

/-- The columns are the visible names in the order of the rows, each at its first place. -/
theorem columns_eq (rows : List Row) : columns rows = (rows.flatMap visibleKeys).eraseDups := by
  induction rows using List.reverseRecOn with
  | nil => rfl
  | append_singleton rows row ih =>
    rw [columns_concat, ih, foldl_enterKey, List.flatMap_append, List.flatMap_singleton,
      visibleKeys]

theorem mem_columns_iff :
    key ∈ columns rows ↔ ∃ row ∈ rows, row.contains key = true ∧ isVisible row key = true := by
  rw [columns_eq, List.mem_eraseDups, List.mem_flatMap]
  simp only [visibleKeys, List.mem_filter, NameMap.mem_keys_iff, NameMap.contains,
    Option.isSome_iff_exists]

theorem isVisible_eq_false_iff : isVisible row key = false ↔
    NameCase.callerName key ≠ key ∧ row.contains (NameCase.callerName key) = true := by
  rw [isVisible, Bool.or_eq_false_iff, beq_eq_false_iff_ne, Bool.not_eq_false']

theorem not_mem_columns_iff : key ∉ columns rows ↔ ∀ row ∈ rows, row.contains key = true →
    NameCase.callerName key ≠ key ∧ row.contains (NameCase.callerName key) = true := by
  rw [mem_columns_iff]
  push Not
  simp only [ne_eq, Bool.not_eq_true, isVisible_eq_false_iff]

theorem callerName_mem_columns (hrow : row ∈ rows)
    (hkey : row.contains (NameCase.callerName key) = true) :
    NameCase.callerName key ∈ columns rows := by
  refine mem_columns_iff.mpr ⟨row, hrow, hkey, ?_⟩
  rw [isVisible, NameCase.callerName_callerName, BEq.rfl, Bool.true_or]

end Columns

/-- A field can be seen in a table under its name, or under another name that its row has for the
same value. -/
def Seen (columns : List String) (row : Row) (key : String) (value : Value) : Prop :=
  key ∈ columns ∨ ∃ other ∈ columns, other ≠ key ∧ row.get? other = some value

instance (columns : List String) (row : Row) (key : String) (value : Value) :
    Decidable (Seen columns row key value) :=
  inferInstanceAs (Decidable (key ∈ columns ∨
    ∃ other ∈ columns, other ≠ key ∧ row.get? other = some value))

section Table

variable {columns : List String} {row : Row} {key : String} {value : Value}

theorem seen_iff (h : row.get? key = some value) :
    Seen columns row key value ↔ ∃ name ∈ columns, row.get? name = some value := by
  constructor
  · rintro (hkey | ⟨other, hother, -, hvalue⟩)
    · exact ⟨key, hkey, h⟩
    · exact ⟨other, hother, hvalue⟩
  · rintro ⟨name, hname, hvalue⟩
    by_cases hsame : name = key
    · exact .inl (hsame ▸ hname)
    · exact .inr ⟨name, hname, hsame, hvalue⟩

end Table

/-- Wherever the name is, callers spell it otherwise, and it is there in that spelling, too. -/
def Overshadowed (sources : List Row.Source) (name : String) : Prop :=
  ∀ source ∈ sources, source.row.contains name = true →
    NameCase.callerName name ≠ name ∧ source.HasCallerName name

theorem not_mem_columns_iff_overshadowed {sources : List Row.Source} {name : String} :
    name ∉ columns (sources.map Row.Source.row) ↔ Overshadowed sources name := by
  rw [not_mem_columns_iff, List.forall_mem_map]
  refine forall₂_congr fun source _ => forall_congr' fun hname => ?_
  rw [Row.Source.contains_callerName_iff hname]

/-- No column of a table stands twice. A field of a row cannot be seen just if each of the names
that the row has for its value is overshadowed, and every field can be seen of a row where those
that meet in the callers' spelling hold one value. -/
theorem hidden_iff_overshadowed (sources : List Row.Source) :
    (columns (sources.map Row.Source.row)).Nodup ∧
    ∀ source ∈ sources, ∀ key value, source.row.get? key = some value →
      (¬Seen (columns (sources.map Row.Source.row)) source.row key value ↔
        ∀ name, source.row.get? name = some value → Overshadowed sources name) ∧
      (source.Clear → Seen (columns (sources.map Row.Source.row)) source.row key value) := by
  constructor
  · rw [columns_eq]
    exact nodup_eraseDups _
  intro source hsource key value hvalue
  have hrow : source.row ∈ sources.map Row.Source.row := List.mem_map_of_mem hsource
  rw [seen_iff hvalue]
  refine ⟨?_, fun hclear => ?_⟩
  · simp only [← not_mem_columns_iff_overshadowed]
    push Not
    exact ⟨fun h name hname hmem => h name hmem hname, fun h name hmem hname => h name hname hmem⟩
  · by_cases hkey : key ∈ columns (sources.map Row.Source.row)
    · exact ⟨key, hkey, hvalue⟩
    · obtain ⟨-, hcaller⟩ := not_mem_columns_iff.mp hkey _ hrow (Option.isSome_of_eq_some hvalue)
      obtain ⟨other, hother⟩ := Option.isSome_iff_exists.mp hcaller
      have hsame : value = other := Row.Source.value_of_clear hclear hvalue hother
      exact ⟨_, callerName_mem_columns hrow hcaller, hsame ▸ hother⟩

/-- A copy is left out, and so is the field itself where the copy has the callers' spelling; a name
that begins with an upper-case letter stays. -/
theorem hidden_iff_overshadowed_copies :
    let document : Row.Source := .document (.ofList [("_id", .text "x"), ("createdAt", .null)])
    let server : Row.Source := .columns (.ofList [("Name", .text "Ann"), ("login_count", .null)])
    let columns := columns ([document, server].map Row.Source.row)
    columns = ["_id", "created_at", "Name", "login_count"] ∧
      document.Clear ∧ server.Clear ∧
      document.row.get? "createdAt" = some .null ∧ Seen columns document.row "createdAt" .null ∧
      server.row.get? "loginCount" = some .null ∧ Seen columns server.row "loginCount" .null := by
  intro document server columns
  obtain ⟨-, hseen⟩ := hidden_iff_overshadowed [document, server]
  have hdocument : document.Clear := by decide +kernel
  have hserver : server.Clear := by decide +kernel
  have hcreated : document.row.get? "createdAt" = some .null := by decide +kernel
  have hcount : server.row.get? "loginCount" = some .null := by decide +kernel
  refine ⟨by decide +kernel, hdocument, hserver, hcreated, ?_, hcount, ?_⟩
  · exact (hseen document (by simp) "createdAt" .null hcreated).2 hdocument
  · exact (hseen server (by simp) "loginCount" .null hcount).2 hserver

/-- Of two fields that callers spell alike, one cannot be seen. -/
theorem other_spelling_hidden :
    let fields : NameMap Value :=
      .ofList [("userId", .number (.ofInt 1)), ("user_id", .number (.ofInt 2))]
    (Row.ofDocument fields).get? "userId" = some (.number (.ofInt 1)) ∧
      ¬Seen (columns [Row.ofDocument fields]) (Row.ofDocument fields) "userId"
        (.number (.ofInt 1)) ∧
      (Row.ofColumns fields).get? "userId" = some (.number (.ofInt 1)) ∧
      ¬Seen (columns [Row.ofColumns fields]) (Row.ofColumns fields) "userId"
        (.number (.ofInt 1)) := by
  decide +kernel

end DocumentSql.CommandLine
