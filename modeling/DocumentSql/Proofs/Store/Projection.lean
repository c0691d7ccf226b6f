import DocumentSql.Proofs.Store.Insertion
import DocumentSql.Proofs.Store.Paging
/-
The columns of an answer. An insertion picks them from its document and puts null for what is not
there; a reading has the store pick them and then fills in what the store left away. Both are one
function of the document, whatever columns are asked for and how often.
-/

namespace DocumentSql

namespace Fields

variable {α : Type}

/-- A list of names paired with what is known of them, looked up. -/
theorem get?_filterMap (g : String → Option α) (names : List String) (name : String) :
    get? (names.filterMap fun n => (g n).map fun value => (n, value)) name =
      if name ∈ names then g name else none := by
  induction names with
  | nil => rfl
  | cons n rest ih =>
    by_cases hname : name = n
    · subst hname
      cases hvalue : g name with
      | none => simp [hvalue, ih]
      | some value => simp [hvalue, get?]
    · cases hvalue : g n with
      | none => simp [hvalue, ih, hname]
      | some value => simp [hvalue, get?, ih, hname]

end Fields

namespace NameMap

variable {α : Type}

theorem get?_ofList_filterMap (g : String → Option α) (names : List String) (name : String) :
    (ofList (names.filterMap fun n => (g n).map fun value => (n, value))).get? name =
      if name ∈ names then g name else none := by
  rw [get?_ofList, ← List.filterMap_reverse, Fields.get?_filterMap]
  simp only [List.mem_reverse]

theorem get?_ofList_map (g : String → α) (names : List String) (name : String) :
    (ofList (names.map fun n => (n, g n))).get? name =
      if name ∈ names then some (g name) else none := by
  rw [← List.filterMap_eq_map]
  exact get?_ofList_filterMap (fun n => some (g n)) names name

end NameMap

namespace Document

theorem get?_project {fields : List String} (h : fields ≠ []) (d : Document) (name : String) :
    (project fields d).get? name = if name ∈ fields then d.get? name else none := by
  have hsome : ¬fields.isEmpty = true := fun hempty => h (List.isEmpty_iff.mp hempty)
  rw [project, if_neg hsome]
  exact NameMap.get?_ofList_filterMap d.get? fields name

/-- Null in the place of a missing field changes what is there, but not what is read. -/
theorem read_insertIfNew (d : Document) (field name : String) :
    read (d.insertIfNew field .null) name = d.read name := by
  rw [read, NameMap.get?_insertIfNew]
  split
  · next hname =>
    rw [hname]
    rfl
  · rfl

end Document

namespace Engine

theorem get?_fillMissing (fields : List String) (d : Document) (name : String) :
    (fillMissing fields d).get? name =
      if name ∈ fields then some (d.read name) else d.get? name := by
  induction fields generalizing d with
  | nil => rfl
  | cons field rest ih =>
    have hstep : fillMissing (field :: rest) d = fillMissing rest (d.insertIfNew field .null) := rfl
    rw [hstep, ih, Document.read_insertIfNew, NameMap.get?_insertIfNew]
    by_cases hrest : name ∈ rest
    · rw [if_pos hrest, if_pos (List.mem_cons_of_mem field hrest)]
    · by_cases hname : name = field
      · subst hname
        rw [if_neg hrest, if_pos rfl, if_pos List.mem_cons_self]
        rfl
      · rw [if_neg hrest, if_neg hname, if_neg (by simp [hname, hrest])]

theorem fillMissing_project {fields : List String} (h : fields ≠ []) (d : Document) :
    fillMissing fields (d.project fields) =
      .ofList (fields.map fun field => (field, d.read field)) := by
  ext1 name
  rw [get?_fillMissing, NameMap.get?_ofList_map, Document.read, Document.get?_project h]
  by_cases hname : name ∈ fields
  · rw [if_pos hname, if_pos hname, if_pos hname, Document.read]
  · rw [if_neg hname, if_neg hname, if_neg hname]

/-- The two ways to a row of some columns. -/
theorem returnedRows_eq (columns : List String) (d : Document) :
    returnedRows d (some columns) = [selectedRow columns d] := by
  cases columns with
  | nil => rfl
  | cons column rest =>
    have hfields : (column :: rest).map NameCase.storeName ≠ [] := List.cons_ne_nil _ _
    rw [selectedRow, fillMissing_project hfields]
    rfl

/-- A row has each column that was asked for, under the name that the store has for it. -/
theorem get?_selectedRow {columns : List String} {column : String} (h : column ∈ columns)
    (d : Document) : (selectedRow columns d).get? (NameCase.storeName column) =
      some (d.read (NameCase.storeName column)) := by
  have hfield : NameCase.storeName column ∈ columns.map NameCase.storeName :=
    List.mem_map_of_mem h
  have hfields := List.ne_nil_of_mem hfield
  rw [selectedRow, Row.ofDocument, Row.get?_withAliases, fillMissing_project hfields,
    NameMap.get?_ofList_map, if_pos hfield]
  rfl

/-- Under the name that callers have for a column the row shows a column of that name. -/
theorem exists_get?_callerName {columns : List String} {column : String} (h : column ∈ columns)
    (d : Document) : ∃ other ∈ columns, NameCase.callerName other = NameCase.callerName column ∧
      (selectedRow columns d).get? (NameCase.callerName column) =
        some (d.read (NameCase.storeName other)) := by
  have hfield : NameCase.storeName column ∈ columns.map NameCase.storeName :=
    List.mem_map_of_mem h
  have hfields := NameMap.get?_ofList_map d.read (columns.map NameCase.storeName)
  rw [selectedRow, fillMissing_project (List.ne_nil_of_mem hfield)]
  generalize NameMap.ofList ((columns.map NameCase.storeName).map fun n => (n, d.read n)) = fields
    at hfields ⊢
  have hthere : fields.contains (NameCase.storeName column) = true := by
    rw [NameMap.contains, hfields, if_pos hfield]
    rfl
  obtain ⟨key, value, hkey, hcaller, hshown⟩ := Row.Source.exists_get?_callerName hthere
  rw [NameCase.callerName_respelled] at hcaller hshown
  rw [hfields] at hkey
  split at hkey
  · next hmem =>
    obtain ⟨other, hother, rfl⟩ := List.mem_map.mp hmem
    obtain rfl := Option.some.inj hkey
    exact ⟨other, hother, NameCase.callerName_respelled other ▸ hcaller, hshown⟩
  · cases hkey

theorem execute_select_columns (policy : Policy) (fresh : Uuid) (params : List Value)
    (name : String) (columns : List String) (s : Store) :
    (execute Store.memory policy fresh params
      (.select ⟨name, columns, [], none, none, none⟩) s).outcome =
        .ok (.ofRows .select ((s.documents name).map (selectedRow columns))) := by
  have hplan : Plan.ofStatement policy params (.select ⟨name, columns, [], none, none, none⟩) =
      .ok (.find name { filter := [], projection := columns.map NameCase.storeName }) :=
    Plan.ofStatement_select rfl
  have hall : Filter.compile [] = .ok fun _ => true := rfl
  have hfind := Store.find_projected hall name (columns.map NameCase.storeName) s
  rw [List.filter_true] at hfind
  simp only [execute, hplan, run, ask, Store.memory, hfind, List.map_map]
  rfl

/-- What an insertion returns is what the same columns read right after it give in their last row,
behind the rows that were there. For a star that is the row of the new document. Of a list it has
all columns, with null for those that the document lacks, under the names that the store has for
them and under those that callers have. -/
theorem returning_agrees_with_select {s : Insert} {columns : List String}
    (hreturning : s.returning = some columns) (policy later : Policy) (fresh other : Uuid)
    (params given : List Value) (store : Store) :
    let run := execute Store.memory policy fresh params (.insert s) store
    let reading := fun state => (execute Store.memory later other given
      (.select ⟨s.collection, columns, [], none, none, none⟩) state).outcome
    ∀ result, run.outcome = .ok result → ∃ d before row,
      run.state.documents s.collection = store.documents s.collection ++ [d] ∧
      result.rows = [row] ∧
      reading store = .ok (.ofRows .select before) ∧
      reading run.state = .ok (.ofRows .select (before ++ [row])) ∧
      (columns = [] → row = Row.ofDocument d) ∧
      ∀ column ∈ columns,
        row.get? (NameCase.storeName column) = some (d.read (NameCase.storeName column)) ∧
        ∃ other ∈ columns, NameCase.callerName other = NameCase.callerName column ∧
          row.get? (NameCase.callerName column) = some (d.read (NameCase.storeName other)) := by
  intro run reading result hresult
  obtain ⟨entries, -, hstate, hrows, -⟩ := execute_insert_result hresult
  rw [hreturning, returnedRows_eq] at hrows
  have hread : ∀ state, reading state = .ok (.ofRows .select
      ((state.documents s.collection).map (selectedRow columns))) :=
    execute_select_columns later other given s.collection columns
  have hdocuments := congrArg (Store.documents · s.collection) hstate
  simp only [Store.documents_appended] at hdocuments
  refine ⟨_, _, _, hdocuments, hrows, hread store, ?_, ?_, fun column hcolumn => ?_⟩
  · rw [hread, hdocuments, List.map_append, List.map_singleton]
  · rintro rfl
    rfl
  · exact ⟨get?_selectedRow hcolumn _, exists_get?_callerName hcolumn _⟩

/-- One field in two spellings and twice, and a column that the document lacks. -/
theorem returning_agrees_with_select_users :
    let columns := ["user_name", "age", "userName", "user_name"]
    let s : Insert := ⟨"users", [("user_name", .parameter 1)], some columns⟩
    let ann : Document := .ofList [("_id", .text "a"), ("userName", .text "Ann")]
    let store : Store := NameMap.empty.insert "users" { documents := [ann] }
    let run := execute Store.memory {} ⟨7⟩ [.text "Bob"] (.insert s) store
    s.returning = some columns ∧ ∃ result row, run.outcome = .ok result ∧ result.rows = [row] ∧
      (execute Store.memory {} ⟨0⟩ [] (.select ⟨"users", columns, [], none, none, none⟩)
        run.state).outcome = .ok (.ofRows .select [selectedRow columns ann, row]) ∧
      row.get? "userName" = some (.text "Bob") ∧ row.get? "user_name" = some (.text "Bob") ∧
      row.get? "age" = some .null := by
  intro columns s ann store run
  obtain ⟨d, before, row, hdocuments, hrow, hbefore, hafter, -, hcolumns⟩ :=
    returning_agrees_with_select (s := s) rfl {} {} ⟨7⟩ ⟨0⟩ [.text "Bob"] [] store _ rfl
  have hthere := (execute_select_columns {} ⟨0⟩ [] "users" columns store).symm.trans hbefore
  obtain rfl : [selectedRow columns ann] = before :=
    congrArg QueryResult.rows (Except.ok.inj hthere)
  have hbob : run.state.documents "users" =
      [ann] ++ [.ofList [("_id", .id ⟨7⟩), ("userName", .text "Bob")]] := by decide +kernel
  obtain rfl := List.singleton_inj.mp (List.append_cancel_left (hbob.symm.trans hdocuments))
  have huser : NameCase.storeName "userName" = "userName" := by decide +kernel
  have hage : NameCase.storeName "age" = "age" := by decide +kernel
  have hcaller : NameCase.callerName "userName" = "user_name" := by decide +kernel
  have hspelled : ∀ other ∈ columns, NameCase.callerName other = NameCase.callerName "userName" →
      NameCase.storeName other = "userName" := by decide +kernel
  obtain ⟨hname, other, hother, hsame, hcopy⟩ := hcolumns "userName" (by decide)
  rw [hspelled other hother hsame, hcaller] at hcopy
  exact ⟨rfl, _, row, rfl, hrow, hafter, huser ▸ hname, hcopy,
    hage ▸ (hcolumns "age" (by decide)).1⟩

end Engine

end DocumentSql
