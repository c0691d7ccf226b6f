import DocumentSql.Proofs.Engine.Plan
import DocumentSql.Proofs.Row
import DocumentSql.Proofs.Store.Selection
import Mathlib.Data.List.Nodup
/-
Reading back what was inserted. An insertion that succeeds puts one document behind the others, and
if its columns are named apart and without upper-case letters, the row of that document shows each
of them under both of its spellings. An identifier that was minted counts as one column more.
-/

namespace DocumentSql

namespace Fields

variable {α β : Type} {fields : List (String × α)} {name : String}

theorem get?_eq_some_iff_of_nodup (h : (fields.map Prod.fst).Nodup) {value : α} :
    get? fields name = some value ↔ (name, value) ∈ fields := by
  refine ⟨mem_of_get?, fun hmem => ?_⟩
  obtain ⟨found, hfound⟩ := exists_get?_of_mem hmem
  have hsame := List.inj_on_of_nodup_map h (mem_of_get? hfound) hmem rfl
  rw [hfound, (Prod.mk.inj hsame).2]

/-- A name is found under its new spelling if no other name got the same one. -/
theorem get?_respelled {spelling : String → String}
    (h : ∀ field ∈ fields, spelling field.1 = spelling name → field.1 = name) (f : α → β) :
    get? (fields.map fun field => (spelling field.1, f field.2)) (spelling name) =
      (get? fields name).map f := by
  induction fields with
  | nil => rfl
  | cons field rest ih =>
    obtain ⟨key, value⟩ := field
    obtain ⟨hkey, hrest⟩ := List.forall_mem_cons.mp h
    rw [List.map_cons, get?, get?, ih hrest]
    by_cases hsame : name = key
    · rw [if_pos (congrArg spelling hsame), if_pos hsame]
      rfl
    · rw [if_neg fun hspelled => hsame (hkey hspelled.symm).symm, if_neg hsame]

end Fields

namespace NameMap

variable {α : Type} {entries : List (String × α)}

theorem get?_ofList_of_nodup (h : (entries.map Prod.fst).Nodup) (name : String) :
    (ofList entries).get? name = Fields.get? entries name := by
  have hreverse : (entries.reverse.map Prod.fst).Nodup := by
    rw [List.map_reverse]
    exact List.nodup_reverse.mpr h
  refine Option.ext fun value => ?_
  rw [get?_ofList, Fields.get?_eq_some_iff_of_nodup hreverse, List.mem_reverse,
    Fields.get?_eq_some_iff_of_nodup h]

theorem ofList_concat (entries : List (String × α)) (name : String) (value : α) :
    ofList (entries ++ [(name, value)]) = (ofList entries).insert name value := by
  rw [ofList, List.foldl_append]
  rfl

end NameMap

/-- Names that differ and have no upper-case letters. -/
structure PlainNames (names : List String) : Prop where
  distinct : names.Nodup
  plain : ∀ name ∈ names, NameCase.Plain name

/-- Columns as a store spells them. -/
def inStore {α : Type} (columns : List (String × α)) : List (String × α) :=
  columns.map fun column => (NameCase.storeName column.1, column.2)

section Columns

variable {columns : List (String × Value)}

theorem nodup_inStore (h : PlainNames (columns.map Prod.fst)) :
    ((inStore columns).map Prod.fst).Nodup := by
  have hnames : (inStore columns).map Prod.fst =
      (columns.map Prod.fst).map NameCase.storeName := by
    rw [inStore, List.map_map, List.map_map]
    rfl
  rw [hnames]
  exact h.distinct.map_on fun a ha b hb =>
    NameCase.storeName_injective (h.plain a ha) (h.plain b hb)

/-- The row of a document that was written column by column. -/
theorem Row.get?_ofDocument_inStore (h : PlainNames (columns.map Prod.fst)) {name : String}
    {value : Value} : (ofDocument (.ofList (inStore columns))).get? name = some value ↔
      ∃ column, (column, value) ∈ columns ∧
        (name = column ∨ name = NameCase.storeName column) := by
  have hget : ∀ {column value}, (NameMap.ofList columns).get? column = some value ↔
      (column, value) ∈ columns := by
    intro column value
    rw [NameMap.get?_ofList_of_nodup h.distinct, Fields.get?_eq_some_iff_of_nodup h.distinct]
  have hkeys : ∀ column ∈ (NameMap.ofList columns).keys, NameCase.Plain column := by
    intro column hcolumn
    obtain ⟨v, hv⟩ := NameMap.mem_keys_iff.mp hcolumn
    exact h.plain column (List.mem_map_of_mem (hget.mp hv))
  have hrenamed : ∀ {field value},
      ((NameMap.ofList columns).renamed NameCase.storeName).get? field = some value ↔
        ∃ column, (column, value) ∈ columns ∧ NameCase.storeName column = field := by
    intro field value
    rw [NameMap.get?_renamed (separates_columns hkeys).injective]
    simp only [hget]
  have hdocument : NameMap.ofList (inStore columns) =
      (NameMap.ofList columns).renamed NameCase.storeName := by
    refine NameMap.ext fun field => Option.ext fun v => ?_
    have hnodup := nodup_inStore h
    rw [hrenamed, NameMap.get?_ofList_of_nodup hnodup, Fields.get?_eq_some_iff_of_nodup hnodup]
    simp only [inStore, List.mem_map, Prod.mk.injEq, Prod.exists]
    constructor
    · rintro ⟨column, _, hmem, hfield, rfl⟩
      exact ⟨column, hmem, hfield⟩
    · rintro ⟨column, hmem, hfield⟩
      exact ⟨column, v, hmem, hfield, rfl⟩
  rw [hdocument, ofDocument, get?_withAliases_eq_some_iff (separates_document hkeys)]
  simp only [hrenamed]
  constructor
  · rintro ⟨_, ⟨column, hmem, rfl⟩, hname⟩
    rw [NameCase.callerName_storeName (h.plain column (List.mem_map_of_mem hmem))] at hname
    exact ⟨column, hmem, hname.symm⟩
  · rintro ⟨column, hmem, hname⟩
    refine ⟨_, ⟨column, hmem, rfl⟩, ?_⟩
    rw [NameCase.callerName_storeName (h.plain column (List.mem_map_of_mem hmem))]
    exact hname.symm

end Columns

theorem resolveFields_eq_ok {params : List Value} {fields : List (String × ValueSource)}
    {entries : List (String × Value)} (h : resolveFields params fields = .ok entries) :
    (∀ field ∈ fields, field.2.resolve params = .ok (field.2.value params)) ∧
      entries = inStore (fields.map fun field => (field.1, field.2.value params)) := by
  rw [resolveFields, mapM_eq_ok_iff] at h
  induction h with
  | nil => exact ⟨List.forall_mem_nil _, rfl⟩
  | @cons field entry fields entries hentry _ ih =>
    obtain ⟨ihresolves, ihentries⟩ := ih
    obtain ⟨v, hv, hentry⟩ := bind_eq_ok_iff.1 hentry
    obtain rfl := pure_eq_ok_iff.1 hentry
    obtain rfl := ValueSource.value_of_resolve hv
    exact ⟨List.forall_mem_cons.mpr ⟨hv, ihresolves⟩, congrArg (List.cons _) ihentries⟩

namespace Insert

/-- Where the identifier comes from: `id` or else `_id`. -/
def identifier? (s : Insert) : Option ValueSource :=
  (Fields.get? s.fields "id").or (Fields.get? s.fields "_id")

/-- The columns with their values, and `_id` with the minted identifier if none of them holds
one. -/
def columns (params : List Value) (fresh : Uuid) (s : Insert) : List (String × Value) :=
  s.fields.map (fun field => (field.1, field.2.value params)) ++
    if s.identifier?.isSome then [] else [("_id", .id fresh)]

variable {s : Insert} {params : List Value} {fresh : Uuid}

theorem identifier?_eq_none_iff : s.identifier? = none ↔
    "id" ∉ s.fields.map Prod.fst ∧ "_id" ∉ s.fields.map Prod.fst := by
  rw [identifier?, Option.or_eq_none_iff, Fields.get?_eq_none_iff, Fields.get?_eq_none_iff]

theorem mem_of_identifier? {source : ValueSource} (h : s.identifier? = some source) :
    ∃ column, (column, source) ∈ s.fields := by
  obtain hid | ⟨-, hid⟩ := Option.or_eq_some_iff.mp h
  · exact ⟨_, Fields.mem_of_get? hid⟩
  · exact ⟨_, Fields.mem_of_get? hid⟩

theorem names_valued (fields : List (String × ValueSource)) (params : List Value) :
    (fields.map fun field => (field.1, field.2.value params)).map Prod.fst =
      fields.map Prod.fst := by
  rw [List.map_map]
  rfl

theorem plain_id : NameCase.Plain "id" ∧ NameCase.storeName "id" = "id" := by decide +kernel

theorem plain_minted : NameCase.Plain "_id" ∧ NameCase.storeName "_id" = "_id" := by decide +kernel

theorem plainNames_columns (h : PlainNames (s.fields.map Prod.fst)) :
    PlainNames ((s.columns params fresh).map Prod.fst) := by
  rw [columns, List.map_append, names_valued]
  cases hidentifier : s.identifier? with
  | some source => simpa using h
  | none =>
    obtain ⟨-, hfree⟩ := identifier?_eq_none_iff.mp hidentifier
    constructor
    · refine List.nodup_append.mpr ⟨h.distinct, List.nodup_singleton _, ?_⟩
      intro name hname minted hminted hsame
      obtain rfl := List.mem_singleton.mp hminted
      obtain rfl := hsame
      exact hfree hname
    · intro name hname
      cases List.mem_append.mp hname with
      | inl hfield => exact h.plain name hfield
      | inr hminted =>
        obtain rfl := List.mem_singleton.mp hminted
        exact plain_minted.1

theorem mem_columns {column : String} {value : Value} :
    (column, value) ∈ s.columns params fresh ↔
      (∃ source, (column, source) ∈ s.fields ∧ source.value params = value) ∨
      (s.identifier? = none ∧ column = "_id" ∧ value = .id fresh) := by
  simp only [columns, List.mem_append, List.mem_map, Prod.mk.injEq, Prod.exists]
  refine or_congr ⟨?_, ?_⟩ ?_
  · rintro ⟨_, source, hmem, rfl, hvalue⟩
    exact ⟨source, hmem, hvalue⟩
  · rintro ⟨source, hmem, hvalue⟩
    exact ⟨column, source, hmem, rfl, hvalue⟩
  · cases s.identifier? <;> simp

/-- The names of identifiers are their own store spellings, so a document finds its identifier where
the columns have it. -/
theorem identified_columns (h : PlainNames (s.fields.map Prod.fst)) :
    Store.identified fresh
        (.ofList (inStore (s.fields.map fun field => (field.1, field.2.value params)))) =
      (.ofList (inStore (s.columns params fresh)),
        (s.identifier?.map (ValueSource.value params)).getD (.id fresh)) := by
  have hvalued : ((inStore (s.fields.map fun field => (field.1, field.2.value params))).map
      Prod.fst).Nodup := nodup_inStore (by rwa [names_valued])
  have hget : ∀ name, NameCase.Plain name → NameCase.storeName name = name →
      (NameMap.ofList (inStore (s.fields.map fun field => (field.1, field.2.value params)))).get?
        name = (Fields.get? s.fields name).map (ValueSource.value params) := by
    intro name hname hself
    have hapart : ∀ field ∈ s.fields,
        NameCase.storeName field.1 = NameCase.storeName name → field.1 = name :=
      fun field hfield => NameCase.storeName_injective
        (h.plain field.1 (List.mem_map_of_mem hfield)) hname
    have hfound := Fields.get?_respelled hapart (ValueSource.value params)
    rw [hself] at hfound
    rw [NameMap.get?_ofList_of_nodup hvalued, inStore, List.map_map]
    exact hfound
  have hidentifier : Document.identifier?
      (.ofList (inStore (s.fields.map fun field => (field.1, field.2.value params)))) =
        s.identifier?.map (ValueSource.value params) := by
    rw [Document.identifier?, identifier?, hget "id" plain_id.1 plain_id.2,
      hget "_id" plain_minted.1 plain_minted.2, Option.map_or]
  unfold Store.identified columns
  rw [hidentifier]
  cases s.identifier? with
  | some source => simp
  | none => simp [inStore, plain_minted.2, NameMap.ofList_concat]

end Insert

namespace Store

theorem documents_appended (s : Store) (name : String) (d : Document) :
    (appended s name d).documents name = s.documents name ++ [d] := by
  simp only [documents, collection, appended, NameMap.get?_insert, if_true, Option.getD_some]

end Store

namespace Engine

/-- An insertion that succeeds has found all its values. Its document comes last, and the rows it
returns are those of that document. -/
theorem execute_insert_result {policy : Policy} {fresh : Uuid} {params : List Value} {s : Insert}
    {store : Store} {result : QueryResult}
    (h : (execute Store.memory policy fresh params (.insert s) store).outcome = .ok result) :
    ∃ entries, resolveFields params s.fields = .ok entries ∧
      let stored := Store.identified fresh (.ofList entries)
      (execute Store.memory policy fresh params (.insert s) store).state =
        store.appended s.collection stored.1 ∧
      result.rows = returnedRows stored.1 s.returning ∧ result.insertedId = some stored.2 := by
  obtain ⟨plan, hplan, hrun⟩ := exists_plan h
  obtain ⟨entries, hentries, hpure⟩ := bind_eq_ok_iff.mp hplan
  obtain rfl := pure_eq_ok_iff.mp hpure
  rw [hrun] at h ⊢
  refine ⟨entries, Plan.resolved_eq_ok_iff.mp hentries, ?_⟩
  simp only [run, ask, Store.memory] at h ⊢
  obtain ⟨index, -, -, -, hinsert⟩ | ⟨-, hinsert⟩ :=
    Store.insert_cases fresh s.collection (.ofList entries) store
  · simp only [hinsert] at h
    cases h
  · simp only [hinsert, Except.ok.injEq] at h ⊢
    exact ⟨trivial, h ▸ rfl, h ▸ rfl⟩

theorem execute_insert {policy : Policy} {fresh : Uuid} {params : List Value} {s : Insert}
    {store : Store} {result : QueryResult}
    (h : (execute Store.memory policy fresh params (.insert s) store).outcome = .ok result) :
    ∃ entries, resolveFields params s.fields = .ok entries ∧
      (execute Store.memory policy fresh params (.insert s) store).state =
        store.appended s.collection (Store.identified fresh (.ofList entries)).1 ∧
      result.insertedId = some (Store.identified fresh (.ofList entries)).2 := by
  obtain ⟨entries, hentries, hstate, -, hid⟩ := execute_insert_result h
  exact ⟨entries, hentries, hstate, hid⟩

/-- Without conditions all documents are read. -/
theorem execute_select_all (policy : Policy) (fresh : Uuid) (params : List Value) (name : String)
    (s : Store) :
    (execute Store.memory policy fresh params
      (.select ⟨name, [], [], none, none, none⟩) s).outcome =
        .ok (.ofRows .select ((s.documents name).map Row.ofDocument)) := by
  have hcovered : ∀ p ∈ ([] : List Predicate), p.Covered params := fun _ hp => nomatch hp
  have hall : (s.documents name).filter (selected params []) = s.documents name :=
    List.filter_eq_self.mpr fun _ _ => rfl
  rw [(execute_select hcovered policy fresh name s).1, hall]

/-- What was inserted is read back, behind the rows that were there. The new row shows each column
under both of its spellings with the value it was given, a minted `_id` if neither `id` nor `_id` is
among the columns, and nothing else. The insertion reports `id`, or else `_id`, as the
identifier. -/
theorem select_after_insert {s : Insert} (hnames : PlainNames (s.fields.map Prod.fst))
    (policy : Policy) (fresh later : Uuid) (params given : List Value) (store : Store) :
    let run := execute Store.memory policy fresh params (.insert s) store
    let reading := fun state => (execute Store.memory policy later given
      (.select ⟨s.collection, [], [], none, none, none⟩) state).outcome
    ∀ result, run.outcome = .ok result → ∃ before row,
      reading store = .ok (.ofRows .select before) ∧
      reading run.state = .ok (.ofRows .select (before ++ [row])) ∧
      (∀ field ∈ s.fields, ∃ value, field.2.resolve params = .ok value) ∧
      (∀ name value, row.get? name = some value ↔
        (∃ column source, (column, source) ∈ s.fields ∧ source.resolve params = .ok value ∧
          (name = column ∨ name = NameCase.storeName column)) ∨
        (s.identifier? = none ∧ name = "_id" ∧ value = .id fresh)) ∧
      match s.identifier? with
      | some source => ∃ value, source.resolve params = .ok value ∧ result.insertedId = some value
      | none => result.insertedId = some (.id fresh) := by
  intro run reading result hresult
  obtain ⟨entries, hentries, hstate, hid⟩ := execute_insert hresult
  obtain ⟨hresolve, rfl⟩ := resolveFields_eq_ok hentries
  rw [Insert.identified_columns hnames] at hstate hid
  have hread : ∀ state, reading state = .ok (.ofRows .select
      ((state.documents s.collection).map Row.ofDocument)) :=
    execute_select_all policy later given s.collection
  refine ⟨_, Row.ofDocument (.ofList (inStore (s.columns params fresh))), hread store, ?_,
    fun field hfield => ⟨_, hresolve field hfield⟩, ?_, ?_⟩
  · rw [hread, hstate, Store.documents_appended, List.map_append, List.map_singleton]
  · intro name value
    rw [Row.get?_ofDocument_inStore (Insert.plainNames_columns hnames)]
    simp only [Insert.mem_columns]
    constructor
    · rintro ⟨column, ⟨source, hmem, rfl⟩ | ⟨hnone, rfl, rfl⟩, hname⟩
      · exact .inl ⟨column, source, hmem, hresolve _ hmem, hname⟩
      · rw [Insert.plain_minted.2, or_self] at hname
        exact .inr ⟨hnone, hname, rfl⟩
    · rintro (⟨column, source, hmem, hvalue, hname⟩ | ⟨hnone, rfl, rfl⟩)
      · exact ⟨column, .inl ⟨source, hmem, ValueSource.value_of_resolve hvalue⟩, hname⟩
      · exact ⟨"_id", .inr ⟨hnone, rfl, rfl⟩, .inl rfl⟩
  · cases hidentifier : s.identifier? with
    | none => rw [hid, hidentifier]; rfl
    | some source =>
      obtain ⟨column, hmem⟩ := Insert.mem_of_identifier? hidentifier
      exact ⟨_, hresolve _ hmem, by rw [hid, hidentifier]; rfl⟩

/-- A user without an identifier, inserted behind another one. -/
theorem select_after_insert_user :
    let s : Insert := ⟨"users", [("user_name", .parameter 1), ("age", .literal .null)], none⟩
    let ann : Document := NameMap.empty.insert "_id" (.text "ann")
    let store : Store := NameMap.empty.insert "users" { documents := [ann] }
    let run := execute Store.memory {} ⟨7⟩ [.text "Bob"] (.insert s) store
    PlainNames (s.fields.map Prod.fst) ∧
    ∃ result row, run.outcome = .ok result ∧ result.insertedId = some (.id ⟨7⟩) ∧
      (execute Store.memory {} ⟨0⟩ [] (.select ⟨"users", [], [], none, none, none⟩)
        run.state).outcome = .ok (.ofRows .select [Row.ofDocument ann, row]) ∧
      row.get? "user_name" = some (.text "Bob") ∧ row.get? "userName" = some (.text "Bob") ∧
      row.get? "_id" = some (.id ⟨7⟩) := by
  intro s ann store run
  have hnames : PlainNames (s.fields.map Prod.fst) := ⟨by decide +kernel, by decide +kernel⟩
  obtain ⟨before, row, hbefore, hafter, -, hrow, hid⟩ :=
    select_after_insert hnames {} ⟨7⟩ ⟨0⟩ [.text "Bob"] [] store _ rfl
  have hthere := (execute_select_all {} ⟨0⟩ [] "users" store).symm.trans hbefore
  obtain rfl : [Row.ofDocument ann] = before := congrArg QueryResult.rows (Except.ok.inj hthere)
  have huser : ("user_name", ValueSource.parameter 1) ∈ s.fields := List.mem_cons_self
  refine ⟨hnames, _, row, rfl, hid, hafter, ?_, ?_, ?_⟩
  · exact (hrow _ _).mpr (.inl ⟨_, _, huser, rfl, .inl rfl⟩)
  · exact (hrow _ _).mpr (.inl ⟨_, _, huser, rfl, .inr (by decide +kernel)⟩)
  · exact (hrow _ _).mpr (.inr ⟨rfl, rfl, rfl⟩)

end Engine

end DocumentSql
