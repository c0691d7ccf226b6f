import DocumentSql.Proofs.Engine.Plan
import DocumentSql.Proofs.Store.Assignment
import DocumentSql.Proofs.Store.Condition
import DocumentSql.Proofs.Store.Operation
/-
Reading, deleting and updating under the same conditions are about the same documents. What an
update assigns is said field by field: of two assignments that fall on one store field the last
counts.
-/

namespace DocumentSql

namespace ValueSource

theorem value_of_resolve {params : List Value} {source : ValueSource} {v : Value}
    (h : source.resolve params = .ok v) : source.value params = v := by
  cases source with
  | literal value => exact Except.ok.inj h
  | parameter n =>
    cases n with
    | zero => cases h
    | succ n =>
      cases hget : params[n]? with
      | none => simp [resolve, hget] at h
      | some value =>
        simp only [resolve, hget, Except.ok.injEq] at h
        simp [ValueSource.value, hget, h]

end ValueSource

def assignedTo (params : List Value) (assignments : List (String × ValueSource)) (field : String) :
    Option Value :=
  (assignments.reverse.find? fun a => NameCase.storeName a.1 == field).map fun a =>
    a.2.value params

/-- Some assigned field does not yet hold a value that counts as the same. -/
def differs (params : List Value) (assignments : List (String × ValueSource)) (d : Document) :
    Bool :=
  assignments.any fun a =>
    (assignedTo params assignments (NameCase.storeName a.1)).any fun value =>
      !d.settled (NameCase.storeName a.1) value

structure Assigned (params : List Value) (assignments : List (String × ValueSource))
    (d d' : Document) : Prop where
  assigned : ∀ field value, assignedTo params assignments field = some value →
    ∃ stored, d'.get? field = some stored ∧ (stored = value ∨ stored.unchanged value = true)
  others : ∀ field, assignedTo params assignments field = none → d'.get? field = d.get? field

theorem get?_entries {params : List Value} {assignments : List (String × ValueSource)}
    {entries : List (String × Value)} (h : resolveFields params assignments = .ok entries)
    (field : String) : Fields.get? entries field =
      (assignments.find? fun a => NameCase.storeName a.1 == field).map fun a =>
        a.2.value params := by
  rw [resolveFields, mapM_eq_ok_iff] at h
  induction h with
  | nil => rfl
  | @cons a entry assignments entries hentry _ ih =>
    obtain ⟨v, hv, hentry⟩ := bind_eq_ok_iff.1 hentry
    obtain rfl := pure_eq_ok_iff.1 hentry
    by_cases hname : NameCase.storeName a.1 = field
    · simp [Fields.get?, hname, ValueSource.value_of_resolve hv]
    · have hname' : ¬field = NameCase.storeName a.1 := fun heq => hname heq.symm
      simpa [Fields.get?, hname, hname'] using ih

theorem resolveFields_reverse {params : List Value} {assignments : List (String × ValueSource)}
    {entries : List (String × Value)} (h : resolveFields params assignments = .ok entries) :
    resolveFields params assignments.reverse = .ok entries.reverse := by
  rw [resolveFields, mapM_eq_ok_iff] at h ⊢
  exact List.rel_reverse h

theorem get?_ofList_entries {params : List Value} {assignments : List (String × ValueSource)}
    {entries : List (String × Value)} (h : resolveFields params assignments = .ok entries)
    (field : String) :
    (NameMap.ofList entries).get? field = assignedTo params assignments field := by
  rw [NameMap.get?_ofList, get?_entries (resolveFields_reverse h), assignedTo]

theorem assigned_assignAll {params : List Value} {assignments : List (String × ValueSource)}
    {entries : List (String × Value)} (h : resolveFields params assignments = .ok entries)
    (d : Document) :
    Assigned params assignments d (Document.assignAll (.ofList entries) d).1 where
  assigned field value hvalue := by
    rw [Document.get?_assignAll, get?_ofList_entries h, hvalue]
    by_cases hsettled : d.settled field value = true
    · obtain ⟨stored, hstored, hunchanged⟩ := (Option.any_eq_true _ _).1 hsettled
      exact ⟨stored, by simp only [hsettled, if_true, hstored], .inr hunchanged⟩
    · exact ⟨value, by simp only [if_neg hsettled], .inl rfl⟩
  others field hnone := by rw [Document.get?_assignAll, get?_ofList_entries h, hnone]

theorem exists_of_assignedTo {params : List Value} {assignments : List (String × ValueSource)}
    {field : String} {value : Value} (h : assignedTo params assignments field = some value) :
    ∃ a ∈ assignments, NameCase.storeName a.1 = field := by
  obtain ⟨a, ha, -⟩ := Option.map_eq_some_iff.1 h
  exact ⟨a, List.mem_reverse.1 (List.mem_of_find?_eq_some ha),
    by simpa using List.find?_some ha⟩

theorem differs_iff {params : List Value} {assignments : List (String × ValueSource)}
    {d : Document} : differs params assignments d = true ↔
      ∃ field value, assignedTo params assignments field = some value ∧
        d.settled field value = false := by
  simp only [differs, List.any_eq_true, Option.any_eq_true, Bool.not_eq_true']
  constructor
  · rintro ⟨a, -, value, hvalue, hsettled⟩
    exact ⟨_, value, hvalue, hsettled⟩
  · rintro ⟨field, value, hvalue, hsettled⟩
    obtain ⟨a, ha, rfl⟩ := exists_of_assignedTo hvalue
    exact ⟨a, ha, value, hvalue, hsettled⟩

theorem assignAll_snd_eq_differs {params : List Value}
    {assignments : List (String × ValueSource)} {entries : List (String × Value)}
    (h : resolveFields params assignments = .ok entries) (d : Document) :
    (Document.assignAll (.ofList entries) d).2 = differs params assignments d := by
  rw [Bool.eq_iff_iff, Document.assignAll_snd, differs_iff]
  simp only [get?_ofList_entries h]

def Collection.without (params : List Value) (predicates : List Predicate) (c : Collection) :
    Collection :=
  { c with documents := c.documents.filter fun d => !selected params predicates d }

/-- The documents of a collection before and after an update, place by place. -/
def UpdatedTo (params : List Value) (predicates : List Predicate)
    (assignments : List (String × ValueSource)) : List Document → List Document → Prop :=
  List.Forall₂ fun d d' =>
    if selected params predicates d then Assigned params assignments d d' else d' = d

section Update

variable {params : List Value} {assignments : List (String × ValueSource)}
  {entries : List (String × Value)}

theorem updatedTo_rewritten (hentries : resolveFields params assignments = .ok entries)
    (predicates : List Predicate) (documents : List Document) :
    UpdatedTo params predicates assignments documents
      (Store.rewritten (selected params predicates) (.ofList entries) documents) := by
  rw [Store.rewritten, UpdatedTo, List.forall₂_map_right_iff, List.forall₂_same]
  intro d _
  unfold Store.updated
  by_cases hselected : selected params predicates d = true
  · simp only [hselected, if_true]
    exact assigned_assignAll hentries d
  · simp only [hselected, if_false, Bool.false_eq_true]

theorem changes_eq_countP (hentries : resolveFields params assignments = .ok entries)
    (predicates : List Predicate) (documents : List Document) :
    Store.changes (selected params predicates) (.ofList entries) documents =
      (documents.filter (selected params predicates)).countP (differs params assignments) := by
  rw [Store.changes, List.countP_filter]
  refine List.countP_congr fun d _ => ?_
  unfold Store.updated
  by_cases hselected : selected params predicates d = true
  · simp only [hselected, if_true, assignAll_snd_eq_differs hentries, Bool.and_true]
  · simp only [hselected, if_false, Bool.false_eq_true, Bool.and_false]

theorem rewritten_of_changes_eq_zero {selects : Document → Bool} {set : Document}
    {documents : List Document} (h : Store.changes selects set documents = 0) :
    Store.rewritten selects set documents = documents := by
  refine (List.map_congr_left fun d hd => ?_).trans (List.map_id documents)
  have hsame := List.countP_eq_zero.1 h d hd
  unfold Store.updated at hsame ⊢
  by_cases hselects : selects d = true
  · rw [if_pos hselects] at hsame ⊢
    exact Document.assignAll_of_not_changed (by simpa using hsame)
  · rw [if_neg hselects]
    rfl

theorem update_eq_ok {name : String} {filter : Filter} {selects : Document → Bool} {set : Document}
    {s : Store} {answer : Updated} (hfilter : Filter.compile filter = .ok selects)
    (h : (Store.update name filter set s).1 = .ok answer) :
    answer.modified = some (Store.changes selects set (s.documents name)) ∧
    (Store.update name filter set s).2.get? name =
      (s.get? name).map (fun c =>
        { c with documents := Store.rewritten selects set (s.documents name) }) ∧
    ∀ other, other ≠ name → (Store.update name filter set s).2.get? other = s.get? other := by
  obtain ⟨hs, hupdate⟩ | ⟨c, hs, hupdated⟩ := Store.update_cases hfilter set s
  · rw [hupdate] at h ⊢
    obtain rfl := Except.ok.inj h
    have hdocuments : s.documents name = [] := by
      simp only [Store.documents, Store.collection, hs, Option.getD_none]
    exact ⟨by rw [hdocuments]; rfl, by rw [hs]; rfl, fun _ _ => rfl⟩
  · have hdocuments : s.documents name = c.documents := by
      rw [Store.documents, Store.collection_of_get? hs]
    rw [hdocuments]
    obtain ⟨hchanges, hupdate⟩ | ⟨index, -, hupdate⟩ | ⟨-, hupdate⟩ := hupdated
    · rw [hupdate] at h ⊢
      obtain rfl := Except.ok.inj h
      rw [hchanges, rewritten_of_changes_eq_zero hchanges, hs]
      exact ⟨rfl, rfl, fun _ _ => rfl⟩
    · rw [hupdate] at h
      cases h
    · rw [hupdate] at h ⊢
      obtain rfl := Except.ok.inj h
      rw [hs, NameMap.get?_insert, if_pos rfl]
      exact ⟨rfl, rfl, fun other hother => (NameMap.get?_insert ..).trans (if_neg hother)⟩

end Update

namespace Engine

variable {params : List Value} {predicates : List Predicate}

/-- What `SELECT *` has found is all of the selected documents, in stored order. -/
theorem execute_select (hcovered : ∀ p ∈ predicates, p.Covered params) (policy : Policy)
    (fresh : Uuid) (name : String) (s : Store) :
    let run := execute Store.memory policy fresh params
      (.select ⟨name, [], predicates, none, none, none⟩) s
    run.outcome = .ok (.ofRows .select
      (((s.documents name).filter (selected params predicates)).map Row.ofDocument)) ∧
    run.state = s := by
  obtain ⟨filter, hfilter, hcompile⟩ := Filter.compile_ofPredicates hcovered
  have hplan : Plan.ofStatement policy params (.select ⟨name, [], predicates, none, none, none⟩) =
      .ok (.find name { filter := filter }) := Plan.ofStatement_select hfilter
  have hfind : Store.memory.find name { filter := filter } s =
      (.ok ((s.documents name).filter (selected params predicates)), s) :=
    Store.find_of_compile hcompile name s
  simp only [execute, hplan, run, ask, hfind, and_true]
  exact rfl

theorem execute_delete (hcovered : ∀ p ∈ predicates, p.Covered params) (policy : Policy)
    (fresh : Uuid) (name : String) (s : Store) :
    let run := execute Store.memory policy fresh params (.delete ⟨name, predicates⟩) s
    run.outcome = .ok (.affected .delete
      ((s.documents name).filter (selected params predicates)).length) ∧
    run.state.get? name = (s.get? name).map (Collection.without params predicates) ∧
    ∀ other, other ≠ name → run.state.get? other = s.get? other := by
  obtain ⟨filter, hfilter, hcompile⟩ := Filter.compile_ofPredicates hcovered
  have hplan : Plan.ofStatement policy params (.delete ⟨name, predicates⟩) =
      .ok (.delete name filter) := Plan.ofStatement_delete hfilter
  have hcases := @Store.delete_cases name filter _ hcompile s
  simp only [execute, hplan, run, ask, Store.memory, Store.documents]
  obtain ⟨hs, hdelete⟩ | ⟨c, hs, hdelete⟩ := hcases
  · simp only [hdelete, hs, Store.collection]
    exact ⟨rfl, rfl, fun _ _ => trivial⟩
  · simp only [hdelete, Store.collection_of_get? hs, hs, NameMap.get?_insert, if_true,
      Option.getD_some, List.countP_eq_length_filter]
    exact ⟨trivial, rfl, fun other hother => if_neg hother⟩

theorem run_update {fresh : Uuid} {name : String} {filter : Filter} {selects : Document → Bool}
    {set : Document} {s : Store} {result : QueryResult}
    (hfilter : Filter.compile filter = .ok selects)
    (h : (run Store.memory fresh (.update name filter set) s).outcome = .ok result) :
    let state := (run Store.memory fresh (.update name filter set) s).state
    result = .affected .update (Store.changes selects set (s.documents name)) ∧
    state.get? name = (s.get? name).map (fun c =>
      { c with documents := Store.rewritten selects set (s.documents name) }) ∧
    ∀ other, other ≠ name → state.get? other = s.get? other := by
  obtain ⟨answer, state, hanswer, hask⟩ := exists_of_ask h
  have hupdate : Store.update name filter set s = (.ok answer, state) := hanswer
  obtain ⟨hmodified, hname, hothers⟩ := update_eq_ok hfilter (congrArg Prod.fst hupdate)
  have hrun : run Store.memory fresh (.update name filter set) s = _ := hask
  rw [hrun, hmodified] at h
  rw [hrun]
  rw [hupdate] at hname hothers
  exact ⟨(Except.ok.inj h).symm, hname, hothers⟩

/-- An update that fails says nothing here; one that succeeds has assigned what it could. -/
theorem execute_update (hcovered : ∀ p ∈ predicates, p.Covered params) (policy : Policy)
    (fresh : Uuid) (name : String) (assignments : List (String × ValueSource)) (s : Store) :
    let run := execute Store.memory policy fresh params (.update ⟨name, assignments, predicates⟩) s
    ∀ result, run.outcome = .ok result →
      result = .affected .update (((s.documents name).filter (selected params predicates)).countP
        (differs params assignments)) ∧
      (∃ documents, UpdatedTo params predicates assignments (s.documents name) documents ∧
        run.state.get? name = (s.get? name).map fun c => { c with documents := documents }) ∧
      ∀ other, other ≠ name → run.state.get? other = s.get? other := by
  obtain ⟨filter, hfilter, hcompile⟩ := Filter.compile_ofPredicates hcovered
  intro run result hresult
  cases hentries : resolveFields params assignments with
  | error e =>
    have hrun : run.outcome = .error (.parameter e) := by
      simp only [run, execute, Plan.ofStatement, hentries]
      rfl
    rw [hrun] at hresult
    cases hresult
  | ok entries =>
    have hplan : Plan.ofStatement policy params (.update ⟨name, assignments, predicates⟩) =
        .ok (.update name filter (.ofList entries)) := Plan.ofStatement_update hentries hfilter
    have hrun : run = Engine.run Store.memory fresh (.update name filter (.ofList entries)) s := by
      simp only [run, execute, hplan]
    rw [hrun] at hresult ⊢
    obtain ⟨rfl, hname, hothers⟩ := run_update hcompile hresult
    rw [changes_eq_countP hentries]
    exact ⟨rfl, ⟨_, updatedTo_rewritten hentries predicates _, hname⟩, hothers⟩

/-- One and the same set of documents is read, deleted and updated under the same conditions. Row
counts stop where `QueryResult.saturate` stops them. -/
theorem same_documents_selected (hcovered : ∀ p ∈ predicates, p.Covered params) (policy : Policy)
    (fresh : Uuid) (name : String) (s : Store) :
    let found := (s.documents name).filter (selected params predicates)
    let run := fun statement => execute Store.memory policy fresh params statement s
    let reading := run (.select ⟨name, [], predicates, none, none, none⟩)
    let deletion := run (.delete ⟨name, predicates⟩)
    (reading.outcome = .ok (.ofRows .select (found.map Row.ofDocument)) ∧ reading.state = s) ∧
    (deletion.outcome = .ok (.affected .delete found.length) ∧
      deletion.state.get? name = (s.get? name).map (Collection.without params predicates) ∧
      ∀ other, other ≠ name → deletion.state.get? other = s.get? other) ∧
    ∀ assignments result, (run (.update ⟨name, assignments, predicates⟩)).outcome = .ok result →
      result = .affected .update (found.countP (differs params assignments)) ∧
      (∃ documents, UpdatedTo params predicates assignments (s.documents name) documents ∧
        (run (.update ⟨name, assignments, predicates⟩)).state.get? name =
          (s.get? name).map fun c => { c with documents := documents }) ∧
      ∀ other, other ≠ name →
        (run (.update ⟨name, assignments, predicates⟩)).state.get? other = s.get? other :=
  ⟨execute_select hcovered policy fresh name s, execute_delete hcovered policy fresh name s,
    fun assignments => execute_update hcovered policy fresh name assignments s⟩

/-- Two users, of whom the pattern finds one. -/
theorem same_documents_selected_users :
    let params : List Value := [.text "a%"]
    let predicates : List Predicate := [.like "user_name" (.parameter 1)]
    let ann : Document := NameMap.empty.insert "userName" (.text "Ann")
    let bob : Document := NameMap.empty.insert "userName" (.text "Bob")
    let s : Store := NameMap.empty.insert "users" { documents := [ann, bob] }
    (∀ p ∈ predicates, p.Covered params) ∧
    (s.documents "users").filter (selected params predicates) = [ann] ∧
    (execute Store.memory {} ⟨0⟩ params (.delete ⟨"users", predicates⟩) s).outcome =
      .ok (.affected .delete 1) := by
  intro params predicates ann bob s
  have hcovered : ∀ p ∈ predicates, p.Covered params := by
    intro p hp source hsource
    obtain rfl := List.mem_singleton.1 hp
    obtain rfl := Option.some.inj hsource
    exact ⟨Nat.one_pos, Nat.le_refl 1⟩
  have hfound : (s.documents "users").filter (selected params predicates) = [ann] := by
    decide +kernel
  refine ⟨hcovered, hfound, ?_⟩
  have h := (same_documents_selected hcovered {} ⟨0⟩ "users" s).2.1.1
  rw [hfound] at h
  exact h

end Engine

end DocumentSql
