import DocumentSql.Proofs.Engine.Plan
import DocumentSql.Proofs.Store.Clients
import DocumentSql.Proofs.Store.Insertion
/-
What becomes of the values that a statement assigns. A document has one value for each store field,
so of two columns that fall on one field only the last is held, and nothing complains. A value that
no later column of the statement replaces is never lost.
-/

namespace DocumentSql

theorem ValueSource.covered_of_resolve {params : List Value} {source : ValueSource} {value : Value}
    (h : source.resolve params = .ok value) : source.Covered params := by
  cases source with
  | literal value => trivial
  | parameter n =>
    cases n with
    | zero => cases h
    | succ n =>
      cases hget : params[n]? with
      | none => simp only [resolve, hget] at h; cases h
      | some found =>
        obtain ⟨hn, -⟩ := List.getElem?_eq_some_iff.mp hget
        exact ⟨Nat.succ_pos n, hn⟩

/-- A statement with a plan has all its parameters. -/
theorem Plan.covered_of_ofStatement {policy : Policy} {params : List Value} {statement : Statement}
    {plan : Plan} (h : ofStatement policy params statement = .ok plan) :
    ∀ source ∈ statement.sources, source.Covered params := by
  intro source hsource
  have hfault := fault?_ofStatement policy params statement
  rw [h] at hfault
  obtain ⟨hnone, -⟩ := Option.or_eq_none_iff.mp hfault.symm
  have hfound := List.findSome?_eq_none_iff.mp (Option.map_eq_none_iff.mp hnone) source hsource
  cases hresolve : source.resolve params with
  | error e => rw [hresolve] at hfound; cases hfound
  | ok value => exact ValueSource.covered_of_resolve hresolve

/-- The last assignment to a field decides, and with it every earlier one of the same value. -/
theorem assignedTo_of_agreeing {params : List Value} {earlier later : List (String × ValueSource)}
    {column : String} {source : ValueSource} {value : Value}
    (hsource : source.resolve params = .ok value)
    (hlater : ∀ a ∈ later, NameCase.storeName a.1 = NameCase.storeName column →
      a.2.resolve params = .ok value) :
    assignedTo params (earlier ++ (column, source) :: later) (NameCase.storeName column) =
      some value := by
  rw [assignedTo, List.reverse_append, List.reverse_cons, List.append_assoc, List.find?_append]
  cases hfind : later.reverse.find? fun a =>
      NameCase.storeName a.1 == NameCase.storeName column with
  | none => simp [ValueSource.value_of_resolve hsource]
  | some a =>
    have hsame : NameCase.storeName a.1 = NameCase.storeName column := by
      simpa using List.find?_some hfind
    have ha : a ∈ later := List.mem_reverse.mp (List.mem_of_find?_eq_some hfind)
    exact congrArg some (ValueSource.value_of_resolve (hlater a ha hsame))

/-- Each pair has a value, and it is held under the store name of its column unless a later pair for
the same field has another value. -/
def Keeps (params : List Value) (pairs : List (String × ValueSource))
    (holds : String → Value → Prop) : Prop :=
  ∀ earlier column source later, pairs = earlier ++ (column, source) :: later →
    ∃ value, source.resolve params = .ok value ∧
      ((∀ a ∈ later, NameCase.storeName a.1 = NameCase.storeName column →
        a.2.resolve params = .ok value) → holds (NameCase.storeName column) value)

theorem keeps_of_assignedTo {params : List Value} {pairs : List (String × ValueSource)}
    {holds : String → Value → Prop}
    (hresolve : ∀ pair ∈ pairs, pair.2.resolve params = .ok (pair.2.value params))
    (hholds : ∀ field value, assignedTo params pairs field = some value → holds field value) :
    Keeps params pairs holds := by
  intro earlier column source later hpairs
  have hsource := hresolve (column, source) (by simp [hpairs])
  refine ⟨_, hsource, fun hlater => hholds _ _ ?_⟩
  rw [hpairs]
  exact assignedTo_of_agreeing hsource hlater

/-- A minted identifier takes no other field's place. -/
theorem Store.get?_identified {fresh : Uuid} {d : Document} {field : String} {value : Value}
    (h : d.get? field = some value) : (identified fresh d).1.get? field = some value := by
  unfold identified
  cases hidentifier : d.identifier? with
  | some id => exact h
  | none =>
    obtain ⟨-, hfree⟩ := Option.or_eq_none_iff.mp hidentifier
    have hother : field ≠ "_id" := by
      rintro rfl
      rw [hfree] at h
      cases h
    exact (NameMap.get?_insert ..).trans ((if_neg hother).trans h)

namespace Engine

variable {policy : Policy} {fresh : Uuid} {params : List Value} {store : Store}
  {result : QueryResult}

theorem insert_keeps {s : Insert}
    (h : (execute Store.memory policy fresh params (.insert s) store).outcome = .ok result) :
    ∃ d, (execute Store.memory policy fresh params (.insert s) store).state.documents s.collection =
        store.documents s.collection ++ [d] ∧
      Keeps params s.fields fun field value => d.get? field = some value := by
  obtain ⟨entries, hentries, hstate, -⟩ := execute_insert h
  obtain ⟨hresolve, -⟩ := resolveFields_eq_ok hentries
  refine ⟨_, by rw [hstate, Store.documents_appended], keeps_of_assignedTo hresolve ?_⟩
  intro field value hvalue
  rw [← get?_ofList_entries hentries] at hvalue
  exact Store.get?_identified hvalue

/-- An update that succeeds has found all its values, so any later run of it asks the same of a
store. -/
theorem exists_update {s : Update}
    (h : (execute Store.memory policy fresh params (.update s) store).outcome = .ok result) :
    ∃ entries filter, resolveFields params s.assignments = .ok entries ∧
      Filter.compile filter = .ok (selected params s.predicates) ∧
      ∀ policy fresh store, execute Store.memory policy fresh params (.update s) store =
        run Store.memory fresh (.update s.collection filter (.ofList entries)) store := by
  obtain ⟨plan, hplan, -⟩ := exists_plan h
  have hcovered : ∀ p ∈ s.predicates, p.Covered params := by
    intro p hp source hsource
    have hmem : source ∈ s.predicates.filterMap Predicate.operand? :=
      List.mem_filterMap.mpr ⟨p, hp, hsource⟩
    exact Plan.covered_of_ofStatement hplan source (List.mem_append_right _ hmem)
  obtain ⟨filter, hfilter, hcompile⟩ := Filter.compile_ofPredicates hcovered
  obtain ⟨entries, hentries, -⟩ := bind_eq_ok_iff.mp hplan
  have hresolved := Plan.resolved_eq_ok_iff.mp hentries
  refine ⟨entries, filter, hresolved, hcompile, fun policy fresh store => ?_⟩
  simp only [execute, Plan.ofStatement_update hresolved hfilter]

theorem documents_run_update {name : String} {filter : Filter} {selects : Document → Bool}
    {set : Document} (hcompile : Filter.compile filter = .ok selects)
    (h : (run Store.memory fresh (.update name filter set) store).outcome = .ok result) :
    (run Store.memory fresh (.update name filter set) store).state.documents name =
      Store.rewritten selects set (store.documents name) := by
  obtain ⟨-, hname, -⟩ := run_update hcompile h
  rw [Store.documents, Store.collection, hname]
  cases hthere : store.get? name with
  | some c => rfl
  | none =>
    simp only [Store.documents, Store.collection, hthere]
    rfl

/-- An update that succeeds has passed once over the documents. -/
theorem execute_update_rewritten {s : Update}
    (h : (execute Store.memory policy fresh params (.update s) store).outcome = .ok result) :
    ∃ entries, resolveFields params s.assignments = .ok entries ∧
      (execute Store.memory policy fresh params (.update s) store).state.documents s.collection =
        Store.rewritten (selected params s.predicates) (.ofList entries)
          (store.documents s.collection) := by
  obtain ⟨entries, filter, hentries, hcompile, hrun⟩ := exists_update h
  rw [hrun] at h ⊢
  exact ⟨entries, hentries, documents_run_update hcompile h⟩

theorem update_keeps {s : Update}
    (h : (execute Store.memory policy fresh params (.update s) store).outcome = .ok result) :
    List.Forall₂ (fun d d' => if selected params s.predicates d then
        Keeps params s.assignments fun field value =>
          d'.get? field = some value ∨ d.settled field value = true ∧ d'.get? field = d.get? field
      else d' = d) (store.documents s.collection)
      ((execute Store.memory policy fresh params (.update s) store).state.documents
        s.collection) := by
  obtain ⟨entries, hentries, hdocuments⟩ := execute_update_rewritten h
  obtain ⟨hresolve, -⟩ := resolveFields_eq_ok hentries
  rw [hdocuments, Store.rewritten, List.forall₂_map_right_iff, List.forall₂_same]
  intro d _
  unfold Store.updated
  by_cases hselected : selected params s.predicates d = true
  · rw [if_pos hselected, if_pos hselected]
    refine keeps_of_assignedTo hresolve fun field value hvalue => ?_
    rw [Document.get?_assignAll, get?_ofList_entries hentries, hvalue]
    by_cases hsettled : d.settled field value = true
    · exact .inr ⟨hsettled, if_pos hsettled⟩
    · exact .inl (if_neg hsettled)
  · rw [if_neg hselected, if_neg hselected]

end Engine

/-- An assigned value is held by every document that the statement wrote, unless a later column of
the statement falls on the same store field with another value; then the last of them is held. An
update leaves a value in place that equals the new one. -/
theorem Call.assigned_values_held {call : Call} {store : Store} {statement : Statement}
    {result : QueryResult} (hparse : Statement.parse call.moment call.text = .ok statement)
    (hresult : (call.query store).outcome = .ok result) :
    match statement with
    | .insert s => ∃ d,
      (call.query store).state.documents s.collection = store.documents s.collection ++ [d] ∧
        Keeps call.params s.fields fun field value => d.get? field = some value
    | .update s => List.Forall₂ (fun d d' => if selected call.params s.predicates d then
          Keeps call.params s.assignments fun field value => d'.get? field = some value ∨
            d.settled field value = true ∧ d'.get? field = d.get? field
        else d' = d)
      (store.documents s.collection) ((call.query store).state.documents s.collection)
    | _ => True := by
  obtain ⟨houtcome, hstate⟩ := call.query_of_parse hparse store
  rw [houtcome] at hresult
  rw [hstate]
  cases statement with
  | insert s => exact Engine.insert_keeps hresult
  | update s => exact Engine.update_keeps hresult
  | _ => trivial

/-- Of two columns for one field the later one is held. -/
theorem Call.assigned_values_held_last :
    let s : Insert := ⟨"users", [("user_id", .literal .null), ("userId", .parameter 1)], none⟩
    let call : Call := ⟨{}, .series ⟨0⟩ 0 0,
      "INSERT INTO users (user_id, \"userId\") VALUES (NULL, $1)", [.text "u1"]⟩
    Statement.parse call.moment call.text = .ok (.insert s) ∧
    ∃ result d, (call.query Store.empty).outcome = .ok result ∧
      (call.query Store.empty).state.documents "users" = [d] ∧
      d.get? "userId" = some (.text "u1") := by
  intro s call
  have hparse : Statement.parse call.moment call.text = .ok (.insert s) := by decide +kernel
  obtain ⟨houtcome, -⟩ := call.query_of_parse hparse Store.empty
  obtain ⟨d, hdocuments, hkeeps⟩ := assigned_values_held hparse houtcome
  obtain ⟨value, hvalue, hheld⟩ := hkeeps [("user_id", .literal .null)] _ _ [] rfl
  obtain rfl := Except.ok.inj hvalue
  have hfield : NameCase.storeName "userId" = "userId" := by decide +kernel
  exact ⟨hparse, _, d, houtcome, hdocuments, hfield ▸ hheld nofun⟩

/-- The value of the earlier one is lost, and the statement is accepted all the same. -/
theorem Call.value_lost_on_shared_field :
    let s : Insert :=
      ⟨"users", [("user_id", .literal (.text "u1")), ("userId", .literal (.text "u2"))], none⟩
    let call : Call := ⟨{}, .series ⟨0⟩ 0 0,
      "INSERT INTO users (user_id, \"userId\") VALUES ('u1', 'u2')", []⟩
    Statement.parse call.moment call.text = .ok (.insert s) ∧
    ∃ result d, (call.query Store.empty).outcome = .ok result ∧
      (call.query Store.empty).state.documents "users" = [d] ∧
      ("user_id", .literal (.text "u1")) ∈ s.fields ∧
      d.get? (NameCase.storeName "user_id") ≠ some (.text "u1") := by
  intro s call
  have hparse : Statement.parse call.moment call.text = .ok (.insert s) := by decide +kernel
  obtain ⟨houtcome, hstate⟩ := call.query_of_parse hparse Store.empty
  refine ⟨hparse, _, _, houtcome, by rw [hstate]; rfl, List.mem_cons_self, ?_⟩
  decide +kernel

end DocumentSql
