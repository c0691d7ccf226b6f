import DocumentSql.Proofs.Store.Change
/-
Collections apart from each other. A request concerns one collection: its answer and what it leaves
there depend on what was there, and all else stays as it was. So it is with statements, and two of
them on different collections may change places.
-/

namespace DocumentSql

namespace Store

variable {β γ : Type}

/-- Reads and changes the collection of that name alone. -/
structure Confined (name : String) (f : Store → β × Store) : Prop where
  inside : ∀ {s s' : Store}, s.get? name = s'.get? name →
    (f s).1 = (f s').1 ∧ (f s).2.get? name = (f s').2.get? name
  outside : ∀ (s : Store) {other : String}, other ≠ name → (f s).2.get? other = s.get? other

namespace Confined

variable {name name' : String} {f : Store → β × Store} {f' : Store → γ × Store}

theorem readOnly {g : Store → β} (h : ∀ {s s' : Store}, s.get? name = s'.get? name → g s = g s') :
    Confined name fun s => (g s, s) where
  inside hsame := ⟨h hsame, hsame⟩
  outside _ _ _ := rfl

theorem map (h : Confined name f) (g : β → γ) : Confined name fun s => (g (f s).1, (f s).2) where
  inside hsame := (h.inside hsame).imp_left (congrArg g)
  outside := h.outside

/-- Neither of two about different collections can tell whether the other went first. -/
theorem answer_after (h : Confined name f) (h' : Confined name' f') (hne : name ≠ name')
    (s : Store) : (f (f' s).2).1 = (f s).1 :=
  (h.inside (h'.outside s hne)).1

theorem comm (h : Confined name f) (h' : Confined name' f') (hne : name ≠ name') (s : Store) :
    (f (f' s).2).2 = (f' (f s).2).2 := by
  refine NameMap.ext fun other => ?_
  by_cases hname : other = name
  · subst hname
    rw [h'.outside _ hne]
    exact (h.inside (h'.outside s hne)).2
  · rw [h.outside _ hname]
    by_cases hname' : other = name'
    · subst hname'
      exact (h'.inside (h.outside s hname)).2.symm
    · rw [h'.outside _ hname', h'.outside _ hname', h.outside _ hname]

end Confined

theorem Change.get?_of_ne {name other : String} {s s' : Store} {kind : StatementKind}
    (h : Change name s kind s') (hother : other ≠ name) : s'.get? other = s.get? other := by
  cases h with
  | kept => rfl
  | rewritten | appended | indexed => exact (NameMap.get?_insert ..).trans (if_neg hother)

section Operations

variable {s s' : Store} {name other : String}

theorem get?_ensure : (ensure s name).get? name = some (s.collection name) :=
  (NameMap.get?_insertIfNew s name name {}).trans (if_pos rfl)

theorem get?_setDocuments {documents : List Document} : (setDocuments s name documents).get? name =
    some { s.collection name with documents := documents } :=
  (NameMap.get?_insert ..).trans (if_pos rfl)

theorem collection_congr (h : s.get? name = s'.get? name) :
    s.collection name = s'.collection name := by
  rw [collection, collection, h]

theorem confined_find (options : FindOptions) : Confined name (find name options) where
  inside h := by
    simp only [find, collection_congr h]
    split
    · exact ⟨rfl, h⟩
    · exact ⟨rfl, h⟩
  outside s _ _ := by rw [find_state]

theorem confined_insert (fresh : Uuid) (d : Document) : Confined name (insert fresh name d) where
  inside h := by
    simp only [insert, collection_ensure, collection_congr h]
    split
    · exact ⟨rfl, by rw [get?_ensure, get?_ensure, collection_congr h]⟩
    · exact ⟨rfl, by simp only [get?_setDocuments, collection_ensure, collection_congr h]⟩
  outside s _ hother := (insert_change s name fresh d).get?_of_ne hother

theorem confined_update (filter : Filter) (set : Document) :
    Confined name (update name filter set) where
  inside {s s'} h := by
    simp only [update, h]
    split
    · exact ⟨rfl, h⟩
    · split
      · exact ⟨rfl, h⟩
      · split
        · exact ⟨rfl, h⟩
        · split
          · exact ⟨rfl, h⟩
          · exact ⟨rfl, by rw [get?_setDocuments, get?_setDocuments, collection_congr h]⟩
  outside s _ hother := (update_change s name filter set).get?_of_ne hother

theorem confined_delete (filter : Filter) : Confined name (delete name filter) where
  inside h := by
    simp only [delete, h]
    split
    · exact ⟨rfl, h⟩
    · split
      · exact ⟨rfl, h⟩
      · exact ⟨rfl, by rw [get?_setDocuments, get?_setDocuments, collection_congr h]⟩
  outside s _ hother := (delete_change s name filter).get?_of_ne hother

theorem confined_createIndex (index : Index) : Confined name (createIndex name index) where
  inside {s s'} h := by
    have hensure : (ensure s name).get? name = (ensure s' name).get? name := by
      rw [get?_ensure, get?_ensure, collection_congr h]
    simp only [createIndex, collection_ensure, insert_ensure, collection_congr h]
    split
    · exact ⟨rfl, hensure⟩
    · split
      · exact ⟨rfl, hensure⟩
      · exact ⟨rfl, by rw [NameMap.get?_insert, NameMap.get?_insert, if_pos rfl, if_pos rfl]⟩
  outside s _ hother := (createIndex_change s name index).get?_of_ne hother

theorem confined_collectionExists : Confined name (collectionExists name) :=
  .readOnly fun h => by rw [NameMap.contains, NameMap.contains, h]

end Operations

end Store

namespace Engine

variable {σ α : Type}

/-- What a caller is told, and the state. -/
def report (e : Execution σ) : (Except QueryError QueryResult × List Log.Event) × σ :=
  ((e.outcome, e.events), e.state)

/-- A run that tells of one operation what it answers, and leaves the state to it. -/
def Relays (operation : Operation σ α) (run : σ → Execution σ) : Prop :=
  ∃ told : Except StoreError α → Except QueryError QueryResult × List Log.Event,
    ∀ s, report (run s) = (told (operation s).1, (operation s).2)

-- What is told depends on the answer alone, so it can be read off a run that has no state.

theorem ask_relays (operation : Operation σ α) (result : α → QueryResult)
    (events : List Log.Event) : Relays operation fun s => ask operation s result events := by
  refine ⟨fun answer => (report (ask (fun u => (answer, u)) () result events)).1, fun s => ?_⟩
  simp only [ask]
  cases operation s with
  | mk answer s' => cases answer <;> rfl

theorem askForIndex_relays (operation : Operation σ Unit) (events : List Log.Event) :
    Relays operation fun s => askForIndex operation s events := by
  refine ⟨fun answer => (report (askForIndex (fun u => (answer, u)) () events)).1, fun s => ?_⟩
  simp only [askForIndex]
  cases operation s with
  | mk answer s' =>
    cases answer with
    | ok => rfl
    | error e => cases e <;> rfl

theorem askWhether_relays (operation : Operation σ Bool) (collection : String) :
    Relays operation (askWhether operation collection) := by
  refine ⟨fun answer => (report (askWhether (fun u => (answer, u)) collection ())).1,
    fun s => ?_⟩
  unfold askWhether
  cases operation s with
  | mk answer s' => cases answer <;> rfl

theorem Relays.confined {name : String} {operation : Operation Store α}
    {run : Store → Execution Store} (hrun : Relays operation run)
    (h : Store.Confined name operation) : Store.Confined name fun s => report (run s) := by
  obtain ⟨told, htold⟩ := hrun
  simp only [htold]
  exact h.map told

/-- A run concerns the collection of its plan. -/
theorem confined_run {name : String} {plan : Plan} (h : plan.collection? = some name)
    (fresh : Uuid) : Store.Confined name fun s => report (run Store.memory fresh plan s) := by
  cases plan with
  | acceptInert | ignore => cases h
  | acceptTable => exact .readOnly fun _ => rfl
  | find collection options =>
    obtain rfl := Option.some.inj h
    exact (ask_relays ..).confined (Store.confined_find options)
  | insert collection d returning =>
    obtain rfl := Option.some.inj h
    exact (ask_relays ..).confined (Store.confined_insert fresh d)
  | update collection filter set =>
    obtain rfl := Option.some.inj h
    exact (ask_relays ..).confined (Store.confined_update filter set)
  | delete collection filter =>
    obtain rfl := Option.some.inj h
    exact (ask_relays ..).confined (Store.confined_delete filter)
  | probe collection =>
    obtain rfl := Option.some.inj h
    exact (askWhether_relays ..).confined Store.confined_collectionExists
  | createIndex collection index =>
    obtain rfl := Option.some.inj h
    exact (askForIndex_relays ..).confined (Store.confined_createIndex index)

theorem confined_execute {name : String} {statement : Statement}
    (h : statement.collection? = some name) (policy : Policy) (fresh : Uuid)
    (params : List Value) :
    Store.Confined name fun s =>
      report (execute Store.memory policy fresh params statement s) := by
  unfold execute
  cases hplan : Plan.ofStatement policy params statement with
  | error e => exact .readOnly fun _ => rfl
  | ok plan => exact confined_run ((Plan.collection?_ofStatement hplan).trans h) fresh

/-- Statements on different collections do not interfere. What a statement answers, and what it
leaves in its collection, depends on what that collection held, be it nothing; every other
collection is left as it was. So two statements on different collections may run in either order,
with the same two answers and the same state in the end. -/
theorem statements_do_not_interfere {name : String} {statement : Statement}
    (h : statement.collection? = some name) (policy : Policy) (fresh : Uuid)
    (params : List Value) :
    let run := execute Store.memory policy fresh params statement
    (∀ s s', s.get? name = s'.get? name → (run s).outcome = (run s').outcome ∧
      (run s).events = (run s').events ∧ (run s).state.get? name = (run s').state.get? name) ∧
    (∀ s other, other ≠ name → (run s).state.get? other = s.get? other) ∧
    ∀ name' statement', statement'.collection? = some name' → name' ≠ name →
      ∀ policy' fresh' params' s,
        let run' := execute Store.memory policy' fresh' params' statement'
        (run' (run s).state).outcome = (run' s).outcome ∧
        (run (run' s).state).outcome = (run s).outcome ∧
        (run' (run s).state).state = (run (run' s).state).state := by
  intro run
  have hrun := confined_execute h policy fresh params
  refine ⟨fun s s' hsame => ?_, fun s other hother => hrun.outside s hother, ?_⟩
  · obtain ⟨htold, hcontent⟩ := hrun.inside hsame
    obtain ⟨houtcome, hevents⟩ := Prod.mk.inj htold
    exact ⟨houtcome, hevents, hcontent⟩
  · intro name' statement' h' hne policy' fresh' params' s run'
    have hrun' := confined_execute h' policy' fresh' params'
    refine ⟨?_, ?_, hrun'.comm hrun hne s⟩
    · exact congrArg Prod.fst (hrun'.answer_after hrun hne s)
    · exact congrArg Prod.fst (hrun.answer_after hrun' hne.symm s)

/-- An insertion that is refused in its collection, and one that makes another collection. -/
theorem statements_do_not_interfere_users :
    let ann : Document := NameMap.empty.insert "email" (.text "a@b.c")
    let s : Store := NameMap.empty.insert "users" ⟨[ann], [⟨"by_email", ["email"], true⟩]⟩
    let s' : Store := NameMap.insert s "posts" ⟨[ann], []⟩
    let fresh := (Moment.series ⟨0⟩ 0 0).fresh 0
    let signUp := execute Store.memory {} fresh [.text "a@b.c"]
      (.insert ⟨"users", [("email", .parameter 1)], none⟩)
    let post := execute Store.memory {} fresh []
      (.insert ⟨"posts", [("title", .literal .null)], none⟩)
    (signUp s).outcome = .error (.store (.duplicateKey "users" "by_email")) ∧
    (signUp s').outcome = (signUp s).outcome ∧
    (signUp (post s).state).outcome = (signUp s).outcome ∧
    (post (signUp s).state).state = (signUp (post s).state).state := by
  intro ann s s' fresh signUp post
  have hrefused : (signUp s).outcome = .error (.store (.duplicateKey "users" "by_email")) :=
    fault?_eq_some_iff.mp (by decide +kernel)
  have htarget : (Statement.insert ⟨"users", [("email", .parameter 1)], none⟩).collection? =
      some "users" := rfl
  obtain ⟨hinside, -, hother⟩ :=
    statements_do_not_interfere htarget {} fresh [.text "a@b.c"]
  obtain ⟨hsame, -, -⟩ := hinside s' s (by decide +kernel)
  obtain ⟨-, hafter, hstate⟩ := hother "posts"
    (.insert ⟨"posts", [("title", .literal .null)], none⟩) rfl (by decide) {} fresh [] s
  exact ⟨hrefused, hsame, hafter, hstate⟩

end Engine

end DocumentSql
