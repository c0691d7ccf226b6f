import DocumentSql.Proofs.Engine.Plan
import DocumentSql.Proofs.Store.Clients
/-
Failures leave no trace. An operation is atomic if it changes nothing when it fails. A query on a
store of atomic operations is atomic as a whole: it asks the store at most once, and nothing else
that it does can change the state.
-/

namespace DocumentSql

namespace Operation

variable {σ α : Type}

def Atomic (operation : Operation σ α) : Prop :=
  ∀ s e s', operation s = (.error e, s') → s' = s

/-- Nothing is changed, whatever the answer. -/
def ReadOnly (operation : Operation σ α) : Prop := ∀ s, (operation s).2 = s

end Operation

/-- Searches and probes only read, and the other operations change nothing when they fail. -/
structure DocumentStore.Atomic {σ : Type} (store : DocumentStore σ) : Prop where
  find : ∀ name options, (store.find name options).ReadOnly
  insert : ∀ fresh name d, (store.insert fresh name d).Atomic
  update : ∀ name filter set, (store.update name filter set).Atomic
  delete : ∀ name filter, (store.delete name filter).Atomic
  createIndex : ∀ name index, (store.createIndex name index).Atomic
  collectionExists : ∀ name, (store.collectionExists name).ReadOnly

namespace Store

theorem insert_atomic (fresh : Uuid) (name : String) (d : Document) :
    (insert fresh name d).Atomic := by
  intro s e s' h
  obtain ⟨index, -, -, -, hrefused⟩ | ⟨-, hdone⟩ := insert_cases fresh name d s
  · cases hrefused.symm.trans h
    rfl
  · cases hdone.symm.trans h

theorem update_atomic (name : String) (filter : Filter) (set : Document) :
    (update name filter set).Atomic := by
  intro s e s' h
  cases hfilter : Filter.compile filter with
  | error cause =>
    simp only [update, hfilter] at h
    exact (Prod.mk.inj h).2.symm
  | ok selects =>
    obtain ⟨-, hnone⟩ | ⟨c, -, ⟨-, hsame⟩ | ⟨index, -, hrefused⟩ | ⟨-, hdone⟩⟩ :=
      update_cases hfilter set s
    · cases hnone.symm.trans h
    · cases hsame.symm.trans h
    · cases hrefused.symm.trans h
      rfl
    · cases hdone.symm.trans h

/-- A deletion fails only for its filter. -/
theorem delete_atomic (name : String) (filter : Filter) : (delete name filter).Atomic := by
  intro s e s' h
  cases hfilter : Filter.compile filter with
  | error cause =>
    simp only [delete, hfilter] at h
    exact (Prod.mk.inj h).2.symm
  | ok selects =>
    obtain ⟨-, hnone⟩ | ⟨c, -, hdone⟩ := delete_cases hfilter s
    · cases hnone.symm.trans h
    · cases hdone.symm.trans h

theorem createIndex_atomic (name : String) (index : Index) : (createIndex name index).Atomic := by
  intro s e s' h
  obtain ⟨-, htaken⟩ | ⟨-, -, -, hrefused⟩ | ⟨-, -, hdone⟩ := createIndex_cases name index s
  · cases htaken.symm.trans h
    rfl
  · cases hrefused.symm.trans h
    rfl
  · cases hdone.symm.trans h

/-- An insertion or a new index into a collection that is not there cannot fail, so no failure
leaves an empty collection behind. -/
theorem memory_atomic : memory.Atomic where
  find name options s := find_state name options s
  insert := insert_atomic
  update := update_atomic
  delete := delete_atomic
  createIndex := createIndex_atomic
  collectionExists _ _ := rfl

end Store

/-- Other statements read, or are accepted as they are. -/
def StatementKind.changesStore : StatementKind → Bool
  | insert | update | delete | createIndex => true
  | _ => false

namespace Engine

variable {σ α : Type}

theorem ask_atomic {operation : Operation σ α} (hatomic : operation.Atomic) {s : σ}
    {result : α → QueryResult} {events : List Log.Event} {e : QueryError}
    (h : (ask operation s result events).outcome = .error e) :
    (ask operation s result events).state = s := by
  unfold ask at h ⊢
  split at h
  · cases h
  · next cause s' hrun => exact hatomic s cause s' hrun

theorem askForIndex_atomic {operation : Operation σ Unit} (hatomic : operation.Atomic) {s : σ}
    {events : List Log.Event} {e : QueryError}
    (h : (askForIndex operation s events).outcome = .error e) :
    (askForIndex operation s events).state = s := by
  unfold askForIndex at h ⊢
  split at h
  · cases h
  · cases h
  · next cause s' _ hrun => exact hatomic s cause s' hrun

theorem askWhether_state (operation : Operation σ Bool) (collection : String) (s : σ) :
    (askWhether operation collection s).state = (operation s).2 := by
  unfold askWhether
  split <;> simp_all

variable {store : DocumentStore σ} {fresh : Uuid} {s : σ}

theorem run_atomic (hstore : store.Atomic) {plan : Plan}
    (h : (∃ e, (run store fresh plan s).outcome = .error e) ∨ plan.kind.changesStore = false) :
    (run store fresh plan s).state = s := by
  cases plan with
  | acceptTable | acceptInert | ignore => rfl
  | find collection options => exact (ask_state ..).trans (hstore.find collection options s)
  | probe collection => exact (askWhether_state ..).trans (hstore.collectionExists collection s)
  | insert collection d returning =>
    obtain ⟨e, he⟩ := h.resolve_right nofun
    exact ask_atomic (hstore.insert fresh collection d) he
  | update collection filter set =>
    obtain ⟨e, he⟩ := h.resolve_right nofun
    exact ask_atomic (hstore.update collection filter set) he
  | delete collection filter =>
    obtain ⟨e, he⟩ := h.resolve_right nofun
    exact ask_atomic (hstore.delete collection filter) he
  | createIndex collection index =>
    obtain ⟨e, he⟩ := h.resolve_right nofun
    exact askForIndex_atomic (hstore.createIndex collection index) he

theorem execute_atomic (hstore : store.Atomic) {policy : Policy} {params : List Value}
    {statement : Statement}
    (h : (∃ e, (execute store policy fresh params statement s).outcome = .error e) ∨
      statement.kind.changesStore = false) :
    (execute store policy fresh params statement s).state = s := by
  unfold execute at h ⊢
  cases hplan : Plan.ofStatement policy params statement with
  | error e => rfl
  | ok plan =>
    simp only [hplan, ← Plan.kind_ofStatement hplan] at h
    exact run_atomic hstore h

theorem query_atomic (hstore : store.Atomic) {policy : Policy} {moment : Moment} {text : String}
    {params : List Value}
    (h : (∃ e, (query store policy moment text params s).outcome = .error e) ∨
      ∃ statement, Statement.parse moment text = .ok statement ∧
        statement.kind.changesStore = false) :
    (query store policy moment text params s).state = s := by
  unfold query at h ⊢
  cases hparse : Statement.parse moment text with
  | error e => rfl
  | ok statement =>
    simp only [hparse, Except.ok.injEq, exists_eq_left'] at h
    exact execute_atomic hstore h

end Engine

namespace Store

/-- The store is as it was after a query that failed, and after one whose statement does not change
stores: no collection is new, and every document and index is where it was. -/
theorem query_leaves_store {call : Call} {s : Store}
    (h : (∃ e, (call.query s).outcome = .error e) ∨
      ∃ statement, Statement.parse call.moment call.text = .ok statement ∧
        statement.kind.changesStore = false) :
    (call.query s).state = s :=
  Engine.query_atomic memory_atomic h

/-- A document that a unique index refuses, and a search in a collection that is not there. -/
theorem query_leaves_store_users :
    let moment := Moment.series ⟨0⟩ 0 0
    let ann : Document := NameMap.empty.insert "email" (.text "a@b.c")
    let s : Store := NameMap.empty.insert "users" ⟨[ann], [⟨"by_email", ["email"], true⟩]⟩
    let insertion : Call := ⟨{}, moment, "INSERT INTO users (email) VALUES ($1)", [.text "a@b.c"]⟩
    let search : Call := ⟨{}, moment, "SELECT * FROM posts", []⟩
    (insertion.query s).outcome = .error (.store (.duplicateKey "users" "by_email")) ∧
    (insertion.query s).state = s ∧ (search.query s).state = s := by
  intro moment ann s insertion search
  have hrefused : (insertion.query s).outcome =
      .error (.store (.duplicateKey "users" "by_email")) :=
    fault?_eq_some_iff.mp (by decide +kernel)
  have hparse : Statement.parse moment search.text =
      .ok (.select ⟨"posts", [], [], none, none, none⟩) := by decide +kernel
  exact ⟨hrefused, query_leaves_store (.inl ⟨_, hrefused⟩),
    query_leaves_store (.inr ⟨_, hparse, rfl⟩)⟩

end Store

end DocumentSql
