import DocumentSql.Proofs.Store.Atomicity
import DocumentSql.Proofs.Store.Change
import DocumentSql.Proofs.Store.IndexName
import DocumentSql.Proofs.Store.Insertion
/-
Which collections there are. A collection comes into being with the first insertion into it, or the
first index on it, that succeeds. It then stays, whatever becomes of its documents.
-/

namespace DocumentSql

/-- Other statements find their collection there, or do without. -/
def StatementKind.makesCollection : StatementKind → Bool
  | insert | createIndex => true
  | _ => false

/-- An `INSERT INTO` the collection or a `CREATE INDEX ON` it. -/
def Statement.Makes (name : String) (statement : Statement) : Prop :=
  statement.kind.makesCollection = true ∧ statement.collection? = some name

namespace Store

variable {s s' : Store} {name : String}

theorem contains_put (s : Store) (name : String) (c : Collection) (other : String) :
    (NameMap.insert s name c).contains other = true ↔ s.contains other = true ∨ other = name := by
  rw [NameMap.contains, NameMap.get?_insert]
  by_cases hname : other = name
  · simp [hname]
  · simp [hname, NameMap.contains]

/-- A collection that is not there has no indexes. -/
theorem contains_of_index {index : Index} (h : index ∈ s.indexes name) :
    s.contains name = true := by
  rw [← ensure_of_index h, NameMap.contains, ensure, NameMap.get?_insertIfNew, if_pos rfl]
  rfl

namespace Change

variable {kind : StatementKind} {other : String}

theorem contains (h : Change name s kind s') (hother : s.contains other = true) :
    s'.contains other = true := by
  cases h with
  | kept => exact hother
  | rewritten | appended | indexed => exact (contains_put ..).mpr (.inl hother)

theorem contains_or_makes (h : Change name s kind s') (hother : s'.contains other = true) :
    s.contains other = true ∨ kind.makesCollection = true ∧ other = name := by
  cases h with
  | kept => exact .inl hother
  | rewritten documents hname =>
    refine .inl (((contains_put ..).mp hother).elim id ?_)
    rintro rfl
    rw [NameMap.contains, hname]
    rfl
  | appended | indexed => exact ((contains_put ..).mp hother).imp_right fun heq => ⟨rfl, heq⟩

end Change

end Store

namespace Engine

variable {policy : Policy} {fresh : Uuid} {params : List Value} {s : Store} {statement : Statement}
  {name : String}

/-- A new index whose name is taken counts as made, and its collection is there already. -/
theorem contains_of_makes (hmakes : statement.Makes name) {result : QueryResult}
    (h : (execute Store.memory policy fresh params statement s).outcome = .ok result) :
    (execute Store.memory policy fresh params statement s).state.contains name = true := by
  obtain ⟨hkind, htarget⟩ := hmakes
  cases statement with
  | insert insertion =>
    obtain rfl := Option.some.inj htarget
    obtain ⟨_, -, hstate, -⟩ := execute_insert h
    rw [hstate]
    exact (Store.contains_put ..).mpr (.inr rfl)
  | createIndex c =>
    obtain rfl := Option.some.inj htarget
    obtain ⟨⟨index, hindex, -⟩, hstate⟩ | ⟨-, hstate⟩ := execute_createIndex h
    · rw [hstate]
      exact Store.contains_of_index hindex
    · rw [hstate]
      exact (Store.contains_put ..).mpr (.inr rfl)
  | select | update | delete | createTable | alterTable | inert | unsupported => cases hkind

theorem contains_execute (statement : Statement) (name : String) :
    (execute Store.memory policy fresh params statement s).state.contains name = true ↔
      s.contains name = true ∨ statement.Makes name ∧
        ∃ result, (execute Store.memory policy fresh params statement s).outcome = .ok result := by
  constructor
  · intro h
    cases houtcome : (execute Store.memory policy fresh params statement s).outcome with
    | error e =>
      rw [execute_atomic Store.memory_atomic (.inl ⟨e, houtcome⟩)] at h
      exact .inl h
    | ok result =>
      cases htarget : statement.collection? with
      | none =>
        rw [execute_untargeted htarget] at h
        exact .inl h
      | some target =>
        refine ((execute_change htarget).contains_or_makes h).imp_right ?_
        rintro ⟨hkind, rfl⟩
        exact ⟨⟨hkind, htarget⟩, result, rfl⟩
  · rintro (h | ⟨hmakes, result, hresult⟩)
    · cases htarget : statement.collection? with
      | none => rwa [execute_untargeted htarget]
      | some target => exact (execute_change htarget).contains h
    · exact contains_of_makes hmakes hresult

end Engine

namespace Call

/-- The call is an `INSERT INTO` the collection or a `CREATE INDEX ON` it, and succeeds. -/
def Makes (name : String) (call : Call) (s : Store) : Prop :=
  (∃ statement, Statement.parse call.moment call.text = .ok statement ∧ statement.Makes name) ∧
    ∃ result, (call.query s).outcome = .ok result

theorem contains_query (call : Call) (s : Store) (name : String) :
    (call.query s).state.contains name = true ↔ s.contains name = true ∨ call.Makes name s := by
  cases hparse : Statement.parse call.moment call.text with
  | error e =>
    have hstate : (call.query s).state = s := by simp only [query, Engine.query, hparse]
    simp [hstate, Makes, hparse]
  | ok statement =>
    obtain ⟨houtcome, hstate⟩ := call.query_of_parse hparse s
    rw [hstate, Engine.contains_execute, Makes, houtcome, hparse]
    simp only [Except.ok.injEq, exists_eq_left']

theorem contains_runAll (calls : List Call) (s : Store) (name : String) :
    (runAll calls s).contains name = true ↔ s.contains name = true ∨
      ∃ (k : Nat) (call : Call), calls[k]? = some call ∧
        call.Makes name (runAll (calls.take k) s) := by
  induction calls generalizing s with
  | nil => simp [runAll]
  | cons call calls ih =>
    have hrest : runAll (call :: calls) s = runAll calls (call.query s).state := rfl
    have hsplit : (∃ (k : Nat) (c : Call), (call :: calls)[k]? = some c ∧
        c.Makes name (runAll ((call :: calls).take k) s)) ↔ call.Makes name s ∨
          ∃ (k : Nat) (c : Call), calls[k]? = some c ∧
            c.Makes name (runAll (calls.take k) (call.query s).state) := by
      rw [← Nat.or_exists_add_one]
      simp [runAll]
    rw [hrest, ih, contains_query, or_assoc, hsplit]

end Call

/-- After any calls in a row the collections are those from before and those that one of the calls
made, an `INSERT INTO` or a `CREATE INDEX ON` it that succeeded. No other call makes a collection,
nor one that fails, and none takes a collection away. -/
theorem Store.collection_life_cycle (start : Store) (calls : List Call) (name : String) :
    ((Call.runAll calls start).contains name = true ↔ start.contains name = true ∨
      ∃ (k : Nat) (call : Call), calls[k]? = some call ∧
        call.Makes name (Call.runAll (calls.take k) start)) ∧
    ∀ (call : Call) (s : Store), (call.query s).state.contains name = true ↔
      s.contains name = true ∨ call.Makes name s :=
  ⟨Call.contains_runAll calls start name, fun call s => call.contains_query s name⟩

example : let call := fun text => (⟨{}, .series ⟨0⟩ 0 0, text, []⟩ : Call)
    let s := Call.runAll [call "INSERT INTO t (a) VALUES (1)", call "DELETE FROM t"] Store.empty
    s.contains "t" = true ∧ s.documents "t" = [] := by
  decide +kernel

end DocumentSql
