import DocumentSql.Proofs.Engine.Plan
import DocumentSql.Proofs.Store.Uniqueness
/-
What a statement can make of a store, said once: of one collection, by the kind of the statement.
What any statement keeps follows from the four cases.
-/

namespace DocumentSql

namespace Store

/-- Nothing changes, or the collection is put into the store in another form. Only insertions and
new indexes may find it missing. -/
inductive Change (name : String) (s : Store) : StatementKind → Store → Prop
  | kept {kind : StatementKind} : Change name s kind s
  | rewritten {kind : StatementKind} {c : Collection} (documents : List Document) :
    s.get? name = some c →
    Change name s kind (NameMap.insert s name { c with documents := documents })
  | appended (d : Document) : Change name s .insert (s.appended name d)
  | indexed (index : Index) : Change name s .createIndex (NameMap.insert s name
      { s.collection name with indexes := (s.collection name).indexes ++ [index] })

section Operations

variable (s : Store) (name : String)

theorem insert_change (fresh : Uuid) (d : Document) :
    Change name s .insert (insert fresh name d s).2 := by
  obtain ⟨_, -, -, -, hrun⟩ | ⟨-, hrun⟩ := insert_cases fresh name d s
  · rw [hrun]
    exact .kept
  · rw [hrun]
    exact .appended _

theorem update_change (filter : Filter) (set : Document) :
    Change name s .update (update name filter set s).2 := by
  cases hfilter : Filter.compile filter with
  | error e =>
    simp only [update, hfilter]
    exact .kept
  | ok selects =>
    obtain ⟨-, hrun⟩ | ⟨c, hc, ⟨-, hrun⟩ | ⟨_, -, hrun⟩ | ⟨-, hrun⟩⟩ := update_cases hfilter set s
    · rw [hrun]
      exact .kept
    · rw [hrun]
      exact .kept
    · rw [hrun]
      exact .kept
    · rw [hrun]
      exact .rewritten _ hc

theorem delete_change (filter : Filter) : Change name s .delete (delete name filter s).2 := by
  cases hfilter : Filter.compile filter with
  | error e =>
    simp only [delete, hfilter]
    exact .kept
  | ok selects =>
    obtain ⟨-, hrun⟩ | ⟨c, hc, hrun⟩ := delete_cases hfilter s
    · rw [hrun]
      exact .kept
    · rw [hrun]
      exact .rewritten _ hc

theorem createIndex_change (index : Index) :
    Change name s .createIndex (createIndex name index s).2 := by
  obtain ⟨-, hrun⟩ | ⟨-, -, -, hrun⟩ | ⟨-, -, hrun⟩ := createIndex_cases name index s
  · rw [hrun]
    exact .kept
  · rw [hrun]
    exact .kept
  · rw [hrun]
    exact .indexed index

end Operations

end Store

namespace Engine

variable {fresh : Uuid} {s : Store}

theorem run_change {plan : Plan} {name : String} (h : plan.collection? = some name) :
    Store.Change name s plan.kind (run Store.memory fresh plan s).state := by
  cases plan with
  | acceptInert | ignore => cases h
  | acceptTable | probe => exact .kept
  | find collection options =>
    have hstate : (run Store.memory fresh (.find collection options) s).state = s :=
      (ask_state ..).trans (Store.find_state collection options s)
    rw [hstate]
    exact .kept
  | insert collection d returning =>
    obtain rfl := Option.some.inj h
    exact (congrArg _ (ask_state ..)).mpr (Store.insert_change s collection fresh d)
  | update collection filter set =>
    obtain rfl := Option.some.inj h
    exact (congrArg _ (ask_state ..)).mpr (Store.update_change s collection filter set)
  | delete collection filter =>
    obtain rfl := Option.some.inj h
    exact (congrArg _ (ask_state ..)).mpr (Store.delete_change s collection filter)
  | createIndex collection index =>
    obtain rfl := Option.some.inj h
    exact (congrArg _ (askForIndex_state ..)).mpr (Store.createIndex_change s collection index)

theorem run_untargeted {plan : Plan} (h : plan.collection? = none) :
    (run Store.memory fresh plan s).state = s := by
  cases plan with
  | acceptInert | ignore => rfl
  | acceptTable | find | insert | update | delete | probe | createIndex => cases h

variable {policy : Policy} {params : List Value} {statement : Statement}

theorem execute_change {name : String} (h : statement.collection? = some name) :
    Store.Change name s statement.kind
      (execute Store.memory policy fresh params statement s).state := by
  unfold execute
  cases hplan : Plan.ofStatement policy params statement with
  | error e => exact .kept
  | ok plan =>
    rw [← Plan.kind_ofStatement hplan]
    exact run_change ((Plan.collection?_ofStatement hplan).trans h)

theorem execute_untargeted (h : statement.collection? = none) :
    (execute Store.memory policy fresh params statement s).state = s := by
  unfold execute
  cases hplan : Plan.ofStatement policy params statement with
  | error e => rfl
  | ok plan => exact run_untargeted ((Plan.collection?_ofStatement hplan).trans h)

end Engine

end DocumentSql
