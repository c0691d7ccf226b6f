import DocumentSql.Proofs.Store.Change
import DocumentSql.Proofs.Store.IndexName
import Mathlib.Data.List.Infix
/-
Applying a schema again. Indexes are only ever added, so a name that is taken stays taken, and the
name is looked up before the documents are.
-/

namespace DocumentSql

namespace Store

variable {s s' : Store} {name : String} {kind : StatementKind}

theorem prefix_indexes_put {c : Collection} (h : s.indexes name <+: c.indexes) (other : String) :
    s.indexes other <+: indexes (NameMap.insert s name c) other := by
  rw [indexes, indexes, collection_put]
  split
  · next hother => exact hother ▸ h
  · exact List.prefix_refl _

theorem Change.prefix_indexes (h : Change name s kind s') (other : String) :
    s.indexes other <+: s'.indexes other := by
  cases h with
  | kept => exact List.prefix_refl _
  | rewritten documents hc =>
    refine prefix_indexes_put ?_ other
    rw [indexes, collection_of_get? hc]
  | appended d =>
    refine prefix_indexes_put ?_ other
    exact List.prefix_refl _
  | indexed index => exact prefix_indexes_put (List.prefix_append _ _) other

theorem HasIndex.mono {indexName : String} (h : s.HasIndex name indexName)
    (hgrown : s.indexes name <+: s'.indexes name) : s'.HasIndex name indexName := by
  obtain ⟨index, hindex, hname⟩ := h
  exact ⟨index, hgrown.subset hindex, hname⟩

end Store

namespace Engine

variable {fresh : Uuid} {s s' : Store}

theorem prefix_indexes_run (plan : Plan) (name : String) :
    s.indexes name <+: (run Store.memory fresh plan s).state.indexes name := by
  cases htarget : plan.collection? with
  | none => rw [run_untargeted htarget]
  | some target => exact (run_change htarget).prefix_indexes name

theorem prefix_indexes_execute {policy : Policy} {params : List Value} (statement : Statement)
    (name : String) :
    s.indexes name <+:
      (execute Store.memory policy fresh params statement s).state.indexes name := by
  unfold execute
  cases Plan.ofStatement policy params statement with
  | error e => exact List.prefix_refl _
  | ok plan => exact prefix_indexes_run plan name

/-- Any number of statements, each with its parameters and its surroundings. -/
abbrev Executed : Store → Store → Prop := Relation.ReflTransGen fun s s' =>
  ∃ policy fresh params statement, s' = (execute Store.memory policy fresh params statement s).state

theorem Executed.prefix_indexes (h : Executed s s') (name : String) :
    s.indexes name <+: s'.indexes name := by
  induction h with
  | refl => exact List.prefix_refl _
  | tail _ hstep ih =>
    obtain ⟨_, _, _, statement, rfl⟩ := hstep
    exact ih.trans (prefix_indexes_execute statement name)

end Engine

namespace Shared

variable {s s' : Shared}

theorem Step.prefix_indexes (h : Step s s') (name : String) :
    s.store.indexes name <+: s'.store.indexes name := by
  cases h with
  | read => exact List.prefix_refl _
  | ask => exact Engine.prefix_indexes_run _ name

theorem Reaches.prefix_indexes (h : Reaches s s') (name : String) :
    s.store.indexes name <+: s'.store.indexes name := by
  induction h with
  | refl => exact List.prefix_refl _
  | tail _ hstep ih => exact ih.trans (hstep.prefix_indexes name)

end Shared

/-- The statement succeeds and does nothing. -/
def CreateIndex.Replays (c : CreateIndex) (s : Store) : Prop :=
  ∀ policy fresh params,
    let again := Engine.execute Store.memory policy fresh params (.createIndex c) s
    again.outcome = .ok { command := .createIndex } ∧ again.state = s

/-- Even if the documents would not allow the index any more. -/
theorem Store.HasIndex.replays {c : CreateIndex} {s : Store}
    (h : s.HasIndex c.collection c.indexName) : c.Replays s := by
  intro policy fresh params
  have hplan : Plan.ofStatement policy params (.createIndex c) =
      .ok (.createIndex c.collection c.index) := rfl
  obtain ⟨present, hpresent, hname⟩ := h
  simp only [Engine.execute, hplan, Engine.run, Engine.askForIndex, Store.memory]
  obtain ⟨-, hcreate⟩ | ⟨hfree, -⟩ | ⟨hfree, -⟩ :=
    Store.createIndex_cases c.collection c.index s
  · simp only [hcreate, and_self]
  · exact absurd hname (hfree present hpresent)
  · exact absurd hname (hfree present hpresent)

namespace Engine

variable {policy : Policy} {fresh : Uuid} {params : List Value} {c : CreateIndex} {s : Store}
  {result : QueryResult}

theorem hasIndex_of_createIndex
    (h : (execute Store.memory policy fresh params (.createIndex c) s).outcome = .ok result) :
    (execute Store.memory policy fresh params (.createIndex c) s).state.HasIndex
      c.collection c.indexName := by
  obtain ⟨htaken, hstate⟩ | ⟨-, hstate⟩ := execute_createIndex h
  · rw [hstate]
    exact htaken
  · rw [hstate]
    exact ⟨c.index, s.mem_indexes_indexed c.collection c.index, rfl⟩

/-- A statement that has created its index, or found its name taken, succeeds again and changes
nothing, after any statements in a row and at every moment of clients at work together. -/
theorem index_statement_replays
    (h : (execute Store.memory policy fresh params (.createIndex c) s).outcome = .ok result) :
    let created := (execute Store.memory policy fresh params (.createIndex c) s).state
    (∀ later, Executed created later → c.Replays later) ∧
    ∀ clients shared, Shared.Reaches ⟨created, clients⟩ shared → c.Replays shared.store := by
  intro created
  have hthere : created.HasIndex c.collection c.indexName := hasIndex_of_createIndex h
  refine ⟨fun later hlater => ?_, fun clients shared hshared => ?_⟩
  · exact (hthere.mono (hlater.prefix_indexes c.collection)).replays
  · exact (hthere.mono (hshared.prefix_indexes c.collection)).replays

/-- The name is taken by an index that is not unique, and two equal documents come in. On them no
unique index could be made. -/
theorem index_statement_replays_taken :
    let c : CreateIndex := ⟨"i", "t", ["a"], true, true⟩
    let s : Store := NameMap.empty.insert "t" ⟨[], [⟨"i", ["a"], false⟩]⟩
    let call : Call := ⟨{}, .series ⟨0⟩ 0 0, "INSERT INTO t (a) VALUES (1)", []⟩
    let first := execute Store.memory {} ⟨0⟩ [] (.createIndex c) s
    let later := Call.runAll [call, call] first.state
    first.outcome = .ok { command := .createIndex } ∧
    c.index.duplicated (later.documents "t") = true ∧ c.Replays later := by
  intro c s call first later
  have hfirst : first.outcome = .ok { command := .createIndex } := rfl
  have hduplicated : c.index.duplicated (later.documents "t") = true := by decide +kernel
  have hreaches : Shared.Reaches ⟨first.state, [.idle]⟩ ⟨later, [.idle]⟩ :=
    Shared.reaches_runAll [call, call] first.state
  obtain ⟨-, hshared⟩ := index_statement_replays hfirst
  have hreplays := hshared [.idle] ⟨later, [.idle]⟩ hreaches
  exact ⟨hfirst, hduplicated, hreplays⟩

end Engine

end DocumentSql
