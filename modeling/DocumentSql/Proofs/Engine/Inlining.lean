import DocumentSql.Proofs.Grammar.Displayed
import DocumentSql.Proofs.Store.Condition
/-
Statements with parameters, and statements with the values in their place. A change of the sources
that keeps what each resolves to keeps the plan, and so the whole run. The values of parameters may
stand in the text of the statement as they are displayed, whatever texts they are.
-/

namespace DocumentSql

section Substitution

namespace Predicate

def mapSource (f : ValueSource → ValueSource) : Predicate → Predicate
  | isNull field => isNull field
  | isNotNull field => isNotNull field
  | like field source => like field (f source)
  | compare field comparison source => compare field comparison (f source)

def pattern? : Predicate → Option ValueSource
  | like _ source => some source
  | isNull _ | isNotNull _ | compare .. => none

end Predicate

namespace Statement

def mapSources (f : ValueSource → ValueSource) : Statement → Statement
  | select s => select { s with predicates := s.predicates.map (Predicate.mapSource f) }
  | insert s => insert { s with fields := s.fields.map fun field => (field.1, f field.2) }
  | update s => update { s with
      assignments := s.assignments.map fun a => (a.1, f a.2)
      predicates := s.predicates.map (Predicate.mapSource f) }
  | delete s => delete { s with predicates := s.predicates.map (Predicate.mapSource f) }
  | s => s

/-- The operands of `LIKE`. -/
def patterns (s : Statement) : List ValueSource := s.predicates.filterMap Predicate.pattern?

theorem kind_mapSources (f : ValueSource → ValueSource) (s : Statement) :
    (s.mapSources f).kind = s.kind := by
  cases s <;> rfl

theorem collection?_mapSources (f : ValueSource → ValueSource) (s : Statement) :
    (s.mapSources f).collection? = s.collection? := by
  cases s <;> rfl

theorem operands_mapSource (f : ValueSource → ValueSource) (ps : List Predicate) :
    (ps.map (Predicate.mapSource f)).filterMap Predicate.operand? =
      (ps.filterMap Predicate.operand?).map f := by
  rw [List.filterMap_map, List.map_filterMap]
  congr 1
  funext p
  cases p <;> rfl

theorem sources_mapSources (f : ValueSource → ValueSource) (s : Statement) :
    (s.mapSources f).sources = s.sources.map f := by
  cases s with
  | select s | delete s => exact operands_mapSource f s.predicates
  | insert s =>
    simp only [mapSources, sources, List.map_map]
    rfl
  | update s =>
    simp only [mapSources, sources, List.map_append, List.map_map, operands_mapSource]
    rfl
  | createTable | createIndex | alterTable | inert | unsupported => rfl

end Statement

variable {f : ValueSource → ValueSource} {params params' : List Value}

theorem Condition.ofPredicate_mapSource {p : Predicate} (h : ∀ source, p.operand? = some source →
      (f source).resolve params' = source.resolve params) :
    ofPredicate params' (p.mapSource f) = ofPredicate params p := by
  cases p with
  | isNull | isNotNull => rfl
  | like field source | compare field comparison source =>
    simp only [Predicate.mapSource, ofPredicate, h source rfl]

theorem Filter.ofPredicates_mapSource {ps : List Predicate}
    (h : ∀ source ∈ ps.filterMap Predicate.operand?,
      (f source).resolve params' = source.resolve params) :
    ofPredicates params' (ps.map (Predicate.mapSource f)) = ofPredicates params ps := by
  rw [ofPredicates, ofPredicates, List.mapM_map]
  refine mapM_congr fun p hp => Condition.ofPredicate_mapSource fun source hsource => ?_
  exact h source (List.mem_filterMap.mpr ⟨p, hp, hsource⟩)

theorem resolveFields_mapSource {fields : List (String × ValueSource)}
    (h : ∀ source ∈ fields.map Prod.snd, (f source).resolve params' = source.resolve params) :
    resolveFields params' (fields.map fun field => (field.1, f field.2)) =
      resolveFields params fields := by
  rw [resolveFields, resolveFields, List.mapM_map]
  refine mapM_congr fun field hfield => ?_
  simp only [Function.comp_apply, h field.2 (List.mem_map_of_mem hfield)]

/-- Sources that resolve alike make the same plan. -/
theorem Plan.ofStatement_mapSources {s : Statement}
    (h : ∀ source ∈ s.sources, (f source).resolve params' = source.resolve params)
    (policy : Policy) :
    ofStatement policy params' (s.mapSources f) = ofStatement policy params s := by
  cases s with
  | select s =>
    simp only [ofStatement, Statement.mapSources, Filter.ofPredicates_mapSource h]
    rfl
  | delete s => simp only [ofStatement, Statement.mapSources, Filter.ofPredicates_mapSource h]
  | insert s => simp only [ofStatement, Statement.mapSources, resolveFields_mapSource h]
  | update s =>
    have hfields : ∀ source ∈ s.assignments.map Prod.snd,
        (f source).resolve params' = source.resolve params :=
      fun source hsource => h source (List.mem_append_left _ hsource)
    have hoperands : ∀ source ∈ s.predicates.filterMap Predicate.operand?,
        (f source).resolve params' = source.resolve params :=
      fun source hsource => h source (List.mem_append_right _ hsource)
    simp only [ofStatement, Statement.mapSources, resolveFields_mapSource hfields,
      Filter.ofPredicates_mapSource hoperands]
  | createTable | createIndex | alterTable | inert | unsupported => rfl

theorem Engine.execute_mapSources {σ : Type} {s : Statement}
    (h : ∀ source ∈ s.sources, (f source).resolve params' = source.resolve params)
    (store : DocumentStore σ) (policy : Policy) (fresh : Uuid) (state : σ) :
    execute store policy fresh params' (s.mapSources f) state =
      execute store policy fresh params s state := by
  simp only [execute, Plan.ofStatement_mapSources h]

end Substitution

namespace ValueSource

/-- The value that the source resolves to, as a literal. -/
def inlined (params : List Value) (source : ValueSource) : ValueSource :=
  literal (source.value params)

theorem resolve_inlined {params : List Value} {source : ValueSource} (h : source.Covered params)
    (params' : List Value) :
    (source.inlined params).resolve params' = source.resolve params :=
  (resolve_of_covered h).symm

end ValueSource

namespace Predicate

theorem Writable.mapSource {f : ValueSource → ValueSource} {p : Predicate} (h : p.Writable)
    (hf : ∀ source, p.operand? = some source → (f source).Writable)
    (hpattern : ∀ source, p.pattern? = some source → (f source).IsPattern) :
    (p.mapSource f).Writable := by
  cases p with
  | isNull | isNotNull => exact h
  | like field source => exact ⟨h.1, hpattern source rfl⟩
  | compare field comparison source => exact ⟨h.1, hf source rfl⟩

end Predicate

theorem mem_map_mapSource {f : ValueSource → ValueSource} {ps : List Predicate}
    (h : ∀ p ∈ ps, p.Writable)
    (hf : ∀ source ∈ ps.filterMap Predicate.operand?, (f source).Writable)
    (hpattern : ∀ source ∈ ps.filterMap Predicate.pattern?, (f source).IsPattern) :
    ∀ p ∈ ps.map (Predicate.mapSource f), p.Writable := by
  intro p hp
  obtain ⟨q, hq, rfl⟩ := List.mem_map.mp hp
  refine (h q hq).mapSource (fun source hsource => hf source ?_)
    (fun source hsource => hpattern source ?_)
  · exact List.mem_filterMap.mpr ⟨q, hq, hsource⟩
  · exact List.mem_filterMap.mpr ⟨q, hq, hsource⟩

namespace Statement

theorem Writable.mapSources {f : ValueSource → ValueSource} {s : Statement} (h : s.Writable)
    (hf : ∀ source ∈ s.sources, (f source).Writable)
    (hpattern : ∀ source ∈ s.patterns, (f source).IsPattern) : (s.mapSources f).Writable := by
  cases s with
  | select s =>
    exact { h with predicates := mem_map_mapSource h.predicates hf hpattern }
  | insert s =>
    refine { h with nonempty := fun hnil => h.nonempty (List.map_eq_nil_iff.mp hnil), fields := ?_ }
    intro field hfield
    obtain ⟨a, ha, rfl⟩ := List.mem_map.mp hfield
    exact ⟨(h.fields a ha).1, hf a.2 (List.mem_map_of_mem ha)⟩
  | update s =>
    refine { h with
      nonempty := fun hnil => h.nonempty (List.map_eq_nil_iff.mp hnil)
      assignments := ?_
      predicates := mem_map_mapSource h.predicates
        (fun source hsource => hf source (List.mem_append_right _ hsource)) hpattern }
    intro assignment hassignment
    obtain ⟨a, ha, rfl⟩ := List.mem_map.mp hassignment
    exact ⟨(h.assignments a ha).1, hf a.2 (List.mem_append_left _ (List.mem_map_of_mem ha))⟩
  | delete s =>
    exact { h with predicates := mem_map_mapSource h.predicates hf hpattern }
  | createIndex s => exact h
  | createTable | alterTable | inert | unsupported => exact absurd h not_false

theorem Writable.predicate {s : Statement} (h : s.Writable) {p : Predicate}
    (hp : p ∈ s.predicates) : p.Writable := by
  cases s with
  | select s | update s | delete s => exact h.predicates p hp
  | insert | createIndex => cases hp
  | createTable | alterTable | inert | unsupported => exact absurd h not_false

theorem Writable.isPattern {s : Statement} (h : s.Writable) :
    ∀ source ∈ s.patterns, source.IsPattern := by
  intro source hsource
  obtain ⟨p, hp, hpattern⟩ := List.mem_filterMap.mp hsource
  cases p with
  | like field operand =>
    obtain rfl := Option.some.inj hpattern
    exact (h.predicate hp).2
  | isNull | isNotNull | compare => cases hpattern

section Accepted

variable {moment : Moment} {text : String} {s : Statement}

/-- What was read can be written by users if its literals are plain. -/
theorem writable_of_parse (h : parse moment text = .ok s) (hs : s.actsOnDocuments = true)
    (hplain : ∀ v, .literal v ∈ s.sources → v.Plain) :
    s.Writable ∧ ∀ source ∈ s.sources, source.Writable := by
  have hwrites := writes_of_parse h hs
  refine ⟨hwrites.writable hs fun source hsource hvalue => ?_, fun source hsource => ?_⟩
  · cases source with
    | parameter n => exact hvalue.parameter
    | literal v => exact ValueSource.writable_literal.mpr (hplain v hsource)
  · cases source with
    | literal v => exact ValueSource.writable_literal.mpr (hplain v hsource)
    | parameter n =>
      cases hwrites.sources hsource with
      | inl hvalue => exact hvalue.parameter
      | inr hpattern => exact hpattern.parameter

theorem covered_of_parse (h : parse moment text = .ok s) {params : List Value}
    (hparameters : ∀ n ∈ s.parameters, n ≤ params.length) :
    ∀ source ∈ s.sources, source.Covered params := by
  intro source hsource
  cases source with
  | literal v => trivial
  | parameter n =>
    have hn : n ∈ s.parameters := List.mem_filterMap.mpr ⟨_, hsource, rfl⟩
    exact ⟨parameter_pos h hn, hparameters n hn⟩

end Accepted

/-- The statement with the value of each parameter in the place of the parameter. -/
def inlined (params : List Value) (s : Statement) : Statement :=
  s.mapSources (ValueSource.inlined params)

end Statement

namespace Engine

/-- The values of parameters may as well stand in the text of the statement as they are displayed.
Run with the parameters or run with none, the two texts do the same to every store. -/
theorem query_inlined {moment : Moment} {text : String} {s : Statement} {params : List Value}
    (hparse : Statement.parse moment text = .ok s) (hs : s.actsOnDocuments = true)
    (hparameters : ∀ n ∈ s.parameters, n ≤ params.length)
    (hplain : ∀ source ∈ s.sources, (source.value params).Plain)
    (hpatterns : ∀ n, .parameter n ∈ s.patterns →
      ∃ t, (ValueSource.parameter n).value params = .text t) :
    (∃ text, s.DisplayedAs text) ∧ (∃ text, (s.inlined params).DisplayedAs text) ∧
    ∀ text text', s.DisplayedAs text → (s.inlined params).DisplayedAs text' →
      ∀ {σ : Type} (store : DocumentStore σ) (policy : Policy) (moment moment' : Moment)
        (state : σ), moment.fresh 0 = moment'.fresh 0 →
        query store policy moment text params state =
          query store policy moment' text' [] state := by
  have hcovered := Statement.covered_of_parse hparse hparameters
  obtain ⟨hwritable, hsources⟩ :=
    Statement.writable_of_parse hparse hs fun v hv => hplain (.literal v) hv
  have hvalues : ∀ source ∈ s.sources, (source.inlined params).Writable := fun source hsource =>
    ValueSource.writable_literal.mpr (hplain source hsource)
  have hinlined : (s.inlined params).Writable := by
    refine hwritable.mapSources hvalues fun source hsource => ?_
    cases source with
    | literal v => exact hwritable.isPattern _ hsource
    | parameter n =>
      obtain ⟨t, ht⟩ := hpatterns n hsource
      rw [ValueSource.inlined, ht]
      trivial
  have hinlinedSources : ∀ source ∈ (s.inlined params).sources, source.Writable := by
    intro source hsource
    rw [Statement.inlined, Statement.sources_mapSources] at hsource
    obtain ⟨original, horiginal, rfl⟩ := List.mem_map.mp hsource
    exact hvalues original horiginal
  refine ⟨Statement.exists_displayedAs hwritable, Statement.exists_displayedAs hinlined, ?_⟩
  intro text text' htext htext' σ store policy moment moment' state hfresh
  have hresolve : ∀ source ∈ s.sources,
      (source.inlined params).resolve [] = source.resolve params := fun source hsource =>
    ValueSource.resolve_inlined (hcovered source hsource) []
  rw [query_of_parse (Statement.parse_displayedAs hsources htext moment),
    query_of_parse (Statement.parse_displayedAs hinlinedSources htext' moment'), Statement.inlined,
    execute_mapSources hresolve, Statement.kind_mapSources, Statement.collection?_mapSources,
    hfresh]

/-- A text that would end its statement, were it not displayed between quotes. -/
theorem query_inlined_quotes :
    let moment := Moment.series ⟨0⟩ 0 0
    let name : Value := .text "'; DELETE FROM users; --"
    let s : Statement := .delete ⟨"users", [.compare "name" .eq (.parameter 1)]⟩
    let s' : Statement := .delete ⟨"users", [.compare "name" .eq (.literal name)]⟩
    Statement.parse moment "DELETE FROM users WHERE name = $1" = .ok s ∧
    s.inlined [name] = s' ∧
    ∃ text text', s.DisplayedAs text ∧ s'.DisplayedAs text' ∧ ∀ state : Store,
      query Store.memory {} moment text [name] state =
        query Store.memory {} moment text' [] state := by
  intro moment name s s'
  have hparse : Statement.parse moment "DELETE FROM users WHERE name = $1" = .ok s := by
    decide +kernel
  have hplain : ∀ source ∈ s.sources, (source.value [name]).Plain := by
    intro source hsource
    obtain rfl := List.mem_singleton.mp hsource
    trivial
  have hpatterns : ∀ n, .parameter n ∈ s.patterns →
      ∃ t, (ValueSource.parameter n).value [name] = .text t := by
    intro n hn
    cases hn
  obtain ⟨⟨text, htext⟩, ⟨text', htext'⟩, hsame⟩ :=
    query_inlined hparse rfl (by decide) hplain hpatterns
  exact ⟨hparse, rfl, text, text', htext, htext', fun state =>
    hsame text text' htext htext' Store.memory {} moment moment state rfl⟩

end Engine

end DocumentSql
