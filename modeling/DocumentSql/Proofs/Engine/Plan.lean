import DocumentSql.Engine
import DocumentSql.Proofs.Traversal
/-
What the plan of a statement is for, and when there is none. Planning fails at the first parameter
that was not supplied, in the order in which the values of the statement are filled in; besides, a
strict policy refuses a statement of no known kind. A plan, once there, can fail in the store alone.
-/

namespace DocumentSql

namespace ValueSource

def parameter? : ValueSource → Option Nat
  | literal _ => none
  | parameter n => some n

end ValueSource

namespace Statement

/-- Where the values come from, in the order in which they are filled in. -/
def sources : Statement → List ValueSource
  | select s => s.predicates.filterMap Predicate.operand?
  | insert s => s.fields.map Prod.snd
  | update s => s.assignments.map Prod.snd ++ s.predicates.filterMap Predicate.operand?
  | delete s => s.predicates.filterMap Predicate.operand?
  | _ => []

def parameters (s : Statement) : List Nat := s.sources.filterMap ValueSource.parameter?

/-- The first parameter that goes beyond those supplied. -/
def missing? (supplied : Nat) (s : Statement) : Option Nat :=
  s.parameters.find? fun n => decide (supplied < n)

end Statement

namespace Policy

def refusal? (policy : Policy) : Statement → Option QueryError
  | .unsupported text => if policy.strict then some (.unsupported text) else none
  | _ => none

end Policy

namespace Plan

/-- The kind of the statements that have such a plan. -/
def kind : Plan → StatementKind
  | acceptTable _ => .alterTable
  | acceptInert kind => .inert kind
  | ignore _ => .unsupported
  | find .. => .select
  | insert .. => .insert
  | update .. => .update
  | delete .. => .delete
  | probe _ => .createTable
  | createIndex .. => .createIndex

/-- The collection that the plan is about. -/
def collection? : Plan → Option String
  | acceptTable name | find name _ | insert name _ _ | update name _ _ | delete name _ | probe name
  | createIndex name _ => some name
  | acceptInert _ | ignore _ => none

def command : Plan → CommandTag
  | ignore _ => .ignored
  | plan => .ofKind plan.kind

theorem command_eq_ofKind {plan : Plan} (h : plan.kind ≠ .unsupported) :
    plan.command = .ofKind plan.kind := by
  cases plan with
  | ignore => exact absurd rfl h
  | _ => rfl

variable {policy : Policy} {params : List Value}

theorem describes_ofStatement {statement : Statement} {plan : Plan}
    (h : ofStatement policy params statement = .ok plan) :
    plan.kind = statement.kind ∧ plan.collection? = statement.collection? := by
  cases statement with
  | select s | insert s | delete s =>
    obtain ⟨_, -, hplan⟩ := bind_eq_ok_iff.mp h
    obtain rfl := pure_eq_ok_iff.mp hplan
    exact ⟨rfl, rfl⟩
  | update s =>
    obtain ⟨_, -, hrest⟩ := bind_eq_ok_iff.mp h
    obtain ⟨_, -, hplan⟩ := bind_eq_ok_iff.mp hrest
    obtain rfl := pure_eq_ok_iff.mp hplan
    exact ⟨rfl, rfl⟩
  | createTable s | createIndex s | alterTable collection | inert kind =>
    obtain rfl := pure_eq_ok_iff.mp h
    exact ⟨rfl, rfl⟩
  | unsupported text =>
    by_cases hstrict : policy.strict = true
    · simp only [ofStatement, if_pos hstrict] at h
      cases h
    · simp only [ofStatement, if_neg hstrict] at h
      obtain rfl := pure_eq_ok_iff.mp h
      exact ⟨rfl, rfl⟩

theorem kind_ofStatement {statement : Statement} {plan : Plan}
    (h : ofStatement policy params statement = .ok plan) : plan.kind = statement.kind :=
  (describes_ofStatement h).1

theorem collection?_ofStatement {statement : Statement} {plan : Plan}
    (h : ofStatement policy params statement = .ok plan) :
    plan.collection? = statement.collection? :=
  (describes_ofStatement h).2

theorem resolved_eq_ok_iff {α : Type} {r : Except ParameterError α} {a : α} :
    resolved r = .ok a ↔ r = .ok a := by
  cases r with
  | error e => exact ⟨nofun, nofun⟩
  | ok b => exact ⟨fun h => congrArg _ (Except.ok.inj h), fun h => congrArg _ (Except.ok.inj h)⟩

theorem ofStatement_select {s : Select} {filter : Filter}
    (h : Filter.ofPredicates params s.predicates = .ok filter) :
    ofStatement policy params (.select s) = .ok (find s.collection (s.options filter)) := by
  simp only [ofStatement, h]
  rfl

theorem ofStatement_delete {s : Delete} {filter : Filter}
    (h : Filter.ofPredicates params s.predicates = .ok filter) :
    ofStatement policy params (.delete s) = .ok (delete s.collection filter) := by
  simp only [ofStatement, h]
  rfl

theorem ofStatement_update {s : Update} {entries : List (String × Value)} {filter : Filter}
    (hentries : resolveFields params s.assignments = .ok entries)
    (hfilter : Filter.ofPredicates params s.predicates = .ok filter) :
    ofStatement policy params (.update s) =
      .ok (update s.collection filter (.ofList entries)) := by
  simp only [ofStatement, hentries, hfilter]
  rfl

theorem fault?_resolved {α : Type} (r : Except ParameterError α) :
    fault? (resolved r) = (fault? r).map .parameter := fault?_mapError _ r

theorem fault?_ofPredicates (predicates : List Predicate) :
    fault? (Filter.ofPredicates params predicates) =
      (predicates.filterMap Predicate.operand?).findSome? fun source =>
        fault? (source.resolve params) := by
  rw [Filter.ofPredicates, fault?_mapM, findSome?_filterMap]
  congr 1
  funext p
  cases p with
  | isNull | isNotNull => rfl
  | like | compare => exact fault?_bind_pure _ _

theorem fault?_resolveFields (fields : List (String × ValueSource)) :
    fault? (resolveFields params fields) =
      (fields.map Prod.snd).findSome? fun source => fault? (source.resolve params) := by
  rw [resolveFields, fault?_mapM, List.findSome?_map]
  congr 1
  funext ⟨field, source⟩
  exact fault?_bind_pure _ _

theorem fault?_ofStatement (policy : Policy) (params : List Value) (statement : Statement) :
    fault? (ofStatement policy params statement) =
      ((statement.sources.findSome? fun source => fault? (source.resolve params)).map
        QueryError.parameter).or (policy.refusal? statement) := by
  cases statement with
  | select s | delete s =>
    rw [ofStatement, fault?_bind_pure, fault?_resolved, fault?_ofPredicates]
    exact Option.or_none.symm
  | insert s =>
    rw [ofStatement, fault?_bind_pure, fault?_resolved, fault?_resolveFields]
    exact Option.or_none.symm
  | update s =>
    rw [ofStatement, fault?_bind fun _ => fault?_bind_pure .., fault?_resolved, fault?_resolved,
      fault?_resolveFields, fault?_ofPredicates]
    simp only [Statement.sources, List.findSome?_append, Policy.refusal?, Option.or_none]
    cases (s.assignments.map Prod.snd).findSome? fun source => fault? (source.resolve params) <;>
      rfl
  | createTable s | createIndex s | alterTable collection | inert kind => rfl
  | unsupported text =>
    by_cases hstrict : policy.strict = true
    · simp only [ofStatement, Policy.refusal?, if_pos hstrict]
      rfl
    · simp only [ofStatement, Policy.refusal?, if_neg hstrict]
      rfl

end Plan

theorem ValueSource.fault?_resolve {n : Nat} (hn : 0 < n) (params : List Value) :
    fault? ((parameter n).resolve params) =
      if params.length < n then some ⟨n, params.length⟩ else none := by
  obtain ⟨n, rfl⟩ := Nat.exists_eq_succ_of_ne_zero (Nat.pos_iff_ne_zero.mp hn)
  by_cases hlength : n < params.length
  · have hget : params[n]? = some params[n] := List.getElem?_eq_getElem hlength
    rw [resolve, hget, if_neg (by omega)]
    rfl
  · have hget : params[n]? = none := List.getElem?_eq_none (by omega)
    rw [resolve, hget, if_pos (by omega)]
    rfl

namespace Statement

theorem findSome?_fault {s : Statement} (h : ∀ n ∈ s.parameters, 0 < n)
    (params : List Value) :
    (s.sources.findSome? fun source => fault? (source.resolve params)) =
      (s.missing? params.length).map fun n => ⟨n, params.length⟩ := by
  unfold missing?
  unfold parameters at h ⊢
  generalize s.sources = sources at h ⊢
  induction sources with
  | nil => rfl
  | cons source rest ih =>
    cases source with
    | literal value => exact ih h
    | parameter n =>
      have hrest := ih fun m hm => h m (List.mem_cons_of_mem n hm)
      have hn : 0 < n := h n List.mem_cons_self
      have hhead : (ValueSource.parameter n :: rest).filterMap ValueSource.parameter? =
          n :: rest.filterMap ValueSource.parameter? := rfl
      rw [List.findSome?_cons, ValueSource.fault?_resolve hn, hhead, List.find?_cons]
      by_cases hlength : params.length < n
      · simp [hlength]
      · simpa [hlength] using hrest

/-- Parameters count from 1, so planning fails at the first of them that goes beyond those supplied,
or else by the policy. -/
theorem fault?_plan {s : Statement} (h : ∀ n ∈ s.parameters, 0 < n) (policy : Policy)
    (params : List Value) :
    fault? (Plan.ofStatement policy params s) =
      ((s.missing? params.length).map fun n => .parameter ⟨n, params.length⟩).or
        (policy.refusal? s) := by
  rw [Plan.fault?_ofStatement, findSome?_fault h, Option.map_map]
  rfl

example : (update ⟨"t", [("a", .literal .null), ("b", .parameter 4)],
    [.compare "c" .eq (.parameter 3)]⟩).missing? 2 = some 4 := rfl

end Statement

/-- A result of the command, or an error of the store. -/
def Answers (command : CommandTag) : Except QueryError QueryResult → Prop
  | .ok r => r.command = command
  | .error e => ∃ cause, e = .store cause

namespace Engine

variable {σ α : Type}

/-- A query is the run of the statement that was read, and tells its kind. -/
theorem query_of_parse {moment : Moment} {text : String} {statement : Statement}
    (h : Statement.parse moment text = .ok statement) (store : DocumentStore σ) (policy : Policy)
    (params : List Value) (s : σ) :
    query store policy moment text params s =
      { execute store policy (moment.fresh 0) params statement s with
        events := .statement statement.kind statement.collection? ::
          (execute store policy (moment.fresh 0) params statement s).events } := by
  simp only [query, h]

theorem exists_plan {store : DocumentStore σ} {policy : Policy} {fresh : Uuid}
    {params : List Value} {statement : Statement} {s : σ} {result : QueryResult}
    (h : (execute store policy fresh params statement s).outcome = .ok result) :
    ∃ plan, Plan.ofStatement policy params statement = .ok plan ∧
      execute store policy fresh params statement s = run store fresh plan s := by
  unfold execute at h ⊢
  cases hplan : Plan.ofStatement policy params statement with
  | error e =>
    rw [hplan] at h
    cases h
  | ok plan => exact ⟨plan, rfl, rfl⟩

theorem ask_answers (operation : Operation σ α) (s : σ) {result : α → QueryResult}
    {command : CommandTag} (hresult : ∀ a, (result a).command = command)
    (events : List Log.Event) : Answers command (ask operation s result events).outcome := by
  unfold ask
  split
  · exact hresult _
  · exact ⟨_, rfl⟩

/-- An answer comes from the store, and the state is the one that the store leaves with it. -/
theorem exists_of_ask {operation : Operation σ α} {s : σ} {result : α → QueryResult}
    {events : List Log.Event} {r : QueryResult}
    (h : (ask operation s result events).outcome = .ok r) :
    ∃ a s', operation s = (.ok a, s') ∧
      ask operation s result events = ⟨.ok (result a), s', events⟩ := by
  unfold ask at h ⊢
  split at h
  · next a s' hanswer => exact ⟨a, s', hanswer, rfl⟩
  · cases h

theorem askForIndex_answers (operation : Operation σ Unit) (s : σ) (events : List Log.Event) :
    Answers .createIndex (askForIndex operation s events).outcome := by
  unfold askForIndex
  split
  · rfl
  · rfl
  · exact ⟨_, rfl⟩

theorem askWhether_answers (operation : Operation σ Bool) (collection : String) (s : σ) :
    Answers .createTable (askWhether operation collection s).outcome := by
  unfold askWhether
  split
  · rfl
  · exact ⟨_, rfl⟩

theorem run_answers (store : DocumentStore σ) (fresh : Uuid) (plan : Plan) (s : σ) :
    Answers plan.command (run store fresh plan s).outcome := by
  cases plan with
  | acceptTable | acceptInert | ignore => rfl
  | find | insert | update | delete =>
    refine ask_answers _ _ ?_ _
    exact fun _ => rfl
  | probe => exact askWhether_answers _ _ _
  | createIndex => exact askForIndex_answers _ _ _

end Engine

end DocumentSql
