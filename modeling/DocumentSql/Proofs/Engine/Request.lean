import DocumentSql.Proofs.Grammar.Operands
import DocumentSql.Proofs.Store.Clients
/-
What a query asks a store, whatever the store is and does. A store that keeps a record of its
requests behaves as it does without; the record of a query holds one request or none, and none
before each parameter has its value.
-/

namespace DocumentSql

/-- A request to a store, with all that it is given. -/
inductive Request
  | find (collection : String) (options : FindOptions)
  | insert (fresh : Uuid) (collection : String) (document : Document)
  | update (collection : String) (filter : Filter) (set : Document)
  | delete (collection : String) (filter : Filter)
  | createIndex (collection : String) (index : Index)
  | collectionExists (collection : String)

namespace Request

/-- The kind of the statements that make such a request. -/
def kind : Request → StatementKind
  | find .. => .select
  | insert .. => .insert
  | update .. => .update
  | delete .. => .delete
  | createIndex .. => .createIndex
  | collectionExists _ => .createTable

end Request

section Recording

variable {σ α : Type}

def Operation.recorded (request : Request) (operation : Operation σ α) :
    Operation (σ × List Request) α := fun state =>
  ((operation state.1).1, (operation state.1).2, state.2 ++ [request])

namespace DocumentStore

/-- The store with a record of its requests beside its state. -/
def recording (store : DocumentStore σ) : DocumentStore (σ × List Request) where
  find collection options := .recorded (.find collection options) (store.find collection options)
  insert fresh collection d :=
    .recorded (.insert fresh collection d) (store.insert fresh collection d)
  update collection filter set :=
    .recorded (.update collection filter set) (store.update collection filter set)
  delete collection filter := .recorded (.delete collection filter) (store.delete collection filter)
  createIndex collection index :=
    .recorded (.createIndex collection index) (store.createIndex collection index)
  collectionExists collection :=
    .recorded (.collectionExists collection) (store.collectionExists collection)

end DocumentStore

def Execution.withRequests (e : Execution σ) (requests : List Request) :
    Execution (σ × List Request) :=
  ⟨e.outcome, (e.state, requests), e.events⟩

def Plan.request? (fresh : Uuid) : Plan → Option Request
  | acceptTable _ | acceptInert _ | ignore _ => none
  | find collection options => some (.find collection options)
  | insert collection d _ => some (.insert fresh collection d)
  | update collection filter set => some (.update collection filter set)
  | delete collection filter => some (.delete collection filter)
  | probe collection => some (.collectionExists collection)
  | createIndex collection index => some (.createIndex collection index)

namespace Engine

variable {request : Request} {s : σ} {requests : List Request}

theorem ask_recorded (operation : Operation σ α) (result : α → QueryResult)
    (events : List Log.Event) :
    ask (operation.recorded request) (s, requests) result events =
      (ask operation s result events).withRequests (requests ++ [request]) := by
  simp only [ask, Operation.recorded]
  cases operation s with
  | mk answer s' => cases answer <;> rfl

theorem askForIndex_recorded (operation : Operation σ Unit) (events : List Log.Event) :
    askForIndex (operation.recorded request) (s, requests) events =
      (askForIndex operation s events).withRequests (requests ++ [request]) := by
  simp only [askForIndex, Operation.recorded]
  cases operation s with
  | mk answer s' =>
    cases answer with
    | ok => rfl
    | error e => cases e <;> rfl

theorem askWhether_recorded (operation : Operation σ Bool) (collection : String) :
    askWhether (operation.recorded request) collection (s, requests) =
      (askWhether operation collection s).withRequests (requests ++ [request]) := by
  simp only [askWhether, Operation.recorded]
  cases operation s with
  | mk answer s' => cases answer <;> rfl

/-- The record does not change a run, and the run adds its own request to it. -/
theorem run_recording (store : DocumentStore σ) (fresh : Uuid) (plan : Plan) :
    run store.recording fresh plan (s, requests) =
      (run store fresh plan s).withRequests (requests ++ (plan.request? fresh).toList) := by
  cases plan with
  | acceptTable | acceptInert | ignore =>
    simp only [Plan.request?, Option.toList_none, List.append_nil]
    rfl
  | find | insert | update | delete => exact ask_recorded _ _ _
  | probe collection => exact askWhether_recorded _ _
  | createIndex collection index => exact askForIndex_recorded _ _

end Engine

end Recording

/-- Once there is a plan, no parameter is missing. -/
theorem Engine.run_ne_parameter {σ : Type} (store : DocumentStore σ) (fresh : Uuid) (plan : Plan)
    (s : σ) (e : ParameterError) :
    (run store fresh plan s).outcome ≠ .error (.parameter e) := by
  intro h
  have hanswers := run_answers store fresh plan s
  rw [h] at hanswers
  obtain ⟨cause, hcause⟩ := hanswers
  cases hcause

namespace StatementKind

/-- Other statements are accepted, ignored or refused without a store. -/
def asksStore : StatementKind → Bool
  | select | insert | update | delete | createTable | createIndex => true
  | alterTable | inert _ | unsupported => false

end StatementKind

theorem Plan.kind_request? (fresh : Uuid) (plan : Plan) :
    (plan.request? fresh).toList.map Request.kind =
      if plan.kind.asksStore then [plan.kind] else [] := by
  cases plan <;> rfl

theorem Policy.refusal?_eq_some {policy : Policy} {s : Statement} {e : QueryError}
    (h : policy.refusal? s = some e) : s.kind = .unsupported ∧ e.isParseError = false := by
  unfold refusal? at h
  split at h
  · split at h
    · exact ⟨rfl, Option.some.inj h ▸ rfl⟩
    · cases h
  · cases h

namespace Call

variable {σ : Type} (call : Call) (store : DocumentStore σ)

def queryOn (s : σ) : Execution σ :=
  Engine.query store call.policy call.moment call.text call.params s

def request? : Option Request := call.plan?.bind (Plan.request? (call.moment.fresh 0))

theorem queryOn_recording (s : σ) :
    call.queryOn store.recording (s, []) =
      (call.queryOn store s).withRequests call.request?.toList := by
  unfold queryOn Engine.query request? plan?
  cases Statement.parse call.moment call.text with
  | error e => rfl
  | ok statement =>
    simp only [Engine.execute]
    cases Plan.ofStatement call.policy call.params statement with
    | error e => rfl
    | ok plan =>
      simp only [Engine.run_recording, List.nil_append]
      rfl

section Stages

variable {call} {statement : Statement}

theorem stopped_parse {e : ParseError} (h : Statement.parse call.moment call.text = .error e)
    (s : σ) : call.request? = none ∧ (call.queryOn store s).outcome = .error (.parse e) := by
  simp only [request?, plan?, queryOn, Engine.query, h, Option.bind_none, true_and]

theorem stopped_plan (hparse : Statement.parse call.moment call.text = .ok statement)
    {e : QueryError} (h : Plan.ofStatement call.policy call.params statement = .error e) (s : σ) :
    call.request? = none ∧ (call.queryOn store s).outcome = .error e := by
  simp only [request?, plan?, queryOn, Engine.query, Engine.execute, hparse, h, Except.toOption,
    Option.bind_none, true_and]

theorem planned (hparse : Statement.parse call.moment call.text = .ok statement)
    {plan : Plan} (h : Plan.ofStatement call.policy call.params statement = .ok plan) (s : σ) :
    call.request? = plan.request? (call.moment.fresh 0) ∧
      (call.queryOn store s).outcome =
        (Engine.run store (call.moment.fresh 0) plan s).outcome := by
  simp only [request?, plan?, queryOn, Engine.query, Engine.execute, hparse, h, Except.toOption,
    Option.bind_some, true_and]

/-- A parameter without a value stops a query before the store is asked. -/
theorem stopped_parameter (hparse : Statement.parse call.moment call.text = .ok statement) {n : Nat}
    (hmissing : statement.missing? call.params.length = some n) (s : σ) :
    call.request? = none ∧
      (call.queryOn store s).outcome = .error (.parameter ⟨n, call.params.length⟩) := by
  have hfault := Statement.fault?_plan (fun _ => Statement.parameter_pos hparse) call.policy
    call.params
  rw [hmissing] at hfault
  exact stopped_plan store hparse (fault?_eq_some_iff.mp hfault) s

/-- With all its parameters a statement makes the request of its kind, if it has one. -/
theorem request_of_parameters (hparse : Statement.parse call.moment call.text = .ok statement)
    (hmissing : statement.missing? call.params.length = none) (s : σ) :
    call.request?.toList.map Request.kind =
      (if statement.kind.asksStore then [statement.kind] else []) ∧
    ∀ e, (call.queryOn store s).outcome ≠ .error (.parameter e) := by
  have hfault := Statement.fault?_plan (fun _ => Statement.parameter_pos hparse) call.policy
    call.params
  rw [hmissing] at hfault
  cases hplan : Plan.ofStatement call.policy call.params statement with
  | error e =>
    -- Only the policy can have refused it.
    rw [hplan] at hfault
    obtain ⟨hkind, he⟩ := Policy.refusal?_eq_some hfault.symm
    obtain ⟨hnone, houtcome⟩ := stopped_plan store hparse hplan s
    refine ⟨by rw [hnone, hkind]; rfl, fun cause hcause => ?_⟩
    obtain rfl := Except.error.inj (houtcome.symm.trans hcause)
    cases he
  | ok plan =>
    obtain ⟨hrequest, houtcome⟩ := planned store hparse hplan s
    refine ⟨?_, fun e => ?_⟩
    · rw [hrequest, Plan.kind_request?, Plan.kind_ofStatement hplan]
    · exact houtcome ▸ Engine.run_ne_parameter store _ plan s e

end Stages

/-- A query makes one request at most, of the kind of its statement, and the record shows the query
as it is. There is no request if the text cannot be read, or if a parameter goes beyond those
supplied; the first such parameter is the error then, and no parameter is an error in any other
case. -/
theorem one_request (s : σ) :
    let run := call.queryOn store s
    let recorded := call.queryOn store.recording (s, [])
    let requests := recorded.state.2
    (recorded.outcome = run.outcome ∧ recorded.state.1 = run.state ∧
      recorded.events = run.events) ∧
    requests.length ≤ 1 ∧
    match Statement.parse call.moment call.text with
    | .error e => requests = [] ∧ run.outcome = .error (.parse e)
    | .ok statement =>
      match statement.missing? call.params.length with
      | some n => requests = [] ∧ run.outcome = .error (.parameter ⟨n, call.params.length⟩)
      | none =>
        requests.map Request.kind =
          (if statement.kind.asksStore then [statement.kind] else []) ∧
        ∀ e, run.outcome ≠ .error (.parameter e) := by
  intro run recorded requests
  have hrecorded : recorded = run.withRequests call.request?.toList :=
    call.queryOn_recording store s
  have hrequests : requests = call.request?.toList := congrArg (·.state.2) hrecorded
  rw [hrequests]
  refine ⟨by rw [hrecorded]; exact ⟨rfl, rfl, rfl⟩, ?_, ?_⟩
  · cases call.request? <;> simp
  · cases hparse : Statement.parse call.moment call.text with
    | error e =>
      obtain ⟨hnone, houtcome⟩ := stopped_parse store hparse s
      exact ⟨by rw [hnone]; rfl, houtcome⟩
    | ok statement =>
      dsimp only
      cases hmissing : statement.missing? call.params.length with
      | some n =>
        obtain ⟨hnone, houtcome⟩ := stopped_parameter store hparse hmissing s
        exact ⟨by rw [hnone]; rfl, houtcome⟩
      | none => exact request_of_parameters store hparse hmissing s

end Call

end DocumentSql
