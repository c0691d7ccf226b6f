import DocumentSql.Proofs.Engine.Plan
import DocumentSql.Proofs.Store.Uniqueness
import Mathlib.Logic.Relation
/-
Many clients of one store. A client reads and plans its statement without the store and then makes
its one request; requests of different clients follow each other in any order. Whatever the clients
do, a store that began empty or as a fixture stays sound.
-/

namespace DocumentSql

/-- A query as a client makes it, with what its statement may draw from its surroundings. -/
structure Call where
  policy : Policy
  moment : Moment
  text : String
  params : List Value

namespace Call

def query (call : Call) (s : Store) : Execution Store :=
  Engine.query Store.memory call.policy call.moment call.text call.params s

def runAll (calls : List Call) (s : Store) : Store :=
  calls.foldl (fun s call => (call.query s).state) s

/-- What the statement asks for; none if it cannot be read or lacks parameters. -/
def plan? (call : Call) : Option Plan :=
  match Statement.parse call.moment call.text with
  | .ok statement => (Plan.ofStatement call.policy call.params statement).toOption
  | .error _ => none

/-- Of a query only the request matters to the store. -/
theorem query_state (call : Call) (s : Store) :
    (call.query s).state = match call.plan? with
      | some plan => (Engine.run Store.memory (call.moment.fresh 0) plan s).state
      | none => s := by
  unfold query Engine.query plan?
  cases Statement.parse call.moment call.text with
  | error e => rfl
  | ok statement =>
    simp only [Engine.execute]
    cases Plan.ofStatement call.policy call.params statement <;> rfl

theorem query_of_parse {call : Call} {statement : Statement}
    (h : Statement.parse call.moment call.text = .ok statement) (s : Store) :
    let run := Engine.execute Store.memory call.policy (call.moment.fresh 0) call.params statement s
    (call.query s).outcome = run.outcome ∧ (call.query s).state = run.state := by
  simp only [query, Engine.query_of_parse h, and_self]

end Call

/-- A client makes no call, or it has planned one and still has to ask the store. -/
inductive Client
  | idle
  | waiting (fresh : Uuid) (plan : Plan)

namespace Client

def reading (call : Call) : Client :=
  match call.plan? with
  | some plan => waiting (call.moment.fresh 0) plan
  | none => idle

end Client

structure Shared where
  store : Store
  clients : List Client

namespace Shared

/-- One step of one client. Only a request touches the store, all at once. -/
inductive Step : Shared → Shared → Prop
  | read {s : Shared} {k : Nat} (call : Call) : s.clients[k]? = some .idle →
      Step s { s with clients := s.clients.set k (.reading call) }
  | ask {s : Shared} {k : Nat} {fresh : Uuid} {plan : Plan} :
      s.clients[k]? = some (.waiting fresh plan) →
      Step s ⟨(Engine.run Store.memory fresh plan s.store).state, s.clients.set k .idle⟩

/-- Any number of steps, by any of the clients in any order. -/
abbrev Reaches : Shared → Shared → Prop := Relation.ReflTransGen Step

theorem Step.sound {s s' : Shared} (h : Step s s') (hs : s.store.Sound) : s'.store.Sound := by
  cases h with
  | read call hidle => exact hs
  | ask hwaiting => exact hs.run _ _

theorem Reaches.sound {s s' : Shared} (h : Reaches s s') (hs : s.store.Sound) :
    s'.store.Sound := by
  induction h with
  | refl => exact hs
  | tail _ hstep ih => exact hstep.sound ih

theorem reaches_query (call : Call) (s : Store) :
    Reaches ⟨s, [.idle]⟩ ⟨(call.query s).state, [.idle]⟩ := by
  have hread : Step ⟨s, [.idle]⟩ ⟨s, [.reading call]⟩ := Step.read (k := 0) call rfl
  rw [call.query_state s]
  cases hplan : call.plan? with
  | none => simpa only [Client.reading, hplan] using Relation.ReflTransGen.single hread
  | some plan =>
    simp only [Client.reading, hplan] at hread
    exact .tail (.single hread) (Step.ask (k := 0) rfl)

theorem reaches_runAll (calls : List Call) (s : Store) :
    Reaches ⟨s, [.idle]⟩ ⟨Call.runAll calls s, [.idle]⟩ := by
  induction calls generalizing s with
  | nil => exact .refl
  | cons call calls ih => exact (reaches_query call s).trans (ih (call.query s).state)

end Shared

namespace Store

/-- The stores that clients may start with. -/
def Initial (s : Store) : Prop := s = empty ∨ ∃ fixture, ofFixture fixture = .ok s

theorem Initial.sound {s : Store} (h : Initial s) : s.Sound := by
  obtain rfl | ⟨fixture, hfixture⟩ := h
  · exact sound_empty
  · exact sound_ofFixture hfixture

/-- Unique indexes hold in every state: after any calls in a row, and at every moment of any number
of clients at work together. -/
theorem unique_indexes_hold {start : Store} (hstart : Initial start) :
    (∀ calls, (Call.runAll calls start).Sound) ∧
    ∀ n shared, Shared.Reaches ⟨start, List.replicate n .idle⟩ shared → shared.store.Sound :=
  ⟨fun calls => (Shared.reaches_runAll calls start).sound hstart.sound,
    fun _ _ h => h.sound hstart.sound⟩

/-- A unique index on the documents of a fixture, and an insertion that it refuses. -/
theorem unique_indexes_hold_fixture :
    let moment := Moment.series ⟨0⟩ 0 0
    let fixture : Json := .object [("users", .array [.object [("email", .text "a@b.c")]])]
    let creation : Call := ⟨{}, moment, "CREATE UNIQUE INDEX by_email ON users (email)", []⟩
    let insertion : Call := ⟨{}, moment, "INSERT INTO users (email) VALUES ($1)", [.text "a@b.c"]⟩
    ∃ start, ofFixture fixture = .ok start ∧
      ((creation.query start).state.documents "users").length = 1 ∧
      ((creation.query start).state.collection "users").indexes = [⟨"by_email", ["email"], true⟩] ∧
      (insertion.query (creation.query start).state).outcome =
        .error (.store (.duplicateKey "users" "by_email")) ∧
      (∀ calls, (Call.runAll calls start).Sound) ∧
      ∀ n shared, Shared.Reaches ⟨start, List.replicate n .idle⟩ shared → shared.store.Sound := by
  intro moment fixture creation insertion
  have hinitial : Initial _ := .inr ⟨fixture, rfl⟩
  refine ⟨_, rfl, by decide +kernel, by decide +kernel, ?_, unique_indexes_hold hinitial⟩
  exact fault?_eq_some_iff.mp (by decide +kernel)

end Store

end DocumentSql
