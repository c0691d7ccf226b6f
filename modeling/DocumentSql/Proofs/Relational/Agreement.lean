import DocumentSql.Proofs.Engine.Plan
import DocumentSql.Proofs.Grammar.Kind
import DocumentSql.Relational.Backend
import DocumentSql.Store.Memory
/-
One text on both kinds of stores. The relational side takes the kind of a statement from the text as
it came, the document side from the text without the white space at its ends; their results bear the
same command unless that white space hides the first word.
-/

namespace DocumentSql

variable {σ : Type} {s : σ} {r : QueryResult}

namespace CommandTag

theorem ofKind_eq_passthrough_iff {kind : StatementKind} :
    ofKind kind = passthrough ↔ kind = .unsupported := by
  cases kind <;> simp [ofKind]

end CommandTag

theorem Engine.command_query {store : DocumentStore σ} {policy : Policy} {moment : Moment}
    {text : String} {params : List Value} {statement : Statement}
    (hparse : Statement.parse moment text = .ok statement) (hkind : statement.kind ≠ .unsupported)
    (h : (query store policy moment text params s).outcome = .ok r) :
    r.command = .ofKind statement.kind := by
  rw [query_of_parse hparse] at h
  obtain ⟨plan, hplan, hrun⟩ := exists_plan h
  have hanswers := run_answers store (moment.fresh 0) plan s
  rw [← hrun, h] at hanswers
  rw [← Plan.kind_ofStatement hplan] at hkind ⊢
  rwa [Plan.command_eq_ofKind hkind] at hanswers

namespace Relational

theorem settle_answers (kind : StatementKind) (e : StoreError) :
    Answers (.ofKind kind) (settle kind e).1 := by
  unfold settle
  split
  · split
    · next hkind =>
      rw [eq_of_beq hkind]
      rfl
    · exact ⟨_, rfl⟩
  · exact ⟨_, rfl⟩

theorem query_answers (server : RelationalServer σ) (text : String) (params : List Value) (s : σ) :
    Answers (.ofKind (.ofText text.toList)) (query server text params s).outcome := by
  simp only [query]
  split <;> split
  · rfl
  · exact ⟨_, rfl⟩
  · rfl
  · exact settle_answers _ _

theorem command_query {server : RelationalServer σ} {text : String} {params : List Value}
    (h : (query server text params s).outcome = .ok r) :
    r.command = .ofKind (.ofText text.toList) := by
  have hanswers := query_answers server text params s
  rwa [h] at hanswers

/-- A text that can be read has the kind of its statement just if the white space in front of it is
made of blanks, or if its statement has no known kind anyway. Just then the results of both sides
bear the same command. -/
theorem kinds_agree_iff {moment : Moment} {text : String} {s : Statement}
    (h : Statement.parse moment text = .ok s) :
    (StatementKind.ofText text.toList = s.kind ↔
      Text.LedByBlanks text.toList ∨ s.kind = .unsupported) ∧
    ∀ {σ τ : Type} (store : DocumentStore σ) (server : RelationalServer τ) (policy : Policy)
      (params : List Value) (documents : σ) (rows : τ) (r r' : QueryResult),
      (Engine.query store policy moment text params documents).outcome = .ok r →
      (query server text params rows).outcome = .ok r' → s.kind ≠ .unsupported →
      (r'.command = r.command ↔ Text.LedByBlanks text.toList) := by
  have hkind : StatementKind.ofText text.toList =
      if Text.LedByBlanks text.toList then s.kind else .unsupported := by
    rw [StatementKind.ofText_eq, Statement.kind_of_ofTrimmed h]
  refine ⟨?_, fun store server policy params documents rows r r' hr hr' hknown => ?_⟩
  · rw [hkind]
    by_cases hled : Text.LedByBlanks text.toList <;> simp [hled, eq_comm]
  · rw [command_query hr', Engine.command_query h hknown hr, hkind]
    by_cases hled : Text.LedByBlanks text.toList
    · simp [hled]
    · have hne : CommandTag.passthrough ≠ .ofKind s.kind := fun heq =>
        hknown (CommandTag.ofKind_eq_passthrough_iff.mp heq.symm)
      simpa [hled, CommandTag.ofKind] using hne

/-- Comments and line breaks may stand in front, and any white space behind. -/
theorem kinds_agree_iff_update :
    let moment := Moment.series ⟨0⟩ 0 0
    let text := "\t-- all\r\nUPDATE users SET admin = FALSE\x0c"
    let s := Statement.update ⟨"users", [("admin", .literal (.bool false))], []⟩
    let server : ScriptedServer := ⟨[.ok { affected := 3 }], []⟩
    let r := QueryResult.affected .update 0
    let r' := QueryResult.affected .update 3
    Statement.parse moment text = .ok s ∧
      (StatementKind.ofText text.toList = s.kind ↔
        Text.LedByBlanks text.toList ∨ s.kind = .unsupported) ∧
      (Engine.query Store.memory {} moment text [] Store.empty).outcome = .ok r ∧
      (query ScriptedServer.server text [] server).outcome = .ok r' ∧
      (r'.command = r.command ↔ Text.LedByBlanks text.toList) ∧
      Text.LedByBlanks text.toList := by
  intro moment text s server r r'
  have hparse : Statement.parse moment text = .ok s := by decide +kernel
  have hr : (Engine.query Store.memory {} moment text [] Store.empty).outcome = .ok r := by
    rw [Engine.query, hparse]
    rfl
  have hr' : (query ScriptedServer.server text [] server).outcome = .ok r' := by
    have hkind : StatementKind.ofText text.toList = .update := by decide +kernel
    have hplain : returnsRows .update text.toList = false := by decide +kernel
    rw [query, hkind, hplain]
    rfl
  obtain ⟨hkinds, hcommands⟩ := kinds_agree_iff hparse
  exact ⟨hparse, hkinds, hr, hr', hcommands _ _ _ _ _ _ _ _ hr hr' (by decide), by decide⟩

/-- A form feed hides the first word from the relational side, which then runs the text as a
statement of no known kind. -/
theorem form_feed_hides_kind :
    let moment := Moment.series ⟨0⟩ 0 0
    let text := "\x0cSELECT * FROM t"
    let s := Statement.select ⟨"t", [], [], none, none, none⟩
    let server : ScriptedServer := ⟨[], []⟩
    Statement.parse moment text = .ok s ∧ s.kind = .select ∧
      StatementKind.ofText text.toList = .unsupported ∧
      (Engine.query Store.memory {} moment text [] Store.empty).outcome =
        .ok (.ofRows .select []) ∧
      (query ScriptedServer.server text [] server).outcome = .ok (.affected .passthrough 0) :=
  ⟨by decide +kernel, rfl, by decide +kernel, rfl, rfl⟩

end Relational

end DocumentSql
