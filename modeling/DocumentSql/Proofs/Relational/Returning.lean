import DocumentSql.Proofs.Grammar.Accepted
import DocumentSql.Proofs.Relational.Quoting
/-
Which writes are taken to hand rows back. A `RETURNING` clause counts, as it should; the same word
inside of quotes or a comment counts as well. Every other write reports how many rows it affected.
-/

namespace DocumentSql

/-- Only an `INSERT` has a clause that asks for rows. -/
def Statement.asksForRows : Statement → Bool
  | insert s => s.returning.isSome
  | _ => false

namespace Grammar

/-- Each sequence of the language has the word, in any letter case, behind a closing parenthesis. -/
def HasClause (L : Tokens) : Prop :=
  ∀ ls ∈ L, ∃ before letters after, ls = before ++ .symbol ")" :: .word letters :: after ∧
    Text.lower letters = "returning".toList

section Clause

variable {L M : Tokens}

theorem HasClause.mul_left (h : HasClause M) (L : Tokens) : HasClause (L * M) := by
  intro ls hls
  obtain ⟨a, -, b, hb, rfl⟩ := Language.mem_mul.mp hls
  obtain ⟨before, letters, after, rfl, hletters⟩ := h b hb
  exact ⟨a ++ before, letters, after, (List.append_assoc _ _ _).symm, hletters⟩

theorem hasClause_returning (columns : List String) (L M : Tokens) :
    HasClause (parenthesized L * (returning (some columns) * M)) := by
  intro ls hls
  obtain ⟨group, hgroup, tail, htail, rfl⟩ := Language.mem_mul.mp hls
  obtain ⟨first, -, inner, hinner, rfl⟩ := Language.mem_mul.mp hgroup
  obtain ⟨body, -, last, rfl, rfl⟩ := Language.mem_mul.mp hinner
  obtain ⟨clause, hclause, rest, -, rfl⟩ := Language.mem_mul.mp htail
  obtain ⟨word, ⟨letters, hletters, rfl⟩, names, -, rfl⟩ := Language.mem_mul.mp hclause
  exact ⟨first ++ body, letters, names ++ rest, by simp, hletters⟩

theorem hasClause_insert (V : ValueSource → Tokens) {s : Insert} {columns : List String}
    (hs : s.returning = some columns) : HasClause (insert V s) := by
  rw [insert, hs]
  exact ((((hasClause_returning columns _ _).mul_left _).mul_left _).mul_left _).mul_left _

end Clause

/-- No lexeme of any other write is the word. -/
theorem ne_returning {moment : Moment} {s : Statement} (hwrite : Relational.isWrite s.kind = true)
    (hs : s.asksForRows = false) {ls : List Lexeme} (hls : ls ∈ statement (value moment) s)
    {letters : List Char} (hmem : .word letters ∈ ls) :
    Text.lower letters ≠ "returning".toList := by
  cases s with
  | insert s =>
    have hnone : s.returning = none := Option.not_isSome_iff_eq_none.mp (Bool.eq_false_iff.mp hs)
    have hterminated : Terminated absentWords operatorSigns (insert (value moment) s) :=
      terminated_insert moment s (by decide) (.inl hnone)
    exact hterminated.ne_word (by decide) hls hmem
  | update s => exact (terminated_update moment s).ne_word (by decide) hls hmem
  | delete s => exact (terminated_delete moment s).ne_word (by decide) hls hmem
  | _ => cases hwrite

end Grammar

namespace Relational

/-- Whether the word `RETURNING` occurs inside of quotes or a comment. -/
def mentionsInside (text : List Char) : Bool :=
  mentionsReturning (Place.inside .code (Text.trim text))

/-- Outside of quotes and comments the word is the clause. -/
theorem mentions_outside {moment : Moment} {text : List Char} {s : Statement}
    (hwrite : isWrite s.kind = true)
    (hcovers : Grammar.Covers (Grammar.statement (Grammar.value moment) s) text) :
    mentionsReturning (Place.outside .code text) = s.asksForRows := by
  obtain ⟨ls, hls, hlaid⟩ := hcovers
  rw [Bool.eq_iff_iff]
  constructor
  · intro hmentions
    obtain ⟨letters, hmem, hletters⟩ := exists_word_of_mentions hlaid hmentions
    by_contra hs
    exact Grammar.ne_returning hwrite (Bool.eq_false_iff.mpr hs) hls hmem
      (isReturning_iff.mp hletters)
  · intro hs
    cases s with
    | insert s =>
      obtain ⟨columns, hcolumns⟩ := Option.isSome_iff_exists.mp hs
      obtain ⟨before, letters, after, rfl, hletters⟩ :=
        Grammar.hasClause_insert _ hcolumns ls hls
      exact mentions_of_laid hlaid (isReturning_iff.mpr hletters)
    | _ => cases hs

theorem actsOnDocuments_of_isWrite {s : Statement} (h : isWrite s.kind = true) :
    s.actsOnDocuments = true := by
  cases s with
  | insert _ | update _ | delete _ => rfl
  | _ => cases h

theorem returnsRows_of_isWrite {kind : StatementKind} (h : isWrite kind = true)
    (text : List Char) : returnsRows kind text = mentionsReturning text := by
  cases kind with
  | insert | update | delete => rfl
  | _ => cases h

/-- A write that is not taken to hand rows back reports how many rows it affected. -/
theorem query_outcome {σ : Type} {server : RelationalServer σ} {text : String}
    {params : List Value} {state : σ} {r : ResultSet}
    (hwrite : isWrite (.ofText text.toList) = true)
    (hreply : (server.run ⟨text, params.map Bound.ofValue⟩ state).1 = .ok r) :
    (query server text params state).outcome = .ok
      (if returnsRows (.ofText text.toList) text.toList then rowsResult (.ofText text.toList) r
       else .affected (.ofKind (.ofText text.toList)) r.affected) := by
  simp only [query, hreply, affectedResult, hwrite, if_true]
  split <;> rfl

/-- A write is taken to hand rows back if it asks for them or the word stands inside of quotes or a
comment, and in no other case. -/
theorem returnsRows_eq {moment : Moment} {text : String} {s : Statement}
    (h : Statement.parse moment text = .ok s) (hkind : StatementKind.ofText text.toList = s.kind)
    (hwrite : isWrite s.kind = true) :
    returnsRows (.ofText text.toList) text.toList =
      (s.asksForRows || mentionsInside text.toList) ∧
    ∀ {σ : Type} (server : RelationalServer σ) (params : List Value) (state : σ) (r : ResultSet),
      (server.run ⟨text, params.map Bound.ofValue⟩ state).1 = .ok r →
      (query server text params state).outcome = .ok
        (if s.asksForRows || mentionsInside text.toList then rowsResult s.kind r
         else .affected (.ofKind s.kind) r.affected) := by
  have hcovers := Statement.covers_ofTrimmed h (actsOnDocuments_of_isWrite hwrite)
  have hreturns : returnsRows (.ofText text.toList) text.toList =
      (s.asksForRows || mentionsInside text.toList) := by
    rw [hkind, returnsRows_of_isWrite hwrite, ← mentions_trim, mentions_eq,
      mentions_outside hwrite hcovers, mentionsInside]
  refine ⟨hreturns, fun server params state r hreply => ?_⟩
  rw [query_outcome (hkind ▸ hwrite) hreply, hreturns, hkind]

/-- A name of which the word is only a part is another word. -/
theorem returnsRows_eq_update :
    let text := "UPDATE jobs SET returning_at = $1 WHERE id = 'a--b' -- later"
    let s := Statement.update
      ⟨"jobs", [("returning_at", .parameter 1)], [.compare "id" .eq (.literal (.text "a--b"))]⟩
    let server : ScriptedServer := ⟨[.ok { affected := 3 }], []⟩
    Statement.parse (.series ⟨0⟩ 0 0) text = .ok s ∧ StatementKind.ofText text.toList = s.kind ∧
      isWrite s.kind = true ∧
      returnsRows (.ofText text.toList) text.toList =
        (s.asksForRows || mentionsInside text.toList) ∧
      (s.asksForRows || mentionsInside text.toList) = false ∧
      (query ScriptedServer.server text [.null] server).outcome = .ok (.affected .update 3) := by
  intro text s server
  have hparse : Statement.parse (.series ⟨0⟩ 0 0) text = .ok s := by decide +kernel
  have hkind : StatementKind.ofText text.toList = s.kind := by decide +kernel
  have hplain : (s.asksForRows || mentionsInside text.toList) = false := by decide +kernel
  obtain ⟨hreturns, hquery⟩ := returnsRows_eq hparse hkind rfl
  refine ⟨hparse, hkind, rfl, hreturns, hplain, ?_⟩
  rw [hquery ScriptedServer.server [.null] server _ rfl, hplain]
  rfl

/-- A text that holds the word is taken for the clause, and the affected row is not counted. -/
theorem word_in_text_returnsRows :
    let text := "INSERT INTO t (a) VALUES ('returning')"
    let s := Statement.insert ⟨"t", [("a", .literal (.text "returning"))], none⟩
    let server : ScriptedServer := ⟨[.ok { affected := 1 }], []⟩
    Statement.parse (.series ⟨0⟩ 0 0) text = .ok s ∧ StatementKind.ofText text.toList = s.kind ∧
      isWrite s.kind = true ∧ s.asksForRows = false ∧
      returnsRows (.ofText text.toList) text.toList = true ∧
      (query ScriptedServer.server text [] server).outcome = .ok (.affected .insert 0) :=
  ⟨rfl, rfl, rfl, rfl, rfl, rfl⟩

end Relational

end DocumentSql
