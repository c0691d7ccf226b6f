import DocumentSql.Proofs.Grammar.Exclusion
import DocumentSql.Proofs.Grammar.Soundness
/-
Accepted texts are all read. A text that is read as a statement on documents is laid out in the
lexemes of that statement from its beginning to its end, so nothing in it can have been dropped.
-/

namespace DocumentSql

namespace Statement

/-- `SELECT`, `INSERT`, `UPDATE` or `DELETE`. -/
def actsOnDocuments : Statement → Bool
  | select _ | insert _ | update _ | delete _ => true
  | _ => false

open Grammar

theorem covers_ofTrimmed {moment : Moment} {text : List Char} {s : Statement}
    (h : ofTrimmed moment text = .ok s) (hs : s.actsOnDocuments = true) :
    Covers (Grammar.statement (value moment) s) text := by
  unfold ofTrimmed at h
  cases hkind : StatementKind.ofText text <;> simp only [hkind] at h
  case select =>
    obtain ⟨a, hread, rfl⟩ := map_eq_ok_iff.mp h
    exact covers_select hread
  case insert =>
    obtain ⟨a, hread, rfl⟩ := map_eq_ok_iff.mp h
    exact covers_insert hread
  case update =>
    obtain ⟨a, hread, rfl⟩ := map_eq_ok_iff.mp h
    exact covers_update hread
  case delete =>
    obtain ⟨a, hread, rfl⟩ := map_eq_ok_iff.mp h
    exact covers_delete hread
  case inert kind =>
    obtain rfl := Except.ok.inj h
    cases hs
  case unsupported =>
    obtain rfl := Except.ok.inj h
    cases hs
  all_goals
    obtain ⟨a, -, rfl⟩ := map_eq_ok_iff.mp h
    cases hs

/-- What no statement on documents has among its lexemes. -/
structure Excludes (ls : List Lexeme) : Prop where
  noOr : ∀ letters, .word letters ∈ ls → Text.lower letters ≠ "or".toList
  notGrouped : ¬Grouped ls
  semicolonLast : ∀ before after, ls = before ++ .symbol ";" :: after → after = []

theorem excludes_of_mem {moment : Moment} {s : Statement} (hs : s.actsOnDocuments = true)
    {ls : List Lexeme} (hls : ls ∈ Grammar.statement (value moment) s) : Excludes ls := by
  cases s with
  | select s =>
    have hterminated := terminated_select moment s
    exact ⟨fun _ hmem => hterminated.ne_word (by decide) hls hmem,
      (closesAtOnce_select moment s).not_grouped hls, (hterminated ls hls).2⟩
  | insert s =>
    have hterminated : Terminated ("or" :: operatorWords) operatorSigns
        (Grammar.insert (value moment) s) :=
      terminated_insert moment s (by decide) (.inr (by decide))
    exact ⟨fun _ hmem => hterminated.ne_word (by decide) hls hmem,
      hterminated.not_grouped (List.subset_cons_self _ _) hls, (hterminated ls hls).2⟩
  | update s =>
    have hterminated := terminated_update moment s
    exact ⟨fun _ hmem => hterminated.ne_word (by decide) hls hmem,
      (closesAtOnce_update moment s).not_grouped hls, (hterminated ls hls).2⟩
  | delete s =>
    have hterminated := terminated_delete moment s
    exact ⟨fun _ hmem => hterminated.ne_word (by decide) hls hmem,
      (closesAtOnce_delete moment s).not_grouped hls, (hterminated ls hls).2⟩
  | _ => cases hs

/-- What has been read is the whole text, without white space at its ends. Wherever the text is cut
into lexemes up to some place, these are no `OR`, no condition between parentheses, and no semicolon
with more than a gap behind it. -/
theorem parse_reads_all {moment : Moment} {text : String} {s : Statement}
    (h : parse moment text = .ok s) (hs : s.actsOnDocuments = true) :
    (∃ ls ∈ Grammar.statement (value moment) s, Laid ls (Text.trim text.toList)) ∧
    ∀ ls rest, Lays ls (Text.trim text.toList) rest →
      (∀ letters, .word letters ∈ ls → Text.lower letters ≠ "or".toList) ∧ ¬Grouped ls ∧
        ∀ before, ls = before ++ [.symbol ";"] → Skip rest [] := by
  have hcovers := covers_ofTrimmed h hs
  refine ⟨hcovers, fun ls rest hlays => ?_⟩
  obtain ⟨all, hall, hlaid⟩ := hcovers
  obtain ⟨ks, rfl, hks⟩ := hlays.of_laid hlaid
  obtain ⟨hor, hgrouped, hlast⟩ := excludes_of_mem hs hall
  refine ⟨fun letters hmem => hor letters (List.mem_append_left ks hmem), ?_, ?_⟩
  · rintro ⟨V, p, c, hc, before, after, rfl⟩
    exact hgrouped ⟨V, p, c, hc, before, after ++ ks, by simp⟩
  · rintro before rfl
    obtain rfl := hlast before ks (by simp)
    exact skip_nil_iff.mpr (laid_nil.mp hks)

/-- Numbers of each kind, one of them behind a zero; a semicolon may come last, behind a comment of
its own. -/
theorem parse_reads_all_select :
    let moment := Moment.series ⟨0⟩ 0 0
    let text := "SELECT * FROM users WHERE \"or\" = $7 AND age >= 042 LIMIT 500 -- all\n;"
    let s := select ⟨"users", [], [.compare "or" .eq (.parameter 7),
      .compare "age" .ge (.literal (.number (.ofInt 42)))], none, some 500, none⟩
    parse moment text = .ok s ∧ s.actsOnDocuments = true ∧
      ∃ ls ∈ Grammar.statement (value moment) s, Laid ls (Text.trim text.toList) := by
  intro moment text s
  have h : parse moment text = .ok s := by decide +kernel
  exact ⟨h, rfl, (parse_reads_all h rfl).1⟩

end Statement

end DocumentSql
