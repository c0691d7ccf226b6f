import DocumentSql.Proofs.Grammar.Operands
import DocumentSql.Proofs.Number.Integer
import Mathlib.Order.CompletePartialOrder
/-
Statements in which each value stands as it is displayed. The display of a value is one lexeme, and
a text begins with one lexeme at most, so whatever stands in a text of a user it is read as the
value itself: quotes, comment marks and keywords inside of a text do not count.
-/

namespace DocumentSql

/-- Null, truth values, texts, and the integers that a number holds exactly. -/
def Value.Plain : Value → Prop
  | null | bool _ | text _ => True
  | number x => ∃ i : Int, i.natAbs ≤ 2 ^ 53 ∧ x = Binary64.ofInt i
  | timestamp _ | id _ => False

theorem ValueSource.text_number (x : Binary64) : (literal (.number x)).text = x.text := rfl

theorem ValueSource.writable_literal {v : Value} : (literal v).Writable ↔ v.Plain := by
  cases v <;> exact Iff.rfl

/-- A lexeme is determined by what it looks like. -/
theorem Lexeme.eq_of_written_eq {l l' : Lexeme} (h : l.WellFormed) (h' : l'.WellFormed)
    (heq : l.written = l'.written) : l = l' := by
  have hat : l.At l.written [] := ⟨h, (List.append_nil _).symm, l.ends_nil⟩
  have hat' : l'.At l.written [] := ⟨h', by rw [heq, List.append_nil], l'.ends_nil⟩
  exact (hat.unique hat').1

namespace Grammar

/-- One lexeme that looks as the value is displayed. -/
def displayed (source : ValueSource) : Tokens :=
  {ls | ∃ l : Lexeme, l.WellFormed ∧ l.written = source.text.toList ∧ ls = [l]}

section Values

theorem toList_toString_nat (n : Nat) : (toString n).toList = Nat.toDigits 10 n := by simp

theorem toList_toString_int (i : Int) :
    (toString i).toList = Lexeme.sign (decide (i < 0)) ++ Nat.toDigits 10 i.natAbs := by
  cases i with
  | ofNat n =>
    have hsign : ¬(Int.ofNat n < 0) := by simp
    rw [decide_eq_false hsign]
    exact toList_toString_nat n
  | negSucc n =>
    have htext : toString (Int.negSucc n) = "-" ++ toString (n + 1) := rfl
    rw [htext, String.toList_append, toList_toString_nat, decide_eq_true (Int.negSucc_lt_zero n)]
    rfl

/-- What a user may write for a value, and looks as the value is displayed. -/
theorem exists_displayed {source : ValueSource} (h : source.Writable) :
    ∃ l : Lexeme, l.WellFormed ∧ l.written = source.text.toList ∧ [l] ∈ written source := by
  cases source with
  | parameter n =>
    refine ⟨.parameter (Nat.toDigits 10 n), ⟨Nat.toDigits_ne_nil, digits_toDigits n⟩, ?_,
      ⟨_, Numeral.spells_toDigits n, h.1, h.2, rfl⟩⟩
    rw [ValueSource.text, String.toList_append, toList_toString_nat]
    rfl
  | literal v =>
    cases v with
    | null => exact ⟨.word "NULL".toList, by decide, rfl, _, rfl, rfl⟩
    | bool b =>
      cases b with
      | false => exact ⟨.word "false".toList, by decide, rfl, _, rfl, rfl⟩
      | true => exact ⟨.word "true".toList, by decide, rfl, _, rfl, rfl⟩
    | number x =>
      obtain ⟨i, hbound, rfl⟩ := h
      refine ⟨.number (decide (i < 0)) (Nat.toDigits 10 i.natAbs) [],
        ⟨Nat.toDigits_ne_nil, digits_toDigits _, Lexeme.digits_nil⟩, ?_,
        ⟨i, _, hbound, rfl, Numeral.spells_toDigits _, rfl⟩⟩
      rw [ValueSource.text_number, Binary64.text_ofInt hbound, toList_toString_int, Lexeme.written,
        Lexeme.fraction, List.append_nil]
    | text t =>
      refine ⟨.text t.toList, trivial, ?_, rfl⟩
      rw [ValueSource.text, String.toList_ofList]
      rfl
    | timestamp t => exact absurd h not_false
    | id u => exact absurd h not_false

theorem displayed_le_written {source : ValueSource} (h : source.Writable) :
    displayed source ≤ written source := by
  rintro _ ⟨l, hwell, hwritten, rfl⟩
  obtain ⟨k, hk, hlooks, hmem⟩ := exists_displayed h
  rwa [Lexeme.eq_of_written_eq hwell hk (hwritten.trans hlooks.symm)]

theorem writes_displayed {source : ValueSource} (h : source.Writable) :
    Writes (displayed source) := by
  obtain ⟨l, hwell, hwritten, -⟩ := exists_displayed h
  exact writes_singleton hwell ⟨l, hwell, hwritten, rfl⟩

end Values

section Monotone

variable {V W : ValueSource → Tokens} {α : Type} {separator : Tokens} {f g : α → Tokens}

theorem followers_le {as : List α} (h : ∀ a ∈ as, f a ≤ g a) :
    followers separator f as ≤ followers separator g as := by
  induction as with
  | nil => exact le_rfl
  | cons a more ih =>
    obtain ⟨ha, hmore⟩ := List.forall_mem_cons.mp h
    exact mul_le_mul' le_rfl (mul_le_mul' ha (ih hmore))

theorem separated_le {as : List α} (h : ∀ a ∈ as, f a ≤ g a) :
    separated separator f as ≤ separated separator g as := by
  cases as with
  | nil => exact le_rfl
  | cons a more =>
    obtain ⟨ha, hmore⟩ := List.forall_mem_cons.mp h
    exact mul_le_mul' ha (followers_le hmore)

theorem condition_le {p : Predicate}
    (h : ∀ source, p.operand? = some source → V source ≤ W source) :
    condition V p ≤ condition W p := by
  cases p with
  | isNull | isNotNull | like => exact le_rfl
  | compare field comparison operand =>
    exact mul_le_mul' le_rfl (mul_le_mul' le_rfl (h operand rfl))

theorem whereClause_le {ps : List Predicate}
    (h : ∀ source ∈ ps.filterMap Predicate.operand?, V source ≤ W source) :
    whereClause V ps ≤ whereClause W ps := by
  cases ps with
  | nil => exact le_rfl
  | cons p more =>
    refine mul_le_mul' le_rfl (separated_le fun q hq => condition_le fun source hsource => ?_)
    exact h source (List.mem_filterMap.mpr ⟨q, hq, hsource⟩)

/-- A statement is written with what its values are written with. -/
theorem statement_le {s : Statement} (h : ∀ source ∈ s.sources, V source ≤ W source) :
    statement V s ≤ statement W s := by
  cases s with
  | select s =>
    have hwhere := whereClause_le h
    simp only [statement, select]
    gcongr
  | insert s =>
    have hvalues : commaList V (s.fields.map (·.2)) ≤ commaList W (s.fields.map (·.2)) :=
      separated_le h
    simp only [statement, insert, parenthesized]
    gcongr
  | update s =>
    have hassignments : commaList (assignment V) s.assignments ≤
        commaList (assignment W) s.assignments := by
      refine separated_le fun a ha => mul_le_mul' le_rfl (mul_le_mul' le_rfl ?_)
      exact h a.2 (List.mem_append_left _ (List.mem_map_of_mem ha))
    have hwhere : whereClause V s.predicates ≤ whereClause W s.predicates :=
      whereClause_le fun source hsource => h source (List.mem_append_right _ hsource)
    simp only [statement, update]
    gcongr
  | delete s =>
    have hwhere := whereClause_le h
    simp only [statement, delete]
    gcongr
  | createTable | createIndex | alterTable | inert | unsupported => exact le_rfl

end Monotone

end Grammar

namespace Statement

/-- The text has the lexemes of the statement, its values as they are displayed. -/
def DisplayedAs (s : Statement) (text : String) : Prop :=
  ∃ ls ∈ Grammar.statement Grammar.displayed s, Laid ls (Text.trim text.toList)

/-- With names between quotes and a blank between any two lexemes there is such a text. -/
theorem exists_displayedAs {s : Statement} (h : s.Writable) : ∃ text, s.DisplayedAs text := by
  obtain ⟨ls, hls, hwell⟩ := Grammar.writes_statement (fun _ => Grammar.writes_displayed) h
  have hspaced := spaced_withBlanks (ne_nil_of_mem hls) hwell
  refine ⟨String.ofList (withBlanks ls), ls, hls, ?_⟩
  rw [String.toList_ofList, hspaced.trim]
  exact hspaced.laid

theorem parse_displayedAs {s : Statement} (h : ∀ source ∈ s.sources, source.Writable)
    {text : String} (htext : s.DisplayedAs text) (moment : Moment) :
    parse moment text = .ok s := by
  obtain ⟨ls, hls, hlaid⟩ := htext
  have hwritten := Grammar.statement_le (fun source hsource =>
    Grammar.displayed_le_written (h source hsource)) hls
  exact Grammar.ofTrimmed_of_laid moment hwritten hlaid

end Statement

end DocumentSql
