import DocumentSql.Proofs.Grammar.Displayed
/-
Conditions that are printed and read again. The text of a condition is one of its notations, with a
blank between any two lexemes, so it is read back as the condition; what comes behind a blank stays.
-/

namespace DocumentSql

/-- What may stand for a name without quotes. -/
def IsBareName (n : String) : Prop :=
  (Lexeme.word n.toList).WellFormed ∧ Token.isReserved n.toList = false

instance (n : String) : Decidable (IsBareName n) := inferInstanceAs (Decidable (_ ∧ _))

namespace Predicate

/-- A condition on a name that needs no quotes, with an operand that its operator allows. -/
structure Printable (p : Predicate) : Prop where
  field : IsBareName p.field
  operand : match p with
    | isNull _ | isNotNull _ => True
    | like _ pattern => pattern.IsPattern
    | compare _ _ operand => operand.Writable

/-- What is said of the field. -/
def testText (p : Predicate) : String :=
  match p.operand? with
  | some source => p.operatorText ++ " " ++ source.text
  | none => p.operatorText

theorem text_eq (p : Predicate) : p.text = p.field ++ " " ++ p.testText := by
  cases p with
  | isNull | isNotNull => rfl
  | like | compare => simp only [text, testText, operand?, String.append_assoc]

end Predicate

section Layout

variable {l : Lexeme} {ls : List Lexeme} {n s : String}

theorem spaced_last (hl : l.WellFormed) (hwritten : l.written = n.toList) :
    Spaced [l] n.toList := hwritten ▸ .last hl

theorem Spaced.print (hl : l.WellFormed) (hwritten : l.written = n.toList)
    (h : Spaced ls s.toList) : Spaced (l :: ls) (n ++ " " ++ s).toList := by
  rw [String.toList_append, String.toList_append, ← hwritten, List.append_assoc]
  exact .cons hl (.blank rfl) h

theorem Lexeme.ends_of_blank {rest : List Char}
    (hrest : ∀ c ∈ rest.head?, Text.isBlank c = true) (l : Lexeme) : l.Ends rest := by
  cases rest with
  | nil => exact l.ends_nil
  | cons c rest => exact (Gap.blank (hrest c rfl)).ends l rest

end Layout

namespace Grammar

theorem cons_mem_keywords {w kw : String} {kws : List String} {ls : List Lexeme}
    (hword : Text.lower w.toList = kw.toList) (hls : ls ∈ keywords kws) :
    .word w.toList :: ls ∈ keywords (kw :: kws) := by
  have hfirst : [.word w.toList] ∈ keyword kw := ⟨_, hword, rfl⟩
  rw [keywords, List.map_cons, List.prod_cons]
  exact Language.append_mem_mul hfirst hls

theorem exists_displayed_pattern {source : ValueSource} (h : source.IsPattern) :
    ∃ l : Lexeme, l.WellFormed ∧ l.written = source.text.toList ∧ [l] ∈ pattern source := by
  cases source with
  | parameter n =>
    have hwritable : (ValueSource.parameter n).Writable := h
    exact exists_displayed hwritable
  | literal v =>
    cases v with
    | text t =>
      have hwritable : (ValueSource.literal (.text t)).Writable := trivial
      exact exists_displayed hwritable
    | null | bool | number | timestamp | id => exact absurd h not_false

/-- The symbol that is printed is one of those that are read. -/
theorem text_mem_marks (c : Comparison) : c.text ∈ c.marks := by
  cases c <;> exact List.mem_cons_self

/-- The text of a condition is one of its notations. -/
theorem exists_printed {p : Predicate} (h : p.Printable) :
    ∃ ls ∈ condition written p, Spaced ls p.text.toList := by
  obtain ⟨hfield, hoperand⟩ := h
  rw [p.text_eq]
  have hname : [.word p.field.toList] ∈ name p.field :=
    ⟨.word p.field.toList, ⟨rfl, hfield.2⟩, rfl⟩
  cases p with
  | isNull field =>
    have htest : Spaced [.word "IS".toList, .word "NULL".toList]
        ("IS" ++ " " ++ "NULL").toList :=
      .print (by decide) rfl (spaced_last (by decide) rfl)
    have hmem : [.word "IS".toList, .word "NULL".toList] ∈ keywords ["is", "null"] :=
      cons_mem_keywords rfl (cons_mem_keywords rfl Language.nil_mem_one)
    exact ⟨_, Language.append_mem_mul hname hmem, htest.print hfield.1 rfl⟩
  | isNotNull field =>
    have htest : Spaced [.word "IS".toList, .word "NOT".toList, .word "NULL".toList]
        ("IS" ++ " " ++ ("NOT" ++ " " ++ "NULL")).toList :=
      .print (by decide) rfl (.print (by decide) rfl (spaced_last (by decide) rfl))
    have hmem : [.word "IS".toList, .word "NOT".toList, .word "NULL".toList] ∈
        keywords ["is", "not", "null"] :=
      cons_mem_keywords rfl (cons_mem_keywords rfl (cons_mem_keywords rfl Language.nil_mem_one))
    exact ⟨_, Language.append_mem_mul hname hmem, htest.print hfield.1 rfl⟩
  | like field source =>
    obtain ⟨l, hl, hwritten, hmem⟩ := exists_displayed_pattern hoperand
    have htest : Spaced [.word "LIKE".toList, l] ("LIKE" ++ " " ++ source.text).toList :=
      .print (by decide) rfl (spaced_last hl hwritten)
    have hlike : [.word "LIKE".toList] ∈ keyword "like" + keyword "ilike" := .inl ⟨_, rfl, rfl⟩
    exact ⟨_, Language.append_mem_mul hname (Language.append_mem_mul hlike hmem),
      htest.print hfield.1 rfl⟩
  | compare field c operand =>
    obtain ⟨l, hl, hwritten, hmem⟩ := exists_displayed hoperand
    have hmark : [.symbol c.text] ∈ comparison c := ⟨_, text_mem_marks c, rfl⟩
    have htest : Spaced [.symbol c.text, l] (c.text ++ " " ++ operand.text).toList :=
      .print (Token.mem_signs_of_mem_marks (text_mem_marks c)) rfl (spaced_last hl hwritten)
    exact ⟨_, Language.append_mem_mul hname (Language.append_mem_mul hmark hmem),
      htest.print hfield.1 rfl⟩

end Grammar

namespace Predicate

/-- A printed condition is read back as it was, whatever its texts hold, and nothing of what follows
behind a blank is read with it. -/
theorem condition_text (moment : Moment) {p : Predicate} (h : p.Printable) {rest : List Char}
    (hrest : ∀ c ∈ rest.head?, Text.isBlank c = true) :
    Token.condition moment (p.text.toList ++ rest) = some (p, rest) := by
  obtain ⟨ls, hls, hspaced⟩ := Grammar.exists_printed h
  exact Grammar.takes_condition moment p ls hls _ rest (hspaced.lays (Lexeme.ends_of_blank hrest))

/-- A text with quotes, a line break, a comment mark and a keyword, in front of more conditions. -/
theorem condition_text_note :
    let p : Predicate := .compare "note" .ne (.literal (.text "it's --\n' AND \"x\" IS NULL"))
    let rest := '\n' :: "AND age > $1".toList
    let moment := Moment.series ⟨0⟩ 0 0
    p.text = "note != 'it''s --\n'' AND \"x\" IS NULL'" ∧
    Token.condition moment (p.text.toList ++ rest) = some (p, rest) := by
  intro p rest moment
  have hprintable : p.Printable := ⟨by decide, trivial⟩
  have hrest : ∀ c ∈ rest.head?, Text.isBlank c = true := by
    intro c hc
    obtain rfl := Option.some.inj hc
    rfl
  exact ⟨by decide, condition_text _ hprintable hrest⟩

end Predicate

end DocumentSql
