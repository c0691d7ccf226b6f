import DocumentSql.Proofs.Grammar.Definition
import DocumentSql.Proofs.Grammar.Writable
import DocumentSql.Proofs.Relational.Quoting
/-
Comments among the columns of a table. Readers skip comments as they skip blanks, but the columns
are passed over by a scan of their own, in which a comment is text like any other: its quotes open
and close, and its parentheses count. So a comment may stand for a blank there if it is balanced.
-/

namespace DocumentSql

/-- The place behind a stretch of text. -/
def Place.behind : Place → List Char → List Char → Place
  | place, [], _ => place
  | place, c :: s, rest => Place.behind (place.after c (s ++ rest)) s rest

/-- A comment with the end of its line. -/
def commentLine (text : List Char) : List Char := '-' :: '-' :: (text ++ ['\n'])

namespace Nesting

variable {c : Char}

theorem step_plain (n : Nesting) (hquote : c ≠ '\'') (hopen : c ≠ '(') (hclose : c ≠ ')') :
    n.step c = some n := by
  obtain ⟨depth, quoted⟩ := n
  cases quoted with
  | true => exact (Step.hidden depth hquote).step_eq
  | false => exact (Step.plain depth hquote hopen hclose).step_eq

theorem along_plain (n : Nesting) (hquote : c ≠ '\'') (hopen : c ≠ '(') (hclose : c ≠ ')')
    (s : List Char) : n.along (c :: s) = n.along s := by
  rw [along, List.foldlM_cons, step_plain n hquote hopen hclose]
  rfl

theorem along_blank (n : Nesting) (hc : Text.isBlank c = true) (s : List Char) :
    n.along (c :: s) = n.along s := by
  obtain rfl | rfl | rfl | rfl := Text.isBlank_iff.mp hc
  all_goals exact n.along_plain (by decide) (by decide) (by decide) s

/-- The dashes and the line break of a comment do not count. -/
theorem along_commentLine (n : Nesting) (text : List Char) :
    n.along (commentLine text) = n.along text := by
  rw [commentLine, n.along_plain (by decide) (by decide) (by decide),
    n.along_plain (by decide) (by decide) (by decide)]
  refine Option.ext fun last => ?_
  rw [along_append_eq_some_iff]
  have hbreak : ∀ m : Nesting, m.along ['\n'] = some m := fun m =>
    m.along_plain (by decide) (by decide) (by decide) []
  simp only [hbreak, Option.some.injEq, exists_eq_right]

end Nesting

open Nesting (oddQuotes outermost)

theorem balanced_enclosed_commentLine {quoted : Bool} {text : List Char} :
    Balanced (enclosed quoted (commentLine text)) ↔ Balanced (enclosed quoted text) := by
  rw [balanced_enclosed_iff, balanced_enclosed_iff, Nesting.along_commentLine]

theorem Balanced.without_blank {c : Char} {l r : List Char} (h : Balanced (l ++ c :: r))
    (hc : Text.isBlank c = true) : Balanced (l ++ r) := by
  obtain ⟨n, hl, hr⟩ := Nesting.along_append_eq_some_iff.mp (balanced_iff.mp h)
  rw [n.along_blank hc] at hr
  exact balanced_iff.mpr (Nesting.along_append_eq_some_iff.mpr ⟨n, hl, hr⟩)

namespace CreateTable

/-- The text of a definition, cut at the parentheses around its columns. -/
structure Lists (t : CreateTable) (text front columns back : List Char) : Prop where
  text_eq : text = front ++ '(' :: (columns ++ ')' :: back)
  head : ∃ ls ∈ Grammar.tableHead t, ∃ s, Lays ls text s ∧ Skip s ('(' :: (columns ++ ')' :: back))
  balanced : Balanced columns

variable {t : CreateTable} {text front columns back : List Char}

/-- A definition that lists columns can be cut there. -/
theorem exists_lists (h : CreateTable.read text = .ok t) :
    (∃ front columns back, t.Lists text front columns back) ∨
      Grammar.Covers (Grammar.tableHead t * Grammar.ending) text := by
  obtain ⟨ls, hls, s, hlays, htail⟩ := Grammar.read_createTable_iff.mp h
  cases htail with
  | ending hend =>
    obtain ⟨ms, hms, hlaid⟩ := hend
    exact .inr ⟨ls ++ ms, Language.append_mem_mul hls hms, laid_append.mpr ⟨s, hlays, hlaid⟩⟩
  | columns hskip hcolumns hend =>
    obtain ⟨front, hfront⟩ := hskip.suffix.trans hlays.suffix
    exact .inl ⟨front, _, _, hfront.symm, ⟨ls, hls, s, hlays, hskip⟩, hcolumns⟩

/-- What comes behind the first parenthesis has no part in the head. -/
theorem Lists.head_of (h : t.Lists text front columns back) (rest : List Char) :
    ∃ ls ∈ Grammar.tableHead t, ∃ s, Lays ls (front ++ '(' :: rest) s ∧ Skip s ('(' :: rest) := by
  obtain ⟨ls, hls, s, hlays, hskip⟩ := h.head
  obtain ⟨between, hbetween⟩ := hskip.suffix
  have hopen : '(' :: (columns ++ ')' :: back) = [] ++ '(' :: (columns ++ ')' :: back) := rfl
  have hhead := hlays.replace (by decide) (by decide) h.text_eq hbetween.symm rest
  exact ⟨ls, hls, _, hhead, hskip.replace (by decide) hbetween.symm hopen rest⟩

/-- The columns can be any that are balanced. -/
theorem Lists.replace {other : List Char} (h : t.Lists text front columns back)
    (hother : Balanced other) :
    t.Lists (front ++ '(' :: (other ++ ')' :: back)) front other back :=
  ⟨rfl, h.head_of _, hother⟩

theorem eq_of_skip {s rest other : List Char} (h : Skip s ('(' :: rest))
    (h' : Skip s ('(' :: other)) : rest = other := by
  have hgap : '(' :: rest = '(' :: other :=
    (Token.skipGap_of_skip h).symm.trans (Token.skipGap_of_skip h')
  exact (List.cons.inj hgap).2

/-- The text is accepted just if nothing but the end comes behind the columns. -/
theorem Lists.read_iff (h : t.Lists text front columns back) :
    CreateTable.read text = .ok t ↔ Grammar.Covers Grammar.ending back := by
  obtain ⟨ls, hls, s, hlays, hskip⟩ := h.head
  rw [Grammar.read_createTable_of_head hls hlays (Grammar.keyword_not_eq_none hskip)]
  constructor
  · intro htail
    cases htail with
    | ending hend => exact absurd hend (Grammar.not_covers_ending hskip)
    | columns hskip' hcolumns' hend =>
      have hblock := Token.balancedParens_eq_some_iff.mpr ⟨hskip, h.balanced⟩
      have hblock' := Token.balancedParens_eq_some_iff.mpr ⟨hskip', hcolumns'⟩
      obtain ⟨-, rfl⟩ := Prod.mk.inj (Option.some.inj (hblock.symm.trans hblock'))
      exact hend
  · exact fun hend => .columns hskip h.balanced hend

/-- A block that is closed too early leaves a line that does not end the statement. -/
theorem not_covers_ending_of_line {c : Char} (hblank : Text.isBlank c = false) (hdash : c ≠ '-')
    (hsemicolon : c ≠ ';') (rest : List Char) :
    ¬Grammar.Covers Grammar.ending (front ++ '\n' :: c :: rest) := by
  have hstays : ∀ {front : List Char}, ¬Skip (front ++ '\n' :: c :: rest) [] := by
    intro front h
    obtain h | ⟨between, h⟩ := h.line hblank hdash rfl
    · cases h
    · simp at h
  rintro ⟨ls, hls, hlaid⟩
  obtain rfl | rfl := hls
  · obtain ⟨u, ⟨t, hskip, hat⟩, hend⟩ := laid_cons.mp hlaid
    have ht : t = ';' :: u := hat.written
    obtain h | ⟨between, h⟩ := hskip.line hblank hdash rfl
    · exact hsemicolon (List.cons.inj (ht.symm.trans h)).1.symm
    · cases between with
      | nil => cases ht.symm.trans h
      | cons d between =>
        obtain ⟨-, rfl⟩ := List.cons.inj (ht.symm.trans h)
        exact hstays (skip_nil_iff.mpr (laid_nil.mp hend))
  · exact hstays (skip_nil_iff.mpr (laid_nil.mp hlaid))

theorem eq_of_append_close {l r rest : List Char} (hl : ')' ∉ l)
    (h : l ++ [')'] = r ++ ')' :: rest) : r = l := by
  obtain ⟨between, rfl, hrest⟩ | ⟨between, rfl, hrest⟩ := List.append_eq_append_iff.mp h
  · cases between with
    | nil => exact List.append_nil l
    | cons d between => simp at hrest
  · cases between with
    | nil => exact (List.append_nil r).symm
    | cons d between =>
      obtain ⟨rfl, -⟩ := List.cons.inj hrest
      simp at hl

/-- A text is accepted only if the whole block is balanced, unless its last line is a gap. -/
theorem Lists.balanced_of_read {line right rest : List Char} {c : Char}
    (h : t.Lists text front columns back) (hright : right ++ [')'] = c :: rest)
    (hblank : Text.isBlank c = false) (hdash : c ≠ '-') (hsemicolon : c ≠ ';')
    (hclose : ')' ∉ right)
    (hread : CreateTable.read (front ++ '(' :: (line ++ '\n' :: (right ++ [')']))) = .ok t) :
    Balanced (line ++ '\n' :: right) := by
  obtain ⟨ls, hls, s, hlays, hskip⟩ := h.head_of (line ++ '\n' :: (right ++ [')']))
  have hnot := Grammar.keyword_not_eq_none hskip
  have htail := (Grammar.read_createTable_of_head hls hlays hnot).mp hread
  cases htail with
  | ending hend => exact absurd hend (Grammar.not_covers_ending hskip)
  | @columns body after hskip' hbody hend =>
    have hblock := eq_of_skip hskip hskip'
    -- The parenthesis that ends the block is the last character, or one in front of the line break.
    obtain ⟨between, rfl, hrest⟩ | ⟨between, rfl, hrest⟩ := List.append_eq_append_iff.mp hblock
    · cases between with
      | nil => simp at hrest
      | cons d between =>
        obtain ⟨rfl, hafter⟩ := List.cons.inj hrest
        rwa [eq_of_append_close hclose hafter] at hbody
    · cases between with
      | nil => simp at hrest
      | cons d between =>
        obtain ⟨-, rfl⟩ := List.cons.inj hrest
        rw [hright] at hend
        exact absurd hend (not_covers_ending_of_line hblank hdash hsemicolon rest)

section Written

/-- A name between double quotes that leaves the scan of a block inside of quotes, or nothing. -/
def quoteName (quoted : Bool) : List Char := if quoted then ['"', '\'', '"'] else []

theorem along_quoteName (quoted : Bool) :
    outermost.along (quoteName quoted) = some ⟨0, quoted⟩ := by
  cases quoted <;> rfl

theorem along_quoteName_back (quoted : Bool) :
    Nesting.along ⟨0, quoted⟩ (quoteName quoted) = some outermost := by
  cases quoted <;> rfl

theorem not_mem_quoteName (quoted : Bool) : ')' ∉ quoteName quoted := by
  cases quoted <;> decide

theorem exists_quoteName_append (quoted : Bool) : ∃ c rest, quoteName quoted ++ [')'] = c :: rest ∧
    Text.isBlank c = false ∧ c ≠ '-' ∧ c ≠ ';' := by
  cases quoted with
  | false => exact ⟨')', [], rfl, rfl, by decide, by decide⟩
  | true => exact ⟨'"', _, rfl, rfl, by decide, by decide⟩

def writtenHead : List Lexeme := [.word "CREATE".toList, .word "TABLE".toList, .word "t".toList]

theorem spaced_writtenHead : Spaced writtenHead (withBlanks writtenHead) :=
  spaced_withBlanks (List.cons_ne_nil _ _) (by decide)

theorem writtenHead_mem : writtenHead ∈ Grammar.tableHead ⟨"t", false⟩ := by
  have hcreate : [.word "CREATE".toList] ∈ Grammar.keyword "create" := ⟨_, rfl, rfl⟩
  have htable : [.word "TABLE".toList] ∈ Grammar.keyword "table" := ⟨_, rfl, rfl⟩
  have hwords := Language.append_mem_mul hcreate
    (Language.append_mem_mul htable (Language.nil_mem_one (α := Lexeme)))
  have hnames : (Lexeme.word "t".toList).Names "t" := ⟨rfl, by decide⟩
  have hname : [.word "t".toList] ∈ Grammar.name "t" := ⟨_, hnames, rfl⟩
  exact Language.append_mem_mul hwords (Language.append_mem_mul Language.nil_mem_one hname)

/-- A definition of a table with these columns. -/
def written (columns : List Char) : List Char :=
  (withBlanks writtenHead ++ [' ']) ++ '(' :: (columns ++ [')'])

theorem trim_written (columns : List Char) : Text.trim (written columns) = written columns := by
  refine Text.trim_eq_self ?_ ?_
  · rw [written, List.append_assoc]
    exact spaced_writtenHead.stops.append (by decide) _
  · have hlast : written columns = (withBlanks writtenHead ++ ' ' :: '(' :: columns) ++ [')'] := by
      simp [written]
    rw [hlast, List.reverse_append]
    rintro c hc
    obtain rfl := Option.some.inj hc
    rfl

theorem lists_written {columns : List Char} (h : Balanced columns) :
    Lists ⟨"t", false⟩ (written columns) (withBlanks writtenHead ++ [' ']) columns [] := by
  have hgap : Gap [' '] := .blank rfl
  have hlays := spaced_writtenHead.lays (hgap.ends · ('(' :: (columns ++ [')'])))
  rw [← List.append_assoc] at hlays
  exact ⟨rfl, ⟨writtenHead, writtenHead_mem, _, hlays, .blank rfl (.done _)⟩, h⟩

/-- Columns with one blank, and what stands in its place on both sides. -/
theorem balanced_quoteName (quoted : Bool) :
    Balanced (quoteName quoted ++ ' ' :: quoteName quoted) := by
  refine balanced_iff.mpr (Nesting.along_append_eq_some_iff.mpr ⟨_, along_quoteName quoted, ?_⟩)
  rw [Nesting.along_blank _ rfl]
  exact along_quoteName_back quoted

theorem parse_written (moment : Moment) {columns : List Char} (h : Balanced columns) :
    Statement.parse moment (String.ofList (written columns)) =
      .ok (.createTable ⟨"t", false⟩) := by
  have hend : Grammar.Covers Grammar.ending [] := ⟨[], .inr rfl, laid_nil.mpr rfl⟩
  rw [Statement.parse, String.toList_ofList, trim_written]
  exact Statement.ofTrimmed_createTable_iff.mpr ((lists_written h).read_iff.mpr hend)

/-- There the comment has no parenthesis of the table to close, nor a quote. -/
theorem balanced_of_read_written {quoted : Bool} {comment : List Char}
    (h : read (written
      (quoteName quoted ++ (commentLine comment ++ quoteName quoted))) = .ok ⟨"t", false⟩) :
    Balanced (enclosed quoted comment) := by
  have hline : (quoteName quoted ++ (commentLine comment ++ quoteName quoted)) ++ [')'] =
      (quoteName quoted ++ '-' :: '-' :: comment) ++ '\n' :: (quoteName quoted ++ [')']) := by
    simp [commentLine]
  rw [written, hline] at h
  obtain ⟨c, rest, hright, hblank, hdash, hsemicolon⟩ := exists_quoteName_append quoted
  have hblock := (lists_written (balanced_quoteName quoted)).balanced_of_read hright hblank hdash
    hsemicolon (not_mem_quoteName quoted) h
  have hinsert : Balanced (quoteName quoted ++ (commentLine comment ++ quoteName quoted)) := by
    simpa [commentLine] using hblock
  exact balanced_enclosed_commentLine.mp
    (hinsert.of_insert (along_quoteName quoted) (along_quoteName_back quoted))

end Written

end CreateTable

namespace Statement

open CreateTable (quoteName written trim_written lists_written parse_written balanced_quoteName
  balanced_of_read_written)

/-- A comment can stand for any blank among the columns of a table, wherever that is outside of
quotes, names and comments, just if the text of the comment is balanced: by itself, or between two
quotes where an odd number of them stands in front of the blank. -/
theorem comment_for_blank_iff (comment : List Char) (quoted : Bool) :
    (∀ (moment : Moment) (text text' : String) (t : CreateTable) (blank : Char)
      (front left right back : List Char),
      parse moment text = .ok (createTable t) →
      t.Lists (Text.trim text.toList) front (left ++ blank :: right) back →
      Text.isBlank blank = true → Place.behind .code left (blank :: right) = .code →
      oddQuotes left = quoted →
      Text.trim text'.toList =
        front ++ '(' :: ((left ++ (commentLine comment ++ right)) ++ ')' :: back) →
      parse moment text' = .ok (createTable t)) ↔
    Balanced (enclosed quoted comment) := by
  constructor
  · intro h
    have hlists := lists_written (balanced_quoteName quoted)
    have hparse := parse_written (.series ⟨0⟩ 0 0) (balanced_quoteName quoted)
    have hplace : Place.behind .code (quoteName quoted) (' ' :: quoteName quoted) = .code := by
      cases quoted <;> rfl
    have hodd : oddQuotes (quoteName quoted) = quoted := by cases quoted <;> rfl
    have htrim : ∀ columns, Text.trim (String.ofList (written columns)).toList =
        written columns := fun columns => by rw [String.toList_ofList, trim_written]
    rw [← htrim] at hlists
    have hread := h _ _ _ _ _ _ _ _ _ hparse hlists rfl hplace hodd (htrim _)
    rw [parse, htrim, ofTrimmed_createTable_iff] at hread
    exact balanced_of_read_written hread
  · rintro hbalanced moment text text' t blank front left right back hparse hlists hblank - rfl
      htext'
    have hend := hlists.read_iff.mp (ofTrimmed_createTable_iff.mp hparse)
    have hcolumns := (hlists.balanced.without_blank hblank).insert
      (balanced_enclosed_commentLine.mpr hbalanced)
    rw [parse, htext', ofTrimmed_createTable_iff]
    exact (hlists.replace hcolumns).read_iff.mpr hend

/-- With an apostrophe in the comment the table is refused. -/
theorem apostrophe_in_comment_refused :
    let moment := Moment.series ⟨0⟩ 0 0
    let text := "CREATE TABLE t (id TEXT, n INT)"
    let text' := "CREATE TABLE t (id TEXT,-- it's a number\nn INT)"
    let comment := " it's a number".toList
    let left := "id TEXT,".toList
    let right := "n INT".toList
    let front := "CREATE TABLE t ".toList
    parse moment text = .ok (createTable ⟨"t", false⟩) ∧
      text.toList = front ++ '(' :: ((left ++ ' ' :: right) ++ [')']) ∧
      Balanced (left ++ ' ' :: right) ∧ Place.behind .code left (' ' :: right) = .code ∧
      InLine comment ∧
      text'.toList = front ++ '(' :: ((left ++ (commentLine comment ++ right)) ++ [')']) ∧
      parse moment text' =
        .error ⟨15, "unexpected trailing content near '(id TEXT,-- it's a numbe'"⟩ := by
  intro moment text text' comment left right front
  exact ⟨by decide +kernel, by decide +kernel, balanced_iff.mpr (by decide +kernel),
    by decide +kernel, by decide +kernel, by decide +kernel, by decide +kernel⟩

end Statement

end DocumentSql
