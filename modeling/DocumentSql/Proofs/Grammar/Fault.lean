import DocumentSql.Proofs.Grammar.Definition
/-
Where a text is refused. Whatever a reader has taken, what it leaves is an end of the whole text; so
an error names a place between two characters of the text, where no gap begins, and shows what comes
next there.
-/

namespace DocumentSql

namespace ParseError

/-- What comes next, as the reason of an error shows it. -/
def next (rest : List Char) : String :=
  if rest.isEmpty then "end of input" else "'" ++ String.ofList (rest.take 24) ++ "'"

/-- The place behind a part of the text, and in front of the rest. -/
structure At (e : ParseError) (before rest : List Char) : Prop where
  position : e.position = Text.byteLength before
  noGap : ∀ t, Skip rest t → t = rest
  reason : ∃ what, e.reason = what ++ (" near " ++ next rest)

namespace At

variable {e : ParseError} {before rest : List Char}

theorem shows (h : e.At before rest) (hrest : rest ≠ []) :
    ∃ what, e.reason = what ++ ("near '" ++ String.ofList (rest.take 24) ++ "'") := by
  obtain ⟨what, hreason⟩ := h.reason
  refine ⟨what ++ " ", ?_⟩
  rw [hreason, next, if_neg (by simpa using hrest)]
  simp only [← String.toList_inj, String.toList_append]
  simp

/-- A text that is shown ends in a quote. -/
theorem ends_iff (h : e.At before rest) :
    (∃ what, e.reason = what ++ "near end of input") ↔ rest = [] := by
  constructor
  · rintro ⟨what, hends⟩
    by_contra hrest
    obtain ⟨other, hshows⟩ := h.shows hrest
    have hlast := congrArg (fun s : String => s.toList.getLast?) (hends.symm.trans hshows)
    simp [List.getLast?_cons] at hlast
  · rintro rfl
    obtain ⟨what, hreason⟩ := h.reason
    refine ⟨what ++ " ", hreason.trans ?_⟩
    rw [String.append_assoc]
    rfl

end At

def PointsInto (e : ParseError) (full : List Char) : Prop :=
  ∃ before rest, full = before ++ rest ∧ e.At before rest

theorem faultAt_pointsInto {full s : List Char} (h : s <:+ full) (reason : String) :
    (faultAt full s reason).PointsInto full := by
  obtain ⟨before, hfull⟩ := (Token.skip_skipGap s).suffix.trans h
  have hlength := congrArg Text.byteLength hfull
  rw [Text.byteLength_append] at hlength
  have hposition : (faultAt full s reason).position = Text.byteLength before :=
    Nat.sub_eq_of_eq_add hlength.symm
  have hreason : (faultAt full s reason).reason =
      reason ++ (" near " ++ next (Token.skipGap s)) := String.append_assoc
  exact ⟨before, Token.skipGap s, hfull.symm, hposition, fun t => Token.eq_of_skip_skipGap,
    reason, hreason⟩

end ParseError

open Token Grammar

/-- A reader of the text that fails points into it. -/
def Sited {α : Type} (full : List Char) (read : Parse α) : Prop :=
  ∀ e, read = .error e → e.PointsInto full

section Combinations

variable {α β : Type} {full s : List Char}

theorem sited_ok (a : α) : Sited full (.ok a) := nofun

theorem sited_fault (hs : s <:+ full) (reason : String) :
    Sited full (.error (.faultAt full s reason) : Parse α) := by
  rintro e h
  obtain rfl := Except.error.inj h
  exact ParseError.faultAt_pointsInto hs reason

theorem Sited.bind {read : Parse α} {f : α → Parse β} (h : Sited full read)
    (hf : ∀ a, read = .ok a → Sited full (f a)) : Sited full (read >>= f) := by
  cases read with
  | error e =>
    rintro e' he
    cases he
    exact h e rfl
  | ok a => exact hf a rfl

theorem Sited.map {read : Parse α} (h : Sited full read) (f : α → β) :
    Sited full (read.map f) := by
  cases read with
  | error e =>
    rintro e' he
    cases he
    exact h e rfl
  | ok a => exact sited_ok _

/-- A clause leaves an end of the text for what comes next. -/
theorem Sited.andThen {L : α → Tokens} {read : Parse (α × List Char)}
    {f : α × List Char → Parse β} (h : Sited full read)
    (hread : ∀ a rest, read = .ok (a, rest) → Spans (L a) s rest) (hs : s <:+ full)
    (hf : ∀ a rest, rest <:+ full → Sited full (f (a, rest))) : Sited full (read >>= f) :=
  h.bind fun (a, rest) hok => hf a rest ((hread a rest hok).suffix.trans hs)

theorem sited_expect {reader : Reader α} (hs : s <:+ full) (what : String) :
    Sited full (expect full s reader what) := by
  unfold expect
  cases reader s with
  | none => exact sited_fault hs _
  | some read => exact sited_ok read

theorem Grammar.Sound.sited {reader : Reader α} {L : α → Tokens} {f : α × List Char → Parse β}
    (hreader : Sound reader L) (hs : s <:+ full) {what : String}
    (hf : ∀ a rest, rest <:+ full → Sited full (f (a, rest))) :
    Sited full (Token.expect full s reader what >>= f) :=
  (sited_expect hs what).andThen (fun _ _ hok => hreader.expect hok) hs hf

theorem sited_expectText {reader : List Char → Option (List Char)} {L : Tokens}
    {f : List Char → Parse β} (hreader : ∀ rest, reader s = some rest → Spans L s rest)
    (hs : s <:+ full) {what : String} (hf : ∀ rest, rest <:+ full → Sited full (f rest)) :
    Sited full (expectText full s reader what >>= f) := by
  unfold expectText
  cases hread : reader s with
  | none => exact sited_fault hs _
  | some rest => exact hf rest ((hreader rest hread).suffix.trans hs)

theorem sited_keyword {kw : String} (hkw : Lowercase kw) {f : List Char → Parse β}
    (hs : s <:+ full) {what : String} (hf : ∀ rest, rest <:+ full → Sited full (f rest)) :
    Sited full (expectText full s (Token.keyword kw) what >>= f) :=
  sited_expectText (fun _ => spans_keyword hkw) hs hf

theorem sited_keywords {kws : List String} (hkws : ∀ kw ∈ kws, Lowercase kw)
    {f : List Char → Parse β} (hs : s <:+ full) {what : String}
    (hf : ∀ rest, rest <:+ full → Sited full (f rest)) :
    Sited full (expectText full s (Token.keywords kws) what >>= f) :=
  sited_expectText (fun _ => spans_keywords hkws) hs hf

end Combinations

section Clauses

variable {moment : Moment} {full s : List Char}

theorem suffix_optional {reader : List Char → Option (List Char)} {L : Tokens}
    (hreader : ∀ rest, reader s = some rest → Spans L s rest) (hs : s <:+ full) :
    (Token.optional reader s).2 <:+ full :=
  (spans_optional hreader rfl).suffix.trans hs

theorem sited_endOfStatement (hs : s <:+ full) : Sited full (endOfStatement full s) := by
  have hrest : (Token.optional (Token.symbol ";") s).2 <:+ full :=
    suffix_optional (fun _ => spans_symbol (by decide)) hs
  unfold endOfStatement
  dsimp only
  split
  · exact sited_ok ()
  · exact sited_fault ((skip_skipGap _).suffix.trans hrest) _

theorem sited_conditions (hs : s <:+ full) (bound : Nat) (first : Bool) :
    Sited full (Token.conditions moment full bound first s) := by
  induction bound generalizing s first with
  | zero => exact sited_fault hs _
  | succ bound ih =>
    rw [Token.conditions]
    split
    · exact sited_fault hs _
    · next p rest hcondition =>
      have hrest := (sound_condition moment s p rest hcondition).suffix.trans hs
      split
      · next afterAnd hand =>
        have hmore := ih ((spans_keyword (by decide) hand).suffix.trans hrest) false
        split
        · exact sited_ok _
        · next e hread =>
          rintro e' he
          exact hmore e' (hread.trans (congrArg _ (Except.error.inj he)))
      · split
        · exact sited_fault hrest _
        · exact sited_ok _

theorem sited_whereClause (hs : s <:+ full) : Sited full (Token.whereClause moment full s) := by
  unfold Token.whereClause
  split
  · exact sited_ok _
  · next rest hwhere =>
    exact sited_conditions ((spans_keyword (by decide) hwhere).suffix.trans hs) _ true

theorem sited_readOrder (hs : s <:+ full) : Sited full (Select.readOrder full s) := by
  unfold Select.readOrder
  split
  · exact sited_ok _
  · next rest hwords =>
    have hrest := (spans_keywords (by decide) hwords).suffix.trans hs
    exact sound_identifier.sited hrest fun field rest _ => sited_ok _

theorem sited_readCount {kw what : String} (hkw : Lowercase kw) (given : Option Nat)
    (hs : s <:+ full) : Sited full (Select.readCount full kw what given s) := by
  unfold Select.readCount
  split
  · next rest hread =>
    have hrest := (spans_keyword hkw hread).suffix.trans hs
    exact (sited_expect hrest what).bind fun read _ => sited_ok _
  · exact sited_ok _

theorem sited_readPage (bound : Nat) (limit offset : Option Nat) (hs : s <:+ full) :
    Sited full (Select.readPage full bound limit offset s) := by
  induction bound generalizing limit offset s with
  | zero => exact sited_ok _
  | succ bound ih =>
    rw [Select.readPage]
    refine (sited_readCount (by decide) limit hs).bind fun read hlimit => ?_
    cases read with
    | some read =>
      obtain ⟨n, rest⟩ := read
      exact ih _ _ ((spans_readCount (by decide) hlimit).2.suffix.trans hs)
    | none =>
      refine (sited_readCount (by decide) offset hs).bind fun read hoffset => ?_
      cases read with
      | some read =>
        obtain ⟨n, rest⟩ := read
        exact ih _ _ ((spans_readCount (by decide) hoffset).2.suffix.trans hs)
      | none => exact sited_ok _

theorem sited_readReturning (hs : s <:+ full) : Sited full (Insert.readReturning full s) := by
  unfold Insert.readReturning
  split
  · exact sited_ok _
  · next rest hreturning =>
    have hrest := (spans_keyword (by decide) hreturning).suffix.trans hs
    exact sound_projection.sited hrest fun columns rest _ => sited_ok _

theorem sited_assignmentList (bound : Nat) (hs : s <:+ full) :
    Sited full (Update.assignmentList moment full bound s) := by
  induction bound generalizing s with
  | zero => exact sited_ok _
  | succ bound ih =>
    rw [Update.assignmentList]
    refine (sound_assignment moment).sited hs fun first rest hrest => ?_
    dsimp only
    split
    · exact sited_ok _
    · next afterComma hcomma =>
      have hafter := (spans_symbol (by decide) hcomma).suffix.trans hrest
      exact (ih hafter).bind fun more _ => sited_ok _

end Clauses

section Statements

variable {moment : Moment} {full : List Char}

theorem sited_select : Sited full (Select.read moment full) := by
  unfold Select.read
  refine sited_keyword (by decide) List.suffix_rfl fun s hs => ?_
  refine sound_projection.sited hs fun projection s hs => ?_
  refine sited_keyword (by decide) hs fun s hs => ?_
  refine sound_identifier.sited hs fun collection s hs => ?_
  refine (sited_whereClause hs).andThen (fun _ _ => spans_whereClause) hs fun predicates s hs => ?_
  refine (sited_readOrder hs).andThen (fun _ _ => spans_readOrder) hs fun orderBy s hs => ?_
  refine (sited_readPage 2 none none hs).bind fun (limit, offset, rest) hpage => ?_
  have hrest := (spans_readPage hpage).suffix.trans hs
  exact (sited_endOfStatement hrest).bind fun _ _ => sited_ok _

theorem sited_insert : Sited full (Insert.read moment full) := by
  unfold Insert.read
  refine sited_keywords (by decide) List.suffix_rfl fun s hs => ?_
  refine sound_identifier.sited hs fun collection s hs => ?_
  refine (sound_parenthesized (sound_commaList sound_identifier)).sited hs fun columns s hs => ?_
  refine sited_keyword (by decide) hs fun beforeValues hbefore => ?_
  have hvalue := sound_value moment
  refine (sound_parenthesized (sound_commaList hvalue)).sited hbefore fun values s hs => ?_
  dsimp only
  split
  · exact sited_fault hbefore _
  · refine (sited_readReturning hs).andThen (fun _ _ => spans_readReturning) hs
      fun returning s hs => ?_
    exact (sited_endOfStatement hs).bind fun _ _ => sited_ok _

theorem sited_update : Sited full (Update.read moment full) := by
  unfold Update.read
  refine sited_keyword (by decide) List.suffix_rfl fun s hs => ?_
  refine sound_identifier.sited hs fun collection s hs => ?_
  refine sited_keyword (by decide) hs fun s hs => ?_
  refine (sited_assignmentList _ hs).andThen
    (fun _ _ hread => (spans_assignmentList (Nat.lt_succ_self _) hread).2) hs
    fun assignments s hs => ?_
  refine (sited_whereClause hs).andThen (fun _ _ => spans_whereClause) hs fun predicates s hs => ?_
  exact (sited_endOfStatement hs).bind fun _ _ => sited_ok _

theorem sited_delete : Sited full (Delete.read moment full) := by
  unfold Delete.read
  refine sited_keywords (by decide) List.suffix_rfl fun s hs => ?_
  refine sound_identifier.sited hs fun collection s hs => ?_
  refine (sited_whereClause hs).andThen (fun _ _ => spans_whereClause) hs fun predicates s hs => ?_
  exact (sited_endOfStatement hs).bind fun _ _ => sited_ok _

theorem suffix_skipColumns (s : List Char) : CreateTable.skipColumns s <:+ s := by
  unfold CreateTable.skipColumns
  split
  · next body rest hblock =>
    have hafter : rest <:+ '(' :: (body ++ ')' :: rest) := ⟨'(' :: (body ++ [')']), by simp⟩
    exact hafter.trans (Token.balancedParens_eq_some_iff.mp hblock).1.suffix
  · exact List.suffix_rfl

theorem sited_createTable : Sited full (CreateTable.read full) := by
  unfold CreateTable.read
  refine sited_keywords (by decide) List.suffix_rfl fun s hs => ?_
  refine sound_identifier.sited (suffix_optional (fun _ => spans_keywords (by decide)) hs)
    fun collection s hs => ?_
  exact (sited_endOfStatement ((suffix_skipColumns s).trans hs)).bind fun _ _ => sited_ok _

theorem suffix_readName (s : List Char) : (CreateIndex.readName s).2 <:+ s := by
  unfold CreateIndex.readName
  split
  · next name rest hread => exact (sound_identifier s name rest hread).suffix
  · exact List.suffix_rfl

theorem sited_createIndex : Sited full (CreateIndex.read full) := by
  unfold CreateIndex.read
  refine sited_keyword (by decide) List.suffix_rfl fun s hs => ?_
  refine sited_keyword (by decide) (suffix_optional (fun _ => spans_keyword (by decide)) hs)
    fun s hs => ?_
  have hname : (Token.optional (Token.keywords ["if", "not", "exists"]) s).2 <:+ full :=
    suffix_optional (fun _ => spans_keywords (by decide)) hs
  refine sited_keyword (by decide) ((suffix_readName _).trans hname) fun s hs => ?_
  refine sound_identifier.sited hs fun collection s hs => ?_
  refine sound_columns.sited ((spans_skipMethod s).suffix.trans hs) fun fields s hs => ?_
  exact (sited_endOfStatement hs).bind fun _ _ => sited_ok _

theorem sited_alterTable : Sited full (AlterTable.read full) := by
  unfold AlterTable.read
  refine sited_keywords (by decide) List.suffix_rfl fun s hs => ?_
  have hexists : (Token.optional (Token.keywords ["if", "exists"]) s).2 <:+ full :=
    suffix_optional (fun _ => spans_keywords (by decide)) hs
  have honly : (Token.optional (Token.keyword "only") _).2 <:+ full :=
    suffix_optional (fun _ => spans_keyword (by decide)) hexists
  exact sound_identifier.sited honly fun collection _ _ => sited_ok _

theorem sited_ofTrimmed : Sited full (Statement.ofTrimmed moment full) := by
  unfold Statement.ofTrimmed
  cases StatementKind.ofText full with
  | select => exact sited_select.map _
  | insert => exact sited_insert.map _
  | update => exact sited_update.map _
  | delete => exact sited_delete.map _
  | createTable => exact sited_createTable.map _
  | createIndex => exact sited_createIndex.map _
  | alterTable => exact sited_alterTable.map _
  | inert kind => exact sited_ok _
  | unsupported => exact sited_ok _

end Statements

namespace Statement

/-- Every error of a text points into it. The position is a number of bytes; nothing is skipped at
the place, and what comes next there is in the reason. -/
theorem parse_error_points_into {moment : Moment} {text : String} {e : ParseError}
    (h : parse moment text = .error e) :
    ∃ before rest, Text.trim text.toList = before ++ rest ∧
      e.position = Text.byteLength before ∧
      e.position ≤ Text.byteLength (Text.trim text.toList) ∧
      (∀ t, Skip rest t → t = rest) ∧
      ((∃ what, e.reason = what ++ "near end of input") ↔ rest = []) ∧
      (rest ≠ [] →
        ∃ what, e.reason = what ++ ("near '" ++ String.ofList (rest.take 24) ++ "'")) := by
  obtain ⟨before, rest, hfull, hat⟩ := sited_ofTrimmed e h
  have hbound : e.position ≤ Text.byteLength (Text.trim text.toList) := by
    rw [hfull, Text.byteLength_append, hat.position]
    exact Nat.le_add_right _ _
  exact ⟨before, rest, hfull, hat.position, hbound, hat.noGap, hat.ends_iff, hat.shows⟩

theorem parse_error_points_into_select :
    let moment := Moment.series ⟨0⟩ 0 0
    let text := "SELECT * FROM -- users\n WHERE id = 1"
    let e : ParseError := ⟨24, "expected collection name after FROM near 'WHERE id = 1'"⟩
    parse moment text = .error e ∧ ∃ before rest, Text.trim text.toList = before ++ rest ∧
      e.position = Text.byteLength before ∧
      (rest ≠ [] →
        ∃ what, e.reason = what ++ ("near '" ++ String.ofList (rest.take 24) ++ "'")) := by
  intro moment text e
  have h : parse moment text = .error e := by decide +kernel
  obtain ⟨before, rest, hfull, hposition, -, -, -, hshows⟩ := parse_error_points_into h
  exact ⟨h, before, rest, hfull, hposition, hshows⟩

end Statement

end DocumentSql
