import DocumentSql.Proofs.Grammar.Written
/-
Trees that a user can write. Each has a text of its own, and any of its texts is read as the tree.
-/

namespace DocumentSql

/-- What may stand between double quotes. -/
def IsName (n : String) : Prop := n.toList ≠ [] ∧ '"' ∉ n.toList

instance (n : String) : Decidable (IsName n) := inferInstanceAs (Decidable (_ ∧ _))

def ValueSource.Writable : ValueSource → Prop
  | .parameter n => 0 < n ∧ n < 2 ^ 32
  | .literal (.number x) => ∃ i : Int, i.natAbs ≤ 2 ^ 53 ∧ x = Binary64.ofInt i
  | .literal (.timestamp _) | .literal (.id _) => False
  | .literal _ => True

/-- What may follow `LIKE`. -/
def ValueSource.IsPattern : ValueSource → Prop
  | .parameter n => 0 < n ∧ n < 2 ^ 32
  | .literal (.text _) => True
  | .literal _ => False

def Predicate.Writable : Predicate → Prop
  | .isNull field | .isNotNull field => IsName field
  | .like field p => IsName field ∧ p.IsPattern
  | .compare field _ operand => IsName field ∧ operand.Writable

structure Select.Writable (s : Select) : Prop where
  projection : ∀ n ∈ s.projection, IsName n
  collection : IsName s.collection
  predicates : ∀ p ∈ s.predicates, p.Writable
  orderBy : ∀ o ∈ s.orderBy, IsName o.field
  limit : ∀ n ∈ s.limit, n < 2 ^ 32
  offset : ∀ n ∈ s.offset, n < 2 ^ 32

structure Insert.Writable (s : Insert) : Prop where
  collection : IsName s.collection
  nonempty : s.fields ≠ []
  fields : ∀ f ∈ s.fields, IsName f.1 ∧ f.2.Writable
  returning : ∀ columns ∈ s.returning, ∀ n ∈ columns, IsName n

structure Update.Writable (s : Update) : Prop where
  collection : IsName s.collection
  nonempty : s.assignments ≠ []
  assignments : ∀ a ∈ s.assignments, IsName a.1 ∧ a.2.Writable
  predicates : ∀ p ∈ s.predicates, p.Writable

structure Delete.Writable (s : Delete) : Prop where
  collection : IsName s.collection
  predicates : ∀ p ∈ s.predicates, p.Writable

/-- An index may go without a name if its name is the default one. -/
structure CreateIndex.Writable (s : CreateIndex) : Prop where
  indexName : IsName s.indexName ∨ s.indexName = CreateIndex.defaultName s.collection s.fields
  collection : IsName s.collection
  nonempty : s.fields ≠ []
  fields : ∀ n ∈ s.fields, IsName n

def Statement.Writable : Statement → Prop
  | .select s => s.Writable
  | .insert s => s.Writable
  | .update s => s.Writable
  | .delete s => s.Writable
  | .createIndex s => s.Writable
  | _ => False

namespace Grammar

/-- Some sequence of the language can stand in a text. -/
def Writes (L : Tokens) : Prop := ∃ ls ∈ L, ∀ l ∈ ls, l.WellFormed

section Combinations

variable {L M : Tokens}

theorem writes_one : Writes 1 := by
  refine ⟨[], Language.nil_mem_one, ?_⟩
  intro l hl
  cases hl

theorem writes_singleton {l : Lexeme} (hl : l.WellFormed) (hmem : [l] ∈ L) : Writes L := by
  refine ⟨[l], hmem, ?_⟩
  intro k hk
  obtain rfl := List.mem_singleton.mp hk
  exact hl

theorem Writes.mul (h : Writes L) (h' : Writes M) : Writes (L * M) := by
  rcases h with ⟨ls, hls, hwell⟩
  rcases h' with ⟨ms, hms, hwell'⟩
  refine ⟨ls ++ ms, Language.append_mem_mul hls hms, ?_⟩
  intro l hl
  rcases List.mem_append.mp hl with hl | hl
  · exact hwell l hl
  · exact hwell' l hl

theorem Writes.mono (h : Writes L) (hLM : ∀ ls ∈ L, ls ∈ M) : Writes M := by
  rcases h with ⟨ls, hls, hwell⟩
  exact ⟨ls, hLM ls hls, hwell⟩

theorem Writes.add_left (h : Writes L) : Writes (L + M) := h.mono fun _ hls => .inl hls

theorem Writes.add_right (h : Writes M) : Writes (L + M) := h.mono fun _ hls => .inr hls

end Combinations

section Lexemes

theorem writes_keyword (kw : String) (hkw : Lowercase kw) : Writes (keyword kw) := by
  rcases hkw with ⟨hne, hlower⟩
  have hstart : ∀ c ∈ kw.toList, Text.isNameStart c = true := by
    intro c hc
    have := Text.isLower_iff.mp (hlower c hc)
    exact Text.isNameStart_iff.mpr (.inr (.inl this))
  have hwell : (Lexeme.word kw.toList).WellFormed := by
    constructor
    · obtain ⟨c, rest, hcons⟩ := List.exists_cons_of_ne_nil hne
      exact ⟨c, rest, hcons, hstart c (hcons ▸ List.mem_cons_self)⟩
    · intro c hc
      exact Text.isNameChar_iff.mpr (.inl (hstart c hc))
  have hletters : Text.lower kw.toList = kw.toList.map id :=
    List.map_congr_left fun c hc => Text.toLower_of_isLower (hlower c hc)
  rw [List.map_id] at hletters
  exact writes_singleton hwell ⟨_, hletters, rfl⟩

theorem writes_keywords {kws : List String} (hkws : ∀ kw ∈ kws, Lowercase kw) :
    Writes (keywords kws) := by
  induction kws with
  | nil => exact writes_one
  | cons kw kws ih =>
    rw [keywords, List.map_cons, List.prod_cons]
    have hrest := ih fun k hk => hkws k (List.mem_cons_of_mem _ hk)
    exact (writes_keyword kw (hkws kw List.mem_cons_self)).mul hrest

theorem writes_symbol {mark : String} (hmark : mark ∈ Lexeme.signs) : Writes (symbol mark) :=
  writes_singleton (l := .symbol mark) hmark rfl

theorem writes_name {n : String} (hn : IsName n) : Writes (name n) :=
  writes_singleton (l := .quoted n.toList) hn ⟨.quoted n.toList, rfl, rfl⟩

theorem digits_toDigits (n : Nat) : Lexeme.Digits (Nat.toDigits 10 n) :=
  fun _ hc => Nat.isDigit_of_mem_toDigits (by decide) (by decide) hc

theorem writes_parameter {n : Nat} (hpos : 0 < n) (hbound : n < 2 ^ 32) :
    Writes (parameter n) :=
  writes_singleton (l := .parameter _) ⟨Nat.toDigits_ne_nil, digits_toDigits n⟩
    ⟨_, Numeral.spells_toDigits n, hpos, hbound, rfl⟩

theorem writes_count {n : Nat} (hbound : n < 2 ^ 32) : Writes (count n) :=
  writes_singleton (l := .number false _ [])
    ⟨Nat.toDigits_ne_nil, digits_toDigits n, Lexeme.digits_nil⟩
    ⟨_, Numeral.spells_toDigits n, hbound, rfl⟩

theorem writes_text (t : String) : Writes (text t) := writes_singleton (l := .text _) trivial rfl

theorem writes_comparison (c : Comparison) : Writes (comparison c) := by
  have hmark : ∃ mark, mark ∈ c.marks := by
    cases c <;> exact ⟨_, List.mem_cons_self⟩
  rcases hmark with ⟨mark, hmark⟩
  exact writes_singleton (l := .symbol mark) (Token.mem_signs_of_mem_marks hmark)
    ⟨mark, hmark, rfl⟩

end Lexemes

section Lists

variable {α : Type} {separator : Tokens} {item : α → Tokens} {as : List α}

theorem writes_followers (hseparator : Writes separator) (hitem : ∀ a ∈ as, Writes (item a)) :
    Writes (followers separator item as) := by
  induction as with
  | nil => exact writes_one
  | cons a more ih =>
    have hmore := ih fun b hb => hitem b (List.mem_cons_of_mem _ hb)
    exact hseparator.mul ((hitem a List.mem_cons_self).mul hmore)

theorem writes_separated (hseparator : Writes separator) (hne : as ≠ [])
    (hitem : ∀ a ∈ as, Writes (item a)) : Writes (separated separator item as) := by
  obtain ⟨a, more, rfl⟩ := List.exists_cons_of_ne_nil hne
  have hmore := writes_followers hseparator fun b hb => hitem b (List.mem_cons_of_mem _ hb)
  exact (hitem a List.mem_cons_self).mul hmore

theorem writes_commaList (hne : as ≠ []) (hitem : ∀ a ∈ as, Writes (item a)) :
    Writes (commaList item as) := writes_separated (writes_symbol (by decide)) hne hitem

theorem writes_parenthesized {L : Tokens} (h : Writes L) : Writes (parenthesized L) :=
  (writes_symbol (by decide)).mul (h.mul (writes_symbol (by decide)))

theorem writes_projection {names : List String} (h : ∀ n ∈ names, IsName n) :
    Writes (projection names) := by
  cases names with
  | nil => exact writes_symbol (by decide)
  | cons n more => exact writes_commaList (List.cons_ne_nil _ _) fun m hm => writes_name (h m hm)

end Lists

section Conditions

theorem writes_written {source : ValueSource} (h : source.Writable) : Writes (written source) := by
  cases source with
  | parameter n => exact writes_parameter h.1 h.2
  | literal v =>
    cases v with
    | null => exact writes_keyword _ (by decide)
    | bool b => cases b <;> exact writes_keyword _ (by decide)
    | number x =>
      rcases h with ⟨i, hbound, hx⟩
      exact writes_singleton (l := .number (decide (i < 0)) _ [])
        ⟨Nat.toDigits_ne_nil, digits_toDigits _, Lexeme.digits_nil⟩
        ⟨i, _, hbound, hx, Numeral.spells_toDigits _, rfl⟩
    | text t => exact writes_text t
    | timestamp t => exact absurd h not_false
    | id u => exact absurd h not_false

theorem writes_pattern {source : ValueSource} (h : source.IsPattern) :
    Writes (pattern source) := by
  cases source with
  | parameter n => exact writes_parameter h.1 h.2
  | literal v =>
    cases v with
    | text t => exact writes_text t
    | _ => exact absurd h not_false

-- Any notation that can write the values will do.
variable {V : ValueSource → Tokens}
  (hV : ∀ source : ValueSource, source.Writable → Writes (V source))
include hV

theorem writes_condition {p : Predicate} (h : p.Writable) : Writes (condition V p) := by
  cases p with
  | isNull field => exact (writes_name h).mul (writes_keywords (by decide))
  | isNotNull field => exact (writes_name h).mul (writes_keywords (by decide))
  | like field source =>
    have hlike : Writes (keyword "like" + keyword "ilike") :=
      (writes_keyword _ (by decide)).add_left
    exact (writes_name h.1).mul (hlike.mul (writes_pattern h.2))
  | compare field c operand =>
    exact (writes_name h.1).mul ((writes_comparison c).mul (hV operand h.2))

theorem writes_whereClause {ps : List Predicate} (h : ∀ p ∈ ps, p.Writable) :
    Writes (whereClause V ps) := by
  cases ps with
  | nil => exact writes_one
  | cons p more =>
    have hconditions : Writes (conditions V (p :: more)) :=
      writes_separated (writes_keyword _ (by decide)) (List.cons_ne_nil _ _)
        fun q hq => writes_condition hV (h q hq)
    exact (writes_keyword _ (by decide)).mul hconditions

end Conditions

section Statements

theorem writes_ending : Writes ending := writes_one.add_right

theorem writes_orderBy {o : Option OrderBy} (h : ∀ order ∈ o, IsName order.field) :
    Writes (orderBy o) := by
  cases o with
  | none => exact writes_one
  | some o =>
    have horder : Writes (order o.order) := by
      cases o.order with
      | asc => exact writes_one.add_right
      | desc => exact writes_keyword _ (by decide)
    exact (writes_keywords (by decide)).mul ((writes_name (h o rfl)).mul horder)

theorem writes_countClause {kw : String} {n : Option Nat} (hkw : Lowercase kw)
    (h : ∀ m ∈ n, m < 2 ^ 32) : Writes (countClause kw n) := by
  cases n with
  | none => exact writes_one
  | some n => exact (writes_keyword kw hkw).mul (writes_count (h n rfl))

theorem writes_createIndex {s : CreateIndex} (h : s.Writable) : Writes (createIndex s) := by
  have hunique : Writes (flag (keyword "unique") s.unique) := by
    cases s.unique with
    | true => exact writes_keyword _ (by decide)
    | false => exact writes_one
  have hexists : Writes (flag (keywords ["if", "not", "exists"]) s.ifNotExists) := by
    cases s.ifNotExists with
    | true => exact writes_keywords (by decide)
    | false => exact writes_one
  have hname : Writes (indexName s) := by
    rcases h.indexName with hname | hdefault
    · exact (writes_name hname).mono fun _ hls => .inl hls
    · refine ⟨[], .inr ⟨rfl, hdefault⟩, ?_⟩
      intro l hl
      cases hl
  have hcolumns : Writes (commaList column s.fields) := by
    refine writes_commaList h.nonempty fun n hn => ?_
    exact (writes_name (h.fields n hn)).mul writes_one.add_right
  have hmethod : Writes method := writes_one.add_right
  have hlast := hmethod.mul ((writes_parenthesized hcolumns).mul writes_ending)
  have hon := (writes_keyword "on" (by decide)).mul ((writes_name h.collection).mul hlast)
  have hindex := (writes_keyword "index" (by decide)).mul (hexists.mul (hname.mul hon))
  exact (writes_keyword _ (by decide)).mul (hunique.mul hindex)

variable {V : ValueSource → Tokens}
  (hV : ∀ source : ValueSource, source.Writable → Writes (V source))
include hV

theorem writes_select {s : Select} (h : s.Writable) : Writes (select V s) := by
  have hpage : Writes (page s.limit s.offset) :=
    ((writes_countClause (by decide) h.limit).mul
      (writes_countClause (by decide) h.offset)).add_left
  have hclauses := (writes_orderBy h.orderBy).mul (hpage.mul writes_ending)
  have hsource := (writes_name h.collection).mul ((writes_whereClause hV h.predicates).mul hclauses)
  have hfrom := (writes_keyword "from" (by decide)).mul hsource
  exact (writes_keyword _ (by decide)).mul ((writes_projection h.projection).mul hfrom)

theorem writes_insert {s : Insert} (h : s.Writable) : Writes (insert V s) := by
  have hne : ∀ {β : Type} (f : String × ValueSource → β), s.fields.map f ≠ [] :=
    fun f hnil => h.nonempty (List.map_eq_nil_iff.mp hnil)
  have hcolumns : Writes (commaList name (s.fields.map (·.1))) := by
    refine writes_commaList (hne _) fun n hn => ?_
    rcases List.mem_map.mp hn with ⟨f, hf, rfl⟩
    exact writes_name (h.fields f hf).1
  have hvalues : Writes (commaList V (s.fields.map (·.2))) := by
    refine writes_commaList (hne _) fun source hsource => ?_
    rcases List.mem_map.mp hsource with ⟨f, hf, rfl⟩
    exact hV f.2 (h.fields f hf).2
  have hreturning : Writes (returning s.returning) := by
    cases hcolumns : s.returning with
    | none => exact writes_one
    | some columns =>
      exact (writes_keyword _ (by decide)).mul (writes_projection (h.returning columns hcolumns))
  have hlast := (writes_parenthesized hvalues).mul (hreturning.mul writes_ending)
  have hlist := (writes_parenthesized hcolumns).mul
    ((writes_keyword "values" (by decide)).mul hlast)
  exact (writes_keywords (by decide)).mul ((writes_name h.collection).mul hlist)

theorem writes_update {s : Update} (h : s.Writable) : Writes (update V s) := by
  have hassignments : Writes (commaList (assignment V) s.assignments) := by
    refine writes_commaList h.nonempty fun a ha => ?_
    obtain ⟨hname, hsource⟩ := h.assignments a ha
    exact (writes_name hname).mul ((writes_symbol (by decide)).mul (hV a.2 hsource))
  have hlast := hassignments.mul ((writes_whereClause hV h.predicates).mul writes_ending)
  have hset := (writes_keyword "set" (by decide)).mul hlast
  exact (writes_keyword _ (by decide)).mul ((writes_name h.collection).mul hset)

theorem writes_delete {s : Delete} (h : s.Writable) : Writes (delete V s) := by
  have hwhere := (writes_whereClause hV h.predicates).mul writes_ending
  exact (writes_keywords (by decide)).mul ((writes_name h.collection).mul hwhere)

theorem writes_statement {s : Statement} (h : s.Writable) : Writes (statement V s) := by
  cases s with
  | select s => exact writes_select hV h
  | insert s => exact writes_insert hV h
  | update s => exact writes_update hV h
  | delete s => exact writes_delete hV h
  | createIndex s => exact writes_createIndex h
  | _ => exact absurd h not_false

end Statements

end Grammar

section Trim

theorem Text.trim_eq_self {s : List Char} (hhead : Stops isWhite s)
    (hlast : Stops isWhite s.reverse) : trim s = s := by
  rw [trim, hhead.dropWhile_eq, hlast.dropWhile_eq, List.reverse_reverse]

namespace Lexeme

theorem isWhite_fraction {places : List Char} (hplaces : Digits places) :
    ∀ c ∈ fraction places, Text.isWhite c = false := by
  intro c hc
  cases places with
  | nil => cases hc
  | cons d places =>
    rcases List.mem_cons.mp hc with rfl | hmem
    · decide
    · exact Text.isWhite_digit (hplaces c hmem)

theorem WellFormed.stops_reverse {l : Lexeme} (h : l.WellFormed) :
    Stops Text.isWhite l.written.reverse := by
  have hquote : ∀ (quote : Char) (body : List Char), Text.isWhite quote = false →
      Stops Text.isWhite (body ++ [quote]).reverse := by
    intro quote body hwhite c hc
    rw [List.reverse_append] at hc
    obtain rfl := Option.some.inj hc
    exact hwhite
  have hall : (∀ c ∈ l.written, Text.isWhite c = false) → Stops Text.isWhite l.written.reverse :=
    fun h => stops_of_forall fun c hc => h c (List.mem_reverse.mp hc)
  cases l with
  | word letters =>
    apply hall
    exact fun c hc => Text.isWhite_nameChar (h.2 c hc)
  | quoted name => exact hquote '"' ('"' :: name) (by decide)
  | text body => exact hquote '\'' ('\'' :: _) (by decide)
  | parameter digits =>
    apply hall
    intro c hc
    rcases List.mem_cons.mp hc with rfl | hmem
    · decide
    · exact Text.isWhite_digit (h.2 c hmem)
  | number negative whole places =>
    apply hall
    intro c hc
    rcases List.mem_append.mp hc with hsign | hmem
    · cases negative with
      | true =>
        obtain rfl := List.mem_singleton.mp hsign
        decide
      | false => cases hsign
    · rcases List.mem_append.mp hmem with hwhole | hplaces
      · exact Text.isWhite_digit (h.2.1 c hwhole)
      · exact isWhite_fraction h.2.2 c hplaces
  | symbol mark =>
    apply hall
    have hsigns : ∀ mark ∈ signs, mark.toList.all (fun c => !Text.isWhite c) = true := by decide
    simpa [written] using hsigns mark h

end Lexeme

namespace Spaced

variable {ls : List Lexeme} {s : List Char}

theorem exists_at (h : Spaced ls s) : ∃ (l : Lexeme) (rest : List Char), l.At s rest := by
  cases h with
  | last hl => exact ⟨_, [], hl, (List.append_nil _).symm, Lexeme.ends_nil _⟩
  | cons hl hgap _ => exact ⟨_, _, hl, rfl, hgap.ends _ _⟩

theorem stops (h : Spaced ls s) : Stops Text.isWhite s := by
  rcases h.exists_at with ⟨l, rest, hat⟩
  rcases hat.startsWith with ⟨c, t, rfl, hc, -⟩
  intro d hd
  obtain rfl := Option.some.inj hd
  exact hc.isWhite

theorem stops_reverse (h : Spaced ls s) : Stops Text.isWhite s.reverse := by
  induction h with
  | last hl => exact hl.stops_reverse
  | cons _ _ hs ih =>
    rcases hs.exists_at with ⟨l, rest, hat⟩
    rw [List.reverse_append, List.reverse_append, List.append_assoc]
    refine ih.append ?_ _
    simpa using hat.ne_nil

/-- A text of lexemes has no white space at its ends. -/
theorem trim (h : Spaced ls s) : Text.trim s = s := Text.trim_eq_self h.stops h.stops_reverse

end Spaced

end Trim

namespace Statement

/-- The text has the lexemes of the statement, with a gap between any two. -/
def WrittenAs (s : Statement) (text : String) : Prop :=
  ∃ ls ∈ Grammar.statement Grammar.written s, Spaced ls text.toList

theorem ne_nil_of_mem_keyword_mul {kw : String} {L : Grammar.Tokens} {ls : List Lexeme}
    (hls : ls ∈ Grammar.keyword kw * L) : ls ≠ [] := by
  rcases Language.mem_mul.mp hls with ⟨x, ⟨letters, -, rfl⟩, y, -, rfl⟩
  exact List.cons_ne_nil _ _

theorem ne_nil_of_mem {V : ValueSource → Grammar.Tokens} {s : Statement} {ls : List Lexeme}
    (hls : ls ∈ Grammar.statement V s) : ls ≠ [] := by
  cases s with
  | select s => exact ne_nil_of_mem_keyword_mul hls
  | insert s =>
    rw [Grammar.statement, Grammar.insert, Grammar.keywords_cons_mul] at hls
    exact ne_nil_of_mem_keyword_mul hls
  | update s => exact ne_nil_of_mem_keyword_mul hls
  | delete s =>
    rw [Grammar.statement, Grammar.delete, Grammar.keywords_cons_mul] at hls
    exact ne_nil_of_mem_keyword_mul hls
  | createIndex s => exact ne_nil_of_mem_keyword_mul hls
  | _ => exact absurd hls (Language.notMem_zero ls)

theorem exists_writtenAs {s : Statement} (h : s.Writable) : ∃ text, s.WrittenAs text := by
  rcases Grammar.writes_statement (fun _ => Grammar.writes_written) h with ⟨ls, hls, hwell⟩
  have hspaced := spaced_withBlanks (ne_nil_of_mem hls) hwell
  exact ⟨String.ofList (withBlanks ls), ls, hls, by rwa [String.toList_ofList]⟩

/-- A tree that can be written has a text, and is what any of its texts is read as. -/
theorem parse_writtenAs (moment : Moment) {s : Statement} (h : s.Writable) :
    (∃ text, s.WrittenAs text) ∧ ∀ text, s.WrittenAs text → parse moment text = .ok s := by
  refine ⟨exists_writtenAs h, ?_⟩
  rintro text ⟨ls, hls, hspaced⟩
  rw [parse, hspaced.trim]
  exact Grammar.ofTrimmed_of_laid moment hls hspaced.laid

theorem parse_writtenAs_delete :
    let moment := Moment.series ⟨0⟩ 0 0
    let s : Statement := .delete ⟨"users", [.isNull "or"]⟩
    let text := "DELETE FROM users WHERE \"or\" is NULL ;"
    s.Writable ∧ s.WrittenAs text ∧ parse moment text = .ok s := by
  intro moment s text
  let tokens : List Lexeme := [.word "DELETE".toList, .word "FROM".toList, .word "users".toList,
    .word "WHERE".toList, .quoted "or".toList, .word "is".toList, .word "NULL".toList, .symbol ";"]
  have hwritable : s.Writable := by
    refine ⟨by decide, ?_⟩
    intro p hp
    obtain rfl := List.mem_singleton.mp hp
    exact (by decide : IsName "or")
  have htokens : tokens ∈ Grammar.statement Grammar.written s := by
    have hdelete : [.word "DELETE".toList, .word "FROM".toList] ∈
        Grammar.keywords ["delete", "from"] :=
      ⟨_, ⟨_, rfl, rfl⟩, _, ⟨_, ⟨_, rfl, rfl⟩, _, rfl, rfl⟩, rfl⟩
    have hisNull : [.word "is".toList, .word "NULL".toList] ∈ Grammar.keywords ["is", "null"] :=
      ⟨_, ⟨_, rfl, rfl⟩, _, ⟨_, ⟨_, rfl, rfl⟩, _, rfl, rfl⟩, rfl⟩
    have hfield : [.quoted "or".toList] ∈ Grammar.name "or" :=
      ⟨.quoted "or".toList, rfl, rfl⟩
    have hwhere : [.word "WHERE".toList, .quoted "or".toList, .word "is".toList,
        .word "NULL".toList] ∈ Grammar.whereClause Grammar.written [.isNull "or"] :=
      ⟨_, ⟨_, rfl, rfl⟩, _, ⟨_, ⟨_, hfield, _, hisNull, rfl⟩, _, rfl, rfl⟩, rfl⟩
    have husers : [.word "users".toList] ∈ Grammar.name "users" :=
      ⟨.word "users".toList, ⟨rfl, by decide⟩, rfl⟩
    exact ⟨_, hdelete, _, ⟨_, husers, _, ⟨_, hwhere, _, .inl rfl, rfl⟩, rfl⟩, rfl⟩
  have hspaced : Spaced tokens text.toList := by
    have htext : text.toList = withBlanks tokens := by decide
    rw [htext]
    exact spaced_withBlanks (List.cons_ne_nil _ _) (by decide)
  have hwritten : s.WrittenAs text := ⟨tokens, htokens, hspaced⟩
  exact ⟨hwritable, hwritten, (parse_writtenAs moment hwritable).2 text hwritten⟩

end Statement

end DocumentSql
