import DocumentSql.Proofs.Grammar.Block
import DocumentSql.Proofs.Grammar.Kind
import DocumentSql.Proofs.Grammar.Written
import DocumentSql.Proofs.Grammar.Soundness
/-
Definitions of tables and indexes. The text of an index is read to its end, as are the texts of
statements on documents. Of a table only the head is read, and then a block is skipped.
-/

namespace DocumentSql

namespace Grammar

section Index

variable {full s rest : List Char}

theorem spans_optional {reader : List Char → Option (List Char)} {L : Tokens} {found : Bool}
    (hreader : ∀ t, reader s = some t → Spans L s t)
    (h : Token.optional reader s = (found, rest)) : Spans (flag L found) s rest := by
  unfold Token.optional at h
  split at h
  · next t hread =>
    obtain ⟨rfl, rfl⟩ := Prod.mk.inj h
    exact hreader t hread
  · obtain ⟨rfl, rfl⟩ := Prod.mk.inj h
    exact spans_one s

/-- Whatever the direction, it is one that a column may have. -/
theorem mem_directions {o : SortOrder} {ls : List Lexeme} (hls : ls ∈ order o) :
    ls ∈ optional (keyword "asc" + keyword "desc") := by
  cases o with
  | asc => exact hls.imp .inl id
  | desc => exact .inl (.inr hls)

theorem sound_column : Sound CreateIndex.column column := by
  intro s field rest h
  obtain ⟨⟨n, t⟩, hname, heq⟩ := Option.map_eq_some_iff.mp h
  obtain ⟨rfl, rfl⟩ := Prod.mk.inj heq
  have horder : Spans (order (SortOrder.read t).1) t (SortOrder.read t).2 := spans_order rfl
  exact (sound_identifier s n t hname).mul (horder.mono fun _ hls => mem_directions hls)

theorem spans_columnsFrom {bound : Nat} {fields : List String}
    (h : CreateIndex.columnsFrom bound s = some (fields, rest)) :
    fields ≠ [] ∧ Spans (commaList column fields * symbol ")") s rest := by
  induction bound generalizing s fields with
  | zero => cases h
  | succ bound ih =>
    rw [CreateIndex.columnsFrom] at h
    split at h
    · cases h
    · next field t hcolumn =>
      have hfield := sound_column s field t hcolumn
      split at h
      · next u hcomma =>
        obtain ⟨⟨more, v⟩, hmore, heq⟩ := Option.map_eq_some_iff.mp h
        obtain ⟨rfl, rfl⟩ := Prod.mk.inj heq
        obtain ⟨hne, hrest⟩ := ih hmore
        obtain ⟨next, more, rfl⟩ := List.exists_cons_of_ne_nil hne
        have hseparator := spans_symbol (by decide) hcomma
        refine ⟨List.cons_ne_nil field _, ?_⟩
        simpa only [commaList, separated, followers, mul_assoc] using
          hfield.mul (hseparator.mul hrest)
      · obtain ⟨u, hclose, heq⟩ := Option.map_eq_some_iff.mp h
        obtain ⟨rfl, rfl⟩ := Prod.mk.inj heq
        refine ⟨List.cons_ne_nil field [], ?_⟩
        exact (hfield.mul (spans_one t)).mul (spans_symbol (by decide) hclose)

theorem sound_columns : Sound CreateIndex.columns fun fields =>
    parenthesized (commaList column fields) := by
  intro s fields rest h
  unfold CreateIndex.columns at h
  split at h
  · next t hopen => exact (spans_symbol (by decide) hopen).mul (spans_columnsFrom h).2
  · cases h

theorem spans_readName {name? : Option String} (c : CreateIndex)
    (h : CreateIndex.readName s = (name?, rest))
    (hc : c.indexName = name?.getD (CreateIndex.defaultName c.collection c.fields)) :
    Spans (indexName c) s rest := by
  unfold CreateIndex.readName at h
  split at h
  · next n t hread =>
    obtain ⟨rfl, rfl⟩ := Prod.mk.inj h
    refine (sound_identifier s n t hread).mono fun ls hls => .inl ?_
    rwa [hc]
  · obtain ⟨rfl, rfl⟩ := Prod.mk.inj h
    exact (spans_one s).mono fun ls hls => .inr ⟨hls, hc⟩

theorem spans_skipMethod (s : List Char) : Spans method s (CreateIndex.skipMethod s) := by
  unfold CreateIndex.skipMethod
  split
  · next n rest hread =>
    obtain ⟨t, husing, hname⟩ := Option.bind_eq_some_iff.mp hread
    have hmethod : Spans anyName t rest :=
      (sound_identifier t n rest hname).mono fun _ hls => ⟨n, hls⟩
    exact ((spans_keyword (by decide) husing).mul hmethod).add_left
  · exact (spans_one s).add_right

/-- Nothing in the text of an index is dropped but what does not count. -/
theorem covers_createIndex {c : CreateIndex} (h : CreateIndex.read full = .ok c) :
    Covers (createIndex c) full := by
  unfold CreateIndex.read at h
  obtain ⟨t1, hcreate, h⟩ := bind_eq_ok_iff.mp h
  cases hunique : Token.optional (Token.keyword "unique") t1 with
  | mk unique t2 =>
  simp only [hunique] at h
  obtain ⟨t3, hindex, h⟩ := bind_eq_ok_iff.mp h
  cases hexists : Token.optional (Token.keywords ["if", "not", "exists"]) t3 with
  | mk ifNotExists t4 =>
  cases hreadName : CreateIndex.readName t4 with
  | mk name? t5 =>
  simp only [hexists, hreadName] at h
  obtain ⟨t6, hon, h⟩ := bind_eq_ok_iff.mp h
  obtain ⟨⟨collection, t7⟩, hcollection, h⟩ := bind_eq_ok_iff.mp h
  obtain ⟨⟨fields, t8⟩, hcolumns, h⟩ := bind_eq_ok_iff.mp h
  obtain ⟨⟨⟩, hend, h⟩ := bind_eq_ok_iff.mp h
  have hc := pure_eq_ok_iff.mp h
  have hname : Spans (indexName c) t4 t5 := spans_readName c hreadName (by rw [← hc])
  subst hc
  have htail := (sound_columns.expect hcolumns).covers (covers_endOfStatement hend)
  have htail := (sound_identifier.expect hcollection).covers ((spans_skipMethod t7).covers htail)
  have htail := (spans_expectKeyword (by decide) hon).covers htail
  have hflag := spans_optional (fun t => spans_keywords (by decide)) hexists
  have htail := hflag.covers (hname.covers htail)
  have htail := (spans_expectKeyword (by decide) hindex).covers htail
  have hflag := spans_optional (fun t => spans_keyword (by decide)) hunique
  exact (spans_expectKeyword (by decide) hcreate).covers (hflag.covers htail)

end Index

section Table

/-- All of a definition that is read. -/
def tableHead (t : CreateTable) : Tokens :=
  keywords ["create", "table"] *
    (flag (keywords ["if", "not", "exists"]) t.ifNotExists * name t.collection)

variable {full s rest : List Char}

theorem exists_lays_keywords {kws : List String} (hkws : ∀ kw ∈ kws, Lowercase kw)
    (h : Token.keywords kws s = some rest) : ∃ ls ∈ keywords kws, Lays ls s rest := by
  induction kws generalizing s with
  | nil =>
    obtain rfl := Option.some.inj h
    exact ⟨[], Language.nil_mem_one, .nil s⟩
  | cons kw kws ih =>
    rw [Token.keywords] at h
    split at h
    · next t hread =>
      obtain ⟨letters, hletters, hnext⟩ :=
        (Token.keyword_eq_some_iff (hkws kw List.mem_cons_self)).mp hread
      obtain ⟨ls, hls, hlays⟩ := ih (fun k hk => hkws k (List.mem_cons_of_mem _ hk)) h
      refine ⟨[.word letters] ++ ls, ?_, .cons hnext hlays⟩
      rw [keywords, List.map_cons, List.prod_cons]
      exact Language.append_mem_mul ⟨letters, hletters, rfl⟩ hls
    · cases h

theorem exists_lays_optional {kws : List String} (hkws : ∀ kw ∈ kws, Lowercase kw) {found : Bool}
    (h : Token.optional (Token.keywords kws) s = (found, rest)) :
    ∃ ls ∈ flag (keywords kws) found, Lays ls s rest := by
  unfold Token.optional at h
  split at h
  · next t hread =>
    obtain ⟨rfl, rfl⟩ := Prod.mk.inj h
    exact exists_lays_keywords hkws hread
  · obtain ⟨rfl, rfl⟩ := Prod.mk.inj h
    exact ⟨[], Language.nil_mem_one, .nil s⟩

/-- What may stand behind the head of a definition: the columns, and then the end. -/
inductive TableTail : List Char → Prop
  | ending {s : List Char} : Covers ending s → TableTail s
  | columns {s body rest : List Char} : Skip s ('(' :: (body ++ ')' :: rest)) → Balanced body →
      Covers ending rest → TableTail s

theorem endOfStatement_eq_ok_iff : Token.endOfStatement full s = .ok () ↔ Covers ending s := by
  constructor
  · exact covers_endOfStatement
  · rintro ⟨ls, hls, hlaid⟩
    exact endOfStatement_of_ending full hls hlaid

theorem next_of_skip (h : Skip s ('(' :: rest)) : Next (.symbol "(") s rest := by
  have hclosed : Token.Closed "(" := by decide
  exact ⟨_, h, hclosed.1, rfl, hclosed.stops _⟩

theorem follow_of_mem_ending {ls : List Lexeme} (hls : ls ∈ ending) : Follow ["not"] ["("] ls :=
  starts_ending.follow_last (by decide) (by decide) hls

/-- No end begins with a parenthesis. -/
theorem not_covers_ending (h : Skip s ('(' :: rest)) : ¬Covers ending s := by
  rintro ⟨ls, hls, hlaid⟩
  obtain ⟨more, rfl, -⟩ := laid_of_next hlaid (next_of_skip h)
  exact follow_of_mem_ending hls _ rfl (List.mem_singleton_self "(")

theorem keyword_not_eq_none (h : Skip s ('(' :: rest)) : Token.keyword "not" s = none :=
  keyword_eq_none_of_next (by decide) (next_of_skip h) List.not_mem_nil

theorem TableTail.keyword_eq_none (h : TableTail s) : Token.keyword "not" s = none := by
  cases h with
  | ending hend =>
    obtain ⟨ls, hls, hlaid⟩ := hend
    have hfollow := (follow_of_mem_ending hls).mono (List.Subset.refl _) (List.nil_subset _)
    exact Grammar.keyword_eq_none (by decide) hlaid hfollow
  | columns hskip _ _ => exact keyword_not_eq_none hskip

theorem tableTail_iff : Token.endOfStatement full (CreateTable.skipColumns s) = .ok () ↔
    TableTail s := by
  unfold CreateTable.skipColumns
  rw [endOfStatement_eq_ok_iff]
  constructor
  · intro h
    split at h
    · next body rest hblock =>
      obtain ⟨hskip, hbody⟩ := Token.balancedParens_eq_some_iff.mp hblock
      exact .columns hskip hbody h
    · exact .ending h
  · intro h
    cases h with
    | ending hend =>
      have hblock : Token.balancedParens s = none := by
        rw [Option.eq_none_iff_forall_ne_some]
        rintro ⟨body, rest⟩ hblock
        exact not_covers_ending (Token.balancedParens_eq_some_iff.mp hblock).1 hend
      rw [hblock]
      exact hend
    | columns hskip hbody hend =>
      rw [Token.balancedParens_eq_some_iff.mpr ⟨hskip, hbody⟩]
      exact hend

/-- A table may be called `if`, but no `NOT` comes after it. -/
theorem optional_ifNotExists {found : Bool} {n : String} {ls ms : List Lexeme} {t : List Char}
    (hls : ls ∈ flag (keywords ["if", "not", "exists"]) found) (hms : ms ∈ name n)
    (h : Lays ls s t) (hname : Lays ms t rest) (hnot : Token.keyword "not" rest = none) :
    Token.optional (Token.keywords ["if", "not", "exists"]) s = (found, t) := by
  unfold Token.optional
  cases found with
  | true => rw [takes_keywords (by decide) hls h]
  | false =>
    obtain rfl := (Language.mem_one ls).mp hls
    obtain ⟨l, -, rfl⟩ := hms
    cases h
    have habsent : Token.keywords ["if", "not", "exists"] s = none := by
      rw [Token.keywords]
      split
      · next u hif =>
        obtain ⟨letters, -, hnext⟩ := (Token.keyword_eq_some_iff (by decide)).mp hif
        obtain ⟨-, rfl⟩ := hnext.unique (lays_singleton.mp hname)
        exact keywords_eq_none_of_first ["exists"] hnot
      · rfl
    rw [habsent]

/-- Behind its head a definition only has to end. -/
theorem read_createTable_of_head {t : CreateTable} {ls : List Lexeme} (hls : ls ∈ tableHead t)
    (h : Lays ls full s) (hnot : Token.keyword "not" s = none) :
    CreateTable.read full = .ok t ↔ TableTail s := by
  obtain ⟨a, ha, y, hy, rfl⟩ := Language.mem_mul.mp hls
  obtain ⟨b, hb, c, hc, rfl⟩ := Language.mem_mul.mp hy
  obtain ⟨t1, hcreate, h⟩ := lays_append.mp h
  obtain ⟨t2, hexists, hname⟩ := lays_append.mp h
  have hwords := takes_keywords (by decide) ha hcreate
  have hflag := optional_ifNotExists hb hc hexists hname hnot
  have hcollection := takes_identifier _ c hc t2 s hname
  unfold CreateTable.read
  constructor
  · intro h
    obtain ⟨t1', hwords', h⟩ := bind_eq_ok_iff.mp h
    obtain rfl := Option.some.inj (hwords.symm.trans (Token.expectText_eq_ok_iff.mp hwords'))
    simp only [hflag] at h
    obtain ⟨read, hread, h⟩ := bind_eq_ok_iff.mp h
    obtain rfl := Option.some.inj (hcollection.symm.trans (Token.expect_eq_ok_iff.mp hread))
    obtain ⟨⟨⟩, hend, -⟩ := bind_eq_ok_iff.mp h
    exact tableTail_iff.mp hend
  · intro htail
    refine bind_eq_ok_iff.mpr ⟨t1, Token.expectText_eq_ok_iff.mpr hwords, ?_⟩
    simp only [hflag]
    refine bind_eq_ok_iff.mpr ⟨_, Token.expect_eq_ok_iff.mpr hcollection, ?_⟩
    exact bind_eq_ok_iff.mpr ⟨(), tableTail_iff.mpr htail, rfl⟩

/-- All texts of a definition. -/
theorem read_createTable_iff {t : CreateTable} : CreateTable.read full = .ok t ↔
    ∃ ls ∈ tableHead t, ∃ s, Lays ls full s ∧ TableTail s := by
  constructor
  · intro h
    unfold CreateTable.read at h
    obtain ⟨t1, hcreate, h⟩ := bind_eq_ok_iff.mp h
    cases hexists : Token.optional (Token.keywords ["if", "not", "exists"]) t1 with
    | mk ifNotExists t2 =>
    simp only [hexists] at h
    obtain ⟨⟨collection, t3⟩, hcollection, h⟩ := bind_eq_ok_iff.mp h
    obtain ⟨⟨⟩, hend, h⟩ := bind_eq_ok_iff.mp h
    obtain rfl := pure_eq_ok_iff.mp h
    obtain ⟨a, ha, hlays⟩ :=
      exists_lays_keywords (by decide) (Token.expectText_eq_ok_iff.mp hcreate)
    obtain ⟨b, hb, hlays'⟩ := exists_lays_optional (by decide) hexists
    obtain ⟨l, hl, hnext⟩ := Token.identifier_eq_some_iff.mp (Token.expect_eq_ok_iff.mp hcollection)
    have hname : [l] ∈ name collection := ⟨l, hl, rfl⟩
    have hmem := Language.append_mem_mul ha (Language.append_mem_mul hb hname)
    refine ⟨a ++ (b ++ [l]), hmem, t3, ?_, tableTail_iff.mp hend⟩
    exact lays_append.mpr ⟨t1, hlays, lays_append.mpr ⟨t2, hlays', lays_singleton.mpr hnext⟩⟩
  · rintro ⟨ls, hls, s, hlays, htail⟩
    exact (read_createTable_of_head hls hlays htail.keyword_eq_none).mpr htail

theorem ofText_of_tableHead {t : CreateTable} {ls : List Lexeme} (hls : ls ∈ tableHead t)
    (h : Lays ls full s) : StatementKind.ofText full = .createTable := by
  rw [tableHead, keywords_cons_mul, keywords_cons_mul] at hls
  obtain ⟨a, ha, y, hy, rfl⟩ := Language.mem_mul.mp hls
  obtain ⟨b, hb, c, -, rfl⟩ := Language.mem_mul.mp hy
  obtain ⟨t1, hcreate, h⟩ := lays_append.mp h
  obtain ⟨t2, htable, -⟩ := lays_append.mp h
  rw [StatementKind.ofText, leadingWords_of_lays 2 ha hcreate, leadingWords_of_lays 1 hb htable]
  rfl

end Table

end Grammar

namespace Statement

variable {moment : Moment} {text : List Char}

theorem read_of_ofTrimmed_createIndex {c : CreateIndex}
    (h : ofTrimmed moment text = .ok (createIndex c)) : CreateIndex.read text = .ok c := by
  have hkind := kind_of_ofTrimmed h
  rw [ofTrimmed, ← hkind] at h
  obtain ⟨c', hread, heq⟩ := map_eq_ok_iff.mp h
  exact Statement.createIndex.inj heq ▸ hread

theorem read_of_ofTrimmed_alterTable {collection : String}
    (h : ofTrimmed moment text = .ok (alterTable collection)) :
    AlterTable.read text = .ok collection := by
  have hkind := kind_of_ofTrimmed h
  rw [ofTrimmed, ← hkind] at h
  obtain ⟨collection', hread, heq⟩ := map_eq_ok_iff.mp h
  exact Statement.alterTable.inj heq ▸ hread

theorem ofTrimmed_createTable_iff {t : CreateTable} :
    ofTrimmed moment text = .ok (createTable t) ↔ CreateTable.read text = .ok t := by
  constructor
  · intro h
    have hkind := kind_of_ofTrimmed h
    rw [ofTrimmed, ← hkind] at h
    obtain ⟨t', hread, heq⟩ := map_eq_ok_iff.mp h
    exact Statement.createTable.inj heq ▸ hread
  · intro h
    obtain ⟨ls, hls, s, hlays, -⟩ := Grammar.read_createTable_iff.mp h
    rw [ofTrimmed, Grammar.ofText_of_tableHead hls hlays]
    exact map_eq_ok_iff.mpr ⟨t, h, rfl⟩

end Statement

end DocumentSql
