import DocumentSql.Proofs.Grammar.Completeness
/-
Statements are read as they were written: the clauses and statements around the conditions and
values, and the kind of a statement by its first words.
-/

namespace DocumentSql.Grammar

section Clauses

variable {full s : List Char} {ls ks : List Lexeme}

theorem exists_order {o : SortOrder} (hls : ls ∈ order o) (hks : Follow ["asc", "desc"] [] ks)
    (h : Laid (ls ++ ks) s) : ∃ rest, SortOrder.read s = (o, rest) ∧ Laid ks rest := by
  unfold SortOrder.read Token.optional
  cases o with
  | desc =>
    obtain ⟨rest, hread, hlaid⟩ := exists_keyword (by decide) hls h
    exact ⟨rest, by rw [hread], hlaid⟩
  | asc =>
    rcases hls with hasc | hnone
    · have hdesc : Token.keyword "desc" s = none :=
        keyword_eq_none_of_keyword (by decide) (by decide) hasc h
      obtain ⟨rest, hread, hlaid⟩ := exists_keyword (by decide) hasc h
      exact ⟨rest, by rw [hdesc, hread], hlaid⟩
    · obtain rfl := (Language.mem_one ls).mp hnone
      have hdesc : Token.keyword "desc" s = none :=
        keyword_eq_none (by decide) h (hks.mono (by decide) (List.Subset.refl _))
      have hasc : Token.keyword "asc" s = none :=
        keyword_eq_none (by decide) h (hks.mono (by decide) (List.Subset.refl _))
      exact ⟨s, by rw [hdesc, hasc], h⟩

theorem exists_readOrder (full : List Char) {o : Option OrderBy} (hls : ls ∈ orderBy o)
    (hks : Follow ["order", "asc", "desc"] [] ks) (h : Laid (ls ++ ks) s) :
    Finds (Select.readOrder full s) o ks := by
  unfold Select.readOrder
  cases o with
  | none =>
    obtain rfl := (Language.mem_one ls).mp hls
    have hread : Token.keywords ["order", "by"] s = none :=
      keywords_eq_none _ (by decide) h (hks.mono (by decide) (List.Subset.refl _))
    exact ⟨s, by rw [hread], h⟩
  | some o =>
    rcases Language.mem_mul.mp hls with ⟨x, hx, y, hy, rfl⟩
    rcases Language.mem_mul.mp hy with ⟨u, hu, v, hv, rfl⟩
    rw [List.append_assoc, List.append_assoc] at h
    obtain ⟨t1, hread, h1⟩ := exists_keywords (by decide) hx h
    obtain ⟨t2, hfield, h2⟩ := accepts_identifier o.field u hu _ t1 (follow_none _) h1
    obtain ⟨rest, horder, hrest⟩ :=
      exists_order hv (hks.mono (by decide) (List.Subset.refl _)) h2
    refine ⟨rest, ?_, hrest⟩
    rw [hread]
    refine bind_eq_ok_iff.mpr ⟨_, Token.expect_eq_ok_iff.mpr hfield, ?_⟩
    simp only [horder]
    rfl

section Counts

variable {kw what : String} {given : Option Nat}

theorem exists_readCount (full : List Char) (what : String) {n : Nat} (hkw : Lowercase kw)
    (hls : ls ∈ countClause kw (some n)) (h : Laid (ls ++ ks) s) :
    ∃ rest, Select.readCount full kw what none s = .ok (some (n, rest)) ∧ Laid ks rest := by
  rcases Language.mem_mul.mp hls with ⟨x, hx, y, hy, rfl⟩
  rw [List.append_assoc] at h
  obtain ⟨t, hread, hlaid⟩ := exists_keyword hkw hx h
  obtain ⟨rest, hcount, hrest⟩ := accepts_unsigned n y hy ks t (follow_none ks) hlaid
  refine ⟨rest, ?_, hrest⟩
  unfold Select.readCount
  simp only [hread]
  exact bind_eq_ok_iff.mpr ⟨_, Token.expect_eq_ok_iff.mpr hcount, rfl⟩

theorem readCount_absent (hkw : Lowercase kw) (h : Laid ks s) (hks : Follow [kw] [] ks) :
    Select.readCount full kw what given s = .ok none := by
  unfold Select.readCount
  rw [keyword_eq_none hkw h hks]
  cases given <;> rfl

end Counts

section Page

variable {limit offset : Option Nat} {least bound : Nat}

/-- A limit that was written takes one turn, and one that was not takes none. -/
theorem exists_readPage_limit (hls : ls ∈ countClause "limit" limit) (h : Laid (ls ++ ks) s)
    (hbound : least < bound) :
    ∃ turns t, least ≤ turns ∧ Select.readPage full bound none offset s =
      Select.readPage full turns limit offset t ∧ Laid ks t := by
  cases limit with
  | none =>
    obtain rfl := (Language.mem_one ls).mp hls
    exact ⟨bound, s, Nat.le_of_lt hbound, rfl, h⟩
  | some n =>
    obtain ⟨turns, rfl⟩ : ∃ n, bound = n + 1 := ⟨bound - 1, by omega⟩
    obtain ⟨t, hread, hlaid⟩ :=
      exists_readCount full "row count after LIMIT" (by decide) hls h
    refine ⟨turns, t, Nat.le_of_lt_succ hbound, ?_, hlaid⟩
    rw [Select.readPage, hread]
    rfl

theorem exists_readPage_offset (hls : ls ∈ countClause "offset" offset)
    (h : Laid (ls ++ ks) s) (hbound : least < bound) :
    ∃ turns t, least ≤ turns ∧ Select.readPage full bound limit none s =
      Select.readPage full turns limit offset t ∧ Laid ks t := by
  cases offset with
  | none =>
    obtain rfl := (Language.mem_one ls).mp hls
    exact ⟨bound, s, Nat.le_of_lt hbound, rfl, h⟩
  | some n =>
    obtain ⟨turns, rfl⟩ : ∃ n, bound = n + 1 := ⟨bound - 1, by omega⟩
    -- Where an offset comes next, no limit does.
    have hlimit : Follow ["limit"] [] (ls ++ ks) := by
      rcases Language.mem_mul.mp hls with ⟨x, hx, y, -, rfl⟩
      rw [List.append_assoc]
      exact follow_of_keyword (by decide) hx
    obtain ⟨t, hread, hlaid⟩ :=
      exists_readCount full "row count after OFFSET" (by decide) hls h
    refine ⟨turns, t, Nat.le_of_lt_succ hbound, ?_, hlaid⟩
    rw [Select.readPage, readCount_absent (by decide) h hlimit]
    simp only [bind, Except.bind, hread]

theorem readPage_end (hks : Follow ["limit", "offset"] [] ks) (h : Laid ks s) :
    Select.readPage full bound limit offset s = .ok (limit, offset, s) := by
  cases bound with
  | zero => rfl
  | succ bound =>
    have hlimit : Follow ["limit"] [] ks := hks.mono (by decide) (List.Subset.refl _)
    have hoffset : Follow ["offset"] [] ks := hks.mono (by decide) (List.Subset.refl _)
    rw [Select.readPage, readCount_absent (by decide) h hlimit]
    simp only [bind, Except.bind, readCount_absent (by decide) h hoffset]
    rfl

/-- Two turns are enough for the two row counts. -/
theorem exists_readPage (full : List Char) (hls : ls ∈ page limit offset)
    (hks : Follow ["limit", "offset"] [] ks) (h : Laid (ls ++ ks) s) :
    ∃ rest, Select.readPage full 2 none none s = .ok (limit, offset, rest) ∧ Laid ks rest := by
  rcases hls with hls | hls
  · rcases Language.mem_mul.mp hls with ⟨x, hx, y, hy, rfl⟩
    rw [List.append_assoc] at h
    obtain ⟨turns, t, hturns, hlimit, h1⟩ := exists_readPage_limit hx h (Nat.lt_succ_self 1)
    obtain ⟨_, u, -, hoffset, h2⟩ := exists_readPage_offset hy h1 hturns
    exact ⟨u, by rw [hlimit, hoffset, readPage_end hks h2], h2⟩
  · rcases Language.mem_mul.mp hls with ⟨x, hx, y, hy, rfl⟩
    rw [List.append_assoc] at h
    obtain ⟨turns, t, hturns, hoffset, h1⟩ := exists_readPage_offset hx h (Nat.lt_succ_self 1)
    obtain ⟨_, u, -, hlimit, h2⟩ := exists_readPage_limit hy h1 hturns
    exact ⟨u, by rw [hoffset, hlimit, readPage_end hks h2], h2⟩

end Page

theorem endOfStatement_of_ending (full : List Char) (hls : ls ∈ ending) (h : Laid ls s) :
    Token.endOfStatement full s = .ok () := by
  unfold Token.endOfStatement Token.optional
  rcases hls with hsemicolon | hnone
  · obtain rfl := hsemicolon
    obtain ⟨t, hnext, hlaid⟩ := laid_cons.mp h
    have hread := (Token.symbol_eq_some_iff (by decide)).mpr hnext
    simp only [hread, laid_nil.mp hlaid, List.isEmpty_nil, if_true]
  · obtain rfl := (Language.mem_one ls).mp hnone
    have hread : Token.symbol ";" s = none := symbol_eq_none (by decide) h follow_nil
    simp only [hread, laid_nil.mp h, List.isEmpty_nil, if_true]

theorem exists_readReturning (full : List Char) {columns : Option (List String)}
    (hls : ls ∈ returning columns) (hks : Follow ["returning"] [","] ks)
    (h : Laid (ls ++ ks) s) : Finds (Insert.readReturning full s) columns ks := by
  unfold Insert.readReturning
  cases columns with
  | none =>
    obtain rfl := (Language.mem_one ls).mp hls
    have hread : Token.keyword "returning" s = none :=
      keyword_eq_none (by decide) h (hks.mono (List.Subset.refl _) (List.nil_subset _))
    exact ⟨s, by rw [hread], h⟩
  | some columns =>
    rcases Language.mem_mul.mp hls with ⟨x, hx, y, hy, rfl⟩
    rw [List.append_assoc] at h
    obtain ⟨t, hread, hlaid⟩ := exists_keyword (by decide) hx h
    have hcomma : Follow [] [","] ks := hks.mono (List.nil_subset _) (List.Subset.refl _)
    obtain ⟨rest, hcolumns, hrest⟩ := accepts_projection columns y hy ks t hcomma hlaid
    refine ⟨rest, ?_, hrest⟩
    rw [hread]
    exact bind_eq_ok_iff.mpr ⟨_, Token.expect_eq_ok_iff.mpr hcolumns, rfl⟩

theorem accepts_assignment (moment : Moment) :
    Accepts (Update.assignment moment) (assignment written) [] [] := by
  intro a ls hls ks s _ h
  rcases Language.mem_mul.mp hls with ⟨x, hx, y, hy, rfl⟩
  rcases Language.mem_mul.mp hy with ⟨u, hu, v, hv, rfl⟩
  rw [List.append_assoc, List.append_assoc] at h
  obtain ⟨t1, hfield, h1⟩ := accepts_identifier a.1 x hx _ s (follow_none _) h
  obtain ⟨t2, hequals, h2⟩ := exists_symbol (by decide) hu h1
  obtain ⟨rest, hvalue, hrest⟩ := accepts_value moment a.2 v hv ks t2 (follow_none ks) h2
  refine ⟨rest, ?_, hrest⟩
  unfold Update.assignment
  simp only [hfield, hequals, hvalue]

theorem exists_assignmentList (moment : Moment) (full : List Char)
    {assignments : List (String × ValueSource)} {bound : Nat}
    (hls : ls ∈ commaList (assignment written) assignments) (hbound : ls.length < bound)
    (hks : Follow [] [","] ks) (h : Laid (ls ++ ks) s) :
    Finds (Update.assignmentList moment full bound s) assignments ks := by
  induction assignments generalizing ls s bound with
  | nil => cases hls
  | cons a more ih =>
    obtain ⟨bound, rfl⟩ : ∃ n, bound = n + 1 := ⟨bound - 1, by omega⟩
    rcases Language.mem_mul.mp hls with ⟨x, hx, y, hy, rfl⟩
    rw [List.append_assoc] at h
    obtain ⟨t, ha, hlaid⟩ := accepts_assignment moment a x hx _ s (follow_none _) h
    unfold Finds
    rw [Update.assignmentList]
    cases more with
    | nil =>
      obtain rfl := (Language.mem_one y).mp hy
      refine ⟨t, bind_eq_ok_iff.mpr ⟨_, Token.expect_eq_ok_iff.mpr ha, ?_⟩, hlaid⟩
      simp only [symbol_eq_none (by decide) hlaid hks]
      rfl
    | cons b more =>
      rcases Language.mem_mul.mp hy with ⟨u, hu, v, hv, rfl⟩
      have hlength : v.length < bound := by
        obtain rfl := hu
        simp only [List.length_append, List.length_cons, List.length_nil] at hbound
        omega
      rw [List.append_assoc] at hlaid
      obtain ⟨t', hcomma, hlaid'⟩ := exists_symbol (by decide) hu hlaid
      obtain ⟨rest, hmore, hrest⟩ := ih hv hlength hlaid'
      refine ⟨rest, bind_eq_ok_iff.mpr ⟨_, Token.expect_eq_ok_iff.mpr ha, ?_⟩, hrest⟩
      simp only [hcomma]
      exact bind_eq_ok_iff.mpr ⟨_, hmore, rfl⟩

theorem accepts_column : Accepts CreateIndex.column column ["asc", "desc"] [] := by
  intro field ls hls ks s hks h
  rcases Language.mem_mul.mp hls with ⟨x, hx, y, hy, rfl⟩
  rw [List.append_assoc] at h
  obtain ⟨t, hfield, hlaid⟩ := accepts_identifier field x hx _ s (follow_none _) h
  obtain ⟨o, ho⟩ : ∃ o, y ∈ order o := by
    rcases hy with (hasc | hdesc) | hnone
    · exact ⟨.asc, .inl hasc⟩
    · exact ⟨.desc, hdesc⟩
    · exact ⟨.asc, .inr hnone⟩
  obtain ⟨rest, horder, hrest⟩ := exists_order ho hks hlaid
  refine ⟨rest, ?_, hrest⟩
  unfold CreateIndex.column
  simp only [hfield, Option.map_some, horder]

theorem exists_columnsFrom {fields : List String} {ms : List Lexeme} {bound : Nat}
    (hls : ls ∈ commaList column fields) (hms : ms ∈ symbol ")") (hbound : ls.length < bound)
    (h : Laid (ls ++ (ms ++ ks)) s) :
    ∃ rest, CreateIndex.columnsFrom bound s = some (fields, rest) ∧ Laid ks rest := by
  have hclose : Follow ["asc", "desc"] [","] (ms ++ ks) := by
    obtain rfl := hms
    exact follow_cons (by simp [IsOneOf])
  induction fields generalizing ls s bound with
  | nil => cases hls
  | cons field more ih =>
    obtain ⟨bound, rfl⟩ : ∃ n, bound = n + 1 := ⟨bound - 1, by omega⟩
    rcases Language.mem_mul.mp hls with ⟨x, hx, y, hy, rfl⟩
    rw [List.append_assoc] at h
    have hdirection : Follow ["asc", "desc"] [] (y ++ (ms ++ ks)) :=
      (starts_followers "," more).follow (by simp) (by simp) hy
        (hclose.mono (List.Subset.refl _) (List.nil_subset _))
    obtain ⟨t, hfield, hlaid⟩ := accepts_column field x hx _ s hdirection h
    rw [CreateIndex.columnsFrom]
    cases more with
    | nil =>
      obtain rfl := (Language.mem_one y).mp hy
      have hcomma : Token.symbol "," t = none :=
        symbol_eq_none (by decide) hlaid (hclose.mono (List.nil_subset _) (List.Subset.refl _))
      obtain ⟨rest, hread, hrest⟩ := exists_symbol (by decide) hms hlaid
      refine ⟨rest, ?_, hrest⟩
      simp only [hfield, hcomma, hread, Option.map_some]
    | cons next more =>
      rcases Language.mem_mul.mp hy with ⟨u, hu, v, hv, rfl⟩
      have hlength : v.length < bound := by
        obtain rfl := hu
        simp only [List.length_append, List.length_cons, List.length_nil] at hbound
        omega
      rw [List.append_assoc] at hlaid
      obtain ⟨t', hcomma, hlaid'⟩ := exists_symbol (by decide) hu hlaid
      obtain ⟨rest, hmore, hrest⟩ := ih hv hlength hlaid'
      refine ⟨rest, ?_, hrest⟩
      simp only [hfield, hcomma, hmore, Option.map_some]

theorem accepts_columns :
    Accepts CreateIndex.columns (fun fields => parenthesized (commaList column fields)) [] [] := by
  intro fields ls hls ks s _ h
  rcases Language.mem_mul.mp hls with ⟨x, hx, y, hy, rfl⟩
  rcases Language.mem_mul.mp hy with ⟨u, hu, v, hv, rfl⟩
  rw [List.append_assoc, List.append_assoc] at h
  obtain ⟨t, hopen, hlaid⟩ := exists_symbol (by decide) hx h
  have hbound : u.length < t.length + 1 := Nat.lt_succ_of_le hlaid.length_le_of_append
  obtain ⟨rest, hcolumns, hrest⟩ := exists_columnsFrom hu hv hbound hlaid
  refine ⟨rest, ?_, hrest⟩
  unfold CreateIndex.columns
  simp only [hopen, hcolumns]

end Clauses

section Statements

variable {full : List Char} {ls : List Lexeme}

theorem starts_ending : Starts [] [";"] ending := (starts_symbol ";").add starts_one

theorem starts_countClause (kw : String) (n : Option Nat) :
    Starts [kw] [] (countClause kw n) := by
  cases n with
  | none => exact starts_one
  | some n => exact starts_keyword_mul kw _

theorem starts_page (limit offset : Option Nat) :
    Starts ["limit", "offset", "offset", "limit"] [] (page limit offset) :=
  ((starts_countClause "limit" limit).mul (starts_countClause "offset" offset)).add
    ((starts_countClause "offset" offset).mul (starts_countClause "limit" limit))

theorem starts_orderBy (o : Option OrderBy) : Starts ["order"] [] (orderBy o) := by
  cases o with
  | none => exact starts_one
  | some o =>
    have h := starts_keyword_mul "order" (keyword "by" * (name o.field * order o.order))
    simpa only [orderBy, keywords, List.map_cons, List.map_nil, List.prod_cons, List.prod_nil,
      mul_one, mul_assoc] using h

theorem starts_whereClause (V : ValueSource → Tokens) (ps : List Predicate) :
    Starts ["where"] [] (whereClause V ps) := by
  cases ps with
  | nil => exact starts_one
  | cons p more => exact starts_keyword_mul "where" _

theorem read_select (moment : Moment) {s : Select} (hls : ls ∈ select written s)
    (h : Laid ls full) : Select.read moment full = .ok s := by
  rcases Language.mem_mul.mp hls with ⟨x1, hx1, y1, hy1, rfl⟩
  rcases Language.mem_mul.mp hy1 with ⟨x2, hx2, y2, hy2, rfl⟩
  rcases Language.mem_mul.mp hy2 with ⟨x3, hx3, y3, hy3, rfl⟩
  rcases Language.mem_mul.mp hy3 with ⟨x4, hx4, y4, hy4, rfl⟩
  rcases Language.mem_mul.mp hy4 with ⟨x5, hx5, y5, hy5, rfl⟩
  rcases Language.mem_mul.mp hy5 with ⟨x6, hx6, y6, hy6, rfl⟩
  rcases Language.mem_mul.mp hy6 with ⟨x7, hx7, y7, hy7, rfl⟩
  have hfrom : Follow [] [","] (x3 ++ (x4 ++ (x5 ++ (x6 ++ (x7 ++ y7))))) :=
    (starts_keyword_mul "from" _).follow_last (by decide) (by decide) hy2
  have hclauses : Follow ["where", "and", "or"] [] (x6 ++ (x7 ++ y7)) :=
    ((starts_orderBy _).mul ((starts_page _ _).mul starts_ending)).follow_last
      (by decide) (by decide) hy5
  have hpage : Follow ["order", "asc", "desc"] [] (x7 ++ y7) :=
    ((starts_page _ _).mul starts_ending).follow_last (by decide) (by decide) hy6
  have hend : Follow ["limit", "offset"] [] y7 :=
    starts_ending.follow_last (by decide) (by decide) hy7
  obtain ⟨t1, h1, hlaid⟩ := exists_keyword (by decide) hx1 h
  obtain ⟨t2, h2, hlaid⟩ := accepts_projection s.projection x2 hx2 _ t1 hfrom hlaid
  obtain ⟨t3, h3, hlaid⟩ := exists_keyword (by decide) hx3 hlaid
  obtain ⟨t4, h4, hlaid⟩ := accepts_identifier s.collection x4 hx4 _ t3 (follow_none _) hlaid
  obtain ⟨t5, h5, hlaid⟩ := exists_whereClause moment full hx5 hclauses hlaid
  obtain ⟨t6, h6, hlaid⟩ := exists_readOrder full hx6 hpage hlaid
  obtain ⟨t7, h7, hlaid⟩ := exists_readPage full hx7 hend hlaid
  have h8 := endOfStatement_of_ending full hy7 hlaid
  unfold Select.read
  refine bind_eq_ok_iff.mpr ⟨t1, Token.expectText_eq_ok_iff.mpr h1, ?_⟩
  refine bind_eq_ok_iff.mpr ⟨_, Token.expect_eq_ok_iff.mpr h2, ?_⟩
  refine bind_eq_ok_iff.mpr ⟨t3, Token.expectText_eq_ok_iff.mpr h3, ?_⟩
  refine bind_eq_ok_iff.mpr ⟨_, Token.expect_eq_ok_iff.mpr h4, ?_⟩
  refine bind_eq_ok_iff.mpr ⟨_, h5, ?_⟩
  refine bind_eq_ok_iff.mpr ⟨_, h6, ?_⟩
  refine bind_eq_ok_iff.mpr ⟨_, h7, ?_⟩
  exact bind_eq_ok_iff.mpr ⟨_, h8, rfl⟩

theorem read_insert (moment : Moment) {s : Insert} (hls : ls ∈ insert written s)
    (h : Laid ls full) : Insert.read moment full = .ok s := by
  rcases Language.mem_mul.mp hls with ⟨x1, hx1, y1, hy1, rfl⟩
  rcases Language.mem_mul.mp hy1 with ⟨x2, hx2, y2, hy2, rfl⟩
  rcases Language.mem_mul.mp hy2 with ⟨x3, hx3, y3, hy3, rfl⟩
  rcases Language.mem_mul.mp hy3 with ⟨x4, hx4, y4, hy4, rfl⟩
  rcases Language.mem_mul.mp hy4 with ⟨x5, hx5, y5, hy5, rfl⟩
  rcases Language.mem_mul.mp hy5 with ⟨x6, hx6, y6, hy6, rfl⟩
  have hend : Follow ["returning"] [","] y6 :=
    starts_ending.follow_last (by decide) (by decide) hy6
  have hcolumns : Accepts Token.parenIdentifierList
      (fun names => parenthesized (commaList name names)) [] [] :=
    accepts_parenthesized (accepts_commaList accepts_identifier (by decide)) (by decide)
  have hvalues : Accepts (Token.parenValueList moment)
      (fun sources => parenthesized (commaList written sources)) [] [] :=
    accepts_parenthesized (accepts_commaList (accepts_value moment) (by decide)) (by decide)
  obtain ⟨t1, h1, hlaid⟩ := exists_keywords (by decide) hx1 h
  obtain ⟨t2, h2, hlaid⟩ := accepts_identifier s.collection x2 hx2 _ t1 (follow_none _) hlaid
  obtain ⟨t3, h3, hlaid⟩ := hcolumns _ x3 hx3 _ t2 (follow_none _) hlaid
  obtain ⟨t4, h4, hlaid⟩ := exists_keyword (by decide) hx4 hlaid
  obtain ⟨t5, h5, hlaid⟩ := hvalues _ x5 hx5 _ t4 (follow_none _) hlaid
  obtain ⟨t6, h6, hlaid⟩ := exists_readReturning full hx6 hend hlaid
  have h7 := endOfStatement_of_ending full hy6 hlaid
  have hlength : ¬(s.fields.map (·.1)).length ≠ (s.fields.map (·.2)).length := by
    simp only [List.length_map, ne_eq, not_true_eq_false, not_false_eq_true]
  have hfields : (s.fields.map (·.1)).zip (s.fields.map (·.2)) = s.fields := by
    rw [List.zip_map', List.map_id'']
    exact fun a => rfl
  unfold Insert.read
  refine bind_eq_ok_iff.mpr ⟨t1, Token.expectText_eq_ok_iff.mpr h1, ?_⟩
  refine bind_eq_ok_iff.mpr ⟨_, Token.expect_eq_ok_iff.mpr h2, ?_⟩
  refine bind_eq_ok_iff.mpr ⟨_, Token.expect_eq_ok_iff.mpr h3, ?_⟩
  refine bind_eq_ok_iff.mpr ⟨t4, Token.expectText_eq_ok_iff.mpr h4, ?_⟩
  refine bind_eq_ok_iff.mpr ⟨_, Token.expect_eq_ok_iff.mpr h5, ?_⟩
  dsimp only
  rw [if_neg hlength, hfields]
  refine bind_eq_ok_iff.mpr ⟨_, h6, ?_⟩
  exact bind_eq_ok_iff.mpr ⟨_, h7, rfl⟩

theorem read_update (moment : Moment) {s : Update} (hls : ls ∈ update written s)
    (h : Laid ls full) : Update.read moment full = .ok s := by
  rcases Language.mem_mul.mp hls with ⟨x1, hx1, y1, hy1, rfl⟩
  rcases Language.mem_mul.mp hy1 with ⟨x2, hx2, y2, hy2, rfl⟩
  rcases Language.mem_mul.mp hy2 with ⟨x3, hx3, y3, hy3, rfl⟩
  rcases Language.mem_mul.mp hy3 with ⟨x4, hx4, y4, hy4, rfl⟩
  rcases Language.mem_mul.mp hy4 with ⟨x5, hx5, y5, hy5, rfl⟩
  have hwhere : Follow [] [","] (x5 ++ y5) :=
    ((starts_whereClause _ _).mul starts_ending).follow_last (by decide) (by decide) hy4
  have hend : Follow ["where", "and", "or"] [] y5 :=
    starts_ending.follow_last (by decide) (by decide) hy5
  obtain ⟨t1, h1, hlaid⟩ := exists_keyword (by decide) hx1 h
  obtain ⟨t2, h2, hlaid⟩ := accepts_identifier s.collection x2 hx2 _ t1 (follow_none _) hlaid
  obtain ⟨t3, h3, hlaid⟩ := exists_keyword (by decide) hx3 hlaid
  have hbound : x4.length < t3.length + 1 := Nat.lt_succ_of_le hlaid.length_le_of_append
  obtain ⟨t4, h4, hlaid⟩ := exists_assignmentList moment full hx4 hbound hwhere hlaid
  obtain ⟨t5, h5, hlaid⟩ := exists_whereClause moment full hx5 hend hlaid
  have h6 := endOfStatement_of_ending full hy5 hlaid
  unfold Update.read
  refine bind_eq_ok_iff.mpr ⟨t1, Token.expectText_eq_ok_iff.mpr h1, ?_⟩
  refine bind_eq_ok_iff.mpr ⟨_, Token.expect_eq_ok_iff.mpr h2, ?_⟩
  refine bind_eq_ok_iff.mpr ⟨t3, Token.expectText_eq_ok_iff.mpr h3, ?_⟩
  refine bind_eq_ok_iff.mpr ⟨_, h4, ?_⟩
  refine bind_eq_ok_iff.mpr ⟨_, h5, ?_⟩
  exact bind_eq_ok_iff.mpr ⟨_, h6, rfl⟩

theorem read_delete (moment : Moment) {s : Delete} (hls : ls ∈ delete written s)
    (h : Laid ls full) : Delete.read moment full = .ok s := by
  rcases Language.mem_mul.mp hls with ⟨x1, hx1, y1, hy1, rfl⟩
  rcases Language.mem_mul.mp hy1 with ⟨x2, hx2, y2, hy2, rfl⟩
  rcases Language.mem_mul.mp hy2 with ⟨x3, hx3, y3, hy3, rfl⟩
  have hend : Follow ["where", "and", "or"] [] y3 :=
    starts_ending.follow_last (by decide) (by decide) hy3
  obtain ⟨t1, h1, hlaid⟩ := exists_keywords (by decide) hx1 h
  obtain ⟨t2, h2, hlaid⟩ := accepts_identifier s.collection x2 hx2 _ t1 (follow_none _) hlaid
  obtain ⟨t3, h3, hlaid⟩ := exists_whereClause moment full hx3 hend hlaid
  have h4 := endOfStatement_of_ending full hy3 hlaid
  unfold Delete.read
  refine bind_eq_ok_iff.mpr ⟨t1, Token.expectText_eq_ok_iff.mpr h1, ?_⟩
  refine bind_eq_ok_iff.mpr ⟨_, Token.expect_eq_ok_iff.mpr h2, ?_⟩
  refine bind_eq_ok_iff.mpr ⟨_, h3, ?_⟩
  exact bind_eq_ok_iff.mpr ⟨_, h4, rfl⟩

end Statements

section Index

variable {full s : List Char} {ls ms ks : List Lexeme}

/-- What a statement may have is found exactly if it was written. -/
theorem exists_optional {reader : List Char → Option (List Char)} {L : Tokens} {b : Bool}
    (hfound : ∀ ls ∈ L, Laid (ls ++ ks) s → ∃ rest, reader s = some rest ∧ Laid ks rest)
    (habsent : Laid ks s → reader s = none) (hls : ls ∈ flag L b) (h : Laid (ls ++ ks) s) :
    ∃ rest, Token.optional reader s = (b, rest) ∧ Laid ks rest := by
  unfold Token.optional
  cases b with
  | true =>
    obtain ⟨rest, hread, hlaid⟩ := hfound ls hls h
    exact ⟨rest, by rw [hread], hlaid⟩
  | false =>
    obtain rfl := (Language.mem_one ls).mp hls
    exact ⟨s, by rw [habsent h], h⟩

/-- A bare index may be called `if`, but no `NOT` comes after it. -/
theorem keywords_ifNotExists_eq_none {c : CreateIndex} {L : Tokens} (hls : ls ∈ indexName c)
    (hms : ms ∈ keyword "on" * L) (h : Laid (ls ++ ms) s) :
    Token.keywords ["if", "not", "exists"] s = none := by
  have hon : ∀ kw, kw ≠ "on" → Follow [kw] [] ms := by
    intro kw hkw
    refine (starts_keyword_mul "on" L).follow_last ?_ (by simp) hms
    simpa using Ne.symm hkw
  rcases hls with ⟨l, hl, rfl⟩ | ⟨rfl, -⟩
  · rw [Token.keywords]
    cases hif : Token.keyword "if" s with
    | none => rfl
    | some t =>
      obtain ⟨letters, -, hnext⟩ := (Token.keyword_eq_some_iff (by decide)).mp hif
      obtain ⟨more, heq, hlaid⟩ := laid_of_next h hnext
      obtain ⟨-, rfl⟩ := List.cons.inj heq
      exact keywords_eq_none ["exists"] (by decide) hlaid (hon "not" (by decide))
  · exact keywords_eq_none _ (by decide) h (hon "if" (by decide))

theorem identifier_eq_none {kw : String} {L : Tokens} (hkw : kw ∈ Token.reserved)
    (hms : ms ∈ keyword kw * L) (h : Laid ms s) : Token.identifier s = none := by
  rcases Language.mem_mul.mp hms with ⟨x, ⟨letters, hletters, rfl⟩, y, -, rfl⟩
  have hreads : ∀ read, Token.identifier s = some read →
      ∃ (l : Lexeme) (rest : List Char), (∃ n, l.Names n) ∧ Next l s rest := by
    intro read hread
    obtain ⟨l, hl, hnext⟩ := Token.identifier_eq_some_iff.mp hread
    exact ⟨l, read.2, ⟨read.1, hl⟩, hnext⟩
  refine eq_none_of_head hreads h ?_
  rintro l hl ⟨n, hn⟩
  obtain rfl := Option.some.inj hl
  have hreserved : Token.isReserved letters = false := hn.2
  rw [Token.isReserved, hletters, String.ofList_toList] at hreserved
  simp [hkw] at hreserved

theorem exists_readName {c : CreateIndex} {L : Tokens} (hls : ls ∈ indexName c)
    (hms : ms ∈ keyword "on" * L) (h : Laid (ls ++ ms) s) :
    ∃ name? rest, CreateIndex.readName s = (name?, rest) ∧ Laid ms rest ∧
      name?.getD (CreateIndex.defaultName c.collection c.fields) = c.indexName := by
  unfold CreateIndex.readName
  rcases hls with hname | ⟨rfl, hdefault⟩
  · obtain ⟨rest, hread, hlaid⟩ := accepts_identifier c.indexName ls hname ms s (follow_none _) h
    exact ⟨some c.indexName, rest, by rw [hread], hlaid, rfl⟩
  · exact ⟨none, s, by rw [identifier_eq_none (by decide) hms h], h, hdefault.symm⟩

theorem exists_skipMethod (hls : ls ∈ method) (hks : Follow ["using"] [] ks)
    (h : Laid (ls ++ ks) s) : Laid ks (CreateIndex.skipMethod s) := by
  unfold CreateIndex.skipMethod
  rcases hls with hmethod | hnone
  · rcases Language.mem_mul.mp hmethod with ⟨x, hx, y, ⟨n, hy⟩, rfl⟩
    rw [List.append_assoc] at h
    obtain ⟨t, husing, hlaid⟩ := exists_keyword (by decide) hx h
    obtain ⟨rest, hread, hrest⟩ := accepts_identifier n y hy ks t (follow_none _) hlaid
    simpa only [husing, Option.bind_some, hread] using hrest
  · obtain rfl := (Language.mem_one ls).mp hnone
    rw [keyword_eq_none (by decide) h hks]
    exact h

theorem read_createIndex {c : CreateIndex} (hls : ls ∈ createIndex c) (h : Laid ls full) :
    CreateIndex.read full = .ok c := by
  rcases Language.mem_mul.mp hls with ⟨x1, hx1, y1, hy1, rfl⟩
  rcases Language.mem_mul.mp hy1 with ⟨x2, hx2, y2, hy2, rfl⟩
  rcases Language.mem_mul.mp hy2 with ⟨x3, hx3, y3, hy3, rfl⟩
  rcases Language.mem_mul.mp hy3 with ⟨x4, hx4, y4, hy4, rfl⟩
  rcases Language.mem_mul.mp hy4 with ⟨x5, hx5, y5, hy5, rfl⟩
  rcases Language.mem_mul.mp hy5 with ⟨x6, hx6, y6, hy6, rfl⟩
  rcases Language.mem_mul.mp hy6 with ⟨x7, hx7, y7, hy7, rfl⟩
  rcases Language.mem_mul.mp hy7 with ⟨x8, hx8, y8, hy8, rfl⟩
  rcases Language.mem_mul.mp hy8 with ⟨x9, hx9, y9, hy9, rfl⟩
  have hindex : Follow ["unique"] [] (x3 ++ (x4 ++ (x5 ++ (x6 ++ (x7 ++ (x8 ++ (x9 ++ y9))))))) :=
    (starts_keyword_mul "index" _).follow_last (by decide) (by decide) hy2
  have hparenthesis : Follow ["using"] [] (x9 ++ y9) := by
    have hopen := (starts_symbol_mul "(" (commaList column c.fields * symbol ")")).mul starts_ending
    exact hopen.follow_last (by decide) (by decide) hy8
  obtain ⟨t1, h1, hlaid⟩ := exists_keyword (by decide) hx1 h
  obtain ⟨t2, h2, hlaid⟩ := exists_optional (fun _ hu => exists_keyword (by decide) hu)
    (fun hlaid => keyword_eq_none (by decide) hlaid hindex) hx2 hlaid
  obtain ⟨t3, h3, hlaid⟩ := exists_keyword (by decide) hx3 hlaid
  obtain ⟨t4, h4, hlaid⟩ := exists_optional (fun _ hu => exists_keywords (by decide) hu)
    (fun hlaid => keywords_ifNotExists_eq_none hx5 hy5 hlaid) hx4 hlaid
  obtain ⟨name?, t5, h5, hlaid, hname⟩ := exists_readName hx5 hy5 hlaid
  obtain ⟨t6, h6, hlaid⟩ := exists_keyword (by decide) hx6 hlaid
  obtain ⟨t7, h7, hlaid⟩ := accepts_identifier c.collection x7 hx7 _ t6 (follow_none _) hlaid
  have hlaid := exists_skipMethod hx8 hparenthesis hlaid
  obtain ⟨t9, h9, hlaid⟩ := accepts_columns c.fields x9 hx9 _ _ (follow_none _) hlaid
  have h10 := endOfStatement_of_ending full hy9 hlaid
  unfold CreateIndex.read
  refine bind_eq_ok_iff.mpr ⟨t1, Token.expectText_eq_ok_iff.mpr h1, ?_⟩
  simp only [h2]
  refine bind_eq_ok_iff.mpr ⟨t3, Token.expectText_eq_ok_iff.mpr h3, ?_⟩
  simp only [h4, h5]
  refine bind_eq_ok_iff.mpr ⟨t6, Token.expectText_eq_ok_iff.mpr h6, ?_⟩
  refine bind_eq_ok_iff.mpr ⟨_, Token.expect_eq_ok_iff.mpr h7, ?_⟩
  refine bind_eq_ok_iff.mpr ⟨_, Token.expect_eq_ok_iff.mpr h9, ?_⟩
  refine bind_eq_ok_iff.mpr ⟨_, h10, ?_⟩
  rw [hname]
  rfl

end Index

section Kinds

variable {s : List Char} {ls ks : List Lexeme}

theorem word_of_next {letters rest : List Char} (h : Next (.word letters) s rest) :
    Token.word s = some (letters, rest) := by
  rw [next_iff] at h
  obtain ⟨htake, hdrop⟩ := h.word_span
  obtain ⟨⟨c, more, rfl, -⟩, -⟩ := h.wellFormed
  unfold Token.word
  simp only [htake, hdrop, List.isEmpty_cons, Bool.false_eq_true, if_false]

theorem leadingWords_of_lays {kw : String} {rest : List Char} (count : Nat)
    (hls : ls ∈ keyword kw) (h : Lays ls s rest) :
    StatementKind.leadingWords (count + 1) s = kw :: StatementKind.leadingWords count rest := by
  obtain ⟨letters, hletters, rfl⟩ := hls
  have hnext : Next (.word letters) s rest := lays_singleton.mp h
  simp only [StatementKind.leadingWords, word_of_next hnext, hletters, String.ofList_toList]

theorem exists_leadingWords {kw : String} (count : Nat) (hls : ls ∈ keyword kw)
    (h : Laid (ls ++ ks) s) :
    ∃ rest, StatementKind.leadingWords (count + 1) s =
      kw :: StatementKind.leadingWords count rest ∧ Laid ks rest := by
  obtain ⟨rest, hlays, hlaid⟩ := laid_append.mp h
  exact ⟨rest, leadingWords_of_lays count hls hlays, hlaid⟩

theorem ofText_of_keyword {kw : String} {kind : StatementKind} {L : Tokens}
    (hkind : ∀ ws, StatementKind.ofWords (kw :: ws) = kind) (hls : ls ∈ keyword kw * L)
    (h : Laid ls s) : StatementKind.ofText s = kind := by
  rcases Language.mem_mul.mp hls with ⟨x, hx, y, -, rfl⟩
  obtain ⟨rest, hwords, -⟩ := exists_leadingWords 2 hx h
  rw [StatementKind.ofText, hwords, hkind]

theorem keywords_cons_mul (kw : String) (kws : List String) (L : Tokens) :
    keywords (kw :: kws) * L = keyword kw * (keywords kws * L) := by
  rw [keywords, List.map_cons, List.prod_cons, mul_assoc]
  rfl

theorem ofText_createIndex {c : CreateIndex} (hls : ls ∈ createIndex c) (h : Laid ls s) :
    StatementKind.ofText s = .createIndex := by
  rcases Language.mem_mul.mp hls with ⟨x1, hx1, y1, hy1, rfl⟩
  rcases Language.mem_mul.mp hy1 with ⟨x2, hx2, y2, hy2, rfl⟩
  rcases Language.mem_mul.mp hy2 with ⟨x3, hx3, y3, -, rfl⟩
  obtain ⟨t1, hcreate, hlaid⟩ := exists_leadingWords 2 hx1 h
  rw [StatementKind.ofText, hcreate]
  cases hunique : c.unique with
  | false =>
    rw [hunique] at hx2
    obtain rfl := (Language.mem_one x2).mp hx2
    obtain ⟨t2, hindex, -⟩ := exists_leadingWords 1 hx3 hlaid
    rw [hindex]
    rfl
  | true =>
    rw [hunique] at hx2
    obtain ⟨t2, hword, hlaid⟩ := exists_leadingWords 1 hx2 hlaid
    obtain ⟨t3, hindex, -⟩ := exists_leadingWords 0 hx3 hlaid
    rw [hword, hindex]
    rfl

end Kinds

/-- Whatever is laid out in the lexemes of a statement is read as that statement. -/
theorem ofTrimmed_of_laid (moment : Moment) {s : Statement} {ls : List Lexeme} {text : List Char}
    (hls : ls ∈ statement written s) (h : Laid ls text) :
    Statement.ofTrimmed moment text = .ok s := by
  unfold Statement.ofTrimmed
  cases s with
  | select s =>
    rw [ofText_of_keyword (fun _ => rfl) hls h]
    exact map_eq_ok_iff.mpr ⟨s, read_select moment hls h, rfl⟩
  | insert s =>
    have hwords := hls
    rw [statement, insert, keywords_cons_mul] at hwords
    rw [ofText_of_keyword (fun _ => rfl) hwords h]
    exact map_eq_ok_iff.mpr ⟨s, read_insert moment hls h, rfl⟩
  | update s =>
    rw [ofText_of_keyword (fun _ => rfl) hls h]
    exact map_eq_ok_iff.mpr ⟨s, read_update moment hls h, rfl⟩
  | delete s =>
    have hwords := hls
    rw [statement, delete, keywords_cons_mul] at hwords
    rw [ofText_of_keyword (fun _ => rfl) hwords h]
    exact map_eq_ok_iff.mpr ⟨s, read_delete moment hls h, rfl⟩
  | createIndex c =>
    rw [ofText_createIndex hls h]
    exact map_eq_ok_iff.mpr ⟨c, read_createIndex hls h, rfl⟩
  | _ => cases hls

end DocumentSql.Grammar
