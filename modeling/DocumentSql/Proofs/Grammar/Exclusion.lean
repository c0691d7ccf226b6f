import DocumentSql.Proofs.Grammar.Language
/-
What no statement is made of: the word `OR`, a condition between parentheses, anything behind its
semicolon.
-/

namespace DocumentSql.Grammar

/-- No lexeme of the language is one of these. -/
def Avoids (words signs : List String) (L : Tokens) : Prop :=
  ∀ ls ∈ L, ∀ l ∈ ls, ¬IsOneOf words signs l

section Avoiding

variable {words signs : List String} {L M : Tokens}

theorem avoids_one : Avoids words signs 1 := by
  intro ls hls l hl
  obtain rfl := (Language.mem_one ls).mp hls
  cases hl

theorem Avoids.mul (hL : Avoids words signs L) (hM : Avoids words signs M) :
    Avoids words signs (L * M) := by
  intro ls hls l hl
  obtain ⟨a, ha, b, hb, rfl⟩ := Language.mem_mul.mp hls
  cases List.mem_append.mp hl with
  | inl hmem => exact hL a ha l hmem
  | inr hmem => exact hM b hb l hmem

theorem Avoids.add (hL : Avoids words signs L) (hM : Avoids words signs M) :
    Avoids words signs (L + M) := by
  rintro ls (hls | hls)
  · exact hL ls hls
  · exact hM ls hls

theorem Avoids.mono {words' signs' : List String} (h : Avoids words signs L)
    (hwords : words' ⊆ words) (hsigns : signs' ⊆ signs) : Avoids words' signs' L := by
  intro ls hls l hl hone
  exact h ls hls l hl (hone.mono hwords hsigns)

theorem avoids_of_forall (h : ∀ ls ∈ L, ∃ l, ls = [l] ∧ ¬IsOneOf words signs l) :
    Avoids words signs L := by
  intro ls hls l hl
  obtain ⟨l', rfl, hl'⟩ := h ls hls
  rwa [List.mem_singleton.mp hl]

theorem avoids_keyword {kw : String} (hkw : kw ∉ words) : Avoids words signs (keyword kw) := by
  apply avoids_of_forall
  rintro ls ⟨letters, hletters, rfl⟩
  exact ⟨_, rfl, fun hone => hkw ((isOneOf_word hletters).mp hone)⟩

theorem avoids_keywords {kws : List String} (hkws : ∀ kw ∈ kws, kw ∉ words) :
    Avoids words signs (keywords kws) := by
  induction kws with
  | nil => exact avoids_one
  | cons kw kws ih =>
    rw [keywords, List.map_cons, List.prod_cons]
    have hkw : Avoids words signs (keyword kw) := avoids_keyword (hkws kw List.mem_cons_self)
    exact hkw.mul (ih fun k hk => hkws k (List.mem_cons_of_mem _ hk))

theorem avoids_symbol {mark : String} (hmark : mark ∉ signs) :
    Avoids words signs (symbol mark) := by
  apply avoids_of_forall
  rintro ls rfl
  exact ⟨_, rfl, hmark⟩

/-- Reserved words are no bare names. -/
theorem avoids_name (hwords : words ⊆ Token.reserved) (n : String) :
    Avoids words signs (name n) := by
  apply avoids_of_forall
  rintro ls ⟨l, hl, rfl⟩
  refine ⟨l, rfl, fun hone => ?_⟩
  cases l with
  | word letters =>
    have hreserved : Token.isReserved letters = true := by
      simpa [Token.isReserved] using hwords hone
    rw [hl.2] at hreserved
    cases hreserved
  | quoted letters => exact hone
  | _ => cases hl

theorem avoids_parameter (n : Nat) : Avoids words signs (parameter n) := by
  apply avoids_of_forall
  rintro ls ⟨digits, -, -, -, rfl⟩
  exact ⟨_, rfl, fun hone => hone⟩

theorem avoids_text (s : String) : Avoids words signs (text s) := by
  apply avoids_of_forall
  rintro ls rfl
  exact ⟨_, rfl, fun hone => hone⟩

theorem avoids_count (n : Nat) : Avoids words signs (count n) := by
  apply avoids_of_forall
  rintro ls ⟨digits, -, -, rfl⟩
  exact ⟨_, rfl, fun hone => hone⟩

theorem avoids_separated {α : Type} {separator : Tokens} {item : α → Tokens}
    (hseparator : Avoids words signs separator) (hitem : ∀ a, Avoids words signs (item a))
    (as : List α) : Avoids words signs (separated separator item as) := by
  have hfollowers : Avoids words signs (followers separator item as.tail) := by
    induction as.tail with
    | nil => exact avoids_one
    | cons a more ih => exact hseparator.mul ((hitem a).mul ih)
  cases as with
  | nil => exact fun ls hls => nomatch hls
  | cons a more => exact (hitem a).mul hfollowers

theorem avoids_commaList {α : Type} {item : α → Tokens} (hitem : ∀ a, Avoids words signs (item a))
    (hcomma : "," ∉ signs) (as : List α) : Avoids words signs (commaList item as) :=
  avoids_separated (avoids_symbol hcomma) hitem as

theorem avoids_projection (hwords : words ⊆ Token.reserved) (hstar : "*" ∉ signs)
    (hcomma : "," ∉ signs) (fields : List String) : Avoids words signs (projection fields) := by
  cases fields with
  | nil => exact avoids_symbol hstar
  | cons n more => exact avoids_commaList (avoids_name hwords) hcomma _

theorem avoids_pattern (source : ValueSource) : Avoids words signs (pattern source) := by
  cases source with
  | parameter n => exact avoids_parameter n
  | literal v =>
    cases v with
    | text s => exact avoids_text s
    | _ => exact fun ls hls => nomatch hls

theorem avoids_orderBy (hwords : words ⊆ Token.reserved)
    (hkws : ∀ kw ∈ ["order", "by", "asc", "desc"], kw ∉ words) (o : Option OrderBy) :
    Avoids words signs (orderBy o) := by
  cases o with
  | none => exact avoids_one
  | some o =>
    have horder : Avoids words signs (order o.order) := by
      cases o.order with
      | asc => exact (avoids_keyword (hkws _ (by decide))).add avoids_one
      | desc => exact avoids_keyword (hkws _ (by decide))
    have hwords' : Avoids words signs (keywords ["order", "by"]) :=
      avoids_keywords fun kw hkw => hkws kw (List.mem_append_left ["asc", "desc"] hkw)
    exact hwords'.mul ((avoids_name hwords _).mul horder)

theorem avoids_page (hlimit : "limit" ∉ words) (hoffset : "offset" ∉ words)
    (limit offset : Option Nat) : Avoids words signs (page limit offset) := by
  have hclause : ∀ kw given, kw ∉ words → Avoids words signs (countClause kw given) := by
    intro kw given hkw
    cases given with
    | none => exact avoids_one
    | some n => exact (avoids_keyword hkw).mul (avoids_count n)
  have hfirst := hclause "limit" limit hlimit
  have hsecond := hclause "offset" offset hoffset
  exact (hfirst.mul hsecond).add (hsecond.mul hfirst)

end Avoiding

section Parts

def operatorWords : List String := ["is", "like", "ilike"]

def operatorSigns : List String := ["!=", "<>", "<=", ">=", "<", ">", "="]

/-- What stands nowhere but for the clause that asks for rows. -/
def absentWords : List String := ["or", "returning"]

/-- What stands in no list of names or values. -/
def foreignWords : List String := absentWords ++ operatorWords

def foreignSigns : List String := ";" :: operatorSigns

theorem avoids_call {kw : String} (hkw : kw ∉ foreignWords) :
    Avoids foreignWords foreignSigns (call kw) :=
  (avoids_keyword hkw).mul ((avoids_symbol (by decide)).mul (avoids_symbol (by decide)))

theorem avoids_marker (m : Marker) : Avoids foreignWords foreignSigns (marker m) := by
  cases m with
  | currentTimestamp =>
    exact ((avoids_call (by decide)).add (avoids_call (by decide))).add (avoids_keyword (by decide))
  | generateId => exact (avoids_call (by decide)).add (avoids_call (by decide))

theorem avoids_value (moment : Moment) (source : ValueSource) :
    Avoids foreignWords foreignSigns (value moment source) := by
  cases source with
  | parameter n => exact avoids_parameter n
  | literal v =>
    cases v with
    | null => exact avoids_keyword (by decide)
    | bool b => cases b <;> exact avoids_keyword (by decide)
    | number x =>
      apply avoids_of_forall
      rintro ls ⟨negative, whole, places, -, rfl⟩
      exact ⟨_, rfl, fun hone => hone⟩
    | text s => exact avoids_text s
    | timestamp t => exact fun ls hls => avoids_marker .currentTimestamp ls hls.2
    | id u => exact fun ls hls => avoids_marker .generateId ls hls.2

variable (moment : Moment)

theorem avoids_condition (p : Predicate) :
    Avoids absentWords [";"] (condition (value moment) p) := by
  have hname : ∀ n, Avoids absentWords [";"] (name n) := avoids_name (by decide)
  cases p with
  | isNull field => exact (hname field).mul (avoids_keywords (by decide))
  | isNotNull field => exact (hname field).mul (avoids_keywords (by decide))
  | like field source =>
    exact (hname field).mul
      (((avoids_keyword (by decide)).add (avoids_keyword (by decide))).mul (avoids_pattern source))
  | compare field c operand =>
    have hoperand : Avoids absentWords [";"] (value moment operand) :=
      (avoids_value moment operand).mono (by decide) (by decide)
    have hcomparison : Avoids absentWords [";"] (comparison c) := by
      apply avoids_of_forall
      rintro ls ⟨mark, hmark, rfl⟩
      refine ⟨_, rfl, fun hone => ?_⟩
      obtain rfl := List.mem_singleton.mp hone
      revert hmark
      cases c <;> decide
    exact (hname field).mul (hcomparison.mul hoperand)

theorem avoids_whereClause (ps : List Predicate) :
    Avoids absentWords [";"] (whereClause (value moment) ps) := by
  cases ps with
  | nil => exact avoids_one
  | cons p more =>
    have hand : Avoids absentWords [";"] (keyword "and") := avoids_keyword (by decide)
    exact (avoids_keyword (by decide)).mul
      (avoids_separated hand (avoids_condition moment) (p :: more))

end Parts

section Endings

variable {words signs : List String} {L M : Tokens}

/-- Nothing comes behind a semicolon, and some lexemes come nowhere. -/
def Terminated (words signs : List String) (L : Tokens) : Prop :=
  ∀ ls ∈ L, (∀ l ∈ ls, ¬IsOneOf words signs l) ∧
    ∀ before after, ls = before ++ .symbol ";" :: after → after = []

theorem terminated_ending (hsigns : ";" ∉ signs) : Terminated words signs ending := by
  rintro ls (rfl | rfl)
  · refine ⟨fun l hl => ?_, fun before after heq => ?_⟩
    · obtain rfl := List.mem_singleton.mp hl
      exact hsigns
    · have hlength := congrArg List.length heq
      simp only [List.length_append, List.length_cons, List.length_nil] at hlength
      exact List.length_eq_zero_iff.mp (by omega)
  · refine ⟨fun l hl => ?_, fun before after heq => ?_⟩
    · cases hl
    · simp at heq

theorem Avoids.terminated (hL : Avoids words (";" :: signs) L) (hM : Terminated words signs M) :
    Terminated words signs (L * M) := by
  intro ls hls
  obtain ⟨a, ha, b, hb, rfl⟩ := Language.mem_mul.mp hls
  obtain ⟨hwithout, hlast⟩ := hM b hb
  refine ⟨fun l hl => ?_, fun before after heq => ?_⟩
  · cases List.mem_append.mp hl with
    | inl hmem =>
      exact hL.mono (List.Subset.refl _) (List.subset_cons_self _ _) a ha l hmem
    | inr hmem => exact hwithout l hmem
  · obtain ⟨c, rfl, hb⟩ | ⟨c, rfl, hafter⟩ := List.append_eq_append_iff.mp heq
    · exact hlast c after hb
    · cases c with
      | nil => exact hlast [] after hafter.symm
      | cons l c =>
        obtain rfl : Lexeme.symbol ";" = l := (List.cons.inj hafter).1
        exact absurd (by simp [IsOneOf]) (hL _ ha (.symbol ";") (by simp))

variable (moment : Moment)

theorem terminated_select (s : Select) : Terminated absentWords [] (select (value moment) s) := by
  have hprojection : Avoids absentWords [";"] (projection s.projection) :=
    avoids_projection (by decide) (by decide) (by decide) _
  have hname : Avoids absentWords [";"] (name s.collection) := avoids_name (by decide) _
  have hfrom : Avoids absentWords [";"] (keyword "from") := avoids_keyword (by decide)
  have horder : Avoids absentWords [";"] (orderBy s.orderBy) :=
    avoids_orderBy (by decide) (by decide) _
  have hpage : Avoids absentWords [";"] (page s.limit s.offset) :=
    avoids_page (by decide) (by decide) _ _
  have htail := horder.terminated (hpage.terminated (terminated_ending (by decide)))
  have htail := hname.terminated ((avoids_whereClause moment s.predicates).terminated htail)
  exact (avoids_keyword (by decide)).terminated
    (hprojection.terminated (hfrom.terminated htail))

theorem terminated_update (s : Update) : Terminated absentWords [] (update (value moment) s) := by
  have hname : ∀ n, Avoids absentWords [";"] (name n) := avoids_name (by decide)
  have hset : Avoids absentWords [";"] (keyword "set") := avoids_keyword (by decide)
  have hassignment : ∀ a, Avoids absentWords [";"] (assignment (value moment) a) := by
    intro a
    have hvalue : Avoids absentWords [";"] (value moment a.2) :=
      (avoids_value moment a.2).mono (by decide) (by decide)
    exact (hname a.1).mul ((avoids_symbol (by decide)).mul hvalue)
  have hassignments := avoids_commaList hassignment (by decide) s.assignments
  have htail := (avoids_whereClause moment s.predicates).terminated
    (terminated_ending (by decide))
  exact (avoids_keyword (by decide)).terminated
    ((hname s.collection).terminated (hset.terminated (hassignments.terminated htail)))

theorem terminated_delete (s : Delete) : Terminated absentWords [] (delete (value moment) s) := by
  have hname : Avoids absentWords [";"] (name s.collection) := avoids_name (by decide) _
  have htail := (avoids_whereClause moment s.predicates).terminated
    (terminated_ending (by decide))
  exact (avoids_keywords (by decide)).terminated (hname.terminated htail)

theorem terminated_insert {words : List String} (s : Insert) (hwords : words ⊆ foreignWords)
    (hreturning : s.returning = none ∨ "returning" ∉ words) :
    Terminated words operatorSigns (insert (value moment) s) := by
  have hreserved : words ⊆ Token.reserved := List.Subset.trans hwords (by decide)
  have hname : ∀ n, Avoids words foreignSigns (name n) := avoids_name hreserved
  have hparens : ∀ L, Avoids words foreignSigns L →
      Avoids words foreignSigns (parenthesized L) := by
    intro L hL
    have hopen : Avoids words foreignSigns (symbol "(") := avoids_symbol (by decide)
    have hclose : Avoids words foreignSigns (symbol ")") := avoids_symbol (by decide)
    exact hopen.mul (hL.mul hclose)
  have hvalue : ∀ source, Avoids words foreignSigns (value moment source) := fun source =>
    (avoids_value moment source).mono hwords (List.Subset.refl _)
  have hcolumns := hparens _ (avoids_commaList hname (by decide) (s.fields.map (·.1)))
  have hvalues := hparens _ (avoids_commaList hvalue (by decide) (s.fields.map (·.2)))
  have hforeign : ∀ kw ∈ ["insert", "into", "values"], kw ∉ words := by
    intro kw hkw hmem
    have hall : ∀ kw ∈ ["insert", "into", "values"], kw ∉ foreignWords := by decide
    exact hall kw hkw (hwords hmem)
  have hkeyword : Avoids words foreignSigns (keyword "values") :=
    avoids_keyword (hforeign _ (by decide))
  have hclause : Avoids words foreignSigns (returning s.returning) := by
    cases h : s.returning with
    | none => exact avoids_one
    | some columns =>
      have hnot := hreturning.resolve_left (by simp [h])
      exact (avoids_keyword hnot).mul (avoids_projection hreserved (by decide) (by decide) columns)
  have htail := hclause.terminated (terminated_ending (by decide))
  have htail := hcolumns.terminated (hkeyword.terminated (hvalues.terminated htail))
  have hfirst : Avoids words foreignSigns (keywords ["insert", "into"]) :=
    avoids_keywords fun kw hkw => hforeign kw (List.mem_append_left ["values"] hkw)
  exact hfirst.terminated ((hname s.collection).terminated htail)

end Endings

section Parentheses

variable {L M : Tokens}

/-- Only an empty pair of parentheses is ever opened. -/
def ClosesAtOnce (L : Tokens) : Prop :=
  ∀ ls ∈ L, ∀ before after, ls = before ++ .symbol "(" :: after →
    ∃ rest, after = .symbol ")" :: rest

theorem Avoids.closesAtOnce (h : Avoids [] ["("] L) : ClosesAtOnce L := by
  rintro ls hls before after rfl
  exact absurd (by simp [IsOneOf]) (h _ hls (.symbol "(") (by simp))

theorem ClosesAtOnce.mul (hL : ClosesAtOnce L) (hM : ClosesAtOnce M) : ClosesAtOnce (L * M) := by
  intro ls hls before after heq
  obtain ⟨a, ha, b, hb, rfl⟩ := Language.mem_mul.mp hls
  obtain ⟨c, rfl, hbefore⟩ | ⟨c, rfl, hafter⟩ := List.append_eq_append_iff.mp heq
  · exact hM b hb c after hbefore
  · cases c with
    | nil => exact hM b hb [] after hafter.symm
    | cons l c =>
      obtain ⟨rfl, rfl⟩ := List.cons.inj hafter
      obtain ⟨rest, rfl⟩ := hL _ ha before c rfl
      exact ⟨rest ++ b, rfl⟩

theorem ClosesAtOnce.add (hL : ClosesAtOnce L) (hM : ClosesAtOnce M) : ClosesAtOnce (L + M) := by
  rintro ls (hls | hls)
  · exact hL ls hls
  · exact hM ls hls

theorem closesAtOnce_separated {α : Type} {separator : Tokens} {item : α → Tokens}
    (hseparator : ClosesAtOnce separator) (hitem : ∀ a, ClosesAtOnce (item a)) (as : List α) :
    ClosesAtOnce (separated separator item as) := by
  have hfollowers : ClosesAtOnce (followers separator item as.tail) := by
    induction as.tail with
    | nil => exact avoids_one.closesAtOnce
    | cons a more ih => exact hseparator.mul ((hitem a).mul ih)
  cases as with
  | nil => exact fun ls hls => nomatch hls
  | cons a more => exact (hitem a).mul hfollowers

theorem closesAtOnce_keyword (kw : String) : ClosesAtOnce (keyword kw) :=
  (avoids_keyword List.not_mem_nil).closesAtOnce

theorem closesAtOnce_keywords (kws : List String) : ClosesAtOnce (keywords kws) :=
  (avoids_keywords fun _ _ => List.not_mem_nil).closesAtOnce

theorem closesAtOnce_name (n : String) : ClosesAtOnce (name n) :=
  (avoids_name (List.nil_subset _) n).closesAtOnce

theorem closesAtOnce_call (kw : String) : ClosesAtOnce (call kw) := by
  have hparens : ClosesAtOnce (symbol "(" * symbol ")") := by
    intro ls hls before after heq
    obtain ⟨a, rfl, b, rfl, rfl⟩ := Language.mem_mul.mp hls
    cases before with
    | nil => exact ⟨[], (List.cons.inj heq).2.symm⟩
    | cons l before =>
      have hrest := (List.cons.inj heq).2
      cases before with
      | nil => exact absurd (List.cons.inj hrest).1 (by decide)
      | cons l before => simp at hrest
  exact (closesAtOnce_keyword kw).mul hparens

theorem closesAtOnce_value (moment : Moment) (source : ValueSource) :
    ClosesAtOnce (value moment source) := by
  cases source with
  | parameter n => exact (avoids_parameter n).closesAtOnce
  | literal v =>
    cases v with
    | null => exact closesAtOnce_keyword _
    | bool b => cases b <;> exact closesAtOnce_keyword _
    | number x =>
      apply Avoids.closesAtOnce
      apply avoids_of_forall
      rintro ls ⟨negative, whole, places, -, rfl⟩
      exact ⟨_, rfl, fun hone => hone⟩
    | text s => exact (avoids_text s).closesAtOnce
    | timestamp t =>
      have hmarker := ((closesAtOnce_call "now").add (closesAtOnce_call "current_timestamp")).add
        (closesAtOnce_keyword "current_timestamp")
      exact fun ls hls => hmarker ls hls.2
    | id u =>
      have hmarker := (closesAtOnce_call "gen_random_uuid").add
        (closesAtOnce_call "uuid_generate_v4")
      exact fun ls hls => hmarker ls hls.2

variable (moment : Moment)

theorem closesAtOnce_condition (p : Predicate) :
    ClosesAtOnce (condition (value moment) p) := by
  cases p with
  | isNull field => exact (closesAtOnce_name field).mul (closesAtOnce_keywords _)
  | isNotNull field => exact (closesAtOnce_name field).mul (closesAtOnce_keywords _)
  | like field source =>
    have hlike := (closesAtOnce_keyword "like").add (closesAtOnce_keyword "ilike")
    exact (closesAtOnce_name field).mul (hlike.mul (avoids_pattern source).closesAtOnce)
  | compare field c operand =>
    have hcomparison : ClosesAtOnce (comparison c) := by
      apply Avoids.closesAtOnce
      apply avoids_of_forall
      rintro ls ⟨mark, hmark, rfl⟩
      refine ⟨_, rfl, fun hone => ?_⟩
      obtain rfl := List.mem_singleton.mp hone
      revert hmark
      cases c <;> decide
    exact (closesAtOnce_name field).mul (hcomparison.mul (closesAtOnce_value moment operand))

theorem closesAtOnce_whereClause (ps : List Predicate) :
    ClosesAtOnce (whereClause (value moment) ps) := by
  cases ps with
  | nil => exact avoids_one.closesAtOnce
  | cons p more =>
    exact (closesAtOnce_keyword "where").mul (closesAtOnce_separated (closesAtOnce_keyword "and")
      (closesAtOnce_condition moment) (p :: more))

theorem closesAtOnce_ending : ClosesAtOnce ending := by
  have hsemicolon : Avoids [] ["("] (symbol ";") := avoids_symbol (by decide)
  exact (hsemicolon.add avoids_one).closesAtOnce

theorem closesAtOnce_select (s : Select) : ClosesAtOnce (select (value moment) s) := by
  have hprojection : Avoids [] ["("] (projection s.projection) :=
    avoids_projection (by decide) (by decide) (by decide) _
  have horder : Avoids [] ["("] (orderBy s.orderBy) := avoids_orderBy (by decide) (by decide) _
  have hpage : Avoids [] ["("] (page s.limit s.offset) := avoids_page (by decide) (by decide) _ _
  have htail := horder.closesAtOnce.mul (hpage.closesAtOnce.mul closesAtOnce_ending)
  have htail := (closesAtOnce_name s.collection).mul
    ((closesAtOnce_whereClause moment s.predicates).mul htail)
  exact (closesAtOnce_keyword _).mul
    (hprojection.closesAtOnce.mul ((closesAtOnce_keyword _).mul htail))

theorem closesAtOnce_update (s : Update) : ClosesAtOnce (update (value moment) s) := by
  have hassignment : ∀ a, ClosesAtOnce (assignment (value moment) a) := by
    intro a
    have hequals : Avoids [] ["("] (symbol "=") := avoids_symbol (by decide)
    exact (closesAtOnce_name a.1).mul (hequals.closesAtOnce.mul (closesAtOnce_value moment a.2))
  have hcomma : Avoids [] ["("] (symbol ",") := avoids_symbol (by decide)
  have hassignments := closesAtOnce_separated hcomma.closesAtOnce hassignment s.assignments
  have htail := hassignments.mul
    ((closesAtOnce_whereClause moment s.predicates).mul closesAtOnce_ending)
  exact (closesAtOnce_keyword _).mul
    ((closesAtOnce_name s.collection).mul ((closesAtOnce_keyword _).mul htail))

theorem closesAtOnce_delete (s : Delete) : ClosesAtOnce (delete (value moment) s) :=
  (closesAtOnce_keywords _).mul ((closesAtOnce_name s.collection).mul
    ((closesAtOnce_whereClause moment s.predicates).mul closesAtOnce_ending))

end Parentheses

/-- Each sequence of the language has an operator. -/
def HasOperator (L : Tokens) : Prop :=
  ∀ ls ∈ L, ∃ l ∈ ls, IsOneOf operatorWords operatorSigns l

section Operators

variable {L M : Tokens}

theorem HasOperator.mul_left (h : HasOperator M) (L : Tokens) : HasOperator (L * M) := by
  intro ls hls
  rcases Language.mem_mul.mp hls with ⟨a, -, b, hb, rfl⟩
  rcases h b hb with ⟨l, hl, hone⟩
  exact ⟨l, List.mem_append_right a hl, hone⟩

theorem HasOperator.mul_right (h : HasOperator L) (M : Tokens) : HasOperator (L * M) := by
  intro ls hls
  rcases Language.mem_mul.mp hls with ⟨a, ha, b, -, rfl⟩
  rcases h a ha with ⟨l, hl, hone⟩
  exact ⟨l, List.mem_append_left b hl, hone⟩

theorem hasOperator_keyword {kw : String} (hkw : kw ∈ operatorWords) :
    HasOperator (keyword kw) := by
  rintro ls ⟨letters, hletters, rfl⟩
  exact ⟨_, List.mem_singleton_self _, (isOneOf_word hletters).mpr hkw⟩

theorem hasOperator_comparison (c : Comparison) : HasOperator (comparison c) := by
  rintro ls ⟨mark, hmark, rfl⟩
  have hall : ∀ mark ∈ c.marks, mark ∈ operatorSigns := by cases c <;> decide
  exact ⟨_, List.mem_singleton_self _, hall mark hmark⟩

theorem hasOperator_condition (V : ValueSource → Tokens) (p : Predicate) :
    HasOperator (condition V p) := by
  cases p with
  | isNull field => exact ((hasOperator_keyword (by decide)).mul_right _).mul_left _
  | isNotNull field => exact ((hasOperator_keyword (by decide)).mul_right _).mul_left _
  | like field source =>
    have hword : HasOperator (keyword "like" + keyword "ilike") := by
      rintro ls (hlike | hilike)
      · exact hasOperator_keyword (by decide) ls hlike
      · exact hasOperator_keyword (by decide) ls hilike
    exact (hword.mul_right _).mul_left _
  | compare field c operand => exact ((hasOperator_comparison c).mul_right _).mul_left _

theorem exists_name_of_mem_condition {V : ValueSource → Tokens} {p : Predicate} {c : List Lexeme}
    (hc : c ∈ condition V p) : ∃ l rest, c = l :: rest ∧ ∃ n, l.Names n := by
  have hname : ∀ (field : String) (L : Tokens), c ∈ name field * L →
      ∃ l rest, c = l :: rest ∧ ∃ n, l.Names n := by
    intro field L hmem
    rcases Language.mem_mul.mp hmem with ⟨a, ⟨l, hl, rfl⟩, b, -, rfl⟩
    exact ⟨l, b, rfl, field, hl⟩
  cases p with
  | _ => exact hname _ _ hc

end Operators

theorem Terminated.ne_word {words signs : List String} {L : Tokens}
    (hL : Terminated words signs L) {kw : String} (hwords : kw ∈ words) {ls : List Lexeme}
    (hls : ls ∈ L) {letters : List Char} (hmem : .word letters ∈ ls) :
    Text.lower letters ≠ kw.toList := by
  intro heq
  exact (hL ls hls).1 _ hmem ((isOneOf_word heq).mpr hwords)

/-- A condition between parentheses. -/
def Grouped (ls : List Lexeme) : Prop :=
  ∃ V p, ∃ c ∈ condition V p, ∃ before after,
    ls = before ++ .symbol "(" :: (c ++ .symbol ")" :: after)

theorem ClosesAtOnce.not_grouped {L : Tokens} (hL : ClosesAtOnce L) {ls : List Lexeme}
    (hls : ls ∈ L) : ¬Grouped ls := by
  rintro ⟨V, p, c, hc, before, after, rfl⟩
  obtain ⟨l, rest, rfl, n, hn⟩ := exists_name_of_mem_condition hc
  obtain ⟨after', heq⟩ := hL _ hls before _ rfl
  obtain rfl := (List.cons.inj heq).1
  exact hn

theorem Terminated.not_grouped {words : List String} {L : Tokens}
    (hL : Terminated words operatorSigns L) (hwords : operatorWords ⊆ words) {ls : List Lexeme}
    (hls : ls ∈ L) : ¬Grouped ls := by
  rintro ⟨V, p, c, hc, before, after, rfl⟩
  obtain ⟨l, hl, hone⟩ := hasOperator_condition V p c hc
  exact (hL _ hls).1 l (by simp [hl]) (hone.mono hwords (List.Subset.refl _))

end DocumentSql.Grammar
