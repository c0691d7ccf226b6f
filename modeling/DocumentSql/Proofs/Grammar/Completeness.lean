import DocumentSql.Proofs.Grammar.Language
import DocumentSql.Proofs.Number.Numeral
import DocumentSql.Proofs.Traversal
/-
Readers find what was written. A reader gives back the value that the lexemes of its language spell,
and stops behind them. Where more could belong to the value, it does so in front of lexemes that
cannot; a single condition or value is found in front of any text.
-/

namespace DocumentSql.Grammar

open Token (Reader)

/-- What comes next is none of these. -/
def Follow (words signs : List String) (ks : List Lexeme) : Prop :=
  ∀ l ∈ ks.head?, ¬IsOneOf words signs l

/-- The reader gives back this value in front of these lexemes. -/
def Finds {α : Type} (read : Parse (α × List Char)) (a : α) (ks : List Lexeme) : Prop :=
  ∃ rest, read = .ok (a, rest) ∧ Laid ks rest

/-- The reader accepts its language in front of whatever is none of these words and symbols. -/
def Accepts {α : Type} (reader : Reader α) (L : α → Tokens) (words signs : List String) : Prop :=
  ∀ a, ∀ ls ∈ L a, ∀ ks s, Follow words signs ks → Laid (ls ++ ks) s →
    ∃ rest, reader s = some (a, rest) ∧ Laid ks rest

/-- The reader gives back this value and stops behind its lexemes, whatever text comes next. -/
def Takes {α : Type} (reader : Reader α) (L : α → Tokens) : Prop :=
  ∀ a, ∀ ls ∈ L a, ∀ s rest, Lays ls s rest → reader s = some (a, rest)

theorem Takes.accepts {α : Type} {reader : Reader α} {L : α → Tokens} (h : Takes reader L)
    (words signs : List String) : Accepts reader L words signs := by
  intro a ls hls ks s _ hlaid
  obtain ⟨t, hlays, hks⟩ := laid_append.mp hlaid
  exact ⟨t, h a ls hls s t hlays, hks⟩

section Heads

variable {words signs : List String} {L : Tokens} {ls ks : List Lexeme}

theorem follow_none (ks : List Lexeme) : Follow [] [] ks := by
  intro l _ hone
  cases l with
  | word letters => cases hone
  | symbol mark => cases hone
  | _ => exact hone

theorem follow_nil : Follow words signs [] := by
  intro l hl
  cases hl

theorem Follow.mono {words' signs' : List String} (h : Follow words signs ks)
    (hwords : words' ⊆ words) (hsigns : signs' ⊆ signs) : Follow words' signs' ks :=
  fun l hl hone => h l hl (hone.mono hwords hsigns)

/-- Each sequence of the language is empty or starts with one of these. -/
def Starts (words signs : List String) (L : Tokens) : Prop :=
  ∀ ls ∈ L, ∀ l ∈ ls.head?, IsOneOf words signs l

theorem starts_one : Starts words signs 1 := by
  intro ls hls l hl
  obtain rfl := (Language.mem_one ls).mp hls
  cases hl

theorem starts_keyword_mul (kw : String) (L : Tokens) : Starts [kw] [] (keyword kw * L) := by
  intro ls hls l hl
  rcases Language.mem_mul.mp hls with ⟨a, ⟨letters, hletters, rfl⟩, b, -, rfl⟩
  obtain rfl := Option.some.inj hl
  exact (isOneOf_word hletters).mpr (List.mem_singleton_self kw)

theorem starts_symbol_mul (mark : String) (L : Tokens) : Starts [] [mark] (symbol mark * L) := by
  intro ls hls l hl
  rcases Language.mem_mul.mp hls with ⟨a, rfl, b, -, rfl⟩
  obtain rfl := Option.some.inj hl
  exact List.mem_singleton_self mark

theorem starts_symbol (mark : String) : Starts [] [mark] (symbol mark) := by
  have h := starts_symbol_mul mark 1
  rwa [mul_one] at h

theorem Starts.add {words' signs' : List String} {M : Tokens} (h : Starts words signs L)
    (h' : Starts words' signs' M) : Starts (words ++ words') (signs ++ signs') (L + M) := by
  intro ls hls l hl
  rcases hls with hleft | hright
  · exact (h ls hleft l hl).mono (List.subset_append_left ..) (List.subset_append_left ..)
  · exact (h' ls hright l hl).mono (List.subset_append_right ..) (List.subset_append_right ..)

theorem Starts.mul {words' signs' : List String} {M : Tokens} (h : Starts words signs L)
    (h' : Starts words' signs' M) : Starts (words ++ words') (signs ++ signs') (L * M) := by
  intro ls hls l hl
  rcases Language.mem_mul.mp hls with ⟨a, ha, b, hb, rfl⟩
  cases a with
  | nil => exact (h' b hb l hl).mono (List.subset_append_right ..) (List.subset_append_right ..)
  | cons k a =>
    exact (h _ ha l hl).mono (List.subset_append_left ..) (List.subset_append_left ..)

theorem Starts.follow {words' signs' : List String} (hL : Starts words' signs' L)
    (hwords : ∀ kw ∈ words', kw ∉ words) (hsigns : ∀ mark ∈ signs', mark ∉ signs) (hls : ls ∈ L)
    (hks : Follow words signs ks) : Follow words signs (ls ++ ks) := by
  cases ls with
  | nil => exact hks
  | cons l ls =>
    intro k hk hone
    obtain rfl : l = k := Option.some.inj hk
    have hstart := hL _ hls l rfl
    cases l with
    | word letters => exact hwords _ hstart hone
    | symbol mark => exact hsigns _ hstart hone
    | _ => exact hone

/-- What starts otherwise may come last. -/
theorem Starts.follow_last {words' signs' : List String} (hL : Starts words' signs' L)
    (hwords : ∀ kw ∈ words', kw ∉ words) (hsigns : ∀ mark ∈ signs', mark ∉ signs)
    (hls : ls ∈ L) : Follow words signs ls := by
  have hnil : Follow words signs [] := follow_nil
  have h := hL.follow hwords hsigns hls hnil
  rwa [List.append_nil] at h

end Heads

section Lexemes

variable {s rest : List Char} {l : Lexeme} {ls ks : List Lexeme}

theorem laid_of_next (h : Laid ks s) (hnext : Next l s rest) :
    ∃ more, ks = l :: more ∧ Laid more rest :=
  Lays.of_laid (.cons hnext (.nil rest)) h

theorem takes_keyword {kw : String} (hkw : Lowercase kw) (hls : ls ∈ keyword kw)
    (h : Lays ls s rest) : Token.keyword kw s = some rest := by
  obtain ⟨letters, hletters, rfl⟩ := hls
  exact (Token.keyword_eq_some_iff hkw).mpr ⟨letters, hletters, lays_singleton.mp h⟩

theorem exists_keyword {kw : String} (hkw : Lowercase kw) (hls : ls ∈ keyword kw)
    (h : Laid (ls ++ ks) s) : ∃ rest, Token.keyword kw s = some rest ∧ Laid ks rest := by
  obtain ⟨rest, hlays, hlaid⟩ := laid_append.mp h
  exact ⟨rest, takes_keyword hkw hls hlays, hlaid⟩

theorem eq_none_of_next {β : Type} {reader : List Char → Option β} {wants : Lexeme → Prop}
    (hreader : ∀ b, reader s = some b → ∃ l rest, wants l ∧ Next l s rest) (h : Next l s rest)
    (hl : ¬wants l) : reader s = none := by
  cases hread : reader s with
  | none => rfl
  | some b =>
    obtain ⟨k, rest', hk, hnext⟩ := hreader b hread
    obtain ⟨rfl, -⟩ := h.unique hnext
    exact absurd hk hl

/-- A reader that wants another first lexeme finds nothing. -/
theorem eq_none_of_head {β : Type} {reader : List Char → Option β} {wants : Lexeme → Prop}
    (hreader : ∀ b, reader s = some b → ∃ l rest, wants l ∧ Next l s rest) (h : Laid ks s)
    (hks : ∀ l ∈ ks.head?, ¬wants l) : reader s = none := by
  cases hread : reader s with
  | none => rfl
  | some b =>
    rcases hreader b hread with ⟨l, rest, hl, hnext⟩
    obtain ⟨more, rfl, -⟩ := laid_of_next h hnext
    exact absurd hl (hks l rfl)

theorem exists_word_of_keyword {kw : String} (hkw : Lowercase kw) (rest : List Char)
    (hread : Token.keyword kw s = some rest) : ∃ l rest, IsOneOf [kw] [] l ∧ Next l s rest := by
  obtain ⟨letters, hletters, hnext⟩ := (Token.keyword_eq_some_iff hkw).mp hread
  exact ⟨_, rest, (isOneOf_word hletters).mpr (List.mem_singleton_self kw), hnext⟩

theorem keyword_eq_none {kw : String} (hkw : Lowercase kw) (h : Laid ks s)
    (hks : Follow [kw] [] ks) : Token.keyword kw s = none :=
  eq_none_of_head (exists_word_of_keyword hkw) h hks

theorem keyword_eq_none_of_next {kw : String} (hkw : Lowercase kw) (h : Next l s rest)
    (hl : ¬IsOneOf [kw] [] l) : Token.keyword kw s = none :=
  eq_none_of_next (exists_word_of_keyword hkw) h hl

theorem takes_keywords {kws : List String} (hkws : ∀ kw ∈ kws, Lowercase kw)
    (hls : ls ∈ keywords kws) (h : Lays ls s rest) : Token.keywords kws s = some rest := by
  induction kws generalizing ls s with
  | nil =>
    obtain rfl := (Language.mem_one ls).mp hls
    cases h
    rfl
  | cons kw kws ih =>
    rw [keywords, List.map_cons, List.prod_cons] at hls
    obtain ⟨a, ha, b, hb, rfl⟩ := Language.mem_mul.mp hls
    obtain ⟨t, hfirst, hmore⟩ := lays_append.mp h
    rw [Token.keywords, takes_keyword (hkws kw List.mem_cons_self) ha hfirst]
    exact ih (fun k hk => hkws k (List.mem_cons_of_mem _ hk)) hb hmore

theorem exists_keywords {kws : List String} (hkws : ∀ kw ∈ kws, Lowercase kw)
    (hls : ls ∈ keywords kws) (h : Laid (ls ++ ks) s) :
    ∃ rest, Token.keywords kws s = some rest ∧ Laid ks rest := by
  obtain ⟨rest, hlays, hlaid⟩ := laid_append.mp h
  exact ⟨rest, takes_keywords hkws hls hlays, hlaid⟩

theorem keywords_eq_none_of_first {kw : String} (kws : List String)
    (h : Token.keyword kw s = none) : Token.keywords (kw :: kws) s = none := by
  rw [Token.keywords, h]

theorem keywords_eq_none {kw : String} (kws : List String) (hkw : Lowercase kw) (h : Laid ks s)
    (hks : Follow [kw] [] ks) : Token.keywords (kw :: kws) s = none :=
  keywords_eq_none_of_first kws (keyword_eq_none hkw h hks)

theorem exists_symbol {mark : String} (hmark : Token.Closed mark) (hls : ls ∈ symbol mark)
    (h : Laid (ls ++ ks) s) : ∃ rest, Token.symbol mark s = some rest ∧ Laid ks rest := by
  obtain rfl := hls
  obtain ⟨rest, hnext, hlaid⟩ := laid_cons.mp h
  exact ⟨rest, (Token.symbol_eq_some_iff hmark).mpr hnext, hlaid⟩

theorem symbol_eq_none {mark : String} (hmark : Token.Closed mark) (h : Laid ks s)
    (hks : Follow [] [mark] ks) : Token.symbol mark s = none := by
  refine eq_none_of_head (fun rest hread => ?_) h hks
  have hnext := (Token.symbol_eq_some_iff hmark).mp hread
  exact ⟨.symbol mark, rest, List.mem_singleton_self mark, hnext⟩

theorem takes_identifier : Takes Token.identifier name := by
  rintro n ls ⟨l, hl, rfl⟩ s rest h
  exact Token.identifier_eq_some_iff.mpr ⟨l, hl, lays_singleton.mp h⟩

theorem accepts_identifier : Accepts Token.identifier name [] [] := takes_identifier.accepts [] []

theorem takes_parameter : Takes Token.parameter parameter := by
  rintro n ls ⟨digits, hspells, hpos, hbound, rfl⟩ s rest h
  exact Token.parameter_eq_some_iff.mpr ⟨digits, hspells, hpos, hbound, lays_singleton.mp h⟩

theorem takes_stringLiteral : Takes Token.stringLiteral text := by
  rintro t ls rfl s rest h
  exact Token.stringLiteral_eq_some_iff.mpr (lays_singleton.mp h)

theorem takes_comparison : Takes Token.comparison comparison := by
  rintro c ls ⟨mark, hmark, rfl⟩ s rest h
  exact Token.comparison_eq_some_iff.mpr ⟨mark, hmark, lays_singleton.mp h⟩

theorem accepts_unsigned : Accepts Token.unsigned count [] [] := by
  rintro n ls ⟨digits, hspells, hbound, rfl⟩ ks s - h
  obtain ⟨rest, hnext, hlaid⟩ := laid_cons.mp h
  exact ⟨rest, Token.unsigned_complete hspells hbound hnext, hlaid⟩

end Lexemes

section Lists

variable {α : Type} {item : Reader α} {L : α → Tokens} {words signs : List String}

theorem starts_followers (mark : String) (as : List α) :
    Starts [] [mark] (followers (symbol mark) L as) := by
  cases as with
  | nil => exact starts_one
  | cons a more => exact starts_symbol_mul mark _

/-- Every item has a comma of its own, so the bound is never met. -/
theorem exists_moreItems (hitem : Accepts item L words signs) (hcomma : "," ∉ signs)
    {more : List α} {ls ks : List Lexeme} {s : List Char} {bound : Nat}
    (hls : ls ∈ followers (symbol ",") L more) (hbound : ls.length ≤ bound)
    (hks : Follow words ("," :: signs) ks) (h : Laid (ls ++ ks) s) :
    ∃ rest, Token.moreItems item bound s = (more, rest) ∧ Laid ks rest := by
  have hstops : Follow [] [","] ks := hks.mono (List.nil_subset _) (by simp)
  have hafter : Follow words signs ks := hks.mono (List.Subset.refl _) (List.subset_cons_self _ _)
  induction more generalizing ls s bound with
  | nil =>
    obtain rfl := (Language.mem_one ls).mp hls
    refine ⟨s, ?_, h⟩
    cases bound with
    | zero => rfl
    | succ bound => rw [Token.moreItems, symbol_eq_none (by decide) h hstops]
  | cons a more ih =>
    rcases Language.mem_mul.mp hls with ⟨x, hx, y, hy, rfl⟩
    rcases Language.mem_mul.mp hy with ⟨u, hu, v, hv, rfl⟩
    have hlength : v.length + 1 ≤ bound := by
      obtain rfl := hx
      simp only [List.length_append, List.length_cons, List.length_nil] at hbound
      omega
    obtain ⟨bound, rfl⟩ : ∃ n, bound = n + 1 := ⟨bound - 1, by omega⟩
    rw [List.append_assoc, List.append_assoc] at h
    obtain ⟨t, hread, hlaid⟩ := exists_symbol (by decide) hx h
    have hfollow : Follow words signs (v ++ ks) :=
      (starts_followers "," more).follow (by simp) (by simpa using hcomma) hv hafter
    obtain ⟨t', hread', hlaid'⟩ := hitem a u hu _ t hfollow hlaid
    obtain ⟨rest, hmore, hrest⟩ := ih hv (Nat.le_of_succ_le_succ hlength) hlaid'
    refine ⟨rest, ?_, hrest⟩
    rw [Token.moreItems]
    simp only [hread, hread', hmore]

theorem accepts_commaList (hitem : Accepts item L words signs) (hcomma : "," ∉ signs) :
    Accepts (Token.commaList item) (commaList L) words ("," :: signs) := by
  intro as ls hls ks s hks h
  cases as with
  | nil => cases hls
  | cons a more =>
    rcases Language.mem_mul.mp hls with ⟨x, hx, y, hy, rfl⟩
    rw [List.append_assoc] at h
    have hfollow : Follow words signs (y ++ ks) :=
      (starts_followers "," more).follow (by simp) (by simpa using hcomma) hy
        (hks.mono (List.Subset.refl _) (List.subset_cons_self _ _))
    obtain ⟨t, hread, hlaid⟩ := hitem a x hx _ s hfollow h
    have hbound : y.length ≤ t.length := hlaid.length_le_of_append
    obtain ⟨rest, hmore, hrest⟩ := exists_moreItems hitem hcomma hy hbound hks hlaid
    refine ⟨rest, ?_, hrest⟩
    unfold Token.commaList
    simp only [hread, hmore]

theorem accepts_parenthesized (hitem : Accepts item L words signs) (hclose : ")" ∉ signs) :
    Accepts (Token.parenthesized item) (fun a => parenthesized (L a)) [] [] := by
  intro a ls hls ks s _ h
  rcases Language.mem_mul.mp hls with ⟨x, hx, y, hy, rfl⟩
  rcases Language.mem_mul.mp hy with ⟨u, hu, v, hv, rfl⟩
  rw [List.append_assoc, List.append_assoc] at h
  obtain ⟨t1, hread1, hlaid1⟩ := exists_symbol (by decide) hx h
  have hfollow : Follow words signs (v ++ ks) := by
    obtain rfl := hv
    intro l hl hone
    obtain rfl := Option.some.inj hl
    exact hclose hone
  obtain ⟨t2, hread2, hlaid2⟩ := hitem a u hu _ t1 hfollow hlaid1
  obtain ⟨t3, hread3, hlaid3⟩ := exists_symbol (by decide) hv hlaid2
  refine ⟨t3, ?_, hlaid3⟩
  unfold Token.parenthesized
  simp only [hread1, hread2, hread3]

theorem accepts_projection : Accepts Token.projection projection [] [","] := by
  intro fields ls hls ks s hks h
  unfold Token.projection
  cases fields with
  | nil =>
    obtain ⟨rest, hread, hlaid⟩ := exists_symbol (by decide) hls h
    exact ⟨rest, by rw [hread], hlaid⟩
  | cons n more =>
    have hstar : Token.symbol "*" s = none := by
      refine symbol_eq_none (by decide) h ?_
      rcases Language.mem_mul.mp hls with ⟨x, ⟨l, hl, rfl⟩, y, -, rfl⟩
      intro k hk hone
      obtain rfl := Option.some.inj hk
      cases l with
      | word letters => cases hone
      | symbol mark => exact hl
      | _ => exact hone
    rw [hstar]
    exact accepts_commaList accepts_identifier (by simp) _ ls hls ks s hks h

end Lists

section Values

variable {s rest : List Char} {l : Lexeme} {ls ms ks : List Lexeme}

theorem follow_cons {words signs : List String} (hl : ¬IsOneOf words signs l) :
    Follow words signs (l :: ks) := by
  intro k hk
  obtain rfl := Option.some.inj hk
  exact hl

theorem eq_none_of_kind {β : Type} {reader : List Char → Option β} {kind : Lexeme.Kind}
    (hreader : ∀ b, reader s = some b → ∃ l rest, l.kind = kind ∧ Next l s rest)
    (h : Next l s rest) (hl : l.kind ≠ kind) : reader s = none :=
  eq_none_of_next hreader h hl

theorem parameter_eq_none (h : Next l s rest) (hl : l.kind ≠ .parameter) :
    Token.parameter s = none := by
  refine eq_none_of_kind (fun read hread => ?_) h hl
  obtain ⟨digits, -, -, -, hnext⟩ := Token.parameter_eq_some_iff.mp hread
  exact ⟨_, read.2, rfl, hnext⟩

theorem number_eq_none (h : Next l s rest) (hl : l.kind ≠ .number) : Token.number s = none := by
  refine eq_none_of_kind (fun read hread => ?_) h hl
  obtain ⟨negative, whole, places, -, hnext⟩ := Token.number_eq_some_iff.mp hread
  exact ⟨_, read.2, rfl, hnext⟩

theorem stringLiteral_eq_none (h : Next l s rest) (hl : l.kind ≠ .text) :
    Token.stringLiteral s = none := by
  refine eq_none_of_kind (fun read hread => ?_) h hl
  exact ⟨_, read.2, rfl, Token.stringLiteral_eq_some_iff.mp hread⟩

/-- Of two words only one is found. -/
theorem keyword_eq_none_of_lays {kw other : String} (hkw : Lowercase kw) (hne : other ≠ kw)
    (hls : ls ∈ keyword other) (h : Lays (ls ++ ms) s rest) : Token.keyword kw s = none := by
  obtain ⟨letters, hletters, rfl⟩ := hls
  obtain ⟨t, hword, -⟩ := lays_append.mp h
  refine keyword_eq_none_of_next hkw (lays_singleton.mp hword) fun hone => hne ?_
  exact List.mem_singleton.mp ((isOneOf_word hletters).mp hone)

theorem keyword_eq_none_of_keyword {kw other : String} (hkw : Lowercase kw) (hne : other ≠ kw)
    (hls : ls ∈ keyword other) (h : Laid (ls ++ ks) s) : Token.keyword kw s = none := by
  obtain ⟨rest, hlays, -⟩ := h
  exact keyword_eq_none_of_lays hkw hne hls hlays

/-- A value is one lexeme, so the readers that are tried in vain can be told by that. -/
theorem takes_value (moment : Moment) : Takes (Token.value moment) written := by
  intro source ls hls s rest h
  unfold Token.value
  cases source with
  | parameter n => rw [takes_parameter n ls hls s rest h]
  | literal v =>
    cases v with
    | null =>
      have hread : Token.keyword "null" s = some rest := takes_keyword (by decide) hls h
      obtain ⟨letters, -, rfl⟩ := hls
      rw [parameter_eq_none (lays_singleton.mp h) nofun, hread]
    | bool b =>
      have hword : ∃ letters, ls = [.word letters] := by
        cases b <;> (obtain ⟨letters, -, rfl⟩ := hls; exact ⟨letters, rfl⟩)
      have hparameter : Token.parameter s = none := by
        obtain ⟨letters, rfl⟩ := hword
        exact parameter_eq_none (lays_singleton.mp h) nofun
      have hlays : Lays (ls ++ []) s rest := by rwa [List.append_nil]
      cases b with
      | true =>
        have hnull : Token.keyword "null" s = none :=
          keyword_eq_none_of_lays (by decide) (by decide) hls hlays
        rw [hparameter, hnull, takes_keyword (by decide) hls h]
      | false =>
        have hnull : Token.keyword "null" s = none :=
          keyword_eq_none_of_lays (by decide) (by decide) hls hlays
        have htrue : Token.keyword "true" s = none :=
          keyword_eq_none_of_lays (by decide) (by decide) hls hlays
        rw [hparameter, hnull, htrue, takes_keyword (by decide) hls h]
    | number x =>
      rcases hls with ⟨i, digits, -, rfl, hdigits, rfl⟩
      have hnext := lays_singleton.mp h
      have hkeyword : ∀ kw, Lowercase kw → Token.keyword kw s = none := fun kw hkw =>
        keyword_eq_none_of_next hkw hnext fun hone => hone
      have hdenotes := Numeral.denotes_ofInt hdigits
      have hread := Token.number_eq_some_iff.mpr ⟨_, digits, [], hdenotes, hnext⟩
      rw [parameter_eq_none hnext nofun, hkeyword "null" (by decide), hkeyword "true" (by decide),
        hkeyword "false" (by decide), hread]
    | text t =>
      have hread : Token.stringLiteral s = some (t, rest) := takes_stringLiteral t ls hls s rest h
      obtain rfl := hls
      have hnext := lays_singleton.mp h
      have hkeyword : ∀ kw, Lowercase kw → Token.keyword kw s = none := fun kw hkw =>
        keyword_eq_none_of_next hkw hnext fun hone => hone
      rw [parameter_eq_none hnext nofun, hkeyword "null" (by decide), hkeyword "true" (by decide),
        hkeyword "false" (by decide), number_eq_none hnext nofun, hread]
    | timestamp t => cases hls
    | id u => cases hls

theorem accepts_value (moment : Moment) : Accepts (Token.value moment) written [] [] :=
  (takes_value moment).accepts [] []

end Values

section Conditions

variable {s rest : List Char} {ls : List Lexeme}

theorem takes_likeOperand : Takes Token.likeOperand pattern := by
  intro source ls hls s rest h
  unfold Token.likeOperand
  cases source with
  | parameter n =>
    have hread : Token.parameter s = some (n, rest) := takes_parameter n ls hls s rest h
    rcases hls with ⟨digits, -, -, -, rfl⟩
    rw [stringLiteral_eq_none (lays_singleton.mp h) nofun, hread]
    rfl
  | literal v =>
    cases v with
    | text t => rw [takes_stringLiteral t ls hls s rest h]
    | _ => cases hls

theorem takes_likeTail (field : String) {source : ValueSource}
    (hls : ls ∈ (keyword "like" + keyword "ilike") * pattern source) (h : Lays ls s rest) :
    Token.likeTail field s = some (.like field source, rest) := by
  rcases Language.mem_mul.mp hls with ⟨x, hx, y, hy, rfl⟩
  obtain ⟨t, hword, hpattern⟩ := lays_append.mp h
  have hread : (Token.keyword "like" s).or (Token.keyword "ilike" s) = some t := by
    rcases hx with hlike | hilike
    · rw [takes_keyword (by decide) hlike hword]
      rfl
    · have hlike : Token.keyword "like" s = none :=
        keyword_eq_none_of_lays (by decide) (by decide) hilike h
      rw [hlike, takes_keyword (by decide) hilike hword]
      rfl
  unfold Token.likeTail
  rw [hread]
  simp only [takes_likeOperand source y hy t rest hpattern, Option.map_some]

theorem takes_compareTail (moment : Moment) (field : String) {c : Comparison}
    {operand : ValueSource} (hls : ls ∈ comparison c * written operand) (h : Lays ls s rest) :
    Token.compareTail moment field s = some (.compare field c operand, rest) := by
  rcases Language.mem_mul.mp hls with ⟨x, hx, y, hy, rfl⟩
  obtain ⟨t, hmark, hvalue⟩ := lays_append.mp h
  unfold Token.compareTail
  simp only [takes_comparison c x hx s t hmark, takes_value moment operand y hy t rest hvalue,
    Option.map_some]

/-- A comparison starts with a symbol, and no word is one. -/
theorem keyword_eq_none_of_comparison {kw : String} (hkw : Lowercase kw) {c : Comparison}
    {L : Tokens} (hls : ls ∈ comparison c * L) (h : Lays ls s rest) :
    Token.keyword kw s = none := by
  rcases Language.mem_mul.mp hls with ⟨x, ⟨mark, -, rfl⟩, y, -, rfl⟩
  obtain ⟨t, hmark, -⟩ := lays_append.mp h
  exact keyword_eq_none_of_next hkw (lays_singleton.mp hmark) (List.not_mem_nil)

theorem follow_of_keyword {kw : String} {words signs : List String} {ls ks : List Lexeme}
    (hkw : kw ∉ words) (hls : ls ∈ keyword kw) : Follow words signs (ls ++ ks) := by
  obtain ⟨letters, hletters, rfl⟩ := hls
  exact follow_cons fun hone => hkw ((isOneOf_word hletters).mp hone)

/-- `IS NOT NULL` is tried before `IS NULL`, and fails behind `IS`. -/
theorem keywords_isNotNull_eq_none (hls : ls ∈ keywords ["is", "null"]) (h : Lays ls s rest) :
    Token.keywords ["is", "not", "null"] s = none := by
  rw [keywords, List.map_cons, List.prod_cons] at hls
  rcases Language.mem_mul.mp hls with ⟨x, hx, y, hy, rfl⟩
  rw [List.map_cons, List.prod_cons] at hy
  rcases Language.mem_mul.mp hy with ⟨u, hu, v, -, rfl⟩
  obtain ⟨t, his, hnull⟩ := lays_append.mp h
  rw [Token.keywords, takes_keyword (by decide) hx his]
  exact keywords_eq_none_of_first ["null"]
    (keyword_eq_none_of_lays (by decide) (by decide) hu hnull)

theorem takes_condition (moment : Moment) :
    Takes (Token.condition moment) (condition written) := by
  intro p ls hls s rest h
  unfold Token.condition
  cases p with
  | isNull field =>
    rcases Language.mem_mul.mp hls with ⟨x, hx, y, hy, rfl⟩
    obtain ⟨t, hname, htest⟩ := lays_append.mp h
    simp only [takes_identifier field x hx s t hname, keywords_isNotNull_eq_none hy htest,
      takes_keywords (by decide) hy htest]
  | isNotNull field =>
    rcases Language.mem_mul.mp hls with ⟨x, hx, y, hy, rfl⟩
    obtain ⟨t, hname, htest⟩ := lays_append.mp h
    simp only [takes_identifier field x hx s t hname, takes_keywords (by decide) hy htest]
  | like field source =>
    rcases Language.mem_mul.mp hls with ⟨x, hx, y, hy, rfl⟩
    obtain ⟨t, hname, htest⟩ := lays_append.mp h
    have his : Token.keyword "is" t = none := by
      rcases Language.mem_mul.mp hy with ⟨u, hu, v, -, rfl⟩
      rcases hu with hlike | hilike
      · exact keyword_eq_none_of_lays (by decide) (by decide) hlike htest
      · exact keyword_eq_none_of_lays (by decide) (by decide) hilike htest
    simp only [takes_identifier field x hx s t hname, keywords_eq_none_of_first _ his,
      takes_likeTail field hy htest, Option.some_or]
  | compare field c operand =>
    rcases Language.mem_mul.mp hls with ⟨x, hx, y, hy, rfl⟩
    obtain ⟨t, hname, htest⟩ := lays_append.mp h
    -- All tests by words come first, and must fail.
    have hword : ∀ kw, Lowercase kw → Token.keyword kw t = none := fun kw hkw =>
      keyword_eq_none_of_comparison hkw hy htest
    have hlike : Token.likeTail field t = none := by
      unfold Token.likeTail
      rw [hword "like" (by decide), hword "ilike" (by decide)]
      rfl
    simp only [takes_identifier field x hx s t hname,
      keywords_eq_none_of_first _ (hword "is" (by decide)), hlike,
      takes_compareTail moment field hy htest, Option.none_or]

theorem accepts_condition (moment : Moment) :
    Accepts (Token.condition moment) (condition written) [] [] :=
  (takes_condition moment).accepts [] []

theorem exists_conditions (moment : Moment) (full : List Char) {ps : List Predicate}
    {ls ks : List Lexeme} {bound : Nat} {first : Bool} (hls : ls ∈ conditions written ps)
    (hbound : ls.length < bound) (hks : Follow ["and", "or"] [] ks) (h : Laid (ls ++ ks) s) :
    Finds (Token.conditions moment full bound first s) ps ks := by
  induction ps generalizing ls s bound first with
  | nil => cases hls
  | cons p more ih =>
    obtain ⟨bound, rfl⟩ : ∃ n, bound = n + 1 := ⟨bound - 1, by omega⟩
    rcases Language.mem_mul.mp hls with ⟨x, hx, y, hy, rfl⟩
    rw [List.append_assoc] at h
    obtain ⟨t, hp, hlaid⟩ := accepts_condition moment p x hx _ s (follow_none _) h
    cases more with
    | nil =>
      obtain rfl := (Language.mem_one y).mp hy
      have hand : Token.keyword "and" t = none :=
        keyword_eq_none (by decide) hlaid (hks.mono (by decide) (List.Subset.refl _))
      have hor : Token.keyword "or" t = none :=
        keyword_eq_none (by decide) hlaid (hks.mono (by decide) (List.Subset.refl _))
      refine ⟨t, ?_, hlaid⟩
      rw [Token.conditions]
      simp only [hp, hand, hor, Option.isSome_none, Bool.false_eq_true, if_false]
    | cons q more =>
      rcases Language.mem_mul.mp hy with ⟨u, hu, v, hv, rfl⟩
      have hlength : v.length < bound := by
        obtain ⟨letters, -, rfl⟩ := hu
        simp only [List.length_append, List.length_cons, List.length_nil] at hbound
        omega
      rw [List.append_assoc] at hlaid
      obtain ⟨t', hand, hlaid'⟩ := exists_keyword (by decide) hu hlaid
      obtain ⟨rest, hmore, hrest⟩ : Finds (Token.conditions moment full bound false t')
          (q :: more) ks := ih hv hlength hlaid'
      refine ⟨rest, ?_, hrest⟩
      rw [Token.conditions]
      simp only [hp, hand, hmore]

theorem exists_whereClause (moment : Moment) (full : List Char) {ps : List Predicate}
    {ls ks : List Lexeme} (hls : ls ∈ whereClause written ps)
    (hks : Follow ["where", "and", "or"] [] ks) (h : Laid (ls ++ ks) s) :
    Finds (Token.whereClause moment full s) ps ks := by
  unfold Token.whereClause
  cases ps with
  | nil =>
    obtain rfl := (Language.mem_one ls).mp hls
    have hwhere : Token.keyword "where" s = none :=
      keyword_eq_none (by decide) h (hks.mono (by decide) (List.Subset.refl _))
    exact ⟨s, by rw [hwhere], h⟩
  | cons p more =>
    rcases Language.mem_mul.mp hls with ⟨x, hx, y, hy, rfl⟩
    rw [List.append_assoc] at h
    obtain ⟨t, hwhere, hlaid⟩ := exists_keyword (by decide) hx h
    have hbound : y.length < t.length + 1 := Nat.lt_succ_of_le hlaid.length_le_of_append
    rw [hwhere]
    exact exists_conditions moment full hy hbound (hks.mono (by decide) (List.Subset.refl _)) hlaid

end Conditions

end DocumentSql.Grammar
