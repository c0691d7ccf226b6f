import DocumentSql.Proofs.Grammar.Layout
import DocumentSql.Relational.Backend
/-
Where the word `RETURNING` stands in the text of a statement: inside of quotes and comments, or
outside. Outside it stands just where a lexeme is that word.
-/

namespace DocumentSql

open Text (isNameChar)

/-- What a place in a text of statements belongs to. -/
inductive Place
  | code
  | text
  | name
  | comment
deriving DecidableEq, Repr

namespace Place

/-- The place behind a character. A doubled quote ends a text and begins it again. -/
def after (place : Place) (c : Char) (rest : List Char) : Place :=
  match place with
  | code =>
    if c = '\'' then text
    else if c = '"' then name
    else if c = '-' ∧ rest.head? = some '-' then comment
    else code
  | text => if c = '\'' then code else text
  | name => if c = '"' then code else name
  | comment => if c = '\n' then code else comment

/-- The marks that open and close are hidden with what they enclose. Blanks show anywhere. -/
def shows (place : Place) (c : Char) (rest : List Char) : Bool :=
  Text.isBlank c || place = code ∧ place.after c rest = code

/-- The text outside of quotes and comments, with blanks for all else. -/
def outside : Place → List Char → List Char
  | _, [] => []
  | place, c :: rest =>
    (if place.shows c rest then c else ' ') :: outside (place.after c rest) rest

/-- The text inside of quotes and comments, with blanks for all else. -/
def inside : Place → List Char → List Char
  | _, [] => []
  | place, c :: rest =>
    (if place.shows c rest then ' ' else c) :: inside (place.after c rest) rest

/-- The characters that open a place of another kind. -/
def isMark (c : Char) : Bool := c = '\'' || c = '"' || c = '-'

theorem after_code {c : Char} (hc : isMark c = false) (rest : List Char) :
    code.after c rest = code := by
  simp only [isMark, Bool.or_eq_false_iff, decide_eq_false_iff_not] at hc
  obtain ⟨⟨htext, hname⟩, hdash⟩ := hc
  simp [after, htext, hname, hdash]

theorem ne_of_isNameChar {c : Char} (hc : isNameChar c = true) (mark : Char)
    (hmark : isNameChar mark = false) : c ≠ mark := by
  rintro rfl
  rw [hc] at hmark
  cases hmark

theorem isMark_nameChar {c : Char} (hc : isNameChar c = true) : isMark c = false := by
  have hne := ne_of_isNameChar hc
  simp [isMark, hne '\'' rfl, hne '"' rfl, hne '-' rfl]

theorem after_nameChar {c : Char} (hc : isNameChar c = true) (place : Place) (rest : List Char) :
    place.after c rest = place := by
  cases place with
  | code => exact after_code (isMark_nameChar hc) rest
  | _ => exact if_neg (ne_of_isNameChar hc _ rfl)

theorem shows_nameChar {c : Char} (hc : isNameChar c = true) (place : Place) (rest : List Char) :
    place.shows c rest = decide (place = code) := by
  have hblank : Text.isBlank c = false := by
    have hne := ne_of_isNameChar hc
    simp [Text.isBlank, hne ' ' rfl, hne '\t' rfl, hne '\r' rfl, hne '\n' rfl]
  simp [shows, hblank, after_nameChar hc]

end Place

namespace Relational

section Words

theorem split_eq_splitOnP (isSeparator : Char → Bool) (s : List Char) :
    Text.split isSeparator s = s.splitOnP isSeparator := by
  induction s with
  | nil => rfl
  | cons c s ih =>
    rw [Text.split, ih, List.splitOnP_cons_eq_if_modifyHead]
    cases h : s.splitOnP isSeparator with
    | nil => exact absurd h (List.splitOnP_ne_nil _ _)
    | cons piece pieces => rfl

/-- Whether a piece between separators is the word, in any letter case. -/
def isReturning (piece : List Char) : Bool := Text.lower piece == "returning".toList

theorem isReturning_iff {piece : List Char} :
    isReturning piece = true ↔ Text.lower piece = "returning".toList := beq_iff_eq

theorem mentionsReturning_eq (s : List Char) :
    mentionsReturning s = (s.splitOnP fun c => !isNameChar c).any isReturning := by
  rw [mentionsReturning, split_eq_splitOnP]
  rfl

theorem mentions_nil : mentionsReturning [] = false := rfl

/-- No word goes across a separator. -/
theorem mentions_append_cons {c : Char} (hc : isNameChar c = false) (a b : List Char) :
    mentionsReturning (a ++ c :: b) = (mentionsReturning a || mentionsReturning b) := by
  simp only [mentionsReturning_eq]
  rw [List.splitOnP_append_cons _ _ (by simp [hc]), List.any_append]

theorem mentions_cons {c : Char} (hc : isNameChar c = false) (s : List Char) :
    mentionsReturning (c :: s) = mentionsReturning s := by
  have h := mentions_append_cons hc [] s
  rwa [mentions_nil, Bool.false_or] at h

theorem mentions_separators {separators : List Char}
    (h : ∀ c ∈ separators, isNameChar c = false) (s : List Char) :
    mentionsReturning (separators ++ s) = mentionsReturning s := by
  induction separators with
  | nil => rfl
  | cons c separators ih =>
    rw [List.cons_append, mentions_cons (h c List.mem_cons_self)]
    exact ih fun d hd => h d (List.mem_cons_of_mem _ hd)

theorem mentions_append_separators {separators : List Char}
    (h : ∀ c ∈ separators, isNameChar c = false) (s : List Char) :
    mentionsReturning (s ++ separators) = mentionsReturning s := by
  cases separators with
  | nil => rw [List.append_nil]
  | cons c separators =>
    have hrest := mentions_separators (fun d hd => h d (List.mem_cons_of_mem _ hd)) []
    rw [List.append_nil, mentions_nil] at hrest
    rw [mentions_append_cons (h c List.mem_cons_self), hrest, Bool.or_false]

theorem mentions_across {separators : List Char} (hne : separators ≠ [])
    (h : ∀ c ∈ separators, isNameChar c = false) (a b : List Char) :
    mentionsReturning (a ++ (separators ++ b)) = (mentionsReturning a || mentionsReturning b) := by
  obtain ⟨c, separators, rfl⟩ := List.exists_cons_of_ne_nil hne
  rw [List.cons_append, mentions_append_cons (h c List.mem_cons_self),
    mentions_separators fun d hd => h d (List.mem_cons_of_mem _ hd)]

theorem mentions_word {w : List Char} (hw : ∀ c ∈ w, isNameChar c = true) :
    mentionsReturning w = isReturning w := by
  rw [mentionsReturning_eq, List.splitOnP_eq_singleton fun c hc => by simp [hw c hc]]
  exact Bool.or_false _

theorem mentions_word_append {w rest : List Char} (hw : ∀ c ∈ w, isNameChar c = true)
    (hrest : Stops isNameChar rest) :
    mentionsReturning (w ++ rest) = (isReturning w || mentionsReturning rest) := by
  cases rest with
  | nil => rw [List.append_nil, mentions_word hw, mentions_nil, Bool.or_false]
  | cons c rest =>
    have hc := hrest c rfl
    rw [mentions_append_cons hc, mentions_word hw, mentions_cons hc]

theorem exists_word_append (s : List Char) :
    ∃ w rest, s = w ++ rest ∧ (∀ c ∈ w, isNameChar c = true) ∧ Stops isNameChar rest :=
  ⟨_, _, List.takeWhile_append_dropWhile.symm, fun _ hc => List.mem_takeWhile_imp hc,
    stops_dropWhile isNameChar s⟩

theorem isReturning_digits {digits : List Char} (hne : digits ≠ [])
    (hdigits : Lexeme.Digits digits) (w : List Char) : isReturning (digits ++ w) = false := by
  obtain ⟨d, digits, rfl⟩ := List.exists_cons_of_ne_nil hne
  have hd := Text.isDigit_iff.mp (hdigits d List.mem_cons_self)
  have hlower : d.toLower = d := Text.toLower_of_not_isUpper fun hupper => by
    have := Text.isUpper_iff.mp hupper
    omega
  have hletter : d ≠ 'r' := by
    rintro rfl
    exact absurd hd (by decide)
  simp [isReturning, Text.lower, hlower, hletter]

/-- Digits in front of a word make another word of it, and none that is looked for. -/
theorem mentions_of_digits {digits rest : List Char} (hne : digits ≠ [])
    (hdigits : Lexeme.Digits digits) (h : mentionsReturning (digits ++ rest) = true) :
    mentionsReturning rest = true := by
  obtain ⟨w, rest, rfl, hw, hrest⟩ := exists_word_append rest
  have hword : ∀ c ∈ digits ++ w, isNameChar c = true := fun c hc =>
    (List.mem_append.mp hc).elim (fun h => Text.isNameChar_iff.mpr (.inr (hdigits c h))) (hw c)
  rw [← List.append_assoc, mentions_word_append hword hrest, isReturning_digits hne hdigits,
    Bool.false_or] at h
  rw [mentions_word_append hw hrest, h, Bool.or_true]

theorem isNameChar_takeWhile (s : List Char) :
    ∀ c ∈ s.takeWhile Text.isWhite, isNameChar c = false := fun _ hc =>
  Text.isNameChar_of_isWhite (List.mem_takeWhile_imp hc)

theorem mentions_dropWhile (s : List Char) :
    mentionsReturning (s.dropWhile Text.isWhite) = mentionsReturning s := by
  have hs := mentions_separators (isNameChar_takeWhile s) (s.dropWhile Text.isWhite)
  rwa [List.takeWhile_append_dropWhile, eq_comm] at hs

theorem mentions_reverse_dropWhile (s : List Char) :
    mentionsReturning (s.reverse.dropWhile Text.isWhite).reverse = mentionsReturning s := by
  have hwhite : ∀ c ∈ (s.reverse.takeWhile Text.isWhite).reverse, isNameChar c = false :=
    fun c hc => isNameChar_takeWhile _ c (List.mem_reverse.mp hc)
  have hs := mentions_append_separators hwhite (s.reverse.dropWhile Text.isWhite).reverse
  rwa [← List.reverse_append, List.takeWhile_append_dropWhile, List.reverse_reverse,
    eq_comm] at hs

/-- White space at the ends of a text belongs to no word. -/
theorem mentions_trim (s : List Char) : mentionsReturning (Text.trim s) = mentionsReturning s := by
  rw [Text.trim, mentions_reverse_dropWhile, mentions_dropWhile]

end Words

section Places

open Place

/-- The word that goes on at a place belongs to the text outside only if the place is code. -/
theorem mentions_word_eq (place : Place) {w : List Char} (hw : ∀ c ∈ w, isNameChar c = true)
    (s : List Char) : mentionsReturning (w ++ s) =
      (mentionsReturning ((if place = code then w else []) ++ outside place s) ||
        mentionsReturning ((if place = code then [] else w) ++ inside place s)) := by
  -- The word read so far goes along: only the next separator shows where it ends.
  induction s generalizing place w with
  | nil => by_cases hplace : place = code <;> simp [hplace, outside, inside, mentions_nil]
  | cons c s ih =>
    rw [outside, inside]
    by_cases hc : isNameChar c = true
    · have hword : ∀ d ∈ w ++ [c], isNameChar d = true := fun d hd =>
        (List.mem_append.mp hd).elim (hw d) fun h => List.mem_singleton.mp h ▸ hc
      have hih := ih place hword
      rw [List.append_assoc, List.singleton_append] at hih
      rw [shows_nameChar hc, after_nameChar hc, hih]
      have hblank : isNameChar ' ' = false := rfl
      by_cases hplace : place = code <;> simp [hplace, mentions_cons hblank]
    · have hc : isNameChar c = false := by simpa using hc
      have hih := ih (place.after c s) (List.forall_mem_nil _)
      simp only [List.nil_append, ite_self] at hih
      have houtside : isNameChar (if place.shows c s then c else ' ') = false := by
        split
        · exact hc
        · rfl
      have hinside : isNameChar (if place.shows c s then ' ' else c) = false := by
        split
        · rfl
        · exact hc
      rw [mentions_append_cons hc, mentions_append_cons houtside, mentions_append_cons hinside, hih]
      by_cases hplace : place = code <;>
        simp [hplace, mentions_nil, Bool.or_assoc, Bool.or_left_comm]

theorem mentions_eq (s : List Char) :
    mentionsReturning s =
      (mentionsReturning (outside code s) || mentionsReturning (inside code s)) :=
  mentions_word_eq code (List.forall_mem_nil _) s

end Places

/-- Of one text, nothing but separators is outside before the other. -/
def Wordless (place place' : Place) (s t : List Char) : Prop :=
  ∃ separators, (∀ c ∈ separators, isNameChar c = false) ∧
    Place.outside place s = separators ++ Place.outside place' t

section Wordless

open Place

theorem Wordless.refl (place : Place) (s : List Char) : Wordless place place s s :=
  ⟨[], List.forall_mem_nil _, rfl⟩

theorem Wordless.trans {p q r : Place} {s t u : List Char} (h : Wordless p q s t)
    (h' : Wordless q r t u) : Wordless p r s u := by
  obtain ⟨a, ha, hs⟩ := h
  obtain ⟨b, hb, ht⟩ := h'
  refine ⟨a ++ b, fun c hc => (List.mem_append.mp hc).elim (ha c) (hb c), ?_⟩
  rw [hs, ht, List.append_assoc]

theorem wordless_cons {place : Place} {c : Char} (h : place ≠ code ∨ isNameChar c = false)
    (s : List Char) : Wordless place (place.after c s) (c :: s) s := by
  refine ⟨[if place.shows c s then c else ' '], fun d hd => ?_, rfl⟩
  obtain rfl := List.mem_singleton.mp hd
  cases hc : isNameChar c with
  | true =>
    obtain hplace | hsep := h
    · rw [shows_nameChar hc, decide_eq_false hplace]
      rfl
    · rw [hc] at hsep
      cases hsep
  | false =>
    split
    · exact hc
    · rfl

theorem wordless_append {place : Place} {body : List Char}
    (hwordless : place ≠ code ∨ ∀ c ∈ body, isNameChar c = false)
    (hstays : ∀ c ∈ body, ∀ rest, place.after c rest = place) (rest : List Char) :
    Wordless place place (body ++ rest) rest := by
  induction body with
  | nil => exact Wordless.refl place rest
  | cons c body ih =>
    have hfirst := wordless_cons (hwordless.imp_right fun h => h c List.mem_cons_self)
      (body ++ rest)
    rw [hstays c List.mem_cons_self] at hfirst
    exact hfirst.trans <| ih (hwordless.imp_right fun h d hd => h d (List.mem_cons_of_mem _ hd))
      fun d hd => hstays d (List.mem_cons_of_mem _ hd)

theorem outside_lineEnd {s : List Char} (h : AtLineEnd s) : outside comment s = outside code s := by
  cases h <;> simp [outside, shows, after, Text.isBlank]

theorem wordless_skip {s t : List Char} (h : Skip s t) : Wordless code code s t := by
  induction h with
  | done s => exact Wordless.refl code s
  | @blank c s t hc _ ih =>
    have hfirst : Wordless code code (c :: s) s := by
      obtain rfl | rfl | rfl | rfl := Text.isBlank_iff.mp hc <;> exact wordless_cons (.inr rfl) s
    exact hfirst.trans ih
  | @comment body s t hbody hs _ ih =>
    have hopen : Wordless code comment ('-' :: '-' :: (body ++ s)) ('-' :: (body ++ s)) :=
      wordless_cons (.inr rfl) _
    have hdash : Wordless comment comment ('-' :: (body ++ s)) (body ++ s) :=
      wordless_cons (.inr rfl) _
    have hnot : comment ≠ code := by decide
    have hline := wordless_append (.inl hnot) (fun c hc _ => if_neg (hbody c hc).1) s
    have hend : Wordless comment code s s := ⟨[], List.forall_mem_nil _, outside_lineEnd hs⟩
    exact hopen.trans (hdash.trans (hline.trans (hend.trans ih)))

end Wordless

section Lexemes

open Place Lexeme

theorem outside_append {written : List Char} (h : ∀ c ∈ written, isMark c = false)
    (rest : List Char) : outside code (written ++ rest) = written ++ outside code rest := by
  induction written with
  | nil => rfl
  | cons c written ih =>
    have hafter := after_code (h c List.mem_cons_self) (written ++ rest)
    rw [List.cons_append, outside, hafter, ih fun d hd => h d (List.mem_cons_of_mem _ hd)]
    simp [shows, hafter]

theorem isNameChar_digit {c : Char} (hc : c.isDigit = true) : isNameChar c = true :=
  Text.isNameChar_iff.mpr (.inr hc)

theorem outside_word {letters s rest : List Char} (h : (word letters).At s rest) :
    outside code s = letters ++ outside code rest := by
  rw [h.written]
  exact outside_append (fun c hc => isMark_nameChar (h.wellFormed.2 c hc)) rest

theorem outside_digits {digits : List Char} (hdigits : Digits digits) (rest : List Char) :
    outside code (digits ++ rest) = digits ++ outside code rest :=
  outside_append (fun c hc => isMark_nameChar (isNameChar_digit (hdigits c hc))) rest

theorem outside_parameter {digits s rest : List Char} (h : (parameter digits).At s rest) :
    outside code s = '$' :: (digits ++ outside code rest) := by
  have hdollar : ∀ c ∈ ['$'], isMark c = false := List.forall_mem_singleton.mpr rfl
  rw [h.written]
  exact (outside_append hdollar _).trans (congrArg _ (outside_digits h.wellFormed.2 rest))

theorem outside_fraction {places : List Char} (hplaces : Digits places) (rest : List Char) :
    outside code (fraction places ++ rest) = fraction places ++ outside code rest := by
  cases places with
  | nil => rfl
  | cons d places =>
    have hpoint : ∀ c ∈ ['.'], isMark c = false := List.forall_mem_singleton.mpr rfl
    exact (outside_append hpoint _).trans (congrArg _ (outside_digits hplaces rest))

theorem outside_minus {c : Char} (hc : c ≠ '-') (s : List Char) :
    outside code ('-' :: c :: s) = '-' :: outside code (c :: s) := by
  have hafter : code.after '-' (c :: s) = code := by simp [after, hc]
  rw [outside, hafter]
  simp [shows, hafter]

theorem outside_number {negative : Bool} {whole places s rest : List Char}
    (h : (number negative whole places).At s rest) :
    outside code s = sign negative ++ (whole ++ (fraction places ++ outside code rest)) := by
  obtain ⟨hne, hwhole, hplaces⟩ := h.wellFormed
  have hunsigned : outside code (whole ++ (fraction places ++ rest)) =
      whole ++ (fraction places ++ outside code rest) := by
    rw [outside_digits hwhole, outside_fraction hplaces]
  rw [h.written, written, List.append_assoc, List.append_assoc]
  cases negative with
  | false => exact hunsigned
  | true =>
    obtain ⟨d, whole, rfl⟩ := List.exists_cons_of_ne_nil hne
    have hd := ne_of_isNameChar (isNameChar_digit (hwhole d List.mem_cons_self)) '-' rfl
    exact (outside_minus hd _).trans (congrArg _ hunsigned)

theorem separators_of_mem_signs {mark : String} (h : mark ∈ signs) :
    ∀ c ∈ mark.toList, isNameChar c = false ∧ isMark c = false := by
  have hall : ∀ mark ∈ signs, mark.toList.all (fun c => !isNameChar c && !isMark c) = true := by
    decide
  intro c hc
  simpa using List.all_eq_true.mp (hall mark h) c hc

theorem outside_symbol {mark : String} {s rest : List Char} (h : (symbol mark).At s rest) :
    outside code s = mark.toList ++ outside code rest := by
  rw [h.written]
  exact outside_append (fun c hc => (separators_of_mem_signs h.wellFormed c hc).2) rest

theorem wordless_symbol {mark : String} {s rest : List Char} (h : (symbol mark).At s rest) :
    Wordless code code s rest :=
  ⟨mark.toList, fun c hc => (separators_of_mem_signs h.wellFormed c hc).1, outside_symbol h⟩

theorem wordless_quoted {name s rest : List Char} (h : (quoted name).At s rest) :
    Wordless code code s rest := by
  have hname : ∀ c ∈ name, ∀ rest, Place.name.after c rest = Place.name := by
    intro c hc rest
    have hne : c ≠ '"' := fun heq => h.wellFormed.2 (heq ▸ hc)
    exact if_neg hne
  have hs : s = '"' :: (name ++ '"' :: rest) := by simp [h.written, Lexeme.written]
  have hopen : Wordless code Place.name s (name ++ '"' :: rest) := by
    rw [hs]
    exact wordless_cons (.inr rfl) _
  have hclose : Wordless Place.name code ('"' :: rest) rest := wordless_cons (.inr rfl) rest
  have hnot : Place.name ≠ code := by decide
  exact hopen.trans ((wordless_append (.inl hnot) hname _).trans hclose)

/-- Between its two halves a doubled quote is outside, where there is nothing. -/
theorem wordless_body (body rest : List Char) : Wordless Place.text Place.text
    (body.flatMap (fun c => if c = '\'' then ['\'', '\''] else [c]) ++ rest) rest := by
  induction body with
  | nil => exact Wordless.refl _ _
  | cons c body ih =>
    rw [List.flatMap_cons, List.append_assoc]
    refine Wordless.trans ?_ ih
    by_cases hc : c = '\''
    · rw [if_pos hc]
      have hfirst (t : List Char) : Wordless Place.text code ('\'' :: t) t :=
        wordless_cons (.inr rfl) t
      have hsecond (t : List Char) : Wordless code Place.text ('\'' :: t) t :=
        wordless_cons (.inr rfl) t
      exact (hfirst _).trans (hsecond _)
    · rw [if_neg hc]
      have hnot : Place.text ≠ code := by decide
      refine wordless_append (.inl hnot) (fun d hd rest => ?_) _
      rw [List.mem_singleton.mp hd]
      exact if_neg hc

theorem wordless_text {body s rest : List Char} (h : (text body).At s rest) :
    Wordless code code s rest := by
  have hopen : Wordless code Place.text s
      (body.flatMap (fun c => if c = '\'' then ['\'', '\''] else [c]) ++ '\'' :: rest) := by
    have hs := h.written
    rw [written, ValueSource.quoteText, List.cons_append, List.cons_append, List.append_assoc] at hs
    rw [hs]
    exact wordless_cons (.inr rfl) _
  have hclose : Wordless Place.text code ('\'' :: rest) rest := wordless_cons (.inr rfl) rest
  exact hopen.trans ((wordless_body body _).trans hclose)

/-- What a lexeme leaves outside comes before the rest. -/
theorem outside_at {l : Lexeme} {s rest : List Char} (h : l.At s rest) :
    ∃ shown, outside code s = shown ++ outside code rest := by
  have hwordless : Wordless code code s rest →
      ∃ shown, outside code s = shown ++ outside code rest :=
    fun ⟨separators, _, heq⟩ => ⟨separators, heq⟩
  cases l with
  | word letters => exact ⟨letters, outside_word h⟩
  | quoted name => exact hwordless (wordless_quoted h)
  | text body => exact hwordless (wordless_text h)
  | parameter digits => exact ⟨'$' :: digits, outside_parameter h⟩
  | number negative whole places =>
    refine ⟨sign negative ++ (whole ++ fraction places), ?_⟩
    simp only [outside_number h, List.append_assoc]
  | symbol mark => exact hwordless (wordless_symbol h)

theorem outside_lays {ls : List Lexeme} {s rest : List Char} (h : Lays ls s rest) :
    ∃ shown, outside code s = shown ++ outside code rest := by
  induction h with
  | nil s => exact ⟨[], rfl⟩
  | cons hnext _ ih =>
    obtain ⟨t, hskip, hat⟩ := hnext
    obtain ⟨gap, -, hgap⟩ := wordless_skip hskip
    obtain ⟨first, hfirst⟩ := outside_at hat
    obtain ⟨more, hmore⟩ := ih
    refine ⟨gap ++ (first ++ more), ?_⟩
    rw [hgap, hfirst, hmore, List.append_assoc, List.append_assoc]

theorem Wordless.mentions {s t : List Char} (h : Wordless code code s t) :
    mentionsReturning (outside code s) = mentionsReturning (outside code t) := by
  obtain ⟨separators, hseparators, heq⟩ := h
  rw [heq, mentions_separators hseparators]

theorem stops_outside {rest : List Char} (h : Stops isNameChar rest) :
    Stops isNameChar (outside code rest) := by
  cases rest with
  | nil => exact h
  | cons c rest =>
    intro d hd
    obtain rfl := Option.some.inj hd
    split
    · exact h c rfl
    · rfl

theorem mentions_at {l : Lexeme} {s rest : List Char} (h : l.At s rest)
    (hmentions : mentionsReturning (outside code s) = true) :
    (∃ letters, l = .word letters ∧ isReturning letters = true) ∨
      mentionsReturning (outside code rest) = true := by
  cases l with
  | word letters =>
    rw [outside_word h, mentions_word_append h.wellFormed.2 (stops_outside h.ends),
      Bool.or_eq_true] at hmentions
    exact hmentions.imp_left fun hletters => ⟨letters, rfl, hletters⟩
  | quoted name => exact .inr ((wordless_quoted h).mentions ▸ hmentions)
  | text body => exact .inr ((wordless_text h).mentions ▸ hmentions)
  | parameter digits =>
    rw [outside_parameter h, mentions_cons rfl] at hmentions
    exact .inr (mentions_of_digits h.wellFormed.1 h.wellFormed.2 hmentions)
  | number negative whole places =>
    obtain ⟨hne, hwhole, hplaces⟩ := h.wellFormed
    have hsign : ∀ c ∈ sign negative, isNameChar c = false := by
      cases negative with
      | false => exact List.forall_mem_nil _
      | true => exact List.forall_mem_singleton.mpr rfl
    rw [outside_number h, mentions_separators hsign] at hmentions
    have hfraction := mentions_of_digits hne hwhole hmentions
    cases places with
    | nil => exact .inr hfraction
    | cons d places =>
      have hpoint : mentionsReturning ('.' :: (d :: places ++ outside code rest)) = true :=
        hfraction
      rw [mentions_cons rfl] at hpoint
      exact .inr (mentions_of_digits (List.cons_ne_nil d places) hplaces hpoint)
  | symbol mark => exact .inr ((wordless_symbol h).mentions ▸ hmentions)

theorem exists_word_of_mentions {ls : List Lexeme} {s : List Char} (h : Laid ls s)
    (hmentions : mentionsReturning (outside code s) = true) :
    ∃ letters, Lexeme.word letters ∈ ls ∧ isReturning letters = true := by
  induction ls generalizing s with
  | nil =>
    have hnil := (wordless_skip (skip_nil_iff.mpr (laid_nil.mp h))).mentions
    rw [hmentions] at hnil
    cases hnil
  | cons l ls ih =>
    obtain ⟨rest, ⟨t, hskip, hat⟩, hlaid⟩ := laid_cons.mp h
    rw [(wordless_skip hskip).mentions] at hmentions
    obtain ⟨letters, rfl, hletters⟩ | hrest := mentions_at hat hmentions
    · exact ⟨letters, List.mem_cons_self, hletters⟩
    · obtain ⟨letters, hmem, hletters⟩ := ih hlaid hrest
      exact ⟨letters, List.mem_cons_of_mem l hmem, hletters⟩

/-- A word between others is a word of its own if a symbol stands before it. -/
theorem mentions_of_laid {before after : List Lexeme} {mark : String} {letters s : List Char}
    (h : Laid (before ++ .symbol mark :: .word letters :: after) s)
    (hletters : isReturning letters = true) : mentionsReturning (outside code s) = true := by
  obtain ⟨t, hbefore, ht⟩ := laid_append.mp h
  obtain ⟨u, ⟨t', hskip, hmark⟩, hu⟩ := laid_cons.mp ht
  obtain ⟨v, ⟨u', hskip', hword⟩, -⟩ := laid_cons.mp hu
  obtain ⟨shown, hshown⟩ := outside_lays hbefore
  obtain ⟨gap, -, hgap⟩ := wordless_skip hskip
  obtain ⟨c, sign, hsign, -⟩ := exists_cons_of_mem_signs hmark.wellFormed
  have hne : mark.toList ≠ [] := hsign ▸ List.cons_ne_nil c sign
  have hseparators := fun c hc => (separators_of_mem_signs hmark.wellFormed c hc).1
  have hrest : mentionsReturning (outside code u) = true := by
    rw [(wordless_skip hskip').mentions, outside_word hword,
      mentions_word_append hword.wellFormed.2 (stops_outside hword.ends), hletters, Bool.true_or]
  rw [hshown, hgap, outside_symbol hmark, ← List.append_assoc,
    mentions_across hne hseparators, hrest, Bool.or_true]

end Lexemes

end Relational

end DocumentSql
