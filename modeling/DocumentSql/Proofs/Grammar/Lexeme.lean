import DocumentSql.Proofs.Characters
import DocumentSql.Proofs.Grammar.Gap
import Mathlib.Data.List.TakeWhile
/-
Lexemes as they are written, apart from how they are read. A text begins with at most one lexeme,
since each goes as far as it can.
-/

namespace DocumentSql

/-- No character of the class comes next. -/
def Stops (p : Char → Bool) (rest : List Char) : Prop := ∀ c ∈ rest.head?, p c = false

theorem stops_dropWhile (p : Char → Bool) (s : List Char) : Stops p (s.dropWhile p) := by
  induction s with
  | nil =>
    intro c hc
    cases hc
  | cons c s ih =>
    by_cases hc : p c = true
    · rwa [List.dropWhile_cons_of_pos hc]
    · rw [List.dropWhile_cons_of_neg hc]
      intro d hd
      obtain rfl := Option.some.inj hd
      simpa using hc

theorem Stops.takeWhile_eq {p : Char → Bool} {s : List Char} (h : Stops p s) :
    s.takeWhile p = [] := by
  cases s with
  | nil => rfl
  | cons c s => exact List.takeWhile_cons_of_neg (Bool.eq_false_iff.mp (h c rfl))

theorem Stops.dropWhile_eq {p : Char → Bool} {s : List Char} (h : Stops p s) :
    s.dropWhile p = s := by
  cases s with
  | nil => rfl
  | cons c s => exact List.dropWhile_cons_of_neg (Bool.eq_false_iff.mp (h c rfl))

theorem takeWhile_append_stop {p : Char → Bool} {run rest : List Char}
    (hrun : ∀ c ∈ run, p c = true) (hrest : Stops p rest) :
    (run ++ rest).takeWhile p = run ∧ (run ++ rest).dropWhile p = rest := by
  rw [List.takeWhile_append_of_pos hrun, List.dropWhile_append_of_pos hrun, hrest.takeWhile_eq,
    hrest.dropWhile_eq, List.append_nil]
  exact ⟨rfl, rfl⟩

theorem stops_of_forall {p : Char → Bool} {s : List Char} (h : ∀ c ∈ s, p c = false) :
    Stops p s := fun c hc => h c (List.mem_of_mem_head? hc)

theorem Stops.append {p : Char → Bool} {s : List Char} (h : Stops p s) (hne : s ≠ [])
    (t : List Char) : Stops p (s ++ t) := by
  obtain ⟨c, s, rfl⟩ := List.exists_cons_of_ne_nil hne
  exact h

/-- A numeral may have a fraction; a parameter is a dollar sign and digits. -/
inductive Lexeme
  | word (letters : List Char)
  | quoted (name : List Char)
  | text (body : List Char)
  | parameter (digits : List Char)
  | number (negative : Bool) (whole places : List Char)
  | symbol (mark : String)
deriving DecidableEq

namespace Lexeme

/-- The symbols of statements, those of two characters before their own beginnings. -/
def signs : List String := ["!=", "<>", "<=", ">=", "<", ">", "=", ",", "(", ")", "*", ";"]

def sign : Bool → List Char
  | true => ['-']
  | false => []

def fraction : List Char → List Char
  | [] => []
  | places => '.' :: places

def written : Lexeme → List Char
  | word letters => letters
  | quoted name => '"' :: (name ++ ['"'])
  | text body => ValueSource.quoteText body
  | parameter digits => '$' :: digits
  | number negative whole places => sign negative ++ (whole ++ fraction places)
  | symbol mark => mark.toList

def Digits (digits : List Char) : Prop := ∀ c ∈ digits, c.isDigit = true

theorem digits_nil : Digits [] := by
  intro c hc
  cases hc

def WellFormed : Lexeme → Prop
  | word letters => (∃ c rest, letters = c :: rest ∧ Text.isNameStart c = true) ∧
      ∀ c ∈ letters, Text.isNameChar c = true
  | quoted name => name ≠ [] ∧ '"' ∉ name
  | text _ => True
  | parameter digits => digits ≠ [] ∧ Digits digits
  | number _ whole places => whole ≠ [] ∧ Digits whole ∧ Digits places
  | symbol mark => mark ∈ signs

instance (digits : List Char) : Decidable (Digits digits) :=
  List.decidableBAll (fun c : Char => c.isDigit = true) digits

instance (l : Lexeme) : Decidable l.WellFormed :=
  match l with
  | word [] => isFalse fun h => by
    obtain ⟨⟨c, rest, hcons, -⟩, -⟩ := h
    cases hcons
  | word (c :: rest) =>
    haveI := List.decidableBAll (fun d => Text.isNameChar d = true) (c :: rest)
    decidable_of_iff (Text.isNameStart c = true ∧ ∀ d ∈ c :: rest, Text.isNameChar d = true) <| by
      constructor
      · exact fun ⟨hc, hall⟩ => ⟨⟨c, rest, rfl, hc⟩, hall⟩
      · rintro ⟨⟨d, tail, hcons, hd⟩, hall⟩
        obtain ⟨rfl, -⟩ := List.cons.inj hcons
        exact ⟨hd, hall⟩
  | quoted name => inferInstanceAs (Decidable (name ≠ [] ∧ '"' ∉ name))
  | text _ => inferInstanceAs (Decidable True)
  | parameter digits => inferInstanceAs (Decidable (digits ≠ [] ∧ Digits digits))
  | number _ whole places =>
    inferInstanceAs (Decidable (whole ≠ [] ∧ Digits whole ∧ Digits places))
  | symbol mark => inferInstanceAs (Decidable (mark ∈ signs))

/-- The characters with which a symbol would become a longer one. -/
def continues (mark : String) (c : Char) : Bool :=
  (mark == "<" && c == '>') || ((mark == "<" || mark == ">") && c == '=')

/-- What may follow a lexeme at once, without becoming a part of it. -/
def Ends : Lexeme → List Char → Prop
  | word _, rest => Stops Text.isNameChar rest
  | quoted _, _ => True
  | text _, rest => Stops (· == '\'') rest
  | parameter _, rest => Stops Char.isDigit rest
  | number _ _ places, rest => Stops Char.isDigit rest ∧
      (places = [] → ∀ c s, rest = '.' :: c :: s → c.isDigit = false)
  | symbol mark, rest => Stops (continues mark) rest

structure At (l : Lexeme) (s rest : List Char) : Prop where
  wellFormed : l.WellFormed
  written : s = l.written ++ rest
  ends : l.Ends rest

def signStarts : List Char := ['!', '<', '>', '=', ',', '(', ')', '*', ';']

/-- The characters that a lexeme of the same kind can start with. -/
def StartsWith : Lexeme → Char → Prop
  | word _, c => Text.isNameStart c = true
  | quoted _, c => c = '"'
  | text _, c => c = '\''
  | parameter _, c => c = '$'
  | number .., c => c.isDigit = true ∨ c = '-'
  | symbol _, c => c ∈ signStarts

theorem StartsWith.isWhite {l : Lexeme} {c : Char} (h : l.StartsWith c) :
    Text.isWhite c = false := by
  cases l with
  | word letters =>
    obtain h | h | h := Text.isNameStart_iff.1 h <;> exact Text.isWhite_eq_false (by omega)
  | number negative whole places =>
    obtain h | rfl := h
    · have := Text.isDigit_iff.1 h
      exact Text.isWhite_eq_false (by omega)
    · decide
  | symbol mark =>
    simp only [StartsWith, signStarts, List.mem_cons, List.not_mem_nil, or_false] at h
    obtain rfl | rfl | rfl | rfl | rfl | rfl | rfl | rfl | rfl := h <;> decide
  | _ =>
    obtain rfl := h
    decide

theorem exists_cons_of_mem_signs {mark : String} (h : mark ∈ signs) :
    ∃ c t, mark.toList = c :: t ∧ c ∈ signStarts := by
  have hall : ∀ mark ∈ signs, mark.toList.head?.any (· ∈ signStarts) = true := by decide
  obtain ⟨c, hc, hmem⟩ := (Option.any_eq_true _ _).1 (hall mark h)
  obtain ⟨t, ht⟩ := List.head?_eq_some_iff.1 hc
  exact ⟨c, t, ht, by simpa using hmem⟩

/-- A lexeme has a first character; if that is a minus sign, a digit comes next. -/
theorem WellFormed.written_eq_cons {l : Lexeme} (h : l.WellFormed) :
    ∃ c t, l.written = c :: t ∧ l.StartsWith c ∧
      (c = '-' → ∃ d u, t = d :: u ∧ d.isDigit = true) := by
  cases l with
  | word letters =>
    obtain ⟨⟨c, letters, rfl, hc⟩, -⟩ := h
    refine ⟨c, letters, rfl, hc, ?_⟩
    rintro rfl
    exact absurd hc (by decide)
  | number negative whole places =>
    obtain ⟨hwhole, hdigits, -⟩ := h
    obtain ⟨d, whole, rfl⟩ := List.exists_cons_of_ne_nil hwhole
    have hd : d.isDigit = true := hdigits d List.mem_cons_self
    cases negative with
    | true => exact ⟨'-', _, rfl, .inr rfl, fun _ => ⟨d, _, rfl, hd⟩⟩
    | false =>
      refine ⟨d, _, rfl, .inl hd, ?_⟩
      rintro rfl
      exact absurd hd (by decide)
  | symbol mark =>
    obtain ⟨c, t, hmark, hc⟩ := exists_cons_of_mem_signs h
    refine ⟨c, t, hmark, hc, ?_⟩
    rintro rfl
    exact absurd hc (by decide)
  | quoted name => exact ⟨_, _, rfl, rfl, fun h => absurd h (by decide)⟩
  | text body => exact ⟨_, _, rfl, rfl, fun h => absurd h (by decide)⟩
  | parameter digits => exact ⟨_, _, rfl, rfl, fun h => absurd h (by decide)⟩

theorem At.startsWith {l : Lexeme} {s rest : List Char} (h : l.At s rest) :
    ∃ c t, s = c :: t ∧ l.StartsWith c ∧ (c = '-' → ∃ d u, t = d :: u ∧ d.isDigit = true) := by
  obtain ⟨c, t, hwritten, hc, hdash⟩ := h.wellFormed.written_eq_cons
  refine ⟨c, t ++ rest, by rw [h.written, hwritten, List.cons_append], hc, fun hminus => ?_⟩
  obtain ⟨d, u, rfl, hd⟩ := hdash hminus
  exact ⟨d, _, rfl, hd⟩

theorem At.length_lt {l : Lexeme} {s rest : List Char} (h : l.At s rest) :
    rest.length < s.length := by
  obtain ⟨c, t, hwritten, -⟩ := h.wellFormed.written_eq_cons
  rw [h.written, hwritten, List.length_append, List.length_cons]
  omega

theorem At.ne_nil {l : Lexeme} {s rest : List Char} (h : l.At s rest) : s ≠ [] := by
  obtain ⟨c, t, rfl, -⟩ := h.startsWith
  simp

theorem At.skipGap {l : Lexeme} {s rest : List Char} (h : l.At s rest) : Token.skipGap s = s := by
  obtain ⟨c, t, rfl, hc, hdash⟩ := h.startsWith
  have hblank : ¬Text.isBlank c = true := fun hblank => by
    have hwhite := hc.isWhite
    rw [Text.isWhite_of_isBlank hblank] at hwhite
    cases hwhite
  rw [Token.skipGap, Token.gapFrom]
  · rw [if_neg hblank]
  · rintro u rfl rfl
    obtain ⟨d, v, heq, hd⟩ := hdash rfl
    obtain ⟨rfl, -⟩ := List.cons.inj heq
    exact absurd hd (by decide)

/-- A point continues a numeral and starts nothing. -/
theorem At.ne_point {l : Lexeme} {s rest : List Char} (h : l.At s rest) (t : List Char) :
    s ≠ '.' :: t := by
  rintro rfl
  obtain ⟨c, t, heq, hc, -⟩ := h.startsWith
  obtain ⟨rfl, -⟩ := List.cons.inj heq
  cases l <;> simp only [StartsWith, signStarts] at hc <;> revert hc <;> decide

/-- The kind of a lexeme shows in its first character. -/
inductive Kind
  | word
  | quoted
  | text
  | parameter
  | number
  | symbol

def kind : Lexeme → Kind
  | word _ => .word
  | quoted _ => .quoted
  | text _ => .text
  | parameter _ => .parameter
  | number .. => .number
  | symbol _ => .symbol

def Kind.ofChar (c : Char) : Kind :=
  if Text.isNameStart c then .word
  else if c.isDigit || c == '-' then .number
  else if c = '"' then .quoted
  else if c = '\'' then .text
  else if c = '$' then .parameter
  else .symbol

theorem StartsWith.ofChar {l : Lexeme} {c : Char} (h : l.StartsWith c) :
    Kind.ofChar c = l.kind := by
  cases l with
  | word letters => exact if_pos h
  | number negative whole places =>
    obtain h | rfl := h
    · have hdigit := Text.isDigit_iff.1 h
      have hstart : ¬Text.isNameStart c = true := fun hstart => by
        have := Text.isNameStart_iff.1 hstart
        omega
      rw [Kind.ofChar, if_neg hstart, h]
      rfl
    · rfl
  | symbol mark =>
    simp only [StartsWith, signStarts, List.mem_cons, List.not_mem_nil, or_false] at h
    obtain rfl | rfl | rfl | rfl | rfl | rfl | rfl | rfl | rfl := h <;> rfl
  | _ =>
    obtain rfl := h
    rfl

theorem At.kind_eq {l l' : Lexeme} {s rest rest' : List Char} (h : l.At s rest)
    (h' : l'.At s rest') : l.kind = l'.kind := by
  obtain ⟨c, t, rfl, hc, -⟩ := h.startsWith
  obtain ⟨c', t', heq, hc', -⟩ := h'.startsWith
  obtain ⟨rfl, -⟩ := List.cons.inj heq
  rw [← hc.ofChar, ← hc'.ofChar]

theorem At.word_span {letters s rest : List Char} (h : (word letters).At s rest) :
    s.takeWhile Text.isNameChar = letters ∧ s.dropWhile Text.isNameChar = rest := by
  rw [h.written]
  exact takeWhile_append_stop h.wellFormed.2 h.ends

theorem At.quoted_span {name s rest : List Char} (h : (quoted name).At s rest) :
    ∃ t, s = '"' :: t ∧ t.takeWhile (· != '"') = name ∧ t.dropWhile (· != '"') = '"' :: rest := by
  refine ⟨name ++ '"' :: rest, by simp [h.written, Lexeme.written], takeWhile_append_stop ?_ ?_⟩
  · intro c hc
    have hne : c ≠ '"' := fun heq => h.wellFormed.2 (heq ▸ hc)
    simpa using hne
  · intro c hc
    obtain rfl := Option.some.inj hc
    rfl

theorem stringBody_quoted {body rest : List Char} (hrest : Stops (· == '\'') rest) :
    Token.stringBody (body.flatMap (fun c => if c = '\'' then ['\'', '\''] else [c]) ++
      '\'' :: rest) = some (body, rest) := by
  induction body with
  | nil =>
    rw [List.flatMap_nil, List.nil_append, Token.stringBody]
    · rw [if_pos rfl]
    · rintro t - rfl
      exact absurd (hrest _ rfl) (by decide)
  | cons c body ih =>
    rw [List.flatMap_cons, List.append_assoc]
    by_cases hc : c = '\''
    · subst hc
      rw [if_pos rfl, List.cons_append, List.cons_append, List.nil_append, Token.stringBody, ih]
    · rw [if_neg hc, List.cons_append, List.nil_append, Token.stringBody, if_neg hc, ih]
      exact fun _ h => absurd h hc

theorem At.text_body {body s rest : List Char} (h : (text body).At s rest) :
    ∃ t, s = '\'' :: t ∧ Token.stringBody t = some (body, rest) := by
  refine ⟨_, h.written.trans ?_, stringBody_quoted h.ends⟩
  simp [Lexeme.written, ValueSource.quoteText]

theorem At.parameter_span {digits s rest : List Char} (h : (parameter digits).At s rest) :
    ∃ t, s = '$' :: t ∧ t.takeWhile Char.isDigit = digits ∧ t.dropWhile Char.isDigit = rest :=
  ⟨_, h.written, takeWhile_append_stop h.wellFormed.2 h.ends⟩

theorem fraction_written {places rest : List Char} (hplaces : Digits places)
    (hends : Stops Char.isDigit rest)
    (hpoint : places = [] → ∀ c s, rest = '.' :: c :: s → c.isDigit = false) :
    Token.fraction (fraction places ++ rest) = (places, rest) := by
  cases places with
  | nil =>
    rw [fraction, List.nil_append]
    by_cases hdot : ∃ t, rest = '.' :: t
    · obtain ⟨t, rfl⟩ := hdot
      have hnone : t.takeWhile Char.isDigit = [] := by
        cases t with
        | nil => rfl
        | cons c t => simp [hpoint rfl c t rfl]
      simp [Token.fraction, hnone]
    · rw [Token.fraction]
      exact fun t ht => hdot ⟨t, ht⟩
  | cons d places =>
    obtain ⟨htake, hdrop⟩ := takeWhile_append_stop hplaces hends
    simp only [fraction, List.cons_append] at htake hdrop ⊢
    simp only [Token.fraction, htake, hdrop, List.isEmpty_cons, Bool.false_eq_true, if_false]

theorem At.number_span {negative : Bool} {whole places s rest : List Char}
    (h : (number negative whole places).At s rest) :
    ∃ t, s = sign negative ++ t ∧ (∃ d u, t = d :: u ∧ d.isDigit = true) ∧
      t.takeWhile Char.isDigit = whole ∧
      Token.fraction (t.dropWhile Char.isDigit) = (places, rest) := by
  obtain ⟨⟨hne, hwhole, hplaces⟩, rfl, hends, hpoint⟩ := h
  have hstop : Stops Char.isDigit (fraction places ++ rest) := by
    cases places with
    | nil => exact hends
    | cons d places =>
      intro c hc
      obtain rfl := Option.some.inj hc
      rfl
  obtain ⟨htake, hdrop⟩ := takeWhile_append_stop hwhole hstop
  obtain ⟨d, u, rfl⟩ := List.exists_cons_of_ne_nil hne
  refine ⟨d :: u ++ (fraction places ++ rest), by simp [Lexeme.written], ?_, htake, ?_⟩
  · exact ⟨d, _, rfl, hwhole d List.mem_cons_self⟩
  · rw [hdrop, fraction_written hplaces hends hpoint]

def longestSign (s : List Char) : Option String := signs.find? fun mark => mark.toList.isPrefixOf s

theorem At.longestSign {mark : String} {s rest : List Char} (h : (symbol mark).At s rest) :
    longestSign s = some mark := by
  obtain ⟨hwell, rfl, hends⟩ := h
  simp only [WellFormed, signs, List.mem_cons, List.not_mem_nil, or_false] at hwell
  obtain rfl | rfl | rfl | rfl | rfl | rfl | rfl | rfl | rfl | rfl | rfl | rfl := hwell
  -- Only the two marks that begin other ones depend on what follows them.
  case inr.inr.inr.inr.inl =>
    cases rest with
    | nil => rfl
    | cons c rest =>
      have hgreater : ¬ '>' = c := fun h => absurd (hends c rfl) (h ▸ by decide)
      have hequal : ¬ '=' = c := fun h => absurd (hends c rfl) (h ▸ by decide)
      simp [Lexeme.longestSign, signs, Lexeme.written, List.isPrefixOf, hgreater, hequal]
  case inr.inr.inr.inr.inr.inl =>
    cases rest with
    | nil => rfl
    | cons c rest =>
      have hequal : ¬ '=' = c := fun h => absurd (hends c rfl) (h ▸ by decide)
      simp [Lexeme.longestSign, signs, Lexeme.written, List.isPrefixOf, hequal]
  all_goals simp [Lexeme.longestSign, signs, Lexeme.written, List.isPrefixOf]

/-- A text begins with one lexeme at most. -/
theorem At.unique {l l' : Lexeme} {s rest rest' : List Char} (h : l.At s rest)
    (h' : l'.At s rest') : l = l' ∧ rest = rest' := by
  have hkind := h.kind_eq h'
  cases l <;> cases l' <;> cases hkind
  case word.word =>
    rw [← h.word_span.1, ← h.word_span.2, h'.word_span.1, h'.word_span.2]
    exact ⟨rfl, rfl⟩
  case quoted.quoted =>
    obtain ⟨t, rfl, htake, hdrop⟩ := h.quoted_span
    obtain ⟨t', heq, htake', hdrop'⟩ := h'.quoted_span
    obtain ⟨-, rfl⟩ := List.cons.inj heq
    rw [hdrop'] at hdrop
    exact ⟨by rw [← htake, ← htake'], (List.cons.inj hdrop).2.symm⟩
  case text.text =>
    obtain ⟨t, rfl, hbody⟩ := h.text_body
    obtain ⟨t', heq, hbody'⟩ := h'.text_body
    obtain ⟨-, rfl⟩ := List.cons.inj heq
    rw [hbody] at hbody'
    obtain ⟨rfl, rfl⟩ := Prod.mk.inj (Option.some.inj hbody')
    exact ⟨rfl, rfl⟩
  case parameter.parameter =>
    obtain ⟨t, rfl, htake, hdrop⟩ := h.parameter_span
    obtain ⟨t', heq, htake', hdrop'⟩ := h'.parameter_span
    obtain ⟨-, rfl⟩ := List.cons.inj heq
    exact ⟨by rw [← htake, ← htake'], by rw [← hdrop, ← hdrop']⟩
  case number.number negative whole places negative' whole' places' =>
    obtain ⟨t, rfl, ⟨d, u, rfl, hd⟩, htake, hfraction⟩ := h.number_span
    obtain ⟨t', heq, ⟨d', u', rfl, hd'⟩, htake', hfraction'⟩ := h'.number_span
    have hsign : negative = negative' ∧ d :: u = d' :: u' := by
      cases negative <;> cases negative'
      · exact ⟨rfl, heq⟩
      · obtain rfl : d = '-' := (List.cons.inj heq).1
        exact absurd hd (by decide)
      · obtain rfl : '-' = d' := (List.cons.inj heq).1
        exact absurd hd' (by decide)
      · exact ⟨rfl, (List.cons.inj heq).2⟩
    obtain ⟨rfl, htail⟩ := hsign
    rw [htail, htake'] at htake
    rw [htail, hfraction'] at hfraction
    obtain ⟨rfl, rfl⟩ := Prod.mk.inj hfraction
    exact ⟨by rw [htake], rfl⟩
  case symbol.symbol =>
    obtain rfl := Option.some.inj (h.longestSign.symm.trans h'.longestSign)
    exact ⟨rfl, List.append_cancel_left (h.written.symm.trans h'.written)⟩

end Lexeme

end DocumentSql
