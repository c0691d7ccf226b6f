import DocumentSql.Grammar.Condition
import DocumentSql.Proofs.Number.Numeral
import DocumentSql.Proofs.Number.Rounding
import DocumentSql.Proofs.Grammar.Layout
/-
The readers of single lexemes, each by the lexemes that it accepts. What a reader refuses follows:
a text has one first lexeme, and a reader of another one does not find it.
-/

namespace DocumentSql

/-- A word of statements, as the readers spell it. -/
def Lowercase (kw : String) : Prop := kw.toList ≠ [] ∧ ∀ w ∈ kw.toList, w.isLower = true

-- The tests run over the letters of a word; all characters there are would be too many.
instance (kw : String) : Decidable (Lowercase kw) :=
  haveI := List.decidableBAll (fun w : Char => w.isLower = true) kw.toList
  inferInstanceAs (Decidable (kw.toList ≠ [] ∧ ∀ w ∈ kw.toList, w.isLower = true))

namespace Token

theorem dropWord?_eq_some_iff {kw s rest : List Char} (hkw : ∀ w ∈ kw, w.isLower = true) :
    dropWord? kw s = some rest ↔ ∃ letters, Text.lower letters = kw ∧ s = letters ++ rest := by
  induction kw generalizing s with
  | nil =>
    rw [dropWord?]
    constructor
    · intro h
      exact ⟨[], rfl, Option.some.inj h⟩
    · rintro ⟨letters, hletters, rfl⟩
      obtain rfl := List.map_eq_nil_iff.1 hletters
      rfl
  | cons w kw ih =>
    have hw := hkw w List.mem_cons_self
    have hkw' : ∀ v ∈ kw, v.isLower = true := fun v hv => hkw v (List.mem_cons_of_mem _ hv)
    cases s with
    | nil =>
      refine ⟨(fun h => nomatch h), ?_⟩
      rintro ⟨letters, hletters, hs⟩
      obtain rfl := (List.append_eq_nil_iff.1 hs.symm).1
      cases hletters
    | cons c s =>
      rw [dropWord?, Text.toLower_of_isLower hw]
      by_cases hc : c.toLower = w
      · rw [if_pos hc, ih hkw']
        constructor
        · rintro ⟨letters, rfl, rfl⟩
          exact ⟨c :: letters, by rw [← hc]; rfl, rfl⟩
        · rintro ⟨letters, hletters, hs⟩
          cases letters with
          | nil => cases hletters
          | cons d letters => exact ⟨letters, (List.cons.inj hletters).2, (List.cons.inj hs).2⟩
      · rw [if_neg hc]
        refine ⟨(fun h => nomatch h), ?_⟩
        rintro ⟨letters, hletters, hs⟩
        cases letters with
        | nil => cases hletters
        | cons d letters =>
          obtain ⟨rfl, -⟩ := List.cons.inj hs
          exact absurd (List.cons.inj hletters).1 hc

theorem startsWithName_eq_false_iff {s : List Char} :
    startsWithName s = false ↔ Stops Text.isNameChar s := by
  cases s with
  | nil => exact ⟨(fun _ _ h => nomatch h), fun _ => rfl⟩
  | cons c s => exact ⟨fun h _ hc => Option.some.inj hc ▸ h, fun h => h c rfl⟩

/-- A keyword is a word that spells it in any letter case. -/
theorem keyword_eq_some_iff {kw : String} {s rest : List Char} (hkw : Lowercase kw) :
    keyword kw s = some rest ↔
      ∃ letters, Text.lower letters = kw.toList ∧ Next (.word letters) s rest := by
  obtain ⟨hne, hlower⟩ := hkw
  simp only [next_iff]
  unfold keyword
  constructor
  · intro h
    cases hdrop : dropWord? kw.toList (skipGap s) with
    | none => simp [hdrop] at h
    | some after =>
      simp only [hdrop] at h
      split at h
      · cases h
      · next hstarts =>
        obtain rfl := Option.some.inj h
        obtain ⟨letters, hletters, hs⟩ := (dropWord?_eq_some_iff hlower).1 hdrop
        have hstart : ∀ c ∈ letters, Text.isNameStart c = true := fun c hc =>
          Text.isNameStart_of_isLower_toLower (hlower _ (hletters ▸ List.mem_map_of_mem hc))
        have hcons : ∃ c tail, letters = c :: tail := by
          cases letters with
          | nil => exact absurd hletters.symm hne
          | cons c tail => exact ⟨c, tail, rfl⟩
        obtain ⟨c, tail, rfl⟩ := hcons
        refine ⟨c :: tail, hletters, ⟨⟨c, tail, rfl, hstart c List.mem_cons_self⟩, ?_⟩, hs, ?_⟩
        · exact fun d hd => Text.isNameChar_iff.2 (.inl (hstart d hd))
        · exact startsWithName_eq_false_iff.1 (by simpa using hstarts)
  · rintro ⟨letters, hletters, hat⟩
    have hdrop : dropWord? kw.toList (skipGap s) = some rest :=
      (dropWord?_eq_some_iff hlower).2 ⟨letters, hletters, hat.written⟩
    have hstarts : startsWithName rest = false := startsWithName_eq_false_iff.2 hat.ends
    simp [hdrop, hstarts]

theorem dropText?_eq_some_iff {cs s rest : List Char} :
    Text.dropText? cs s = some rest ↔ s = cs ++ rest := by
  induction cs generalizing s with
  | nil => simp [Text.dropText?]
  | cons c cs ih =>
    cases s with
    | nil => simp [Text.dropText?]
    | cons d s =>
      by_cases hcd : c = d
      · subst hcd
        simp [Text.dropText?, ih]
      · simp [Text.dropText?, hcd, eq_comm]

/-- Symbols that are no beginning of a longer one. -/
def Closed (mark : String) : Prop := mark ∈ Lexeme.signs ∧ mark ≠ "<" ∧ mark ≠ ">"

instance (mark : String) : Decidable (Closed mark) := inferInstanceAs (Decidable (_ ∧ _ ∧ _))

theorem Closed.stops {mark : String} (h : Closed mark) (rest : List Char) :
    Stops (Lexeme.continues mark) rest := by
  intro c _
  simp [Lexeme.continues, h.2.1, h.2.2]

theorem symbol_eq_some_iff {mark : String} {s rest : List Char} (hmark : Closed mark) :
    symbol mark s = some rest ↔ Next (.symbol mark) s rest := by
  rw [next_iff, symbol, dropText?_eq_some_iff]
  exact ⟨fun h => ⟨hmark.1, h, hmark.stops rest⟩, fun h => h.written⟩

theorem quotedName_eq_some_iff {s rest : List Char} {name : String} :
    quotedName s = some (name, rest) ↔ (Lexeme.quoted name.toList).At s rest := by
  constructor
  · intro h
    unfold quotedName at h
    split at h
    · next t =>
      split at h
      · next c after hdrop =>
        dsimp only at h
        split at h
        · cases h
        · next hempty =>
          obtain ⟨rfl, rfl⟩ := Prod.mk.inj (Option.some.inj h)
          have hquote : c = '"' := by
            have hstop := stops_dropWhile (· != '"') t
            rw [hdrop] at hstop
            simpa using hstop c rfl
          have hsplit := List.takeWhile_append_dropWhile (p := (· != '"')) (l := t)
          rw [hdrop, hquote] at hsplit
          refine ⟨⟨by simpa using hempty, fun hmem => ?_⟩, ?_, trivial⟩
          · have hne := List.mem_takeWhile_imp (by simpa using hmem)
            simp at hne
          · rw [String.toList_ofList, Lexeme.written, List.cons_append, List.append_assoc]
            exact congrArg ('"' :: ·) hsplit.symm
      · cases h
    · cases h
  · intro h
    obtain ⟨t, rfl, htake, hdrop⟩ := h.quoted_span
    have hne : name.toList ≠ [] := h.wellFormed.1
    simp only [quotedName, htake, hdrop, List.isEmpty_eq_false_iff.2 hne, Bool.false_eq_true,
      if_false, String.ofList_toList]

theorem bareName_eq_some_iff {s rest : List Char} {name : String} :
    bareName s = some (name, rest) ↔
      isReserved name.toList = false ∧ (Lexeme.word name.toList).At s rest := by
  constructor
  · intro h
    unfold bareName at h
    dsimp only at h
    split at h
    · cases h
    · next c letters hletters =>
      split at h
      · next hname =>
        obtain ⟨rfl, rfl⟩ := Prod.mk.inj (Option.some.inj h)
        obtain ⟨hstart, hreserved⟩ := Bool.and_eq_true_iff.1 hname
        rw [String.toList_ofList]
        refine ⟨by simpa using hreserved, ⟨⟨c, letters, hletters, hstart⟩, ?_⟩, ?_, ?_⟩
        · exact fun d hd => List.mem_takeWhile_imp hd
        · exact (List.takeWhile_append_dropWhile ..).symm
        · exact stops_dropWhile _ s
      · cases h
  · rintro ⟨hreserved, hat⟩
    obtain ⟨htake, hdrop⟩ := hat.word_span
    obtain ⟨⟨c, letters, hletters, hstart⟩, -⟩ := hat.wellFormed
    have hreserved' : isReserved (c :: letters) = false := hletters ▸ hreserved
    have hname : name = String.ofList (c :: letters) := by rw [← hletters, String.ofList_toList]
    simp [bareName, htake, hdrop, hstart, hreserved', hname]

end Token

def Lexeme.Names (name : String) : Lexeme → Prop
  | word letters => letters = name.toList ∧ Token.isReserved letters = false
  | quoted letters => letters = name.toList
  | _ => False

namespace Token

theorem identifier_eq_some_iff {s rest : List Char} {name : String} :
    identifier s = some (name, rest) ↔ ∃ l : Lexeme, l.Names name ∧ Next l s rest := by
  simp only [identifier, Option.or_eq_some_iff, quotedName_eq_some_iff, bareName_eq_some_iff,
    next_iff]
  constructor
  · rintro (hquoted | ⟨-, hreserved, hword⟩)
    · exact ⟨.quoted name.toList, rfl, hquoted⟩
    · exact ⟨.word name.toList, ⟨rfl, hreserved⟩, hword⟩
  · rintro ⟨l, hname, hat⟩
    cases l with
    | word letters =>
      obtain ⟨rfl, hreserved⟩ := hname
      refine .inr ⟨?_, hreserved, hat⟩
      -- A word is no quoted name.
      cases hquoted : quotedName (skipGap s) with
      | none => rfl
      | some read =>
        obtain ⟨other, after⟩ := read
        have hkind := hat.kind_eq (quotedName_eq_some_iff.1 hquoted)
        cases hkind
    | quoted letters =>
      obtain rfl := hname
      exact .inl hat
    | _ => cases hname

theorem digits_takeWhile (t : List Char) : Lexeme.Digits (t.takeWhile Char.isDigit) :=
  fun _ hc => List.mem_takeWhile_imp hc

theorem parameter_eq_some_iff {s rest : List Char} {n : Nat} :
    parameter s = some (n, rest) ↔ ∃ digits, Numeral.Spells digits n ∧ 0 < n ∧
      n < 2 ^ 32 ∧ Next (.parameter digits) s rest := by
  simp only [next_iff]
  constructor
  · intro h
    unfold parameter at h
    split at h
    · next t hgap =>
      dsimp only at h
      split at h
      · cases h
      · next hbounds =>
        obtain ⟨rfl, rfl⟩ := Prod.mk.inj (Option.some.inj h)
        simp only [Bool.or_eq_true, List.isEmpty_iff, decide_eq_true_eq, not_or, Nat.not_le]
          at hbounds
        have hspells := Numeral.spells_digitsValue hbounds.1.1 (digits_takeWhile t)
        refine ⟨_, hspells, Nat.pos_of_ne_zero hbounds.1.2, hbounds.2, ?_⟩
        rw [hgap]
        refine ⟨⟨hbounds.1.1, digits_takeWhile t⟩, ?_, stops_dropWhile _ t⟩
        exact congrArg ('$' :: ·) (List.takeWhile_append_dropWhile ..).symm
    · cases h
  · rintro ⟨digits, hspells, hpos, hbound, hat⟩
    obtain rfl := hspells.digitsValue_eq
    obtain ⟨t, hgap, htake, hdrop⟩ := hat.parameter_span
    have hne : digits ≠ [] := hat.wellFormed.1
    have hbounds : ¬(digits.isEmpty || decide (Numeral.digitsValue digits = 0) ||
        decide (twoTo 32 ≤ Numeral.digitsValue digits)) = true := by
      simp only [Bool.or_eq_true, List.isEmpty_iff, decide_eq_true_eq, not_or, Nat.not_le]
      exact ⟨⟨hne, Nat.ne_of_gt hpos⟩, hbound⟩
    simp only [parameter, hgap, htake, hdrop, if_neg hbounds]

theorem stringBody_sound {t body rest : List Char} (h : stringBody t = some (body, rest)) :
    t = body.flatMap (fun c => if c = '\'' then ['\'', '\''] else [c]) ++ '\'' :: rest ∧
      Stops (· == '\'') rest := by
  fun_induction stringBody t generalizing body rest with
  | case1 => cases h
  | case2 t body' after hbody ih =>
    obtain ⟨rfl, rfl⟩ := Prod.mk.inj (Option.some.inj h)
    obtain ⟨hsplit, hstops⟩ := ih hbody
    exact ⟨by rw [hsplit]; rfl, hstops⟩
  | case3 => cases h
  | case4 t hdouble =>
    obtain ⟨rfl, rfl⟩ := Prod.mk.inj (Option.some.inj h)
    refine ⟨rfl, fun c hc => ?_⟩
    obtain ⟨u, hu⟩ := List.head?_eq_some_iff.1 hc
    have hne : c ≠ '\'' := fun heq => hdouble u rfl (heq ▸ hu)
    simpa using hne
  | case5 c t hdouble hc body' after hbody ih =>
    obtain ⟨rfl, rfl⟩ := Prod.mk.inj (Option.some.inj h)
    obtain ⟨hsplit, hstops⟩ := ih hbody
    refine ⟨?_, hstops⟩
    rw [List.flatMap_cons, if_neg hc, List.append_assoc, ← hsplit]
    rfl
  | case6 => cases h

theorem stringLiteral_eq_some_iff {s rest : List Char} {body : String} :
    stringLiteral s = some (body, rest) ↔ Next (.text body.toList) s rest := by
  rw [next_iff]
  constructor
  · intro h
    unfold stringLiteral at h
    split at h
    · next t hgap =>
      split at h
      · next body' after hbody =>
        obtain ⟨rfl, rfl⟩ := Prod.mk.inj (Option.some.inj h)
        obtain ⟨hsplit, hstops⟩ := stringBody_sound hbody
        rw [hgap, String.toList_ofList]
        refine ⟨trivial, ?_, hstops⟩
        simp only [hsplit, Lexeme.written, ValueSource.quoteText, List.cons_append,
          List.append_assoc, List.nil_append]
      · cases h
    · cases h
  · intro hat
    obtain ⟨t, hgap, hbody⟩ := hat.text_body
    simp only [stringLiteral, hgap, hbody, String.ofList_toList]

theorem fraction_sound {t places rest : List Char} (ht : Stops Char.isDigit t)
    (h : fraction t = (places, rest)) :
    t = Lexeme.fraction places ++ rest ∧ Lexeme.Digits places ∧ Stops Char.isDigit rest ∧
      (places = [] → ∀ c s, rest = '.' :: c :: s → c.isDigit = false) := by
  unfold fraction at h
  split at h
  · next t =>
    dsimp only at h
    split at h
    · next hempty =>
      obtain ⟨rfl, rfl⟩ := Prod.mk.inj h
      refine ⟨rfl, Lexeme.digits_nil, ht, fun _ c s hrest => ?_⟩
      by_contra hdigit
      rw [Bool.not_eq_false] at hdigit
      rw [(List.cons.inj hrest).2, List.takeWhile_cons_of_pos hdigit] at hempty
      cases hempty
    · next hempty =>
      obtain ⟨rfl, rfl⟩ := Prod.mk.inj h
      rw [List.isEmpty_iff] at hempty
      obtain ⟨d, places, hplaces⟩ := List.exists_cons_of_ne_nil hempty
      refine ⟨?_, digits_takeWhile t, stops_dropWhile _ t, fun hnil => absurd hnil hempty⟩
      have hsplit := List.takeWhile_append_dropWhile (p := Char.isDigit) (l := t)
      rw [hplaces] at hsplit ⊢
      exact congrArg ('.' :: ·) hsplit.symm
  · next t hpoint =>
    obtain ⟨rfl, rfl⟩ := Prod.mk.inj h
    exact ⟨rfl, Lexeme.digits_nil, ht, fun _ c s hrest => absurd hrest (hpoint _)⟩

def numeralValue (negative : Bool) (whole places : List Char) : Binary64 :=
  (Numeral.decimal negative (Numeral.digitsValue (whole ++ places)) (-places.length)).toBinary64

theorem numeralValue_eq_iff {negative : Bool} {whole places : List Char} {x : Binary64}
    (hwell : (Lexeme.number negative whole places).WellFormed) :
    numeralValue negative whole places = x ↔ Numeral.Denotes negative whole places x := by
  constructor
  · rintro rfl
    have hne : whole ++ places ≠ [] := List.append_ne_nil_of_left_ne_nil hwell.1 places
    have hdigits : Lexeme.Digits (whole ++ places) := List.forall_mem_append.mpr hwell.2
    exact ⟨_, Numeral.spells_digitsValue hne hdigits, Numeral.isRounded_toBinary64 _ _ _⟩
  · rintro ⟨n, hspells, hrounded⟩
    rw [numeralValue, hspells.digitsValue_eq]
    exact (Numeral.isRounded_toBinary64 _ _ _).unique (tenTo_pos _) hrounded

def afterSign (negative : Bool) (t : List Char) : Option (Binary64 × List Char) :=
  if (t.takeWhile Char.isDigit).isEmpty then none
  else some (numeralValue negative (t.takeWhile Char.isDigit)
    (fraction (t.dropWhile Char.isDigit)).1, (fraction (t.dropWhile Char.isDigit)).2)

theorem number_of_minus {s t : List Char} (h : skipGap s = '-' :: t) :
    number s = afterSign true t := by
  simp only [number, h]
  rfl

theorem number_of_ne_minus {s : List Char} (h : ∀ t, skipGap s ≠ '-' :: t) :
    number s = afterSign false (skipGap s) := by
  unfold number
  dsimp only
  split
  · next t ht => exact absurd ht (h t)
  · rfl

theorem afterSign_eq_some_iff {negative : Bool} {t rest : List Char} {x : Binary64} :
    afterSign negative t = some (x, rest) ↔ ∃ whole places,
      Numeral.Denotes negative whole places x ∧
        (Lexeme.number negative whole places).At (Lexeme.sign negative ++ t) rest := by
  unfold afterSign
  constructor
  · intro h
    split at h
    · cases h
    · next hempty =>
      obtain ⟨rfl, rfl⟩ := Prod.mk.inj (Option.some.inj h)
      obtain ⟨hsplit, hplaces, hstops, hpoint⟩ :=
        fraction_sound (stops_dropWhile Char.isDigit t) (Prod.eta _).symm
      have hwell : (Lexeme.number negative (t.takeWhile Char.isDigit)
          (fraction (t.dropWhile Char.isDigit)).1).WellFormed :=
        ⟨by simpa using hempty, digits_takeWhile t, hplaces⟩
      refine ⟨_, _, (numeralValue_eq_iff hwell).mp rfl, hwell, ?_, hstops, hpoint⟩
      rw [Lexeme.written, List.append_assoc, List.append_assoc, ← hsplit,
        List.takeWhile_append_dropWhile]
  · rintro ⟨whole, places, hdenotes, hat⟩
    obtain rfl := (numeralValue_eq_iff hat.wellFormed).mpr hdenotes
    obtain ⟨t', ht, -, htake, hfraction⟩ := hat.number_span
    obtain rfl := List.append_cancel_left ht
    have hne : ¬whole.isEmpty = true := by simpa using hat.wellFormed.1
    rw [htake, hfraction, if_neg hne]

theorem number_eq_some_iff {s rest : List Char} {x : Binary64} :
    number s = some (x, rest) ↔ ∃ negative whole places,
      Numeral.Denotes negative whole places x ∧ Next (.number negative whole places) s rest := by
  simp only [next_iff]
  constructor
  · intro h
    by_cases hminus : ∃ t, skipGap s = '-' :: t
    · obtain ⟨t, ht⟩ := hminus
      rw [number_of_minus ht, afterSign_eq_some_iff] at h
      obtain ⟨whole, places, hx, hat⟩ := h
      exact ⟨true, whole, places, hx, ht ▸ hat⟩
    · rw [number_of_ne_minus fun t ht => hminus ⟨t, ht⟩, afterSign_eq_some_iff] at h
      obtain ⟨whole, places, hx, hat⟩ := h
      exact ⟨false, whole, places, hx, hat⟩
  · rintro ⟨negative, whole, places, hx, hat⟩
    obtain ⟨t, ht, ⟨d, u, rfl, hd⟩, -⟩ := hat.number_span
    cases negative with
    | true =>
      rw [number_of_minus ht, afterSign_eq_some_iff]
      exact ⟨whole, places, hx, ht ▸ hat⟩
    | false =>
      have hminus : ∀ t, skipGap s ≠ '-' :: t := by
        intro t heq
        obtain ⟨rfl, -⟩ := List.cons.inj (ht.symm.trans heq)
        exact absurd hd (by decide)
      rw [number_of_ne_minus hminus, afterSign_eq_some_iff]
      exact ⟨whole, places, hx, hat⟩

theorem written_whole (digits : List Char) :
    (Lexeme.number false digits []).written = digits := List.append_nil digits

/-- A row count is a numeral without a fraction, since nothing goes on with a point. -/
theorem unsigned_sound {s rest : List Char} {n : Nat} (h : unsigned s = some (n, rest)) :
    ∃ digits, Numeral.Spells digits n ∧ n < 2 ^ 32 ∧ rest <:+ s ∧
      rest.length < s.length ∧
      ∀ ks, Laid ks rest → Laid (.number false digits [] :: ks) s := by
  unfold unsigned at h
  dsimp only at h
  split at h
  · cases h
  · next hbounds =>
    obtain ⟨rfl, rfl⟩ := Prod.mk.inj (Option.some.inj h)
    simp only [Bool.or_eq_true, List.isEmpty_iff, decide_eq_true_eq, not_or, Nat.not_le] at hbounds
    have hspells := Numeral.spells_digitsValue hbounds.1 (digits_takeWhile _)
    refine ⟨_, hspells, hbounds.2, ?_, ?_, fun ks hks => laid_cons.2 ⟨_, next_iff.2 ?_, hks⟩⟩
    · exact (List.dropWhile_suffix _).trans (skip_skipGap s).suffix
    · have hgap := (skip_skipGap s).length_le
      have hsplit := congrArg List.length
        (List.takeWhile_append_dropWhile (p := Char.isDigit) (l := skipGap s))
      have hdigits := List.length_pos_iff.2 hbounds.1
      rw [List.length_append] at hsplit
      omega
    refine ⟨⟨hbounds.1, digits_takeWhile _, Lexeme.digits_nil⟩, ?_, stops_dropWhile _ _, ?_⟩
    · rw [written_whole, List.takeWhile_append_dropWhile]
    · exact fun _ c t hrest => absurd hrest (hks.ne_point _)

theorem unsigned_complete {s rest digits : List Char} {n : Nat} (hspells : Numeral.Spells digits n)
    (hbound : n < 2 ^ 32) (h : Next (.number false digits []) s rest) :
    unsigned s = some (n, rest) := by
  obtain rfl := hspells.digitsValue_eq
  rw [next_iff] at h
  obtain ⟨htake, hdrop⟩ := takeWhile_append_stop h.wellFormed.2.1 h.ends.1
  have hgap : skipGap s = digits ++ rest := written_whole digits ▸ h.written
  have hbounds : ¬(digits.isEmpty || decide (twoTo 32 ≤ Numeral.digitsValue digits)) = true := by
    simp only [Bool.or_eq_true, List.isEmpty_iff, decide_eq_true_eq, not_or, Nat.not_le]
    exact ⟨h.wellFormed.1, hbound⟩
  simp only [unsigned, hgap, htake, hdrop, if_neg hbounds]

end Token

def Comparison.marks : Comparison → List String
  | .ne => ["!=", "<>"]
  | c => [c.text]

namespace Token

theorem comparison_complete {c : Comparison} {mark : String} {s rest : List Char}
    (hmark : mark ∈ c.marks) (h : Next (.symbol mark) s rest) : comparison s = some (c, rest) := by
  rw [next_iff] at h
  have hgap : skipGap s = mark.toList ++ rest := h.written
  have hends : Stops (Lexeme.continues mark) rest := h.ends
  cases c <;> simp only [Comparison.marks, Comparison.text, List.mem_cons, List.not_mem_nil,
    or_false] at hmark
  case ne =>
    obtain rfl | rfl := hmark <;>
      simp [comparison, symbol, hgap, Text.dropText?]
  all_goals subst hmark
  case lt =>
    cases rest with
    | nil => simp [comparison, symbol, hgap, Text.dropText?]
    | cons d rest =>
      have hgreater : ¬ '>' = d := fun h => absurd (hends d rfl) (h ▸ by decide)
      have hequal : ¬ '=' = d := fun h => absurd (hends d rfl) (h ▸ by decide)
      simp [comparison, symbol, hgap, Text.dropText?, hgreater, hequal]
  case gt =>
    cases rest with
    | nil => simp [comparison, symbol, hgap, Text.dropText?]
    | cons d rest =>
      have hequal : ¬ '=' = d := fun h => absurd (hends d rfl) (h ▸ by decide)
      simp [comparison, symbol, hgap, Text.dropText?, hequal]
  all_goals simp [comparison, symbol, hgap, Text.dropText?]

theorem exists_mark_of_comparison {c : Comparison} {s rest : List Char}
    (h : comparison s = some (c, rest)) :
    ∃ mark ∈ c.marks, skipGap s = mark.toList ++ rest := by
  obtain ⟨⟨mark, c'⟩, hmem, hread⟩ := List.exists_of_findSome?_eq_some h
  obtain ⟨rest', hsymbol, heq⟩ := Option.map_eq_some_iff.1 hread
  obtain ⟨rfl, rfl⟩ := Prod.mk.inj heq
  have hall : ∀ entry ∈ [("!=", Comparison.ne), ("<>", .ne), ("<=", .le), (">=", .ge), ("<", .lt),
      (">", .gt), ("=", .eq)], entry.1 ∈ entry.2.marks := by decide
  exact ⟨mark, hall _ hmem, dropText?_eq_some_iff.1 hsymbol⟩

theorem mem_signs_of_mem_marks {c : Comparison} {mark : String} (h : mark ∈ c.marks) :
    mark ∈ Lexeme.signs := by
  have hall : ∀ mark ∈ c.marks, mark ∈ Lexeme.signs := by cases c <;> decide
  exact hall mark h

theorem comparison_eq_some_iff {c : Comparison} {s rest : List Char} :
    comparison s = some (c, rest) ↔ ∃ mark ∈ c.marks, Next (.symbol mark) s rest := by
  refine ⟨fun h => ?_, fun ⟨mark, hmark, hnext⟩ => comparison_complete hmark hnext⟩
  obtain ⟨mark, hmark, hgap⟩ := exists_mark_of_comparison h
  refine ⟨mark, hmark, next_iff.2 ⟨mem_signs_of_mem_marks hmark, hgap, fun d hd => ?_⟩⟩
  obtain ⟨u, rfl⟩ := List.head?_eq_some_iff.1 hd
  -- Before a mark that goes on, the longer one would have been read.
  have hlonger : ∀ (longer : String) (c' : Comparison), longer ∈ c'.marks → Closed longer →
      mark.toList ++ [d] ≠ longer.toList := by
    intro longer c' hmem hclosed heq
    have hat : Next (.symbol longer) s u := by
      refine next_iff.2 ⟨hclosed.1, ?_, hclosed.stops u⟩
      rw [hgap, Lexeme.written, ← heq, List.append_assoc]
      rfl
    have hlength := congrArg (fun read => read.map fun p => p.2.length)
      (h.symm.trans (comparison_complete hmem hat))
    simp at hlength
  by_contra hcontinues
  simp only [Lexeme.continues, Bool.not_eq_false, Bool.or_eq_true, Bool.and_eq_true, beq_iff_eq]
    at hcontinues
  obtain ⟨rfl, rfl⟩ | ⟨rfl | rfl, rfl⟩ := hcontinues
  · exact hlonger "<>" .ne (by decide) (by decide) (by decide)
  · exact hlonger "<=" .le (by decide) (by decide) (by decide)
  · exact hlonger ">=" .ge (by decide) (by decide) (by decide)

section Requirements

variable {full s rest : List Char} {what : String}

theorem expect_eq_ok_iff {α : Type} {reader : Reader α} {read : α × List Char} :
    expect full s reader what = .ok read ↔ reader s = some read := by
  unfold expect
  cases reader s <;> simp

theorem expectText_eq_ok_iff {reader : List Char → Option (List Char)} :
    expectText full s reader what = .ok rest ↔ reader s = some rest := by
  unfold expectText
  cases reader s <;> simp

end Requirements

end Token

end DocumentSql
