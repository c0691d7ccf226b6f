import DocumentSql.Proofs.Grammar.Language
import DocumentSql.Proofs.Traversal
/-
Readers skip nothing. Whatever a reader has taken off a text is a gap or a lexeme, and the lexemes
in their order spell the tree that it gives back.
-/

namespace DocumentSql.Grammar

open Token (Reader)

/-- Lexemes of a language stand in front of what remains of a text, which is its end, and take up
some of it. They are laid out there once the lexemes of what remains are known, since a point may
not follow a row count. -/
def Spans (L : Tokens) (s rest : List Char) : Prop :=
  rest <:+ s ∧
    ∃ ls ∈ L, rest.length + ls.length ≤ s.length ∧ ∀ ks, Laid ks rest → Laid (ls ++ ks) s

/-- The whole text is laid out in lexemes of the language. -/
def Covers (L : Tokens) (s : List Char) : Prop := ∃ ls ∈ L, Laid ls s

section Combinations

variable {L M : Tokens} {s t rest : List Char}

theorem spans_one (s : List Char) : Spans 1 s s :=
  ⟨List.suffix_rfl, [], Language.nil_mem_one, Nat.le_refl _, fun _ h => h⟩

theorem Spans.suffix (h : Spans L s rest) : rest <:+ s := h.1

theorem Spans.mul (h : Spans L s t) (h' : Spans M t rest) : Spans (L * M) s rest := by
  obtain ⟨hsuffix, ls, hls, hlength, hlay⟩ := h
  obtain ⟨hsuffix', ms, hms, hlength', hlay'⟩ := h'
  refine ⟨hsuffix'.trans hsuffix, ls ++ ms, Language.append_mem_mul hls hms, ?_, fun ks hks => ?_⟩
  · rw [List.length_append]
    omega
  · rw [List.append_assoc]
    exact hlay _ (hlay' ks hks)

theorem Spans.mono (h : Spans L s rest) (hLM : ∀ ls ∈ L, ls ∈ M) : Spans M s rest := by
  obtain ⟨hsuffix, ls, hls, hlay⟩ := h
  exact ⟨hsuffix, ls, hLM ls hls, hlay⟩

theorem Spans.length_le (h : Spans L s rest) : rest.length ≤ s.length := h.suffix.length_le

theorem Spans.add_left (h : Spans L s rest) : Spans (L + M) s rest :=
  h.mono fun _ hls => .inl hls

theorem Spans.add_right (h : Spans M s rest) : Spans (L + M) s rest :=
  h.mono fun _ hls => .inr hls

theorem Spans.covers (h : Spans L s t) (h' : Covers M t) : Covers (L * M) s := by
  obtain ⟨-, ls, hls, -, hlay⟩ := h
  obtain ⟨ms, hms, hlaid⟩ := h'
  exact ⟨ls ++ ms, Language.append_mem_mul hls hms, hlay ms hlaid⟩

theorem spans_of_next {l : Lexeme} (h : Next l s rest) (hl : [l] ∈ L) : Spans L s rest :=
  ⟨h.suffix, [l], hl, h.length_lt, fun _ hks => laid_cons.mpr ⟨rest, h, hks⟩⟩

end Combinations

/-- Whatever the reader takes off a text spells its value. -/
def Sound {α : Type} (reader : Reader α) (L : α → Tokens) : Prop :=
  ∀ s a rest, reader s = some (a, rest) → Spans (L a) s rest

section Lexemes

variable {s rest : List Char}

theorem spans_keyword {kw : String} (hkw : Lowercase kw) (h : Token.keyword kw s = some rest) :
    Spans (keyword kw) s rest := by
  obtain ⟨letters, hletters, hnext⟩ := (Token.keyword_eq_some_iff hkw).mp h
  exact spans_of_next hnext ⟨letters, hletters, rfl⟩

theorem spans_keywords {kws : List String} (hkws : ∀ kw ∈ kws, Lowercase kw)
    (h : Token.keywords kws s = some rest) : Spans (keywords kws) s rest := by
  induction kws generalizing s with
  | nil =>
    obtain rfl := Option.some.inj h
    exact spans_one s
  | cons kw kws ih =>
    rw [Token.keywords] at h
    cases hread : Token.keyword kw s with
    | none => simp [hread] at h
    | some t =>
      simp only [hread] at h
      have hhead := spans_keyword (hkws kw List.mem_cons_self) hread
      exact hhead.mul (ih (fun k hk => hkws k (List.mem_cons_of_mem _ hk)) h)

theorem spans_symbol {mark : String} (hmark : Token.Closed mark)
    (h : Token.symbol mark s = some rest) : Spans (symbol mark) s rest :=
  spans_of_next ((Token.symbol_eq_some_iff hmark).mp h) rfl

theorem sound_identifier : Sound Token.identifier name := by
  intro s n rest h
  obtain ⟨l, hl, hnext⟩ := Token.identifier_eq_some_iff.mp h
  exact spans_of_next hnext ⟨l, hl, rfl⟩

theorem sound_parameter : Sound Token.parameter parameter := by
  intro s n rest h
  obtain ⟨digits, hspells, hpos, hbound, hnext⟩ := Token.parameter_eq_some_iff.mp h
  exact spans_of_next hnext ⟨digits, hspells, hpos, hbound, rfl⟩

theorem sound_stringLiteral : Sound Token.stringLiteral text := by
  intro s t rest h
  exact spans_of_next (Token.stringLiteral_eq_some_iff.mp h) rfl

theorem sound_comparison : Sound Token.comparison comparison := by
  intro s c rest h
  obtain ⟨mark, hmark, hnext⟩ := Token.comparison_eq_some_iff.mp h
  exact spans_of_next hnext ⟨mark, hmark, rfl⟩

theorem sound_unsigned : Sound Token.unsigned count := by
  intro s n rest h
  obtain ⟨digits, hspells, hbound, hsuffix, hlength, hlay⟩ := Token.unsigned_sound h
  exact ⟨hsuffix, _, ⟨digits, hspells, hbound, rfl⟩, hlength, hlay⟩

end Lexemes

section Lists

variable {α : Type} {item : Reader α} {L : α → Tokens}

theorem spans_moreItems (hitem : Sound item L) {bound : Nat} {more : List α} {s rest : List Char}
    (h : Token.moreItems item bound s = (more, rest)) :
    Spans (followers (symbol ",") L more) s rest := by
  induction bound generalizing more s with
  | zero =>
    obtain ⟨rfl, rfl⟩ := Prod.mk.inj h
    exact spans_one s
  | succ bound ih =>
    rw [Token.moreItems] at h
    split at h
    · obtain ⟨rfl, rfl⟩ := Prod.mk.inj h
      exact spans_one s
    · next t hcomma =>
      split at h
      · obtain ⟨rfl, rfl⟩ := Prod.mk.inj h
        exact spans_one s
      · next b u hread =>
        obtain ⟨rfl, rfl⟩ := Prod.mk.inj h
        exact (spans_symbol (by decide) hcomma).mul ((hitem t b u hread).mul (ih rfl))

theorem sound_commaList (hitem : Sound item L) : Sound (Token.commaList item) (commaList L) := by
  intro s as rest h
  unfold Token.commaList at h
  split at h
  · cases h
  · next a t hread =>
    obtain ⟨rfl, rfl⟩ := Prod.mk.inj (Option.some.inj h)
    exact (hitem s a t hread).mul (spans_moreItems hitem rfl)

theorem sound_parenthesized (hitem : Sound item L) :
    Sound (Token.parenthesized item) fun a => parenthesized (L a) := by
  intro s a rest h
  unfold Token.parenthesized at h
  cases hopen : Token.symbol "(" s with
  | none => simp [hopen] at h
  | some t =>
    simp only [hopen] at h
    cases hread : item t with
    | none => simp [hread] at h
    | some read =>
      obtain ⟨b, u⟩ := read
      simp only [hread] at h
      cases hclose : Token.symbol ")" u with
      | none => simp [hclose] at h
      | some v =>
        simp only [hclose, Option.some.injEq] at h
        obtain ⟨rfl, rfl⟩ := Prod.mk.inj h
        have hinner := (hitem t b u hread).mul (spans_symbol (by decide) hclose)
        exact (spans_symbol (by decide) hopen).mul hinner

theorem sound_projection : Sound Token.projection projection := by
  intro s fields rest h
  unfold Token.projection at h
  cases hstar : Token.symbol "*" s with
  | some t =>
    simp only [hstar, Option.some.injEq] at h
    obtain ⟨rfl, rfl⟩ := Prod.mk.inj h
    exact spans_symbol (by decide) hstar
  | none =>
    simp only [hstar] at h
    have hlist := sound_commaList sound_identifier s fields rest h
    cases fields with
    | nil =>
      obtain ⟨-, ls, hls, -⟩ := hlist
      cases hls
    | cons n more => exact hlist

end Lists

section Values

variable {s rest : List Char}

theorem lower_of_ofName? {letters : List Char} {m : Marker} (h : Marker.ofName? letters = some m) :
    (m = .currentTimestamp ∧
      (Text.lower letters = "now".toList ∨ Text.lower letters = "current_timestamp".toList)) ∨
    (m = .generateId ∧ (Text.lower letters = "gen_random_uuid".toList ∨
      Text.lower letters = "uuid_generate_v4".toList)) := by
  have hword : ∀ kw : String, String.ofList (Text.lower letters) = kw →
      Text.lower letters = kw.toList := by
    rintro kw rfl
    rw [String.toList_ofList]
  unfold Marker.ofName? at h
  dsimp only at h
  split at h
  · next hnow => exact .inl ⟨(Option.some.inj h).symm, hnow.imp (hword _) (hword _)⟩
  · split at h
    · next hid => exact .inr ⟨(Option.some.inj h).symm, hid.imp (hword _) (hword _)⟩
    · cases h

theorem spans_word {letters : List Char} {kw : String} (h : Token.word s = some (letters, rest))
    (hlower : Text.lower letters = kw.toList) (hkw : kw.toList.head?.any Char.isLower = true) :
    Spans (keyword kw) s rest := by
  unfold Token.word at h
  dsimp only at h
  split at h
  · cases h
  · obtain ⟨rfl, rfl⟩ := Prod.mk.inj (Option.some.inj h)
    have hnext : Next (.word ((Token.skipGap s).takeWhile Text.isNameChar)) s
        ((Token.skipGap s).dropWhile Text.isNameChar) := by
      refine next_iff.mpr ⟨⟨?_, fun d hd => List.mem_takeWhile_imp hd⟩, ?_, stops_dropWhile _ _⟩
      · obtain ⟨c, hc, hstart⟩ := (Option.any_eq_true _ _).mp hkw
        obtain ⟨tail, htail⟩ := List.head?_eq_some_iff.mp hc
        rw [htail] at hlower
        obtain ⟨d, letters, hletters, hd, -⟩ := List.map_eq_cons_iff.mp hlower
        exact ⟨d, letters, hletters, Text.isNameStart_of_isLower_toLower (hd ▸ hstart)⟩
      · exact (List.takeWhile_append_dropWhile ..).symm
    exact spans_of_next hnext ⟨_, hlower, rfl⟩

theorem spans_emptyParens (h : Token.emptyParens s = (true, rest)) :
    Spans (symbol "(" * symbol ")") s rest := by
  unfold Token.emptyParens at h
  cases hparens : (Token.symbol "(" s).bind (Token.symbol ")") with
  | none => simp [hparens] at h
  | some t =>
    simp only [hparens, Prod.mk.injEq, true_and] at h
    obtain ⟨u, hopen, hclose⟩ := Option.bind_eq_some_iff.mp hparens
    exact (spans_symbol (by decide) hopen).mul (spans_symbol (by decide) (h ▸ hclose))

theorem emptyParens_of_not_called (h : Token.emptyParens s = (false, rest)) : s = rest := by
  unfold Token.emptyParens at h
  split at h
  · cases h
  · exact (Prod.mk.inj h).2

theorem sound_marker : Sound Token.marker marker := by
  intro s m rest h
  unfold Token.marker at h
  cases hword : Token.word s with
  | none => simp [hword] at h
  | some read =>
    obtain ⟨letters, t⟩ := read
    cases hname : Marker.ofName? letters with
    | none => simp [hword, hname] at h
    | some m' =>
      cases hparens : Token.emptyParens t with
      | mk called u =>
        simp only [hword, hparens, hname] at h
        split at h
        · next hallowed =>
          obtain ⟨rfl, rfl⟩ := Prod.mk.inj (Option.some.inj h)
          cases called with
          | true =>
            have hparens := spans_emptyParens hparens
            obtain ⟨rfl, hnow | hcurrent⟩ | ⟨rfl, hrandom | huuid⟩ := lower_of_ofName? hname
            · exact ((spans_word hword hnow (by decide)).mul hparens).add_left.add_left
            · exact ((spans_word hword hcurrent (by decide)).mul hparens).add_right.add_left
            · exact ((spans_word hword hrandom (by decide)).mul hparens).add_left
            · exact ((spans_word hword huuid (by decide)).mul hparens).add_right
          | false =>
            obtain rfl := emptyParens_of_not_called hparens
            have hcurrent : Text.lower letters = "current_timestamp".toList := by
              simpa using hallowed
            have hspans : Spans (marker .currentTimestamp) s t :=
              (spans_word hword hcurrent (by decide)).add_right
            obtain ⟨rfl, -⟩ | ⟨-, hother⟩ := lower_of_ofName? hname
            · exact hspans
            · rw [hcurrent] at hother
              exact absurd hother (by decide)
        · cases h

theorem sound_value (moment : Moment) : Sound (Token.value moment) (value moment) := by
  intro s a rest h
  unfold Token.value at h
  split at h
  · next n t hread =>
    obtain ⟨rfl, rfl⟩ := Prod.mk.inj (Option.some.inj h)
    exact sound_parameter s n t hread
  split at h
  · next t hread =>
    obtain ⟨rfl, rfl⟩ := Prod.mk.inj (Option.some.inj h)
    exact spans_keyword (by decide) hread
  split at h
  · next t hread =>
    obtain ⟨rfl, rfl⟩ := Prod.mk.inj (Option.some.inj h)
    exact spans_keyword (by decide) hread
  split at h
  · next t hread =>
    obtain ⟨rfl, rfl⟩ := Prod.mk.inj (Option.some.inj h)
    exact spans_keyword (by decide) hread
  split at h
  · next x t hread =>
    obtain ⟨rfl, rfl⟩ := Prod.mk.inj (Option.some.inj h)
    obtain ⟨negative, whole, places, hx, hnext⟩ := Token.number_eq_some_iff.mp hread
    exact spans_of_next hnext ⟨negative, whole, places, hx, rfl⟩
  split at h
  · next body t hread =>
    obtain ⟨rfl, rfl⟩ := Prod.mk.inj (Option.some.inj h)
    exact sound_stringLiteral s body t hread
  split at h
  · next m t hread =>
    obtain ⟨rfl, rfl⟩ := Prod.mk.inj (Option.some.inj h)
    have hmarker := sound_marker s m t hread
    cases m with
    | currentTimestamp => exact hmarker.mono fun _ hls => ⟨⟨s.length, rfl⟩, hls⟩
    | generateId => exact hmarker.mono fun _ hls => ⟨⟨s.length, rfl⟩, hls⟩
  · cases h

end Values

section Conditions

variable {moment : Moment} {full s rest : List Char}

theorem sound_likeOperand : Sound Token.likeOperand pattern := by
  intro s p rest h
  unfold Token.likeOperand at h
  split at h
  · next t u hread =>
    obtain ⟨rfl, rfl⟩ := Prod.mk.inj (Option.some.inj h)
    exact sound_stringLiteral s t u hread
  · obtain ⟨⟨n, u⟩, hread, heq⟩ := Option.map_eq_some_iff.mp h
    obtain ⟨rfl, rfl⟩ := Prod.mk.inj heq
    exact sound_parameter s n u hread

theorem spans_likeTail {field : String} {p : Predicate}
    (h : Token.likeTail field s = some (p, rest)) :
    ∃ source, p = .like field source ∧
      Spans ((keyword "like" + keyword "ilike") * pattern source) s rest := by
  unfold Token.likeTail at h
  split at h
  · next t hread =>
    obtain ⟨⟨source, u⟩, hoperand, heq⟩ := Option.map_eq_some_iff.mp h
    obtain ⟨rfl, rfl⟩ := Prod.mk.inj heq
    have hword : Spans (keyword "like" + keyword "ilike") s t := by
      obtain hlike | ⟨-, hilike⟩ := Option.or_eq_some_iff.mp hread
      · exact (spans_keyword (by decide) hlike).add_left
      · exact (spans_keyword (by decide) hilike).add_right
    exact ⟨source, rfl, hword.mul (sound_likeOperand t source u hoperand)⟩
  · cases h

theorem spans_compareTail {field : String} {p : Predicate}
    (h : Token.compareTail moment field s = some (p, rest)) :
    ∃ c operand, p = .compare field c operand ∧
      Spans (comparison c * value moment operand) s rest := by
  unfold Token.compareTail at h
  split at h
  · next c t hread =>
    obtain ⟨⟨operand, u⟩, hoperand, heq⟩ := Option.map_eq_some_iff.mp h
    obtain ⟨rfl, rfl⟩ := Prod.mk.inj heq
    exact ⟨c, operand, rfl,
      (sound_comparison s c t hread).mul (sound_value moment t operand u hoperand)⟩
  · cases h

theorem sound_condition (moment : Moment) :
    Sound (Token.condition moment) (condition (value moment)) := by
  intro s p rest h
  unfold Token.condition at h
  split at h
  · cases h
  · next field t hfield =>
    have hname := sound_identifier s field t hfield
    split at h
    · next u hread =>
      obtain ⟨rfl, rfl⟩ := Prod.mk.inj (Option.some.inj h)
      exact hname.mul (spans_keywords (by decide) hread)
    · split at h
      · next u hread =>
        obtain ⟨rfl, rfl⟩ := Prod.mk.inj (Option.some.inj h)
        exact hname.mul (spans_keywords (by decide) hread)
      · obtain hlike | ⟨-, hcompare⟩ := Option.or_eq_some_iff.mp h
        · obtain ⟨source, rfl, hspans⟩ := spans_likeTail hlike
          exact hname.mul hspans
        · obtain ⟨c, operand, rfl, hspans⟩ := spans_compareTail hcompare
          exact hname.mul hspans

theorem spans_conditions {bound : Nat} {first : Bool} {ps : List Predicate}
    (h : Token.conditions moment full bound first s = .ok (ps, rest)) :
    ps ≠ [] ∧ Spans (conditions (value moment) ps) s rest := by
  induction bound generalizing first s ps rest with
  | zero => cases h
  | succ bound ih =>
    rw [Token.conditions] at h
    split at h
    · cases h
    · next p t hcondition =>
      have hp := sound_condition moment s p t hcondition
      split at h
      · next u hand =>
        split at h
        · next more v hmore =>
          obtain ⟨rfl, rfl⟩ := Prod.mk.inj (Except.ok.inj h)
          obtain ⟨hne, hrest⟩ := ih hmore
          obtain ⟨q, more, rfl⟩ := List.exists_cons_of_ne_nil hne
          exact ⟨List.cons_ne_nil p _, hp.mul ((spans_keyword (by decide) hand).mul hrest)⟩
        · cases h
      · split at h
        · cases h
        · obtain ⟨rfl, rfl⟩ := Prod.mk.inj (Except.ok.inj h)
          exact ⟨List.cons_ne_nil p [], hp.mul (spans_one _)⟩

theorem spans_whereClause {ps : List Predicate}
    (h : Token.whereClause moment full s = .ok (ps, rest)) :
    Spans (whereClause (value moment) ps) s rest := by
  unfold Token.whereClause at h
  split at h
  · obtain ⟨rfl, rfl⟩ := Prod.mk.inj (Except.ok.inj h)
    exact spans_one s
  · next t hwhere =>
    obtain ⟨hne, hrest⟩ := spans_conditions h
    obtain ⟨p, more, rfl⟩ := List.exists_cons_of_ne_nil hne
    exact (spans_keyword (by decide) hwhere).mul hrest

end Conditions

section Statements

variable {moment : Moment} {full s rest : List Char}

theorem Sound.expect {α : Type} {reader : Reader α} {L : α → Tokens} (hsound : Sound reader L)
    {what : String} {a : α} (h : Token.expect full s reader what = .ok (a, rest)) :
    Spans (L a) s rest := hsound s a rest (Token.expect_eq_ok_iff.mp h)

theorem spans_expectKeyword {kw what : String} (hkw : Lowercase kw)
    (h : Token.expectText full s (Token.keyword kw) what = .ok rest) :
    Spans (keyword kw) s rest := spans_keyword hkw (Token.expectText_eq_ok_iff.mp h)

theorem spans_expectKeywords {kws : List String} {what : String} (hkws : ∀ kw ∈ kws, Lowercase kw)
    (h : Token.expectText full s (Token.keywords kws) what = .ok rest) :
    Spans (keywords kws) s rest := spans_keywords hkws (Token.expectText_eq_ok_iff.mp h)

theorem covers_endOfStatement (h : Token.endOfStatement full s = .ok ()) : Covers ending s := by
  unfold Token.endOfStatement Token.optional at h
  cases hsymbol : Token.symbol ";" s with
  | none =>
    simp only [hsymbol] at h
    split at h
    · next hempty => exact ⟨[], .inr rfl, laid_nil.mpr (List.isEmpty_iff.mp hempty)⟩
    · cases h
  | some t =>
    simp only [hsymbol] at h
    split at h
    · next hempty =>
      have hnext := (Token.symbol_eq_some_iff (by decide)).mp hsymbol
      have hend := laid_nil.mpr (List.isEmpty_iff.mp hempty)
      exact ⟨_, .inl rfl, laid_cons.mpr ⟨t, hnext, hend⟩⟩
    · cases h

theorem spans_order {o : SortOrder} (h : SortOrder.read s = (o, rest)) :
    Spans (order o) s rest := by
  unfold SortOrder.read at h
  split at h
  · next t hdesc =>
    obtain ⟨rfl, rfl⟩ := Prod.mk.inj h
    exact spans_keyword (by decide) hdesc
  · unfold Token.optional at h
    split at h
    · next t hasc =>
      obtain ⟨rfl, rfl⟩ := Prod.mk.inj h
      exact (spans_keyword (by decide) hasc).add_left
    · obtain ⟨rfl, rfl⟩ := Prod.mk.inj h
      exact (spans_one s).add_right

theorem spans_readOrder {o : Option OrderBy} (h : Select.readOrder full s = .ok (o, rest)) :
    Spans (orderBy o) s rest := by
  unfold Select.readOrder at h
  split at h
  · obtain ⟨rfl, rfl⟩ := Prod.mk.inj (Except.ok.inj h)
    exact spans_one s
  · next t hwords =>
    obtain ⟨⟨field, u⟩, hfield, h⟩ := bind_eq_ok_iff.mp h
    cases horder : SortOrder.read u with
    | mk o v =>
      simp only [horder] at h
      obtain ⟨rfl, rfl⟩ := Prod.mk.inj (pure_eq_ok_iff.mp h)
      have hname := sound_identifier.expect hfield
      exact (spans_keywords (by decide) hwords).mul (hname.mul (spans_order horder))

theorem spans_readCount {kw what : String} {given : Option Nat} {n : Nat} (hkw : Lowercase kw)
    (h : Select.readCount full kw what given s = .ok (some (n, rest))) :
    given = none ∧ Spans (countClause kw (some n)) s rest := by
  unfold Select.readCount at h
  split at h
  · next t hread =>
    obtain ⟨⟨m, u⟩, hcount, h⟩ := bind_eq_ok_iff.mp h
    obtain ⟨rfl, rfl⟩ := Prod.mk.inj (Option.some.inj (pure_eq_ok_iff.mp h))
    have hm := sound_unsigned.expect hcount
    exact ⟨rfl, (spans_keyword hkw hread).mul hm⟩
  · cases pure_eq_ok_iff.mp h

theorem readPage_cases {bound : Nat} {limit offset limit' offset' : Option Nat}
    (h : Select.readPage full (bound + 1) limit offset s = .ok (limit', offset', rest)) :
    (∃ n t, limit = none ∧ Spans (countClause "limit" (some n)) s t ∧
      Select.readPage full bound (some n) offset t = .ok (limit', offset', rest)) ∨
    (∃ n t, offset = none ∧ Spans (countClause "offset" (some n)) s t ∧
      Select.readPage full bound limit (some n) t = .ok (limit', offset', rest)) ∨
    (limit' = limit ∧ offset' = offset ∧ rest = s) := by
  rw [Select.readPage] at h
  obtain ⟨read, hlimit, h⟩ := bind_eq_ok_iff.mp h
  cases read with
  | some read =>
    obtain ⟨n, t⟩ := read
    obtain ⟨hgiven, hspans⟩ := spans_readCount (by decide) hlimit
    exact .inl ⟨n, t, hgiven, hspans, h⟩
  | none =>
    obtain ⟨read, hoffset, h⟩ := bind_eq_ok_iff.mp h
    cases read with
    | some read =>
      obtain ⟨n, t⟩ := read
      obtain ⟨hgiven, hspans⟩ := spans_readCount (by decide) hoffset
      exact .inr (.inl ⟨n, t, hgiven, hspans, h⟩)
    | none =>
      obtain ⟨hl, hrest⟩ := Prod.mk.inj (pure_eq_ok_iff.mp h)
      obtain ⟨ho, hs⟩ := Prod.mk.inj hrest
      exact .inr (.inr ⟨hl.symm, ho.symm, hs.symm⟩)

theorem spans_readPage {limit offset : Option Nat}
    (h : Select.readPage full 2 none none s = .ok (limit, offset, rest)) :
    Spans (page limit offset) s rest := by
  obtain ⟨n, t, -, hfirst, h⟩ | ⟨n, t, -, hfirst, h⟩ | ⟨rfl, rfl, rfl⟩ := readPage_cases h
  · obtain ⟨m, u, hnone, -, -⟩ | ⟨m, u, -, hsecond, h⟩ | ⟨rfl, rfl, rfl⟩ := readPage_cases h
    · cases hnone
    · obtain ⟨rfl, hrest⟩ := Prod.mk.inj (pure_eq_ok_iff.mp h)
      obtain ⟨rfl, rfl⟩ := Prod.mk.inj hrest
      exact (hfirst.mul hsecond).add_left
    · exact (hfirst.mul (spans_one _)).add_left
  · obtain ⟨m, u, -, hsecond, h⟩ | ⟨m, u, hnone, -, -⟩ | ⟨rfl, rfl, rfl⟩ := readPage_cases h
    · obtain ⟨rfl, hrest⟩ := Prod.mk.inj (pure_eq_ok_iff.mp h)
      obtain ⟨rfl, rfl⟩ := Prod.mk.inj hrest
      exact (hfirst.mul hsecond).add_right
    · cases hnone
    · exact (hfirst.mul (spans_one _)).add_right
  · exact ((spans_one _).mul (spans_one _)).add_left

theorem covers_select {s : Select} (h : Select.read moment full = .ok s) :
    Covers (select (value moment) s) full := by
  unfold Select.read at h
  obtain ⟨t1, hselect, h⟩ := bind_eq_ok_iff.mp h
  obtain ⟨⟨fields, t2⟩, hprojection, h⟩ := bind_eq_ok_iff.mp h
  obtain ⟨t3, hfrom, h⟩ := bind_eq_ok_iff.mp h
  obtain ⟨⟨collection, t4⟩, hcollection, h⟩ := bind_eq_ok_iff.mp h
  obtain ⟨⟨ps, t5⟩, hwhere, h⟩ := bind_eq_ok_iff.mp h
  obtain ⟨⟨o, t6⟩, horder, h⟩ := bind_eq_ok_iff.mp h
  obtain ⟨⟨limit, offset, t7⟩, hpage, h⟩ := bind_eq_ok_iff.mp h
  obtain ⟨⟨⟩, hend, h⟩ := bind_eq_ok_iff.mp h
  obtain rfl := pure_eq_ok_iff.mp h
  have htail := (spans_readPage hpage).covers (covers_endOfStatement hend)
  have htail := (spans_whereClause hwhere).covers ((spans_readOrder horder).covers htail)
  have htail := (sound_identifier.expect hcollection).covers htail
  have htail := (spans_expectKeyword (by decide) hfrom).covers htail
  have htail := (sound_projection.expect hprojection).covers htail
  exact (spans_expectKeyword (by decide) hselect).covers htail

theorem spans_readReturning {columns : Option (List String)}
    (h : Insert.readReturning full s = .ok (columns, rest)) : Spans (returning columns) s rest := by
  unfold Insert.readReturning at h
  split at h
  · obtain ⟨rfl, rfl⟩ := Prod.mk.inj (Except.ok.inj h)
    exact spans_one s
  · next t hreturning =>
    obtain ⟨⟨columns, u⟩, hcolumns, h⟩ := bind_eq_ok_iff.mp h
    obtain ⟨rfl, rfl⟩ := Prod.mk.inj (pure_eq_ok_iff.mp h)
    exact (spans_keyword (by decide) hreturning).mul (sound_projection.expect hcolumns)

theorem covers_insert {s : Insert} (h : Insert.read moment full = .ok s) :
    Covers (insert (value moment) s) full := by
  unfold Insert.read at h
  obtain ⟨t1, hinsert, h⟩ := bind_eq_ok_iff.mp h
  obtain ⟨⟨collection, t2⟩, hcollection, h⟩ := bind_eq_ok_iff.mp h
  obtain ⟨⟨columns, t3⟩, hcolumns, h⟩ := bind_eq_ok_iff.mp h
  obtain ⟨t4, hvalues, h⟩ := bind_eq_ok_iff.mp h
  obtain ⟨⟨values, t5⟩, hlist, h⟩ := bind_eq_ok_iff.mp h
  dsimp only at h
  split at h
  · obtain ⟨_, hthrow, -⟩ := bind_eq_ok_iff.mp h
    cases hthrow
  · next hlength =>
    obtain ⟨⟨returned, t6⟩, hreturning, h⟩ := bind_eq_ok_iff.mp h
    obtain ⟨⟨⟩, hend, h⟩ := bind_eq_ok_iff.mp h
    obtain rfl := pure_eq_ok_iff.mp h
    have hlength := Decidable.not_not.mp hlength
    have hparens : Sound Token.parenIdentifierList fun names =>
        parenthesized (commaList name names) :=
      sound_parenthesized (sound_commaList sound_identifier)
    have hvaluesParens : Sound (Token.parenValueList moment) fun values =>
        parenthesized (commaList (value moment) values) :=
      sound_parenthesized (sound_commaList (sound_value moment))
    have hfst : (columns.zip values).map (·.1) = columns := List.map_fst_zip (Nat.le_of_eq hlength)
    have hsnd : (columns.zip values).map (·.2) = values :=
      List.map_snd_zip (Nat.le_of_eq hlength.symm)
    unfold insert
    rw [hfst, hsnd]
    have htail := (spans_readReturning hreturning).covers (covers_endOfStatement hend)
    have htail := (hvaluesParens.expect hlist).covers htail
    have htail := (hparens.expect hcolumns).covers
      ((spans_expectKeyword (by decide) hvalues).covers htail)
    have htail := (sound_identifier.expect hcollection).covers htail
    exact (spans_expectKeywords (by decide) hinsert).covers htail

theorem sound_assignment (moment : Moment) :
    Sound (Update.assignment moment) (assignment (value moment)) := by
  intro s a rest h
  unfold Update.assignment at h
  split at h
  · cases h
  · next field t hfield =>
    split at h
    · cases h
    · next u hequals =>
      split at h
      · cases h
      · next source v hvalue =>
        obtain ⟨rfl, rfl⟩ := Prod.mk.inj (Option.some.inj h)
        have hsource := sound_value moment u source v hvalue
        exact (sound_identifier s field t hfield).mul
          ((spans_symbol (by decide) hequals).mul hsource)

/-- The bound counts the characters that are left, so it never runs out. -/
theorem spans_assignmentList {bound : Nat} {assignments : List (String × ValueSource)}
    (hbound : s.length < bound)
    (h : Update.assignmentList moment full bound s = .ok (assignments, rest)) :
    assignments ≠ [] ∧ Spans (commaList (assignment (value moment)) assignments) s rest := by
  induction bound generalizing s assignments with
  | zero => omega
  | succ bound ih =>
    rw [Update.assignmentList] at h
    obtain ⟨⟨a, t⟩, hread, h⟩ := bind_eq_ok_iff.mp h
    have ha := (sound_assignment moment).expect hread
    dsimp only at h
    split at h
    · obtain ⟨rfl, rfl⟩ := Prod.mk.inj (pure_eq_ok_iff.mp h)
      exact ⟨List.cons_ne_nil a [], ha.mul (spans_one _)⟩
    · next u hcomma =>
      obtain ⟨⟨more, v⟩, hmore, h⟩ := bind_eq_ok_iff.mp h
      obtain ⟨rfl, rfl⟩ := Prod.mk.inj (pure_eq_ok_iff.mp h)
      have hlength := ha.length_le
      have hshorter := ((Token.symbol_eq_some_iff (by decide)).mp hcomma).length_lt
      obtain ⟨hne, hrest⟩ := ih (by omega) hmore
      obtain ⟨b, more, rfl⟩ := List.exists_cons_of_ne_nil hne
      exact ⟨List.cons_ne_nil a _, ha.mul ((spans_symbol (by decide) hcomma).mul hrest)⟩

theorem covers_update {s : Update} (h : Update.read moment full = .ok s) :
    Covers (update (value moment) s) full := by
  unfold Update.read at h
  obtain ⟨t1, hupdate, h⟩ := bind_eq_ok_iff.mp h
  obtain ⟨⟨collection, t2⟩, hcollection, h⟩ := bind_eq_ok_iff.mp h
  obtain ⟨t3, hset, h⟩ := bind_eq_ok_iff.mp h
  obtain ⟨⟨assignments, t4⟩, hassignments, h⟩ := bind_eq_ok_iff.mp h
  obtain ⟨⟨ps, t5⟩, hwhere, h⟩ := bind_eq_ok_iff.mp h
  obtain ⟨⟨⟩, hend, h⟩ := bind_eq_ok_iff.mp h
  obtain rfl := pure_eq_ok_iff.mp h
  have htail := (spans_whereClause hwhere).covers (covers_endOfStatement hend)
  have htail := (spans_assignmentList (Nat.lt_succ_self _) hassignments).2.covers htail
  have htail := (spans_expectKeyword (by decide) hset).covers htail
  have htail := (sound_identifier.expect hcollection).covers htail
  exact (spans_expectKeyword (by decide) hupdate).covers htail

theorem covers_delete {s : Delete} (h : Delete.read moment full = .ok s) :
    Covers (delete (value moment) s) full := by
  unfold Delete.read at h
  obtain ⟨t1, hdelete, h⟩ := bind_eq_ok_iff.mp h
  obtain ⟨⟨collection, t2⟩, hcollection, h⟩ := bind_eq_ok_iff.mp h
  obtain ⟨⟨ps, t3⟩, hwhere, h⟩ := bind_eq_ok_iff.mp h
  obtain ⟨⟨⟩, hend, h⟩ := bind_eq_ok_iff.mp h
  obtain rfl := pure_eq_ok_iff.mp h
  have htail := (spans_whereClause hwhere).covers (covers_endOfStatement hend)
  have htail := (sound_identifier.expect hcollection).covers htail
  exact (spans_expectKeywords (by decide) hdelete).covers htail

end Statements

end DocumentSql.Grammar
