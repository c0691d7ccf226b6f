import DocumentSql.Grammar.Reader
import DocumentSql.Proofs.Grammar.Token
import DocumentSql.Proofs.Traversal
/-
The kind of a text and the kind of the statement that is read from it. The white space that a reader
cuts off at the ends of a text is of more sorts than the blanks of a gap, so the first words of the
two texts can differ: behind white space that is no blank there are none.
-/

namespace DocumentSql

namespace Text

/-- The white space in front of a text is made of blanks. -/
def LedByBlanks (s : List Char) : Prop := ∀ c ∈ s.takeWhile isWhite, isBlank c = true

instance (s : List Char) : Decidable (LedByBlanks s) :=
  List.decidableBAll (fun c : Char => isBlank c = true) (s.takeWhile isWhite)

theorem ledByBlanks_of_not_isWhite {c : Char} (hc : ¬isWhite c = true) (s : List Char) :
    LedByBlanks (c :: s) := by
  rw [LedByBlanks, List.takeWhile_cons_of_neg hc]
  exact fun _ hd => nomatch hd

theorem ledByBlanks_cons {c : Char} (hc : isWhite c = true) (s : List Char) :
    LedByBlanks (c :: s) ↔ isBlank c = true ∧ LedByBlanks s := by
  rw [LedByBlanks, List.takeWhile_cons_of_pos hc, List.forall_mem_cons]
  rfl

def White (w : List Char) : Prop := ∀ c ∈ w, isWhite c = true

theorem White.stops {w : List Char} (hw : White w) : Stops isNameChar w :=
  stops_of_forall fun c hc => isNameChar_of_isWhite (hw c hc)

/-- White space at the end of a text is no part of the word that the text begins with. -/
theorem White.exists_of_append {name rest u w : List Char} (hw : White w)
    (hname : ∀ c ∈ name, isNameChar c = true) (h : name ++ rest = u ++ w) :
    ∃ v, u = name ++ v ∧ rest = v ++ w := by
  obtain hv | ⟨v, rfl, rfl⟩ := List.append_eq_append_iff.mp h
  · exact hv
  · cases v with
    | nil => exact ⟨[], by simp, rfl⟩
    | cons c v =>
      have hc : isNameChar c = true := hname c (List.mem_append_right u List.mem_cons_self)
      rw [isNameChar_of_isWhite (hw c List.mem_cons_self)] at hc
      cases hc

theorem exists_trim_append (s : List Char) :
    ∃ w, White w ∧ s.dropWhile isWhite = trim s ++ w := by
  refine ⟨((s.dropWhile isWhite).reverse.takeWhile isWhite).reverse, fun c hc => ?_, ?_⟩
  · exact List.mem_takeWhile_imp (List.mem_reverse.mp hc)
  · rw [trim, ← List.reverse_append, List.takeWhile_append_dropWhile, List.reverse_reverse]

end Text

open Text (White LedByBlanks isNameChar isWhite)

section WhiteEnd

variable {s t w : List Char}

theorem Skip.stops_of_white (h : Skip w t) (hw : White w) : Stops isNameChar t :=
  White.stops fun c hc => hw c (h.suffix.subset hc)

/-- A line that ends in a longer text ends in the text, unless a line break has been cut in two. -/
theorem AtLineEnd.of_append {r : List Char} (h : AtLineEnd r) (hr : r = s ++ w) :
    AtLineEnd s ∨ s = ['\r'] := by
  cases s with
  | nil => exact .inl .text
  | cons c s =>
    cases h with
    | text => cases hr
    | lineFeed r =>
      obtain ⟨rfl, -⟩ := List.cons.inj hr
      exact .inl (.lineFeed s)
    | carriageReturn r =>
      obtain ⟨rfl, htail⟩ := List.cons.inj hr
      cases s with
      | nil => exact .inr rfl
      | cons d s =>
        obtain ⟨rfl, -⟩ := List.cons.inj htail
        exact .inl (.carriageReturn s)

/-- White space at the end does not hide a name. -/
theorem Skip.of_append {r : List Char} (h : Skip r t) (ht : ¬Stops isNameChar t)
    (hw : White w) (hr : r = s ++ w) : ∃ u, t = u ++ w ∧ Skip s u := by
  -- A gap that reaches into the white space at the end leaves nothing else, so it stops before.
  induction h generalizing s with
  | done r => exact ⟨s, hr, .done s⟩
  | @blank c r t hc hskip ih =>
    cases s with
    | nil => exact absurd ((Skip.blank hc hskip).stops_of_white (hr ▸ hw)) ht
    | cons d s =>
      obtain ⟨rfl, htail⟩ := List.cons.inj hr
      obtain ⟨u, hu, hs⟩ := ih ht htail
      exact ⟨u, hu, .blank hc hs⟩
  | @comment body r t hbody hend hskip ih =>
    have hr : ('-' :: '-' :: body) ++ r = s ++ w := hr
    obtain ⟨v, rfl, hv⟩ | ⟨v, -, rfl⟩ := List.append_eq_append_iff.mp hr
    · obtain ⟨u, hu, hs⟩ := ih ht hv
      obtain hend | rfl := hend.of_append hv
      · exact ⟨u, hu, .comment hbody hend hs⟩
      · -- Only white space is left then, and no name.
        have hr : White r := hv ▸ List.forall_mem_cons.mpr ⟨by decide, hw⟩
        exact absurd (hskip.stops_of_white hr) ht
    · exact absurd (hskip.stops_of_white fun c hc => hw c (List.mem_append_right v hc)) ht

namespace Token

theorem skipGap_cons {c : Char} (hblank : ¬Text.isBlank c = true) (hdash : c ≠ '-')
    (s : List Char) : skipGap (c :: s) = c :: s := by
  rw [skipGap, gapFrom]
  · rw [if_neg hblank]
  · exact fun _ h => absurd h hdash

theorem skipGap_of_nameChar {c : Char} (hc : isNameChar c = true) (s : List Char) :
    skipGap (c :: s) = c :: s := by
  refine skipGap_cons (fun hblank => ?_) ?_ s
  · rw [Text.isNameChar_of_isWhite (Text.isWhite_of_isBlank hblank)] at hc
    cases hc
  · rintro rfl
    cases hc

/-- A word, unlike a name, may start with a digit. -/
theorem word_eq_some_iff {name rest : List Char} : word s = some (name, rest) ↔
    name ≠ [] ∧ (∀ c ∈ name, isNameChar c = true) ∧ Stops isNameChar rest ∧
      Skip s (name ++ rest) := by
  constructor
  · intro h
    simp only [word, Option.ite_none_left_eq_some, Option.some.injEq, Prod.mk.injEq,
      List.isEmpty_iff] at h
    obtain ⟨hne, rfl, rfl⟩ := h
    refine ⟨hne, fun c hc => List.mem_takeWhile_imp hc, stops_dropWhile _ _, ?_⟩
    rw [List.takeWhile_append_dropWhile]
    exact skip_skipGap s
  · rintro ⟨hne, hname, hrest, hskip⟩
    obtain ⟨htake, hdrop⟩ := takeWhile_append_stop hname hrest
    have hgap : skipGap s = name ++ rest := by
      rw [skipGap_of_skip hskip]
      obtain ⟨c, tail, rfl⟩ := List.exists_cons_of_ne_nil hne
      exact skipGap_of_nameChar (hname c List.mem_cons_self) _
    simp only [word, hgap, htake, hdrop, List.isEmpty_iff, if_neg hne]

theorem word_append (s : List Char) (hw : White w) :
    word (s ++ w) = (word s).map fun read => (read.1, read.2 ++ w) := by
  refine Option.ext fun ⟨name, rest⟩ => ?_
  simp only [Option.map_eq_some_iff, Prod.exists, Prod.mk.injEq]
  constructor
  · intro h
    obtain ⟨hne, hname, hrest, hskip⟩ := word_eq_some_iff.mp h
    obtain ⟨c, tail, rfl⟩ := List.exists_cons_of_ne_nil hne
    have hstarts : ¬Stops isNameChar (c :: tail ++ rest) := fun hstops => by
      have hc : isNameChar c = true := hname c List.mem_cons_self
      rw [hstops c rfl] at hc
      cases hc
    obtain ⟨u, hu, hs⟩ := hskip.of_append hstarts hw rfl
    obtain ⟨v, rfl, rfl⟩ := hw.exists_of_append hname hu
    refine ⟨c :: tail, v, word_eq_some_iff.mpr ⟨hne, hname, ?_, hs⟩, rfl, rfl⟩
    cases v with
    | nil => exact stops_of_forall fun d hd => nomatch hd
    | cons d v => exact hrest
  · rintro ⟨name, rest, h, rfl, rfl⟩
    obtain ⟨hne, hname, hrest, hskip⟩ := word_eq_some_iff.mp h
    refine word_eq_some_iff.mpr ⟨hne, hname, ?_, ?_⟩
    · cases rest with
      | nil => exact hw.stops
      | cons c rest => exact hrest.append (List.cons_ne_nil c rest) w
    · rw [← List.append_assoc]
      exact hskip.append (fun hnil => hne (List.append_eq_nil_iff.mp hnil).1) w

/-- White space that is no blank keeps a reader from the first word. -/
theorem word_of_not_ledByBlanks (h : ¬LedByBlanks s) : word s = none := by
  induction s with
  | nil => exact absurd (fun _ hc => nomatch hc) h
  | cons c s ih =>
    have hwhite : isWhite c = true := by
      by_contra hc
      exact h (Text.ledByBlanks_of_not_isWhite hc s)
    by_cases hblank : Text.isBlank c = true
    · have htail : ¬LedByBlanks s := fun hs => h ((Text.ledByBlanks_cons hwhite s).mpr ⟨hblank, hs⟩)
      have hgap : skipGap (c :: s) = skipGap s := skipGap_of_skip (.blank hblank (.done s))
      simpa only [word, hgap] using ih htail
    · have hdash : c ≠ '-' := by
        rintro rfl
        cases hwhite
      have hname : ¬isNameChar c = true := by simp [Text.isNameChar_of_isWhite hwhite]
      simp only [word, skipGap_cons hblank hdash, List.takeWhile_cons_of_neg hname,
        List.isEmpty_nil, if_true]

end Token

end WhiteEnd

namespace StatementKind

variable {s t w : List Char}

theorem leadingWords_of_skip (h : Skip s t) (count : Nat) :
    leadingWords count s = leadingWords count t := by
  cases count with
  | zero => rfl
  | succ count => simp only [leadingWords, Token.word, Token.skipGap_of_skip h]

theorem leadingWords_append (hw : White w) (count : Nat) (s : List Char) :
    leadingWords count (s ++ w) = leadingWords count s := by
  induction count generalizing s with
  | zero => rfl
  | succ count ih =>
    rw [leadingWords, leadingWords, Token.word_append s hw]
    cases Token.word s with
    | none => rfl
    | some read => exact congrArg (_ :: ·) (ih read.2)

theorem ofText_of_ledByBlanks (h : LedByBlanks s) : ofText s = ofText (Text.trim s) := by
  obtain ⟨w, hw, hs⟩ := Text.exists_trim_append s
  have hskip : Skip s (Text.trim s ++ w) := by
    have hblanks := Skip.of_blanks h (s.dropWhile isWhite)
    rwa [List.takeWhile_append_dropWhile, hs] at hblanks
  rw [ofText, ofText, leadingWords_of_skip hskip, leadingWords_append hw]

theorem ofText_of_not_ledByBlanks (h : ¬LedByBlanks s) : ofText s = unsupported := by
  simp only [ofText, leadingWords, Token.word_of_not_ledByBlanks h]
  rfl

/-- Only behind blanks does a text have the kind that it has without the white space at its ends. -/
theorem ofText_eq (s : List Char) :
    ofText s = if LedByBlanks s then ofText (Text.trim s) else unsupported := by
  split
  · next h => exact ofText_of_ledByBlanks h
  · next h => exact ofText_of_not_ledByBlanks h

end StatementKind

namespace Statement

variable {moment : Moment} {s : Statement}

theorem kind_of_ofTrimmed {text : List Char} (h : ofTrimmed moment text = .ok s) :
    s.kind = StatementKind.ofText text := by
  unfold ofTrimmed at h
  cases hkind : StatementKind.ofText text <;> simp only [hkind] at h
  case inert kind =>
    obtain rfl := Except.ok.inj h
    rfl
  case unsupported =>
    obtain rfl := Except.ok.inj h
    rfl
  all_goals
    obtain ⟨_, -, rfl⟩ := map_eq_ok_iff.mp h
    rfl

end Statement

end DocumentSql
