import DocumentSql.Grammar.Token
/-
Gaps between lexemes, apart from how they are skipped: blanks and comments in any order. A comment
goes up to the end of its line or of the text.
-/

namespace DocumentSql

/-- A line break, or the end of the text. A carriage return breaks a line only before a line
feed. -/
inductive AtLineEnd : List Char → Prop
  | text : AtLineEnd []
  | lineFeed (s : List Char) : AtLineEnd ('\n' :: s)
  | carriageReturn (s : List Char) : AtLineEnd ('\r' :: '\n' :: s)

/-- What a comment may hold. -/
def InLine (body : List Char) : Prop := ∀ c ∈ body, c ≠ '\n' ∧ c ≠ '\r'

instance (body : List Char) : Decidable (InLine body) :=
  List.decidableBAll (fun c : Char => c ≠ '\n' ∧ c ≠ '\r') body

theorem inLine_nil : InLine [] := by
  intro c h
  cases h

/-- What remains of a text behind a gap. -/
inductive Skip : List Char → List Char → Prop
  | done (s : List Char) : Skip s s
  | blank {c : Char} {s t : List Char} : Text.isBlank c = true → Skip s t → Skip (c :: s) t
  | comment {body s t : List Char} : InLine body → AtLineEnd s → Skip s t →
      Skip ('-' :: '-' :: (body ++ s)) t

theorem Skip.suffix {s t : List Char} (h : Skip s t) : t <:+ s := by
  induction h with
  | done s => exact List.suffix_rfl
  | blank _ _ ih => exact ih.trans (List.suffix_cons _ _)
  | @comment body s t _ _ _ ih => exact ih.trans ⟨'-' :: '-' :: body, rfl⟩

theorem Skip.of_blanks {g : List Char} (hg : ∀ c ∈ g, Text.isBlank c = true) (s : List Char) :
    Skip (g ++ s) s := by
  induction g with
  | nil => exact .done s
  | cons c g ih =>
    exact .blank (hg c List.mem_cons_self) (ih fun d hd => hg d (List.mem_cons_of_mem c hd))

/-- What remains of a longer text, unless the gap might go on. -/
theorem Skip.append {s t : List Char} (h : Skip s t) (ht : t ≠ []) (w : List Char) :
    Skip (s ++ w) (t ++ w) := by
  induction h with
  | done s => exact .done (s ++ w)
  | blank hc _ ih => exact .blank hc (ih ht)
  | @comment body s t hbody hend hskip ih =>
    have hend' : AtLineEnd (s ++ w) := by
      cases hend with
      | text => exact absurd (List.eq_nil_of_suffix_nil hskip.suffix) ht
      | lineFeed s => exact .lineFeed (s ++ w)
      | carriageReturn s => exact .carriageReturn (s ++ w)
    have hcomment := Skip.comment hbody hend' (ih ht)
    rwa [← List.append_assoc] at hcomment

section Replace

variable {c : Char} {front back rest : List Char}

theorem AtLineEnd.replace {s : List Char} (h : AtLineEnd s) (hc : Text.isBlank c = false)
    (hs : s = front ++ c :: rest) (other : List Char) : AtLineEnd (front ++ c :: other) := by
  cases h with
  | text => simp at hs
  | lineFeed s =>
    cases front with
    | nil =>
      obtain ⟨rfl, -⟩ := List.cons.inj hs
      cases hc
    | cons d front =>
      obtain ⟨rfl, -⟩ := List.cons.inj hs
      exact .lineFeed _
  | carriageReturn s =>
    rcases front with _ | ⟨d, _ | ⟨e, front⟩⟩
    · obtain ⟨rfl, -⟩ := List.cons.inj hs
      cases hc
    · obtain ⟨-, htail⟩ := List.cons.inj hs
      obtain ⟨rfl, -⟩ := List.cons.inj htail
      cases hc
    · obtain ⟨rfl, htail⟩ := List.cons.inj hs
      obtain ⟨rfl, -⟩ := List.cons.inj htail
      exact .carriageReturn _

/-- A gap is skipped in the same way whatever comes after the first character behind it. -/
theorem Skip.replace {s t : List Char} (h : Skip s t) (hc : Text.isBlank c = false)
    (hs : s = front ++ c :: rest) (ht : t = back ++ c :: rest) (other : List Char) :
    Skip (front ++ c :: other) (back ++ c :: other) := by
  induction h generalizing front with
  | done s =>
    obtain rfl := List.append_cancel_right (hs.symm.trans ht)
    exact .done _
  | @blank d s t hd _ ih =>
    cases front with
    | nil =>
      obtain ⟨rfl, -⟩ := List.cons.inj hs
      rw [hd] at hc
      cases hc
    | cons e front =>
      obtain ⟨rfl, htail⟩ := List.cons.inj hs
      exact .blank hd (ih htail ht)
  | @comment body s t hbody hend hskip ih =>
    obtain ⟨between, hbetween⟩ := hskip.suffix
    have hsplit : s = (between ++ back) ++ c :: rest := by rw [← hbetween, ht, List.append_assoc]
    rw [hsplit, ← List.append_assoc] at hs
    have hfront : '-' :: '-' :: (body ++ (between ++ back)) = front := List.append_cancel_right hs
    have hrest := Skip.comment hbody (hend.replace hc hsplit other) (ih hsplit ht)
    rwa [← List.append_assoc, ← List.cons_append, ← List.cons_append, hfront] at hrest

end Replace

/-- A gap does not go on in a line that begins with anything else. -/
theorem Skip.line {c : Char} {rest s t front : List Char} (h : Skip s t)
    (hblank : Text.isBlank c = false) (hdash : c ≠ '-') (hs : s = front ++ '\n' :: c :: rest) :
    t = c :: rest ∨ ∃ back, t = back ++ '\n' :: c :: rest := by
  induction h generalizing front with
  | done s => exact .inr ⟨front, hs⟩
  | @blank d s t _ hskip ih =>
    cases front with
    | nil =>
      obtain ⟨rfl, rfl⟩ := List.cons.inj hs
      cases hskip with
      | done => exact .inl rfl
      | blank hc _ =>
        rw [hc] at hblank
        cases hblank
      | comment => exact absurd rfl hdash
    | cons e front => exact ih (List.cons.inj hs).2
  | @comment body s t hbody _ _ ih =>
    have hs : ('-' :: '-' :: body) ++ s = front ++ '\n' :: c :: rest := hs
    obtain ⟨between, hfront, hrest⟩ | ⟨between, hcomment, hrest⟩ := List.append_eq_append_iff.mp hs
    · exact ih hrest
    · cases between with
      | nil => exact @ih [] hrest.symm
      | cons d between =>
        obtain ⟨rfl, -⟩ := List.cons.inj hrest
        have hmem : '\n' ∈ '-' :: '-' :: body := by simp [hcomment]
        have hbreak : '\n' ∈ body := by simpa using hmem
        exact absurd rfl (hbody _ hbreak).1

/-- A gap that ends with the line of its last comment, if there is one there. -/
inductive Gap : List Char → Prop
  | blank {c : Char} : Text.isBlank c = true → Gap [c]
  | comment {body : List Char} : InLine body → Gap ('-' :: '-' :: (body ++ ['\n']))
  | append {g h : List Char} : Gap g → Gap h → Gap (g ++ h)

theorem Gap.skip {g : List Char} (h : Gap g) {s t : List Char} (hs : Skip s t) :
    Skip (g ++ s) t := by
  induction h generalizing s with
  | blank hc => exact .blank hc hs
  | @comment body hbody =>
    have hrest : Skip ('\n' :: s) t := .blank rfl hs
    simpa only [List.cons_append, List.append_assoc, List.nil_append] using
      Skip.comment hbody (.lineFeed s) hrest
  | append _ _ ihg ihh =>
    rw [List.append_assoc]
    exact ihg (ihh hs)

theorem Gap.head {g : List Char} (h : Gap g) :
    ∃ c s, g = c :: s ∧ (Text.isBlank c = true ∨ c = '-') := by
  induction h with
  | blank hc => exact ⟨_, _, rfl, .inl hc⟩
  | comment => exact ⟨_, _, rfl, .inr rfl⟩
  | append _ _ ih _ =>
    obtain ⟨c, s, rfl, hc⟩ := ih
    exact ⟨c, _, rfl, hc⟩

namespace Token

theorem gapFrom_comment (comment : List Char) {body s : List Char} (hbody : InLine body)
    (hs : AtLineEnd s) : gapFrom (some comment) (body ++ s) = gapFrom none s := by
  induction body with
  | nil => cases hs <;> simp [gapFrom, Text.isBlank]
  | cons c body ih =>
    obtain ⟨hlf, hcr⟩ := hbody c List.mem_cons_self
    rw [List.cons_append, gapFrom]
    · exact ih fun d hd => hbody d (List.mem_cons_of_mem _ hd)
    · exact hlf
    · exact fun _ h => absurd h hcr
    · exact hcr

theorem skipGap_of_skip {s t : List Char} (h : Skip s t) : skipGap s = skipGap t := by
  induction h with
  | done => rfl
  | @blank c s t hc _ ih =>
    have hdash : c ≠ '-' := by
      rintro rfl
      cases hc
    rw [skipGap, gapFrom]
    · rw [if_pos hc]
      exact ih
    · exact fun _ h => absurd h hdash
  | comment hbody hs _ ih =>
    rw [skipGap, gapFrom, gapFrom_comment _ hbody hs]
    exact ih

/-- What remains of a text under each state of the scan. -/
def Remains : Option (List Char) → List Char → List Char → Prop
  | none, s, t => Skip s t
  | some comment, s, t => t = comment ∨
      ∃ body u, s = body ++ u ∧ InLine body ∧ AtLineEnd u ∧ Skip u t

theorem Remains.cons {comment s t : List Char} {c : Char} (hlf : c ≠ '\n') (hcr : c ≠ '\r')
    (h : Remains (some comment) s t) : Remains (some comment) (c :: s) t := by
  obtain rfl | ⟨body, u, rfl, hbody, hu, hskip⟩ := h
  · exact .inl rfl
  · refine .inr ⟨c :: body, u, rfl, fun d hd => ?_, hu, hskip⟩
    cases List.mem_cons.1 hd with
    | inl heq => exact heq ▸ ⟨hlf, hcr⟩
    | inr hmem => exact hbody d hmem

/-- Nothing else is skipped. A comment that cannot end stays, dashes and all. -/
theorem remains_gapFrom (state : Option (List Char)) (s : List Char) :
    Remains state s (gapFrom state s) := by
  fun_induction gapFrom state s with
  | case1 rest ih =>
    obtain hstays | ⟨body, u, hrest, hbody, hu, hskip⟩ := ih
    · rw [hstays]
      exact Skip.done _
    · rw [hrest] at hskip ⊢
      exact Skip.comment hbody hu hskip
  | case2 c rest _ hc ih => exact Skip.blank hc ih
  | case3 => exact Skip.done _
  | case4 => exact Skip.done _
  | case5 comment rest ih =>
    refine .inr ⟨[], _, rfl, inLine_nil, .lineFeed rest, .blank rfl ih⟩
  | case6 comment rest ih =>
    refine .inr ⟨[], _, rfl, inLine_nil, .carriageReturn rest, ?_⟩
    exact .blank rfl (.blank rfl ih)
  | case7 => exact .inl rfl
  | case8 comment c rest hlf _ hcr ih => exact ih.cons hlf hcr
  | case9 => exact .inr ⟨[], [], rfl, inLine_nil, .text, .done []⟩

theorem skip_skipGap (s : List Char) : Skip s (skipGap s) := remains_gapFrom none s

/-- Behind a gap that has been skipped there is no other. -/
theorem eq_of_skip_skipGap {s t : List Char} (h : Skip (skipGap s) t) : t = skipGap s := by
  have hgap : skipGap t = skipGap s := by
    rw [← skipGap_of_skip h, ← skipGap_of_skip (skip_skipGap s)]
  have hshorter : skipGap s <:+ t := hgap ▸ (skip_skipGap t).suffix
  exact h.suffix.eq_of_length_le hshorter.length_le

end Token

end DocumentSql
