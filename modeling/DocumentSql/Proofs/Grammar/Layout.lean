import DocumentSql.Proofs.Grammar.Lexeme
/-
Texts that lexemes are laid out in. A text can be cut into lexemes in one way only, up to any place.
-/

namespace DocumentSql

open Token (skipGap skip_skipGap skipGap_of_skip)

/-- The first lexeme of a text, behind a gap. -/
def Next (l : Lexeme) (s rest : List Char) : Prop := ∃ t, Skip s t ∧ l.At t rest

theorem next_iff {l : Lexeme} {s rest : List Char} : Next l s rest ↔ l.At (skipGap s) rest := by
  constructor
  · rintro ⟨t, hskip, hat⟩
    rwa [skipGap_of_skip hskip, hat.skipGap]
  · exact fun hat => ⟨_, skip_skipGap s, hat⟩

theorem Next.unique {l l' : Lexeme} {s rest rest' : List Char} (h : Next l s rest)
    (h' : Next l' s rest') : l = l' ∧ rest = rest' :=
  (next_iff.1 h).unique (next_iff.1 h')

theorem Next.skip {l : Lexeme} {s t rest : List Char} (hskip : Skip s t) (h : Next l t rest) :
    Next l s rest := by
  rwa [next_iff, skipGap_of_skip hskip, ← next_iff]

theorem Skip.length_le {s t : List Char} (h : Skip s t) : t.length ≤ s.length :=
  h.suffix.length_le

theorem Next.suffix {l : Lexeme} {s rest : List Char} (h : Next l s rest) : rest <:+ s := by
  obtain ⟨t, hskip, hat⟩ := h
  have hrest : rest <:+ t := ⟨l.written, hat.written.symm⟩
  exact hrest.trans hskip.suffix

theorem Next.length_lt {l : Lexeme} {s rest : List Char} (h : Next l s rest) :
    rest.length < s.length := by
  obtain ⟨t, hskip, hat⟩ := h
  exact Nat.lt_of_lt_of_le hat.length_lt hskip.length_le

theorem skip_nil_iff {s : List Char} : Skip s [] ↔ skipGap s = [] := by
  constructor
  · intro h
    rw [skipGap_of_skip h]
    rfl
  · intro h
    exact h ▸ skip_skipGap s

/-- Lexemes at the beginning of a text, with any gaps, and what remains behind them. -/
inductive Lays : List Lexeme → List Char → List Char → Prop
  | nil (s : List Char) : Lays [] s s
  | cons {l : Lexeme} {ls : List Lexeme} {s t rest : List Char} :
      Next l s t → Lays ls t rest → Lays (l :: ls) s rest

theorem Lays.suffix {ls : List Lexeme} {s rest : List Char} (h : Lays ls s rest) : rest <:+ s := by
  induction h with
  | nil s => exact List.suffix_rfl
  | cons hnext _ ih => exact ih.trans hnext.suffix

theorem lays_singleton {l : Lexeme} {s rest : List Char} : Lays [l] s rest ↔ Next l s rest := by
  constructor
  · intro h
    cases h with
    | cons hnext hlays =>
      cases hlays
      exact hnext
  · exact fun h => .cons h (.nil rest)

theorem lays_append {ls ms : List Lexeme} {s rest : List Char} :
    Lays (ls ++ ms) s rest ↔ ∃ t, Lays ls s t ∧ Lays ms t rest := by
  induction ls generalizing s with
  | nil =>
    constructor
    · exact fun h => ⟨s, .nil s, h⟩
    · rintro ⟨t, hlays, hms⟩
      cases hlays
      exact hms
  | cons l ls ih =>
    constructor
    · intro h
      cases h with
      | cons hnext hlays =>
        obtain ⟨t, hls, hms⟩ := ih.1 hlays
        exact ⟨t, .cons hnext hls, hms⟩
    · rintro ⟨t, hlays, hms⟩
      cases hlays with
      | cons hnext hls => exact .cons hnext (ih.2 ⟨t, hls, hms⟩)

theorem Lays.skip {ls : List Lexeme} {s t rest : List Char} (hskip : Skip s t) (hne : ls ≠ [])
    (h : Lays ls t rest) : Lays ls s rest := by
  cases h with
  | nil => exact absurd rfl hne
  | cons hnext hlays => exact .cons (hnext.skip hskip) hlays

section Replace

variable {c : Char} {front back rest : List Char}

theorem Stops.replace {p : Char → Bool} (h : Stops p (back ++ c :: rest)) (other : List Char) :
    Stops p (back ++ c :: other) := by
  cases back <;> exact h

theorem Lexeme.Ends.replace {l : Lexeme} (h : l.Ends (back ++ c :: rest)) (hc : c ≠ '.')
    (other : List Char) : l.Ends (back ++ c :: other) := by
  cases l with
  | quoted name => trivial
  | number negative whole places =>
    refine ⟨h.1.replace other, fun hplaces d s heq => ?_⟩
    rcases back with _ | ⟨e, _ | ⟨f, back⟩⟩
    · exact absurd (List.cons.inj heq).1 hc
    · obtain ⟨rfl, htail⟩ := List.cons.inj heq
      obtain ⟨rfl, -⟩ := List.cons.inj htail
      exact h.2 hplaces c rest rfl
    · obtain ⟨rfl, htail⟩ := List.cons.inj heq
      obtain ⟨rfl, -⟩ := List.cons.inj htail
      exact h.2 hplaces f _ rfl
  | word | text | parameter | symbol => exact Stops.replace h other

theorem Next.replace {l : Lexeme} (h : Next l (front ++ c :: rest) (back ++ c :: rest))
    (hblank : Text.isBlank c = false) (hpoint : c ≠ '.') (other : List Char) :
    Next l (front ++ c :: other) (back ++ c :: other) := by
  obtain ⟨t, hskip, hat⟩ := h
  have ht : t = (l.written ++ back) ++ c :: rest := by rw [hat.written, List.append_assoc]
  refine ⟨(l.written ++ back) ++ c :: other, hskip.replace hblank rfl ht other, hat.wellFormed, ?_,
    hat.ends.replace hpoint other⟩
  exact List.append_assoc _ _ _

/-- Whatever comes after a character, the lexemes in front of it are the same. -/
theorem Lays.replace {ls : List Lexeme} {s t : List Char} (h : Lays ls s t)
    (hblank : Text.isBlank c = false) (hpoint : c ≠ '.') (hs : s = front ++ c :: rest)
    (ht : t = back ++ c :: rest) (other : List Char) :
    Lays ls (front ++ c :: other) (back ++ c :: other) := by
  induction h generalizing front with
  | nil s =>
    obtain rfl := List.append_cancel_right (hs.symm.trans ht)
    exact .nil _
  | @cons l ls s u t hnext hlays ih =>
    obtain ⟨between, hbetween⟩ := hlays.suffix
    have hu : u = (between ++ back) ++ c :: rest := by rw [← hbetween, ht, List.append_assoc]
    subst hs hu
    exact .cons (hnext.replace hblank hpoint other) (ih rfl ht)

end Replace

def Laid (ls : List Lexeme) (s : List Char) : Prop := ∃ rest, Lays ls s rest ∧ Skip rest []

theorem laid_nil {s : List Char} : Laid [] s ↔ skipGap s = [] := by
  rw [← skip_nil_iff]
  constructor
  · rintro ⟨rest, hlays, hskip⟩
    cases hlays
    exact hskip
  · exact fun h => ⟨s, .nil s, h⟩

theorem laid_cons {l : Lexeme} {ls : List Lexeme} {s : List Char} :
    Laid (l :: ls) s ↔ ∃ t, Next l s t ∧ Laid ls t := by
  constructor
  · rintro ⟨rest, hlays, hskip⟩
    cases hlays with
    | cons hnext hlays => exact ⟨_, hnext, rest, hlays, hskip⟩
  · rintro ⟨t, hnext, rest, hlays, hskip⟩
    exact ⟨rest, .cons hnext hlays, hskip⟩

theorem laid_append {ls ks : List Lexeme} {s : List Char} :
    Laid (ls ++ ks) s ↔ ∃ t, Lays ls s t ∧ Laid ks t := by
  constructor
  · rintro ⟨rest, hlays, hskip⟩
    obtain ⟨t, hls, hks⟩ := lays_append.1 hlays
    exact ⟨t, hls, rest, hks, hskip⟩
  · rintro ⟨t, hls, rest, hks, hskip⟩
    exact ⟨rest, lays_append.2 ⟨t, hls, hks⟩, hskip⟩

theorem Laid.length_le {ls : List Lexeme} {s : List Char} (h : Laid ls s) :
    ls.length ≤ s.length := by
  induction ls generalizing s with
  | nil => exact Nat.zero_le _
  | cons l ls ih =>
    obtain ⟨t, hnext, hlaid⟩ := laid_cons.1 h
    exact Nat.lt_of_le_of_lt (ih hlaid) hnext.length_lt

theorem Laid.length_le_of_append {ls ks : List Lexeme} {s : List Char} (h : Laid (ls ++ ks) s) :
    ls.length ≤ s.length := by
  have hall := h.length_le
  rw [List.length_append] at hall
  omega

/-- No text of lexemes goes on with a point. -/
theorem Laid.ne_point {ls : List Lexeme} {s : List Char} (h : Laid ls s) (t : List Char) :
    s ≠ '.' :: t := by
  rintro rfl
  have hgap : skipGap ('.' :: t) = '.' :: t := rfl
  cases ls with
  | nil =>
    have := laid_nil.1 h
    rw [hgap] at this
    cases this
  | cons l ls =>
    obtain ⟨u, hnext, -⟩ := laid_cons.1 h
    rw [next_iff, hgap] at hnext
    exact hnext.ne_point t rfl

/-- However much of a text is cut into lexemes, these are the first lexemes of the text. -/
theorem Lays.of_laid {ms ls : List Lexeme} {s rest : List Char} (h : Lays ms s rest)
    (hlaid : Laid ls s) : ∃ ks, ls = ms ++ ks ∧ Laid ks rest := by
  induction h generalizing ls with
  | nil s => exact ⟨ls, rfl, hlaid⟩
  | @cons m ms s t rest hnext _ ih =>
    cases ls with
    | nil =>
      rw [next_iff, laid_nil.1 hlaid] at hnext
      exact absurd rfl hnext.ne_nil
    | cons l ls =>
      obtain ⟨t', hnext', hlaid⟩ := laid_cons.1 hlaid
      obtain ⟨rfl, rfl⟩ := hnext.unique hnext'
      obtain ⟨ks, rfl, hks⟩ := ih hlaid
      exact ⟨ks, rfl, hks⟩

/-- Lexemes written one after another with a gap between any two. -/
inductive Spaced : List Lexeme → List Char → Prop
  | last {l : Lexeme} : l.WellFormed → Spaced [l] l.written
  | cons {l : Lexeme} {ls : List Lexeme} {gap s : List Char} : l.WellFormed → Gap gap →
      Spaced ls s → Spaced (l :: ls) (l.written ++ (gap ++ s))

theorem Laid.skip {ls : List Lexeme} {s t : List Char} (hskip : Skip s t) (h : Laid ls t) :
    Laid ls s := by
  cases ls with
  | nil => rwa [laid_nil, skipGap_of_skip hskip, ← laid_nil]
  | cons l ls =>
    obtain ⟨rest, hnext, hlaid⟩ := laid_cons.1 h
    exact laid_cons.2 ⟨rest, hnext.skip hskip, hlaid⟩

theorem Lexeme.ends_nil (l : Lexeme) : l.Ends [] := by
  have hstops : ∀ p, Stops p [] := fun p c hc => nomatch hc
  cases l with
  | quoted name => trivial
  | number negative whole places => exact ⟨hstops _, fun _ _ _ h => nomatch h⟩
  | _ => exact hstops _

theorem Gap.ends {gap : List Char} (h : Gap gap) (l : Lexeme) (s : List Char) :
    l.Ends (gap ++ s) := by
  obtain ⟨c, t, rfl, hc⟩ := h.head
  have hcases : c = ' ' ∨ c = '\t' ∨ c = '\r' ∨ c = '\n' ∨ c = '-' := by
    simpa only [Text.isBlank_iff, or_assoc] using hc
  have hstops : ∀ p : Char → Bool, p ' ' = false → p '\t' = false → p '\r' = false →
      p '\n' = false → p '-' = false → Stops p (c :: t ++ s) := by
    intro p hspace htab hreturn hfeed hdash d hd
    obtain rfl := Option.some.inj hd
    obtain rfl | rfl | rfl | rfl | rfl := hcases <;> assumption
  cases l with
  | quoted name => trivial
  | number negative whole places =>
    refine ⟨hstops _ rfl rfl rfl rfl rfl, fun _ d u heq => ?_⟩
    obtain ⟨rfl, -⟩ := List.cons.inj heq
    simp at hcases
  | symbol mark => apply hstops <;> simp [Lexeme.continues]
  | _ => exact hstops _ rfl rfl rfl rfl rfl

/-- They are found in front of any text that no lexeme goes on with. -/
theorem Spaced.lays {ls : List Lexeme} {s rest : List Char} (h : Spaced ls s)
    (hrest : ∀ l : Lexeme, l.Ends rest) : Lays ls (s ++ rest) rest := by
  induction h with
  | @last l hwell =>
    have hat : l.At (l.written ++ rest) rest := ⟨hwell, rfl, hrest l⟩
    exact lays_singleton.2 ⟨_, .done _, hat⟩
  | @cons l ls gap s hwell hgap hspaced ih =>
    have hne : ls ≠ [] := by
      rintro rfl
      cases hspaced
    have hat : l.At (l.written ++ (gap ++ (s ++ rest))) (gap ++ (s ++ rest)) :=
      ⟨hwell, rfl, hgap.ends l (s ++ rest)⟩
    rw [List.append_assoc, List.append_assoc]
    exact .cons ⟨_, .done _, hat⟩ (ih.skip (hgap.skip (.done _)) hne)

theorem Spaced.laid {ls : List Lexeme} {s : List Char} (h : Spaced ls s) : Laid ls s := by
  have hlays := h.lays Lexeme.ends_nil
  rw [List.append_nil] at hlays
  exact ⟨[], hlays, .done []⟩

/-- Lexemes with one blank between any two. -/
def withBlanks : List Lexeme → List Char
  | [] => []
  | [l] => l.written
  | l :: m :: ls => l.written ++ ([' '] ++ withBlanks (m :: ls))

theorem spaced_withBlanks {ls : List Lexeme} (hne : ls ≠ []) (hwell : ∀ l ∈ ls, l.WellFormed) :
    Spaced ls (withBlanks ls) := by
  induction ls with
  | nil => exact absurd rfl hne
  | cons l ls ih =>
    have hl := hwell l List.mem_cons_self
    cases ls with
    | nil => exact .last hl
    | cons m ls =>
      have hrest := ih (List.cons_ne_nil m ls) fun k hk => hwell k (List.mem_cons_of_mem _ hk)
      exact .cons hl (.blank rfl) hrest

end DocumentSql
