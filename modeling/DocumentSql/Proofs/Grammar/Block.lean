import DocumentSql.Proofs.Grammar.Gap
import Mathlib.Tactic.Common
/-
Blocks between parentheses. The scan for the parenthesis that closes a block goes by a depth and by
whether it is inside of quotes. What it takes for the block is a text of the grammar of blocks, and
in such a text it does not stop before the end.
-/

namespace DocumentSql

/-- What may stand between two parentheses that belong together. -/
inductive Balanced : List Char → Prop
  | nil : Balanced []
  | plain {c : Char} {s : List Char} : c ≠ '\'' → c ≠ '(' → c ≠ ')' → Balanced s →
      Balanced (c :: s)
  | quoted {text s : List Char} : '\'' ∉ text → Balanced s →
      Balanced ('\'' :: (text ++ '\'' :: s))
  | group {inner s : List Char} : Balanced inner → Balanced s →
      Balanced ('(' :: (inner ++ ')' :: s))

/-- How many parentheses are open at a place, and whether a quote is. -/
structure Nesting where
  depth : Nat
  quoted : Bool
deriving DecidableEq, Repr

namespace Nesting

/-- The place behind a character, unless that closes the block. -/
def step : Nesting → Char → Option Nesting
  | ⟨depth, true⟩, c => some ⟨depth, c != '\''⟩
  | ⟨depth, false⟩, c =>
    if c = '\'' then some ⟨depth, true⟩
    else if c = '(' then some ⟨depth + 1, false⟩
    else if c = ')' then match depth with
      | 0 => none
      | depth + 1 => some ⟨depth, false⟩
    else some ⟨depth, false⟩

/-- The place behind a stretch of text, unless the block ends in it. -/
def along (n : Nesting) (s : List Char) : Option Nesting := s.foldlM step n

/-- Where a block begins and ends. -/
def outermost : Nesting := ⟨0, false⟩

/-- The ways from one place to the next. -/
inductive Step : Nesting → Char → Nesting → Prop
  | unquote (depth : Nat) : Step ⟨depth, true⟩ '\'' ⟨depth, false⟩
  | hidden (depth : Nat) {c : Char} : c ≠ '\'' → Step ⟨depth, true⟩ c ⟨depth, true⟩
  | quote (depth : Nat) : Step ⟨depth, false⟩ '\'' ⟨depth, true⟩
  | opens (depth : Nat) : Step ⟨depth, false⟩ '(' ⟨depth + 1, false⟩
  | closes (depth : Nat) : Step ⟨depth + 1, false⟩ ')' ⟨depth, false⟩
  | plain (depth : Nat) {c : Char} : c ≠ '\'' → c ≠ '(' → c ≠ ')' →
      Step ⟨depth, false⟩ c ⟨depth, false⟩

theorem Step.step_eq {n n' : Nesting} {c : Char} (h : Step n c n') : n.step c = some n' := by
  cases h with
  | hidden depth hquote => simp [step, hquote]
  | plain depth hquote hopen hclose => simp [step, hquote, hopen, hclose]
  | _ => rfl

/-- Only the parenthesis that closes a block ends the scan. -/
theorem step_cases (n : Nesting) (c : Char) :
    (n = outermost ∧ c = ')' ∧ n.step c = none) ∨ ∃ n', Step n c n' := by
  obtain ⟨depth, quoted⟩ := n
  by_cases hquote : c = '\''
  · subst hquote
    cases quoted with
    | true => exact .inr ⟨_, .unquote depth⟩
    | false => exact .inr ⟨_, .quote depth⟩
  cases quoted with
  | true => exact .inr ⟨_, .hidden depth hquote⟩
  | false =>
    by_cases hopen : c = '('
    · subst hopen
      exact .inr ⟨_, .opens depth⟩
    by_cases hclose : c = ')'
    · subst hclose
      cases depth with
      | zero => exact .inl ⟨rfl, rfl, rfl⟩
      | succ depth => exact .inr ⟨_, .closes depth⟩
    · exact .inr ⟨_, .plain depth hquote hopen hclose⟩

theorem step_eq_some_iff {n n' : Nesting} {c : Char} : n.step c = some n' ↔ Step n c n' := by
  constructor
  · intro h
    obtain ⟨-, -, hnone⟩ | ⟨next, hstep⟩ := step_cases n c
    · rw [hnone] at h
      cases h
    · rw [hstep.step_eq] at h
      exact Option.some.inj h ▸ hstep
  · exact Step.step_eq

theorem along_cons_eq_some_iff {n n' : Nesting} {c : Char} {s : List Char} :
    n.along (c :: s) = some n' ↔ ∃ next, Step n c next ∧ next.along s = some n' := by
  simp only [along, List.foldlM_cons, Option.bind_eq_bind, Option.bind_eq_some_iff,
    step_eq_some_iff]

theorem along_append_eq_some_iff {n n' : Nesting} {s t : List Char} :
    n.along (s ++ t) = some n' ↔ ∃ next, n.along s = some next ∧ next.along t = some n' := by
  simp only [along, List.foldlM_append, Option.bind_eq_bind, Option.bind_eq_some_iff]

/-- Parentheses that are open around a text do not count in it. -/
theorem Step.deeper {n n' : Nesting} {c : Char} (h : Step n c n') (more : Nat) :
    Step ⟨n.depth + more, n.quoted⟩ c ⟨n'.depth + more, n'.quoted⟩ := by
  cases h with
  | unquote depth => exact .unquote _
  | hidden depth hquote => exact .hidden _ hquote
  | quote depth => exact .quote _
  | opens depth =>
    rw [Nat.add_right_comm]
    exact .opens _
  | closes depth =>
    rw [Nat.add_right_comm]
    exact .closes _
  | plain depth hquote hopen hclose => exact .plain _ hquote hopen hclose

theorem along_deeper {n n' : Nesting} {s : List Char} (h : n.along s = some n') (more : Nat) :
    along ⟨n.depth + more, n.quoted⟩ s = some ⟨n'.depth + more, n'.quoted⟩ := by
  induction s generalizing n with
  | nil =>
    obtain rfl := Option.some.inj h
    rfl
  | cons c s ih =>
    obtain ⟨next, hstep, hrest⟩ := along_cons_eq_some_iff.mp h
    exact along_cons_eq_some_iff.mpr ⟨_, hstep.deeper more, ih hrest⟩

/-- Whether a number of quotes leaves one of them open. -/
def oddQuotes (s : List Char) : Bool := s.count '\'' % 2 == 1

theorem oddQuotes_quote (s : List Char) : oddQuotes ('\'' :: s) = !oddQuotes s := by
  rw [oddQuotes, oddQuotes, List.count_cons_self]
  obtain h | h := Nat.mod_two_eq_zero_or_one (s.count '\'')
  · simp [Nat.add_mod, h]
  · simp [Nat.add_mod, h]

theorem oddQuotes_cons {c : Char} (hc : c ≠ '\'') (s : List Char) :
    oddQuotes (c :: s) = oddQuotes s := by
  rw [oddQuotes, oddQuotes, List.count_cons_of_ne hc]

/-- Every quote counts, in a quoted text or outside. -/
theorem quoted_along {n n' : Nesting} {s : List Char} (h : n.along s = some n') :
    n'.quoted = (n.quoted != oddQuotes s) := by
  induction s generalizing n with
  | nil =>
    obtain rfl := Option.some.inj h
    exact (Bool.bne_false n.quoted).symm
  | cons c s ih =>
    obtain ⟨next, hstep, hrest⟩ := along_cons_eq_some_iff.mp h
    rw [ih hrest]
    cases hstep with
    | unquote depth | quote depth => simp [oddQuotes_quote]
    | hidden depth hquote => rw [oddQuotes_cons hquote]
    | opens depth | closes depth => rw [oddQuotes_cons (by decide)]
    | plain depth hquote _ _ => rw [oddQuotes_cons hquote]

/-- With more parentheses open, more are open afterwards. -/
theorem depth_le_of_along {n m last : Nesting} {s : List Char} (h : n.along s = some last)
    (h' : m.along s = some last) (hquoted : n.quoted = m.quoted) : n.depth ≤ m.depth := by
  by_contra hlt
  have hdeeper := along_deeper h' (n.depth - m.depth)
  have hdepth : m.depth + (n.depth - m.depth) = n.depth := by omega
  rw [hdepth, ← hquoted, h] at hdeeper
  have hlast := congrArg Nesting.depth (Option.some.inj hdeeper)
  dsimp only at hlast
  omega

/-- Two places that a text leads to one and the same are the same. -/
theorem along_injective {n m last : Nesting} {s : List Char} (h : n.along s = some last)
    (h' : m.along s = some last) : n = m := by
  have hquoted : n.quoted = m.quoted := by
    have heq := (quoted_along h).symm.trans (quoted_along h')
    revert heq
    cases n.quoted <;> cases m.quoted <;> cases oddQuotes s <;> decide
  have hdepth : n.depth = m.depth :=
    Nat.le_antisymm (depth_le_of_along h h' hquoted) (depth_le_of_along h' h hquoted.symm)
  obtain ⟨depth, quoted⟩ := n
  obtain ⟨depth', quoted'⟩ := m
  rw [Nesting.mk.injEq]
  exact ⟨hdepth, hquoted⟩

end Nesting

open Nesting

section Grammar

/-- A text that closes so many blocks and then goes on as a balanced one. -/
inductive Closes : Nat → List Char → Prop
  | balanced {s : List Char} : Balanced s → Closes 0 s
  | closed {depth : Nat} {inner s : List Char} : Balanced inner → Closes depth s →
      Closes (depth + 1) (inner ++ ')' :: s)

/-- What may stand in front of every balanced text may stand in front of these. -/
theorem Closes.after {depth : Nat} {front s : List Char}
    (hfront : ∀ t, Balanced t → Balanced (front ++ t)) (h : Closes depth s) :
    Closes depth (front ++ s) := by
  cases h with
  | balanced hs => exact .balanced (hfront _ hs)
  | closed hinner hs =>
    rw [← List.append_assoc]
    exact .closed (hfront _ hinner) hs

theorem Closes.opened {depth : Nat} {s : List Char} (h : Closes (depth + 1) s) :
    Closes depth ('(' :: s) := by
  cases h with
  | @closed _ inner t hinner ht =>
    have hgroup : ∀ u, Balanced u → Balanced ('(' :: (inner ++ [')']) ++ u) := by
      intro u hu
      simpa using Balanced.group hinner hu
    simpa using ht.after hgroup

/-- What remains of a block behind a place in it. -/
def Completes : Nesting → List Char → Prop
  | ⟨depth, false⟩, s => Closes depth s
  | ⟨depth, true⟩, s => ∃ text t, s = text ++ '\'' :: t ∧ '\'' ∉ text ∧ Closes depth t

theorem completes_of_along {n : Nesting} {s : List Char} (h : n.along s = some outermost) :
    Completes n s := by
  -- Along the text: what is open behind a character is closed by the rest, and each kind of step
  -- says what that makes of the character and the rest together.
  induction s generalizing n with
  | nil =>
    obtain rfl := Option.some.inj h
    exact Closes.balanced .nil
  | cons c s ih =>
    obtain ⟨next, hstep, hrest⟩ := along_cons_eq_some_iff.mp h
    have hs := ih hrest
    cases hstep with
    | unquote depth => exact ⟨[], s, rfl, List.not_mem_nil, hs⟩
    | hidden depth hquote =>
      obtain ⟨text, t, rfl, htext, ht⟩ := hs
      exact ⟨c :: text, t, rfl, List.not_mem_cons_of_ne_of_not_mem hquote.symm htext, ht⟩
    | quote depth =>
      obtain ⟨text, t, rfl, htext, ht⟩ := hs
      have hquoted : ∀ u, Balanced u → Balanced ('\'' :: (text ++ ['\'']) ++ u) := by
        intro u hu
        simpa using Balanced.quoted htext hu
      have hcloses : Closes depth ('\'' :: (text ++ '\'' :: t)) := by simpa using ht.after hquoted
      exact hcloses
    | opens depth => exact Closes.opened hs
    | closes depth => exact Closes.closed .nil hs
    | plain depth hquote hopen hclose =>
      have hplain : ∀ u, Balanced u → Balanced ([c] ++ u) := fun u hu =>
        .plain hquote hopen hclose hu
      exact hs.after hplain

theorem along_hidden {text : List Char} (h : '\'' ∉ text) (depth : Nat) :
    along ⟨depth, true⟩ text = some ⟨depth, true⟩ := by
  induction text with
  | nil => rfl
  | cons c text ih =>
    have hquote : c ≠ '\'' := Ne.symm (List.ne_of_not_mem_cons h)
    exact along_cons_eq_some_iff.mpr
      ⟨_, .hidden depth hquote, ih (List.not_mem_of_not_mem_cons h)⟩

/-- The scan passes over a text and finds nothing open just if the text is balanced. -/
theorem balanced_iff {s : List Char} : Balanced s ↔ outermost.along s = some outermost := by
  constructor
  · intro h
    induction h with
    | nil => rfl
    | plain hquote hopen hclose _ ih =>
      exact along_cons_eq_some_iff.mpr ⟨_, .plain 0 hquote hopen hclose, ih⟩
    | quoted htext _ ih =>
      refine along_cons_eq_some_iff.mpr ⟨_, .quote 0, ?_⟩
      refine along_append_eq_some_iff.mpr ⟨_, along_hidden htext 0, ?_⟩
      exact along_cons_eq_some_iff.mpr ⟨_, .unquote 0, ih⟩
    | group _ _ ihinner ih =>
      refine along_cons_eq_some_iff.mpr ⟨_, .opens 0, ?_⟩
      refine along_append_eq_some_iff.mpr ⟨_, along_deeper ihinner 1, ?_⟩
      exact along_cons_eq_some_iff.mpr ⟨_, .closes 0, ih⟩
  · intro h
    cases completes_of_along h with
    | balanced hs => exact hs

/-- A stretch in the quotes that it stands in, if any. -/
def enclosed (quoted : Bool) (s : List Char) : List Char :=
  if quoted then '\'' :: (s ++ ['\'']) else s

theorem balanced_enclosed_iff {quoted : Bool} {s : List Char} :
    Balanced (enclosed quoted s) ↔ along ⟨0, quoted⟩ s = some ⟨0, quoted⟩ := by
  rw [balanced_iff]
  cases quoted with
  | false => exact Iff.rfl
  | true =>
    have hclose : along ⟨0, true⟩ ['\''] = some outermost := rfl
    constructor
    · intro h
      obtain ⟨next, hquote, h⟩ := along_cons_eq_some_iff.mp h
      obtain rfl := Option.some.inj (hquote.step_eq.symm.trans (Step.quote 0).step_eq)
      obtain ⟨last, hs, hlast⟩ := along_append_eq_some_iff.mp h
      rwa [along_injective hlast hclose] at hs
    · intro h
      refine along_cons_eq_some_iff.mpr ⟨_, .quote 0, ?_⟩
      exact along_append_eq_some_iff.mpr ⟨_, h, hclose⟩

/-- In the middle of a block another stretch may stand that is balanced within the quotes there. -/
theorem Balanced.insert {l r s : List Char} (h : Balanced (l ++ r))
    (hs : Balanced (enclosed (oddQuotes l) s)) : Balanced (l ++ (s ++ r)) := by
  obtain ⟨n, hl, hr⟩ := along_append_eq_some_iff.mp (balanced_iff.mp h)
  have hquoted : n.quoted = oddQuotes l := (quoted_along hl).trans (Bool.false_bne _)
  have hinner := along_deeper (balanced_enclosed_iff.mp hs) n.depth
  rw [Nat.zero_add, ← hquoted] at hinner
  refine balanced_iff.mpr (along_append_eq_some_iff.mpr ⟨n, hl, ?_⟩)
  exact along_append_eq_some_iff.mpr ⟨n, hinner, hr⟩

/-- Outside of inner blocks no other stretch may. -/
theorem Balanced.of_insert {quoted : Bool} {l r s : List Char} (h : Balanced (l ++ (s ++ r)))
    (hl : along outermost l = some ⟨0, quoted⟩) (hr : along ⟨0, quoted⟩ r = some outermost) :
    Balanced (enclosed quoted s) := by
  obtain ⟨n, hl', h⟩ := along_append_eq_some_iff.mp (balanced_iff.mp h)
  obtain rfl := Option.some.inj (hl.symm.trans hl')
  obtain ⟨last, hs, hlast⟩ := along_append_eq_some_iff.mp h
  rw [along_injective hlast hr] at hs
  exact balanced_enclosed_iff.mpr hs

end Grammar

namespace Token

/-- The reader's depth counts the parenthesis that opens the block itself. -/
theorem closing_cons (n : Nesting) (c : Char) (s : List Char) :
    closing (n.depth + 1) n.quoted (c :: s) = match n.step c with
      | some next => (closing (next.depth + 1) next.quoted s).map fun (body, after) =>
          (c :: body, after)
      | none => some ([], s) := by
  obtain ⟨rfl, rfl, hnone⟩ | ⟨next, hstep⟩ := step_cases n c
  · rw [hnone]
    rfl
  · rw [hstep.step_eq]
    cases hstep with
    | hidden depth hquote => simp [closing, hquote]
    | plain depth hquote hopen hclose => simp [closing, hquote, hopen, hclose]
    | _ => simp [closing]

theorem closing_eq_some_iff_along {n : Nesting} {s body rest : List Char} :
    closing (n.depth + 1) n.quoted s = some (body, rest) ↔
      s = body ++ ')' :: rest ∧ n.along body = some outermost := by
  induction s generalizing n body with
  | nil => simp [closing]
  | cons c s ih =>
    rw [closing_cons]
    obtain ⟨rfl, rfl, hnone⟩ | ⟨next, hstep⟩ := step_cases n c
    · rw [hnone]
      constructor
      · intro h
        obtain ⟨rfl, rfl⟩ := Prod.mk.inj (Option.some.inj h)
        exact ⟨rfl, rfl⟩
      · rintro ⟨hs, halong⟩
        cases body with
        | nil =>
          obtain ⟨-, rfl⟩ := List.cons.inj hs
          rfl
        | cons d body =>
          obtain ⟨rfl, -⟩ := List.cons.inj hs
          obtain ⟨next, hstep, -⟩ := along_cons_eq_some_iff.mp halong
          rw [hstep.step_eq] at hnone
          cases hnone
    · rw [hstep.step_eq]
      dsimp only
      rw [Option.map_eq_some_iff]
      constructor
      · rintro ⟨⟨inner, after⟩, hread, heq⟩
        obtain ⟨rfl, rfl⟩ := Prod.mk.inj heq
        obtain ⟨rfl, halong⟩ := ih.mp hread
        exact ⟨rfl, along_cons_eq_some_iff.mpr ⟨next, hstep, halong⟩⟩
      · rintro ⟨hs, halong⟩
        cases body with
        | nil =>
          obtain ⟨rfl, -⟩ := List.cons.inj hs
          obtain rfl := Option.some.inj halong
          cases hstep.step_eq
        | cons d body =>
          obtain ⟨rfl, htail⟩ := List.cons.inj hs
          obtain ⟨next', hstep', hrest⟩ := along_cons_eq_some_iff.mp halong
          obtain rfl := Option.some.inj (hstep.step_eq.symm.trans hstep'.step_eq)
          exact ⟨(body, rest), ih.mpr ⟨htail, hrest⟩, rfl⟩

/-- A block ends at the first parenthesis that leaves a balanced text in front of it. -/
theorem closing_eq_some_iff {s body rest : List Char} :
    closing 1 false s = some (body, rest) ↔ s = body ++ ')' :: rest ∧ Balanced body := by
  rw [balanced_iff]
  exact closing_eq_some_iff_along (n := outermost)

theorem balancedParens_eq_some_iff {s body rest : List Char} :
    balancedParens s = some (body, rest) ↔
      Skip s ('(' :: (body ++ ')' :: rest)) ∧ Balanced body := by
  unfold balancedParens
  constructor
  · intro h
    split at h
    · next t hgap =>
      obtain ⟨rfl, hbody⟩ := closing_eq_some_iff.mp h
      exact ⟨hgap ▸ skip_skipGap s, hbody⟩
    · cases h
  · rintro ⟨hskip, hbody⟩
    have hgap : skipGap s = '(' :: (body ++ ')' :: rest) := skipGap_of_skip hskip
    rw [hgap]
    exact closing_eq_some_iff.mpr ⟨rfl, hbody⟩

/-- One less, if there is one to take. -/
def takeOne? : Nat → Option Nat
  | 0 => none
  | n + 1 => some n

/-- The scan for the closing parenthesis with a counter that is checked: it is lowered before it is
looked at, and where it cannot be lowered there is no result. -/
def closingChecked : Nat → Bool → List Char → Option (Option (List Char × List Char))
  | _, _, [] => some none
  | depth, quoted, c :: rest =>
    let longer := Option.map fun (body, after) => (c :: body, after)
    if c = '\'' then (closingChecked depth (!quoted) rest).map longer
    else if c = '(' ∧ !quoted then (closingChecked (depth + 1) quoted rest).map longer
    else if c = ')' ∧ !quoted then
      match takeOne? depth with
      | none => none
      | some 0 => some (some ([], rest))
      | some (depth + 1) => (closingChecked (depth + 1) quoted rest).map longer
    else (closingChecked depth quoted rest).map longer

/-- With a parenthesis open the check never fails. -/
theorem closingChecked_succ (depth : Nat) (quoted : Bool) (s : List Char) :
    closingChecked (depth + 1) quoted s = some (closing (depth + 1) quoted s) := by
  induction s generalizing depth quoted with
  | nil => rfl
  | cons c s ih =>
    rw [closingChecked, closing]
    dsimp only
    split
    · rw [ih, Option.map_some]
    split
    · rw [ih, Option.map_some]
    split
    · cases depth with
      | zero => rfl
      | succ depth =>
        rw [takeOne?, if_neg (by omega), Nat.add_sub_cancel]
        dsimp only
        rw [ih, Option.map_some]
    · rw [ih, Option.map_some]

/-- A block in parentheses is read up to the parenthesis that closes it, whatever follows. What is
read as one is, behind its gap, a balanced text between parentheses; and the scan never lowers its
counter below zero. -/
theorem balancedParens_delimits :
    (∀ body rest, Balanced body →
      balancedParens ('(' :: (body ++ ')' :: rest)) = some (body, rest)) ∧
    (∀ s body rest, balancedParens s = some (body, rest) →
      Balanced body ∧ ∃ gap, s = gap ++ '(' :: (body ++ ')' :: rest) ∧
        Skip s ('(' :: (body ++ ')' :: rest))) ∧
    ∀ s, closingChecked 1 false s = some (closing 1 false s) := by
  refine ⟨fun body rest hbody => ?_, fun s body rest hread => ?_, closingChecked_succ 0 false⟩
  · exact balancedParens_eq_some_iff.mpr ⟨.done _, hbody⟩
  · obtain ⟨hskip, hbody⟩ := balancedParens_eq_some_iff.mp hread
    obtain ⟨gap, hgap⟩ := hskip.suffix
    exact ⟨hbody, gap, hgap.symm, hskip⟩

/-- Parentheses and a doubled quote in a text, and a block in the block. -/
theorem balancedParens_delimits_columns :
    let body := "id TEXT, note TEXT DEFAULT 'é)(''', n NUMERIC(10, 2)".toList
    let s := "-- (\n(a 'x') b".toList
    Balanced body ∧ balancedParens ('(' :: (body ++ ')' :: " rest".toList)) =
        some (body, " rest".toList) ∧
      balancedParens s = some ("a 'x'".toList, " b".toList) ∧ Balanced "a 'x'".toList := by
  intro body s
  obtain ⟨hblock, hread, -⟩ := balancedParens_delimits
  have hbody : Balanced body := balanced_iff.mpr (by decide +kernel)
  have hs : balancedParens s = some ("a 'x'".toList, " b".toList) := by decide +kernel
  exact ⟨hbody, hblock body _ hbody, hs, (hread s _ _ hs).1⟩

end Token

end DocumentSql
