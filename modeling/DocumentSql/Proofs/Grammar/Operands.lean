import DocumentSql.Proofs.Engine.Plan
import DocumentSql.Proofs.Grammar.Accepted
import DocumentSql.Proofs.Grammar.Writable
/-
The parts of an accepted statement can all be written, since they were read. In particular its
parameters count from 1, as those of a text do; and a statement whose values a user can write is one
that the user can write as a whole.
-/

namespace DocumentSql

theorem Lays.wellFormed {ls : List Lexeme} {s rest : List Char} (h : Lays ls s rest) :
    ∀ l ∈ ls, l.WellFormed := by
  induction h with
  | nil => nofun
  | cons hnext _ ih =>
    obtain ⟨t, -, hat⟩ := hnext
    exact List.forall_mem_cons.mpr ⟨hat.wellFormed, ih⟩

theorem Laid.wellFormed {ls : List Lexeme} {s : List Char} (h : Laid ls s) :
    ∀ l ∈ ls, l.WellFormed := by
  obtain ⟨rest, hlays, -⟩ := h
  exact hlays.wellFormed

namespace Grammar

section Combinations

variable {L M separator : Tokens} {α : Type} {item : α → Tokens}

theorem Covers.writes {s : List Char} (h : Covers L s) : Writes L := by
  obtain ⟨ls, hls, hlaid⟩ := h
  exact ⟨ls, hls, hlaid.wellFormed⟩

theorem writes_mul : Writes (L * M) ↔ Writes L ∧ Writes M := by
  constructor
  · rintro ⟨ls, hls, hwell⟩
    obtain ⟨a, ha, b, hb, rfl⟩ := Language.mem_mul.mp hls
    obtain ⟨hleft, hright⟩ := List.forall_mem_append.mp hwell
    exact ⟨⟨a, ha, hleft⟩, ⟨b, hb, hright⟩⟩
  · rintro ⟨hleft, hright⟩
    exact hleft.mul hright

theorem writes_add : Writes (L + M) ↔ Writes L ∨ Writes M := by
  constructor
  · rintro ⟨ls, hls | hls, hwell⟩
    · exact .inl ⟨ls, hls, hwell⟩
    · exact .inr ⟨ls, hls, hwell⟩
  · rintro (hleft | hright)
    · exact hleft.add_left
    · exact hright.add_right

theorem Writes.of_mem_followers {as : List α} (h : Writes (followers separator item as))
    {a : α} (ha : a ∈ as) : Writes (item a) := by
  induction as with
  | nil => cases ha
  | cons first more ih =>
    rw [followers, writes_mul, writes_mul] at h
    cases List.mem_cons.mp ha with
    | inl heq => exact heq ▸ h.2.1
    | inr hmore => exact ih h.2.2 hmore

theorem Writes.of_mem_separated {as : List α} (h : Writes (separated separator item as))
    {a : α} (ha : a ∈ as) : Writes (item a) := by
  cases as with
  | nil => cases ha
  | cons first more =>
    rw [separated, writes_mul] at h
    cases List.mem_cons.mp ha with
    | inl heq => exact heq ▸ h.1
    | inr hmore => exact h.2.of_mem_followers hmore

theorem Writes.ne_nil {as : List α} (h : Writes (separated separator item as)) : as ≠ [] := by
  rintro rfl
  obtain ⟨ls, hls, -⟩ := h
  exact Language.notMem_zero ls hls

theorem Writes.of_parenthesized (h : Writes (parenthesized L)) : Writes L :=
  (writes_mul.mp (writes_mul.mp h).2).1

end Combinations

section Names

theorem Writes.isName {n : String} (h : Writes (name n)) : IsName n := by
  obtain ⟨_, ⟨l, hname, rfl⟩, hwell⟩ := h
  have hl : l.WellFormed := hwell l (List.mem_singleton.mpr rfl)
  cases l with
  | quoted letters =>
    obtain rfl : letters = n.toList := hname
    exact hl
  | word letters =>
    obtain ⟨rfl, -⟩ := hname
    obtain ⟨⟨c, rest, hcons, -⟩, hchars⟩ := hl
    refine ⟨hcons ▸ List.cons_ne_nil c rest, fun hquote => ?_⟩
    have hchar := hchars '"' hquote
    revert hchar
    decide
  | text | parameter | number | symbol => exact absurd hname not_false

theorem Writes.projection {names : List String} (h : Writes (Grammar.projection names)) :
    ∀ n ∈ names, IsName n := by
  intro n hn
  cases names with
  | nil => cases hn
  | cons first more =>
    have hlist : Writes (commaList name (first :: more)) := h
    exact (hlist.of_mem_separated hn).isName

theorem Writes.orderBy {o : Option OrderBy} (h : Writes (Grammar.orderBy o)) :
    ∀ order ∈ o, IsName order.field := by
  rintro order rfl
  rw [Grammar.orderBy, writes_mul, writes_mul] at h
  exact h.2.1.isName

theorem Writes.countClause {kw : String} {n : Option Nat} (h : Writes (Grammar.countClause kw n)) :
    ∀ m ∈ n, m < 2 ^ 32 := by
  rintro m rfl
  obtain ⟨_, ⟨digits, -, hbound, -⟩, -⟩ := (writes_mul.mp h).2
  exact hbound

theorem Writes.page {limit offset : Option Nat} (h : Writes (Grammar.page limit offset)) :
    (∀ n ∈ limit, n < 2 ^ 32) ∧ ∀ n ∈ offset, n < 2 ^ 32 := by
  rw [Grammar.page, writes_add, writes_mul, writes_mul] at h
  obtain ⟨hlimit, hoffset⟩ | ⟨hoffset, hlimit⟩ := h
  · exact ⟨hlimit.countClause, hoffset.countClause⟩
  · exact ⟨hlimit.countClause, hoffset.countClause⟩

theorem Writes.returning {columns : Option (List String)}
    (h : Writes (Grammar.returning columns)) : ∀ names ∈ columns, ∀ n ∈ names, IsName n := by
  rintro names rfl
  exact (writes_mul.mp h).2.projection

theorem Writes.parameter {n : Nat} (h : Writes (Grammar.parameter n)) :
    0 < n ∧ n < 2 ^ 32 := by
  obtain ⟨_, ⟨digits, -, hpos, hbound, -⟩, -⟩ := h
  exact ⟨hpos, hbound⟩

theorem Writes.isPattern {source : ValueSource} (h : Writes (pattern source)) :
    source.IsPattern := by
  cases source with
  | parameter n => exact h.parameter
  | literal v =>
    cases v with
    | text t => trivial
    | null | bool | number | timestamp | id =>
      obtain ⟨ls, hls, -⟩ := h
      exact absurd hls (Language.notMem_zero ls)

end Names

section Statements

variable {V : ValueSource → Tokens} {source : ValueSource}

/-- Patterns have a notation of their own. -/
theorem Writes.operand {p : Predicate} (h : Writes (condition V p))
    (hsource : p.operand? = some source) : Writes (V source) ∨ Writes (pattern source) := by
  cases p with
  | isNull | isNotNull => cases hsource
  | like field operand =>
    obtain rfl := Option.some.inj hsource
    rw [condition, writes_mul, writes_mul] at h
    exact .inr h.2.2
  | compare field comparison operand =>
    obtain rfl := Option.some.inj hsource
    rw [condition, writes_mul, writes_mul] at h
    exact .inl h.2.2

theorem Writes.of_mem_whereClause {ps : List Predicate} (h : Writes (whereClause V ps))
    {p : Predicate} (hp : p ∈ ps) : Writes (condition V p) := by
  cases ps with
  | nil => cases hp
  | cons first more =>
    rw [whereClause, writes_mul] at h
    exact h.2.of_mem_separated hp

theorem Writes.whereOperand {ps : List Predicate} (h : Writes (whereClause V ps))
    (hsource : source ∈ ps.filterMap Predicate.operand?) :
    Writes (V source) ∨ Writes (pattern source) := by
  obtain ⟨p, hp, hoperand⟩ := List.mem_filterMap.mp hsource
  exact (h.of_mem_whereClause hp).operand hoperand

theorem Writes.assigned {a : String × ValueSource} (h : Writes (assignment V a)) :
    IsName a.1 ∧ Writes (V a.2) := by
  rw [assignment, writes_mul, writes_mul] at h
  exact ⟨h.1.isName, h.2.2⟩

theorem Writes.sources {s : Statement} (h : Writes (statement V s))
    (hsource : source ∈ s.sources) : Writes (V source) ∨ Writes (pattern source) := by
  cases s with
  | select s =>
    simp only [statement, select, writes_mul] at h
    exact h.2.2.2.2.1.whereOperand hsource
  | insert s =>
    simp only [statement, insert, writes_mul] at h
    exact .inl (h.2.2.2.2.1.of_parenthesized.of_mem_separated hsource)
  | update s =>
    simp only [statement, update, writes_mul] at h
    cases List.mem_append.mp hsource with
    | inl hassigned =>
      obtain ⟨a, ha, rfl⟩ := List.mem_map.mp hassigned
      have hassignment : Writes (assignment V a) := h.2.2.2.1.of_mem_separated ha
      exact .inl hassignment.assigned.2
    | inr hoperand => exact h.2.2.2.2.1.whereOperand hoperand
  | delete s =>
    simp only [statement, delete, writes_mul] at h
    exact h.2.2.1.whereOperand hsource
  | createTable | createIndex | alterTable | inert | unsupported => cases hsource

theorem Writes.predicate {p : Predicate} (h : Writes (condition V p))
    (hV : ∀ source, p.operand? = some source → Writes (V source) → source.Writable) :
    p.Writable := by
  cases p with
  | isNull field | isNotNull field => exact (writes_mul.mp h).1.isName
  | like field operand =>
    rw [condition, writes_mul, writes_mul] at h
    exact ⟨h.1.isName, h.2.2.isPattern⟩
  | compare field comparison operand =>
    rw [condition, writes_mul, writes_mul] at h
    exact ⟨h.1.isName, hV operand rfl h.2.2⟩

theorem Writes.predicates {ps : List Predicate} (h : Writes (whereClause V ps))
    (hV : ∀ source ∈ ps.filterMap Predicate.operand?, Writes (V source) → source.Writable) :
    ∀ p ∈ ps, p.Writable := by
  intro p hp
  refine (h.of_mem_whereClause hp).predicate fun source hsource => hV source ?_
  exact List.mem_filterMap.mpr ⟨p, hp, hsource⟩

/-- A statement that can be written, with values that users write, is one that users write. -/
theorem Writes.writable {s : Statement} (hs : s.actsOnDocuments = true)
    (h : Writes (statement V s))
    (hV : ∀ source ∈ s.sources, Writes (V source) → source.Writable) : s.Writable := by
  cases s with
  | select s =>
    simp only [statement, select, writes_mul] at h
    obtain ⟨-, hprojection, -, hcollection, hwhere, horder, hpage, -⟩ := h
    exact ⟨hprojection.projection, hcollection.isName, hwhere.predicates hV, horder.orderBy,
      hpage.page.1, hpage.page.2⟩
  | insert s =>
    simp only [statement, insert, writes_mul] at h
    obtain ⟨-, hcollection, hcolumns, -, hvalues, hreturning, -⟩ := h
    have hnames := hcolumns.of_parenthesized
    have hsources := hvalues.of_parenthesized
    refine ⟨hcollection.isName, fun hnil => hnames.ne_nil (by rw [hnil]; rfl), ?_,
      hreturning.returning⟩
    intro f hf
    exact ⟨(hnames.of_mem_separated (List.mem_map_of_mem hf)).isName,
      hV f.2 (List.mem_map_of_mem hf) (hsources.of_mem_separated (List.mem_map_of_mem hf))⟩
  | update s =>
    simp only [statement, update, writes_mul] at h
    obtain ⟨-, hcollection, -, hassignments, hwhere, -⟩ := h
    refine ⟨hcollection.isName, hassignments.ne_nil, ?_, hwhere.predicates fun source hsource =>
      hV source (List.mem_append_right _ hsource)⟩
    intro a ha
    obtain ⟨hname, hvalue⟩ := (hassignments.of_mem_separated ha).assigned
    exact ⟨hname, hV a.2 (List.mem_append_left _ (List.mem_map_of_mem ha)) hvalue⟩
  | delete s =>
    simp only [statement, delete, writes_mul] at h
    obtain ⟨-, hcollection, hwhere, -⟩ := h
    exact ⟨hcollection.isName, hwhere.predicates hV⟩
  | createTable | createIndex | alterTable | inert | unsupported => cases hs

end Statements

end Grammar

namespace Statement

variable {moment : Moment} {text : String} {s : Statement}

theorem writes_of_parse (h : parse moment text = .ok s) (hs : s.actsOnDocuments = true) :
    Grammar.Writes (Grammar.statement (Grammar.value moment) s) := (covers_ofTrimmed h hs).writes

/-- Only statements on documents have values. -/
theorem actsOnDocuments_of_mem_sources {source : ValueSource} (h : source ∈ s.sources) :
    s.actsOnDocuments = true := by
  cases s with
  | select | insert | update | delete => rfl
  | createTable | createIndex | alterTable | inert | unsupported => cases h

theorem writes_source_of_parse (h : parse moment text = .ok s) {source : ValueSource}
    (hsource : source ∈ s.sources) :
    Grammar.Writes (Grammar.value moment source) ∨ Grammar.Writes (Grammar.pattern source) :=
  (writes_of_parse h (actsOnDocuments_of_mem_sources hsource)).sources hsource

theorem parameter_pos (h : parse moment text = .ok s) {n : Nat} (hn : n ∈ s.parameters) :
    0 < n := by
  obtain ⟨source, hsource, hparameter⟩ := List.mem_filterMap.mp hn
  cases source with
  | literal value => cases hparameter
  | parameter m =>
    obtain rfl := Option.some.inj hparameter
    cases writes_source_of_parse h hsource with
    | inl hvalue => exact hvalue.parameter.1
    | inr hpattern => exact hpattern.parameter.1

end Statement

end DocumentSql
