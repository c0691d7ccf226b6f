import DocumentSql.Proofs.Uuid
import DocumentSql.Proofs.Value.Order
import DocumentSql.Store.Memory
/-
Values compare as a partial order, also where identifiers meet texts. An identifier compares with
everything as its text does, so in a chain of comparisons texts can stand for identifiers, and every
chain stays inside one kind.
-/

namespace DocumentSql

/-- The two steps of a chain that does not fall, taken at once. -/
theorem compare_chain {α : Type} [Ord α] [Std.TransOrd α] {x y z : α}
    (hxy : (compare x y).isLE = true) (hyz : (compare y z).isLE = true) :
    compare x z = (compare x y).then (compare y z) := by
  cases h : compare x y with
  | lt => exact Std.TransCmp.lt_of_lt_of_isLE h hyz
  | eq => exact Std.TransCmp.congr_left h
  | gt =>
    rw [h] at hxy
    cases hxy

theorem Binary64.compare?_chain {x y z : Binary64} {o p : Ordering}
    (hxy : x.compare? y = some o) (hyz : y.compare? z = some p) (ho : o.isLE = true)
    (hp : p.isLE = true) : x.compare? z = some (o.then p) := by
  unfold Binary64.compare? at hxy hyz ⊢
  cases hx : x.key <;> cases hy : y.key <;> cases hz : z.key <;>
    simp only [hx, hy, hz, reduceCtorEq, Option.some.injEq] at hxy hyz ⊢
  subst hxy hyz
  exact compare_chain ho hp

namespace Value

/-- The value with its text in place of an identifier. -/
def spelledOut : Value → Value
  | id u => text u.text
  | v => v

theorem spelledOut_ne_id (a : Value) (u : Uuid) : a.spelledOut ≠ id u := by
  cases a <;> nofun

theorem compare?_spelledOut (a b : Value) : a.spelledOut.compare? b.spelledOut = a.compare? b := by
  cases a <;> cases b <;> simp only [spelledOut, compare?]
  case id.id u v => rw [Uuid.compare_text]

theorem compare?_id (a : Value) (u : Uuid) : a.compare? (id u) = a.compare? (text u.text) := by
  cases a <;> simp only [compare?]
  case id v => rw [Uuid.compare_text]

/-- Without identifiers only values of one kind compare, so the kind in the middle settles those at
both ends. -/
theorem compare?_chain_of_ne_id {a b c : Value} {o p : Ordering} (ha : ∀ u, a ≠ id u)
    (hb : ∀ u, b ≠ id u) (hc : ∀ u, c ≠ id u) (hab : a.compare? b = some o)
    (hbc : b.compare? c = some p) (ho : o.isLE = true) (hp : p.isLE = true) :
    a.compare? c = some (o.then p) := by
  cases b with
  | id u => exact absurd rfl (hb u)
  | number y =>
    cases a <;> simp only [compare?, reduceCtorEq] at hab
    cases c <;> simp only [compare?, reduceCtorEq] at hbc
    exact Binary64.compare?_chain hab hbc ho hp
  | text y =>
    cases a <;> simp only [compare?, reduceCtorEq, Option.some.injEq] at hab
    case id u => exact absurd rfl (ha u)
    cases c <;> simp only [compare?, reduceCtorEq, Option.some.injEq] at hbc
    case id u => exact absurd rfl (hc u)
    subst hab hbc
    exact congrArg some (compare_chain ho hp)
  | null =>
    cases a <;> simp only [compare?, reduceCtorEq, Option.some.injEq] at hab
    cases c <;> simp only [compare?, reduceCtorEq, Option.some.injEq] at hbc
    subst hab hbc
    rfl
  | bool y | timestamp y =>
    cases a <;> simp only [compare?, reduceCtorEq, Option.some.injEq] at hab
    cases c <;> simp only [compare?, reduceCtorEq, Option.some.injEq] at hbc
    subst hab hbc
    exact congrArg some (compare_chain ho hp)

theorem compare?_chain {a b c : Value} {o p : Ordering} (hab : a.compare? b = some o)
    (hbc : b.compare? c = some p) (ho : o.isLE = true) (hp : p.isLE = true) :
    a.compare? c = some (o.then p) := by
  -- A chain can change between identifiers and texts at every step; spelled out it is one of texts.
  rw [← compare?_spelledOut] at hab hbc ⊢
  exact compare?_chain_of_ne_id (spelledOut_ne_id a) (spelledOut_ne_id b) (spelledOut_ne_id c)
    hab hbc ho hp

theorem agrees_iff {a b : Value} : a.agrees b = true ↔ a.compare? b = some .eq := beq_iff_eq

theorem agrees_trans {a b c : Value} (hab : a.agrees b = true) (hbc : b.agrees c = true) :
    a.agrees c = true := by
  rw [agrees_iff] at hab hbc ⊢
  exact compare?_chain hab hbc rfl rfl

end Value

/-- A bound may be written as an identifier or as its text. -/
theorem Condition.compile_id (field : String) (comparison : Comparison) (u : Uuid) :
    Condition.compile ⟨field, .ofComparison comparison, .id u⟩ =
      Condition.compile ⟨field, .ofComparison comparison, .text u.text⟩ := by
  cases comparison <;>
    simp only [Condition.compile, FilterOperator.ofComparison, Condition.test, Value.agrees,
      Value.compare?_id]

namespace Value

/-- The comparison of values is the same from both sides and carries over along chains; equality in
queries is symmetric and transitive, and identifiers mix with their texts, as values and as the
bounds of conditions. -/
theorem compare?_coherent :
    (∀ a b : Value, b.compare? a = (a.compare? b).map Ordering.swap) ∧
    (∀ (a b c : Value) (o p : Ordering), (o = .lt ∨ o = .eq) → (p = .lt ∨ p = .eq) →
      a.compare? b = some o → b.compare? c = some p →
      a.compare? c = some (if o = .lt ∨ p = .lt then .lt else .eq)) ∧
    (∀ a b : Value, a.agrees b = b.agrees a) ∧
    (∀ a b c : Value, a.agrees b = true → b.agrees c = true → a.agrees c = true) ∧
    (∀ u v : Uuid, (id u).compare? (id v) = (text u.text).compare? (text v.text)) ∧
    ∀ (field : String) (comparison : Comparison) (u : Uuid),
      Condition.compile ⟨field, .ofComparison comparison, .id u⟩ =
        Condition.compile ⟨field, .ofComparison comparison, .text u.text⟩ := by
  refine ⟨compare?_swap, ?_, agrees_comm, ?_, ?_, Condition.compile_id⟩
  · intro a b c o p ho hp hab hbc
    have hchain : a.compare? c = some (o.then p) := by
      apply compare?_chain hab hbc
      · rcases ho with rfl | rfl <;> rfl
      · rcases hp with rfl | rfl <;> rfl
    rw [hchain]
    rcases ho with rfl | rfl <;> rcases hp with rfl | rfl <;> rfl
  · intro a b c hab hbc
    exact agrees_trans hab hbc
  · intro u v
    exact (compare?_spelledOut (id u) (id v)).symm

/-- From an identifier over its text to another one, where a digit is followed by a letter. -/
theorem compare?_coherent_across :
    let nine : Value := id ⟨9⟩
    let written : Value := text "00000000-0000-0000-0000-000000000009"
    let ten : Value := id ⟨10⟩
    nine.compare? written = some .eq ∧ written.compare? ten = some .lt ∧
    nine.compare? ten = some .lt ∧ written.agrees written = true := by
  intro nine written ten
  have hfirst : nine.compare? written = some .eq := by decide +kernel
  have hsecond : written.compare? ten = some .lt := by decide +kernel
  obtain ⟨_, hchain, hsymm, htrans, _⟩ := compare?_coherent
  have hagrees : nine.agrees written = true := agrees_iff.mpr hfirst
  refine ⟨hfirst, hsecond, ?_, htrans _ nine _ ?_ hagrees⟩
  · exact hchain nine written ten .eq .lt (.inr rfl) (.inl rfl) hfirst hsecond
  · rw [hsymm]
    exact hagrees

end Value

end DocumentSql
