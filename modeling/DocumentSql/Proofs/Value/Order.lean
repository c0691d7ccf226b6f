import DocumentSql.Value.Basic
/- The comparison of values is the same from both sides, and so is equality in queries. -/

namespace DocumentSql

namespace Binary64

theorem compare?_swap (x y : Binary64) : y.compare? x = (x.compare? y).map Ordering.swap := by
  simp only [compare?]
  cases x.key with
  | none => cases y.key <;> rfl
  | some a =>
    cases y.key with
    | none => rfl
    | some b => exact congrArg some Std.OrientedOrd.eq_swap

end Binary64

namespace Value

/-- Only an identifier and a text compare across kinds, and both orders of them are there. -/
theorem compare?_swap (a b : Value) : b.compare? a = (a.compare? b).map Ordering.swap := by
  have swapped {α : Type} [Ord α] [Std.OrientedOrd α] (x y : α) :
      some (compare y x) = some (compare x y).swap := congrArg some Std.OrientedOrd.eq_swap
  cases a <;> cases b <;> simp only [compare?, Option.map_none, Option.map_some]
  case null.null => rfl
  case bool.bool x y => exact swapped x y
  case number.number x y => exact Binary64.compare?_swap x y
  case text.text x y => exact swapped x y
  case text.id x u => exact swapped x u.text
  case timestamp.timestamp x y => exact swapped x.nanoseconds y.nanoseconds
  case id.text u x => exact swapped u.text x
  case id.id u v => exact swapped u.bits.toNat v.bits.toNat

theorem agrees_comm (a b : Value) : a.agrees b = b.agrees a := by
  simp only [agrees, compare?_swap a b]
  cases a.compare? b with
  | none => rfl
  | some o => cases o <;> rfl

end Value

end DocumentSql
