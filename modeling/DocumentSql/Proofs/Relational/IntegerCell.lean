import DocumentSql.Proofs.Number.Integer
import DocumentSql.Proofs.Traversal
import DocumentSql.Relational.Wire
/-
Integers of 64 bits on their way from a cell of the server to a number, and from there to a
parameter for the server. On the way they are numbers with a significand of 53 bits: an integer that
has one is still known there, and any other is taken for a neighbour.
-/

namespace DocumentSql

open Binary64 (Exact)

/-- The integers of 64 bits. -/
def IsInt64 (i : Int) : Prop := -(twoTo 63 : Int) ≤ i ∧ i < twoTo 63

theorem IsInt64.natAbs_lt_iff {i : Int} (hi : IsInt64 i) :
    i.natAbs < twoTo 63 ↔ i ≠ -(twoTo 63 : Int) := by
  obtain ⟨hlow, hhigh⟩ := hi
  omega

theorem IsInt64.toInt?_ofInt {i : Int} (hi : IsInt64 i) (h : Exact i) :
    (Binary64.ofInt i).toInt? = some i := by
  obtain ⟨hlow, hhigh⟩ := hi
  have hle : i.natAbs ≤ twoTo 63 := by omega
  exact Binary64.toInt?_ofInt (Nat.lt_of_le_of_lt hle (by decide)) h

namespace Bound

/-- An integer is sent for a number just if the number is that integer, and not too large. -/
theorem ofNumber_eq_int8_iff {x : Binary64} {i : Int} :
    ofNumber x = int8 i ↔ x.toInt? = some i ∧ i.natAbs < twoTo 63 := by
  unfold ofNumber
  constructor
  · intro h
    split at h
    · next j hj =>
      obtain rfl := int8.inj h
      obtain ⟨hx, hj⟩ := Option.filter_eq_some_iff.mp hj
      exact ⟨hx, of_decide_eq_true hj⟩
    · cases h
  · rintro ⟨hx, hi⟩
    have hfilter : (some i).filter (fun i => decide (i.natAbs < twoTo 63)) = some i :=
      Option.filter_some_pos (decide_eq_true hi)
    rw [hx, hfilter]

/-- An integer comes back from the number made of it just if the number can hold it. The least
integer is too large for the limit there, which leaves out the sign. -/
theorem ofNumber_ofInt_iff {i : Int} (hi : IsInt64 i) :
    ofNumber (.ofInt i) = int8 i ↔ Exact i ∧ i ≠ -(twoTo 63 : Int) := by
  rw [ofNumber_eq_int8_iff, hi.natAbs_lt_iff]
  exact and_congr_left fun _ => ⟨Binary64.exact_of_toInt?, hi.toInt?_ofInt⟩

end Bound

namespace ResultSet

/-- The last column of that name has the type `INT8`, and the integer is in its cell. -/
def HasInt8 (columns : List Column) (cells : List Cell) (name : String) (i : Int) : Prop :=
  ∃ before after front back, columns = before ++ ⟨name, "INT8"⟩ :: after ∧
    cells = front ++ .integer i :: back ∧ before.length = front.length ∧
    ∀ column ∈ after, column.name ≠ name

/-- Whatever is read of their cells, columns of other names do not give the name. -/
theorem get?_eq_none_of_names {columns : List Column} {cells : List Cell} {name : String}
    {read : Column × Cell → String × Value} (hread : ∀ entry, (read entry).1 = entry.1.name)
    (h : ∀ column ∈ columns, column.name ≠ name) :
    Fields.get? ((columns.zip cells).map read).reverse name = none := by
  rw [Fields.get?_eq_none_iff, List.map_reverse, List.mem_reverse, List.map_map]
  intro hname
  obtain ⟨⟨column, cell⟩, hmem, heq⟩ := List.mem_map.mp hname
  exact h column (List.of_mem_zip hmem).1 ((hread _).symm.trans heq)

/-- The cell is read as the nearest number. -/
theorem get?_readRow {columns : List Column} {cells : List Cell} {name : String} {i : Int}
    (h : HasInt8 columns cells name i) :
    (readRow columns cells).get? name = some (.number (.ofInt i)) := by
  obtain ⟨before, after, front, back, rfl, rfl, hlength, hafter⟩ := h
  rw [readRow, NameMap.get?_ofList, List.zip_append hlength, List.map_append, List.zip_cons_cons,
    List.map_cons, List.reverse_append, List.reverse_cons, List.append_assoc, Fields.get?_append,
    get?_eq_none_of_names (fun _ => rfl) hafter, Option.none_or]
  exact if_pos rfl

/-- What an `INT8` cell is read as goes back to the server as that integer just if a number can hold
it, and it is not the least integer. Of two cells that hold different ones that a number can hold no
two are read as the same value. -/
theorem int8_cell_round_trip {columns : List Column} {cells : List Cell} {name : String} {i : Int}
    (h : HasInt8 columns cells name i) (hi : IsInt64 i) :
    ∃ value, (readRow columns cells).get? name = some value ∧
      (Bound.ofValue value = .int8 i ↔ Exact i ∧ i ≠ -(twoTo 63 : Int)) ∧
      ∀ (columns' : List Column) (cells' : List Cell) (name' : String) (j : Int),
        HasInt8 columns' cells' name' j → IsInt64 j → Exact i → Exact j →
        (readRow columns' cells').get? name' = some value → j = i := by
  refine ⟨.number (.ofInt i), get?_readRow h, Bound.ofNumber_ofInt_iff hi, ?_⟩
  intro columns' cells' name' j h' hj hexact hexact' hvalue
  have hsame : Binary64.ofInt j = Binary64.ofInt i :=
    Value.number.inj (Option.some.inj ((get?_readRow h').symm.trans hvalue))
  have hint := hj.toInt?_ofInt hexact'
  rw [hsame, hi.toInt?_ofInt hexact] at hint
  exact (Option.some.inj hint).symm

/-- The greatest integer of 64 bits that a number can hold. -/
theorem int8_cell_round_trip_large :
    let columns : List Column := [⟨"name", "TEXT"⟩, ⟨"id", "INT8"⟩]
    let i : Int := 9223372036854774784
    HasInt8 columns [.text "Ada", .integer i] "id" i ∧ IsInt64 i ∧
      ∃ value, (readRow columns [.text "Ada", .integer i]).get? "id" = some value ∧
        Bound.ofValue value = .int8 i := by
  intro columns i
  have hcell : HasInt8 columns [.text "Ada", .integer i] "id" i :=
    ⟨[⟨"name", "TEXT"⟩], [], [.text "Ada"], [], rfl, rfl, rfl, nofun⟩
  have hbound : IsInt64 i := by
    rw [IsInt64]
    decide +kernel
  have hexact : Exact i := ⟨9007199254740991, 10, by decide +kernel, by decide +kernel⟩
  obtain ⟨value, hvalue, hsent, -⟩ := int8_cell_round_trip hcell hbound
  exact ⟨hcell, hbound, value, hvalue, hsent.mpr ⟨hexact, by decide +kernel⟩⟩

/-- With 54 bits an integer is read as its neighbour is, and goes back as that one. The least
integer goes back, but not as an integer. -/
theorem int8_cells_not_returned :
    let columns : List Column := [⟨"id", "INT8"⟩]
    (∃ value, (readRow columns [.integer 9007199254740993]).get? "id" = some value ∧
      (readRow columns [.integer 9007199254740992]).get? "id" = some value ∧
      Bound.ofValue value = .int8 9007199254740992) ∧
    ∃ value, (readRow columns [.integer (-9223372036854775808)]).get? "id" = some value ∧
      Bound.ofValue value = .float8 (.ofInt (-9223372036854775808)) :=
  ⟨⟨_, rfl, by decide +kernel, by decide +kernel⟩, _, rfl, by decide +kernel⟩

end ResultSet

end DocumentSql
