import DocumentSql.Proofs.Engine.Plan
import DocumentSql.Proofs.Store.Condition
import DocumentSql.Proofs.Store.Operation
import DocumentSql.Proofs.Store.Sorting
/-
Reading in order and in pages. One arrangement of the matching documents is behind every reading
with the same filter and order: a reading gives the part of it that its offset and its limit cut
out, and only then leaves fields away. So pages that follow each other give all of it.
-/

namespace DocumentSql

/-- What is left behind an offset, up to a limit. -/
def slice {α : Type} (offset limit : Option Nat) (xs : List α) : List α :=
  match limit with
  | some n => (xs.drop (offset.getD 0)).take n
  | none => xs.drop (offset.getD 0)

/-- The offsets of pages of `k`, as far as 32 bits hold them: `0`, `k`, `2 * k` and so on. -/
def pageOffsets (k : Nat) : List Nat := (List.range ((2 ^ 32 - 1) / k + 1)).map (k * ·)

/-- Reading one page after the other succeeds, and together the pages are the whole. -/
def PagesTo {ε α : Type} (k : Nat) (page : Nat → Except ε (List α)) (whole : List α) : Prop :=
  ∃ pages, (pageOffsets k).mapM page = .ok pages ∧ pages.flatten = whole

section Pages

variable {α β ε : Type}

theorem map_slice (f : α → β) (offset limit : Option Nat) (xs : List α) :
    (slice offset limit xs).map f = slice offset limit (xs.map f) := by
  cases limit with
  | none => exact List.map_drop
  | some n => rw [slice, slice, List.map_take, List.map_drop]

theorem mem_pageOffsets {k m : Nat} (hk : 0 < k) : m ∈ pageOffsets k ↔ k ∣ m ∧ m < 2 ^ 32 := by
  simp only [pageOffsets, List.mem_map, List.mem_range]
  constructor
  · rintro ⟨i, hi, rfl⟩
    have hle : i * k ≤ 2 ^ 32 - 1 := (Nat.le_div_iff_mul_le hk).mp (by omega)
    exact ⟨Nat.dvd_mul_right k i, by rw [Nat.mul_comm]; omega⟩
  · rintro ⟨⟨i, rfl⟩, hlt⟩
    refine ⟨i, ?_, rfl⟩
    have hle : i ≤ (2 ^ 32 - 1) / k :=
      (Nat.le_div_iff_mul_le hk).mpr (by rw [Nat.mul_comm]; omega)
    omega

theorem flatten_slices (k n : Nat) (xs : List α) :
    ((List.range n).map fun i => (xs.drop (k * i)).take k).flatten = xs.take (k * n) := by
  induction n with
  | zero => simp
  | succ n ih =>
    rw [List.range_succ, List.map_append, List.flatten_append, ih, Nat.mul_succ, List.take_add]
    simp

/-- Below `2 ^ 32` entries every entry is on one of the pages. -/
theorem flatten_pages {k : Nat} (hk : 0 < k) {xs : List α} (hxs : xs.length < 2 ^ 32) :
    ((pageOffsets k).map fun m => slice (some m) (some k) xs).flatten = xs := by
  have hcovers : xs.length ≤ k * ((2 ^ 32 - 1) / k + 1) := by
    have hlt : 2 ^ 32 - 1 < k * ((2 ^ 32 - 1) / k + 1) := Nat.lt_mul_div_succ _ hk
    omega
  rw [pageOffsets, List.map_map]
  exact (flatten_slices k _ xs).trans (List.take_of_length_le hcovers)

theorem pagesTo_of_slices {k : Nat} (hk : 0 < k) {page : Nat → Except ε (List α)}
    {whole : List α} (hlength : whole.length < 2 ^ 32)
    (hpage : ∀ m, page m = .ok (slice (some m) (some k) whole)) : PagesTo k page whole := by
  refine ⟨_, mapM_eq_ok_iff.mpr ?_, flatten_pages hk hlength⟩
  rw [List.forall₂_map_right_iff, List.forall₂_same]
  exact fun m _ => hpage m

end Pages

/-- Fields are left away after the cut, and the cut is made after sorting. -/
theorem Store.find_sorted {filter : Filter} {selects : Document → Bool}
    (h : Filter.compile filter = .ok selects) (name : String) (projection : List String)
    (sort : OrderBy) (skip limit : Option Nat) (s : Store) :
    find name ⟨filter, projection, some sort, skip, limit⟩ s =
      (.ok ((slice skip limit (Document.sortBy sort ((s.documents name).filter selects))).map
        (Document.project projection)), s) := by
  simp only [find, h]
  cases limit <;> rfl

namespace Engine

/-- The row for a document that was found, under the columns of the statement. -/
def selectedRow (columns : List String) (d : Document) : Row :=
  let projection := columns.map NameCase.storeName
  Row.ofDocument (fillMissing projection (Document.project projection d))

/-- The rows that a reading of a collection answers with. -/
def rowsOf (params : List Value) (select : Select) (policy : Policy) (fresh : Uuid) (s : Store) :
    Except QueryError (List Row) :=
  (execute Store.memory policy fresh params (.select select) s).outcome.map QueryResult.rows

theorem rowsOf_sorted {params : List Value} {select : Select} {filter : Filter}
    {selects : Document → Bool} {sort : OrderBy}
    (hfilter : Filter.ofPredicates params select.predicates = .ok filter)
    (hcompile : Filter.compile filter = .ok selects)
    (hsort : (select.orderBy.map fun o => { o with field := NameCase.storeName o.field }) =
      some sort)
    (policy : Policy) (fresh : Uuid) (s : Store) :
    rowsOf params select policy fresh s = .ok (slice select.offset select.limit
      ((Document.sortBy sort ((s.documents select.collection).filter selects)).map
        (selectedRow select.projection))) := by
  have hplan : Plan.ofStatement policy params (.select select) =
      .ok (.find select.collection (select.options filter)) := Plan.ofStatement_select hfilter
  have hoptions : select.options filter = ⟨filter, select.projection.map NameCase.storeName,
      some sort, select.offset, select.limit⟩ := by
    rw [Select.options, hsort]
  have hfind := Store.find_sorted hcompile select.collection
    (select.projection.map NameCase.storeName) sort select.offset select.limit s
  rw [← map_slice]
  simp only [rowsOf, execute, hplan, run, ask, Store.memory, hoptions, hfind, Except.map,
    QueryResult.ofRows, List.map_map]
  rfl

/-- As long as no matching document has `nan` under the field, every answer is cut from the one
stable arrangement of them, whatever is left away afterwards; pages from `0` on give all of it. The
same holds of the rows of a statement with these conditions, sorted by any column, selected or
not. -/
theorem sorted_pages {filter : Filter} {selects : Document → Bool} {name : String} {s : Store}
    (sort : OrderBy) (hcompile : Filter.compile filter = .ok selects)
    (hnan : ∀ d ∈ s.documents name, selects d = true → d.read sort.field ≠ .number .nan) :
    ∃ sorted, Document.SortedFrom sort ((s.documents name).filter selects) sorted ∧
      (∀ other, Document.SortedFrom sort ((s.documents name).filter selects) other →
        other = sorted) ∧
      (∀ projection skip limit,
        Store.find name ⟨filter, projection, some sort, skip, limit⟩ s =
          (.ok ((slice skip limit sorted).map (Document.project projection)), s)) ∧
      (∀ projection k, 0 < k → sorted.length < 2 ^ 32 →
        PagesTo k
          (fun m => (Store.find name ⟨filter, projection, some sort, some m, some k⟩ s).1)
          (sorted.map (Document.project projection))) ∧
      ∀ params predicates, Filter.ofPredicates params predicates = .ok filter →
      ∀ columns column, NameCase.storeName column = sort.field → ∀ policy fresh,
        let rows := fun offset limit =>
          rowsOf params ⟨name, columns, predicates, some ⟨column, sort.order⟩, limit, offset⟩
            policy fresh s
        (∀ offset limit,
          rows offset limit = .ok (slice offset limit (sorted.map (selectedRow columns)))) ∧
        ∀ k, 0 < k → sorted.length < 2 ^ 32 →
          PagesTo k (fun m => rows (some m) (some k)) (sorted.map (selectedRow columns)) := by
  have hsortable : ∀ d ∈ (s.documents name).filter selects, (d.read sort.field).Sortable := by
    intro d hd
    obtain ⟨hmem, hselects⟩ := List.mem_filter.mp hd
    exact hnan d hmem hselects
  have hfind := fun projection => Store.find_sorted hcompile name projection sort (s := s)
  have hsorted := Document.sortedFrom_sortBy hsortable
  refine ⟨_, hsorted, fun _ => hsorted.unique, hfind, ?_, ?_⟩
  · intro projection k hk hlength
    apply pagesTo_of_slices hk
    · rwa [List.length_map]
    · intro m
      rw [hfind, map_slice]
  · intro params predicates hfilter columns column hcolumn policy fresh rows
    have hrows : ∀ offset limit, rows offset limit = .ok (slice offset limit
        ((Document.sortBy sort ((s.documents name).filter selects)).map
          (selectedRow columns))) := by
      intro offset limit
      apply rowsOf_sorted hfilter hcompile
      exact congrArg (fun field => some (OrderBy.mk field sort.order)) hcolumn
    refine ⟨hrows, ?_⟩
    intro k hk hlength
    apply pagesTo_of_slices hk
    · rwa [List.length_map]
    · exact fun m => hrows (some m) (some k)

/-- Downwards by a column that is not selected, where one document lacks the field and a hidden one
has `nan` there. -/
theorem sorted_pages_users :
    let ann : Document := .ofList [("name", .text "Ann"), ("age", .number (.ofInt 2))]
    let bob : Document := .ofList [("name", .text "Bob")]
    let cid : Document := .ofList [("name", .text "Cid"), ("age", .number (.ofInt 2))]
    let dan : Document := .ofList [("hidden", .bool true), ("age", .number .nan)]
    let s : Store := NameMap.empty.insert "users" { documents := [bob, ann, dan, cid] }
    let visible : List Predicate := [.isNull "hidden"]
    (∀ d ∈ s.documents "users", selected [] visible d = true → d.read "age" ≠ .number .nan) ∧
    ∃ sorted, Document.SortedFrom ⟨"age", .desc⟩ [bob, ann, cid] sorted ∧
      (∀ offset limit, rowsOf [] ⟨"users", ["name"], visible, some ⟨"age", .desc⟩, limit, offset⟩
        {} ⟨0⟩ s = .ok (slice offset limit (sorted.map (selectedRow ["name"])))) ∧
      PagesTo 2 (fun m =>
        rowsOf [] ⟨"users", ["name"], visible, some ⟨"age", .desc⟩, some 2, some m⟩ {} ⟨0⟩ s)
        (sorted.map (selectedRow ["name"])) := by
  intro ann bob cid dan s visible
  have hcovered : ∀ p ∈ visible, p.Covered [] := by
    intro p hp source hsource
    obtain rfl := List.mem_singleton.mp hp
    cases hsource
  obtain ⟨filter, hfilter, hcompile⟩ := Filter.compile_ofPredicates hcovered
  have hnan : ∀ d ∈ s.documents "users",
      selected [] visible d = true → d.read "age" ≠ .number .nan := by decide +kernel
  have hmatching : (s.documents "users").filter (selected [] visible) = [bob, ann, cid] := by
    decide +kernel
  obtain ⟨sorted, hsorted, -, -, -, hselect⟩ := sorted_pages ⟨"age", .desc⟩ hcompile hnan
  rw [hmatching] at hsorted
  obtain ⟨hrows, hpages⟩ := hselect [] visible hfilter ["name"] "age" (by decide) {} ⟨0⟩
  have hlength : sorted.length < 2 ^ 32 := by
    rw [hsorted.perm.length_eq]
    decide
  exact ⟨hnan, sorted, hsorted, hrows, hpages 2 Nat.two_pos hlength⟩

end Engine

end DocumentSql
