import DocumentSql.Proofs.Value.SortOrder
import Mathlib.Data.List.Sort
import Mathlib.Data.Set.List
/-
What sorting does to the documents found. The list of those sorted so far stands last one first, so
entering them one by one is an insertion sort of the reversed list, by the order "not before". If no
sort key is `nan`, the outcome is a stable arrangement in the order asked for, upwards or downwards,
and there is only one, so any other stable sort would do.
-/

namespace DocumentSql

namespace Document

/-- Neither stands before the other in a list sorted by the field, whatever the direction. -/
def tied (field : String) (a b : Document) : Bool :=
  (a.read field).sortCompare (b.read field) == .eq

/-- Nothing is lost or repeated, no document comes after one that it precedes, and those that tie
keep the places they had among each other. -/
structure SortedFrom (sort : OrderBy) (documents sorted : List Document) : Prop where
  perm : sorted.Perm documents
  ordered : sorted.Pairwise fun a b =>
    sort.order.apply ((a.read sort.field).sortCompare (b.read sort.field)) ≠ .gt
  stable : ∀ d ∈ documents,
    sorted.filter (tied sort.field d) = documents.filter (tied sort.field d)

section Order

variable {sort : OrderBy}

theorem sortCompare_swap (a b : Document) :
    sortCompare sort b a = (sortCompare sort a b).swap := by
  unfold sortCompare
  rw [Value.sortCompare_swap]
  cases sort.order <;> rfl

theorem sortCompare_ne_lt_iff {a b : Document} :
    sortCompare sort a b ≠ .lt ↔ sortCompare sort b a ≠ .gt := by
  rw [sortCompare_swap a b]
  cases sortCompare sort a b <;> simp

theorem sortCompare_trans {a b c : Document} (ha : (a.read sort.field).Sortable)
    (hb : (b.read sort.field).Sortable) (hc : (c.read sort.field).Sortable)
    (hab : sortCompare sort a b ≠ .gt) (hbc : sortCompare sort b c ≠ .gt) :
    sortCompare sort a c ≠ .gt := by
  obtain ⟨field, order⟩ := sort
  cases order with
  | asc => exact Value.sortCompare_trans ha hb hc hab hbc
  | desc =>
    -- Downwards the chain is read from its end.
    have swapped (x y : Document) :
        sortCompare ⟨field, .desc⟩ x y = (y.read field).sortCompare (x.read field) :=
      (Value.sortCompare_swap _ _).symm
    rw [swapped] at hab hbc ⊢
    exact Value.sortCompare_trans hc hb ha hbc hab

theorem sortCompare_of_tied {a b : Document} (h : tied sort.field a b = true) :
    sortCompare sort a b = .eq := by
  rw [sortCompare, beq_iff_eq.mp h]
  cases sort.order <;> rfl

theorem tied_of_sortCompare {a b : Document} (hab : sortCompare sort a b ≠ .gt)
    (hba : sortCompare sort b a ≠ .gt) : tied sort.field a b = true := by
  rw [← sortCompare_ne_lt_iff] at hba
  unfold sortCompare at hab hba
  apply beq_iff_eq.mpr
  cases h : (a.read sort.field).sortCompare (b.read sort.field) <;>
    cases horder : sort.order <;> simp_all [SortOrder.apply]

theorem tied_self (field : String) (d : Document) : tied field d d = true := by
  have hswap := Value.sortCompare_swap (d.read field) (d.read field)
  apply beq_iff_eq.mpr
  cases h : (d.read field).sortCompare (d.read field) with
  | eq => rfl
  | lt | gt =>
    rw [h] at hswap
    cases hswap

theorem tied_comm (field : String) (a b : Document) : tied field a b = tied field b a := by
  rw [tied, tied, Value.sortCompare_swap (a.read field)]
  cases (a.read field).sortCompare (b.read field) <;> rfl

/-- The first documents of both lists tie, so they are the first among those that tie with them. -/
theorem eq_of_stable {xs ys : List Document} (hperm : xs.Perm ys)
    (hxs : xs.Pairwise fun a b => sortCompare sort a b ≠ .gt)
    (hys : ys.Pairwise fun a b => sortCompare sort a b ≠ .gt)
    (hstable : ∀ d ∈ xs, xs.filter (tied sort.field d) = ys.filter (tied sort.field d)) :
    xs = ys := by
  induction xs generalizing ys with
  | nil => exact hperm.nil_eq
  | cons x xs ih =>
    cases ys with
    | nil => cases hperm.length_eq
    | cons y ys =>
      obtain ⟨hx, hxs'⟩ := List.pairwise_cons.mp hxs
      obtain ⟨hy, hys'⟩ := List.pairwise_cons.mp hys
      have htied : tied sort.field x y = true := by
        by_cases hxy : x = y
        · rw [hxy]
          exact tied_self _ _
        · have hyxs : y ∈ x :: xs := hperm.symm.subset List.mem_cons_self
          have hxys : x ∈ y :: ys := hperm.subset List.mem_cons_self
          exact tied_of_sortCompare (hx y ((List.mem_cons.mp hyxs).resolve_left (Ne.symm hxy)))
            (hy x ((List.mem_cons.mp hxys).resolve_left hxy))
      have hfirst := hstable x List.mem_cons_self
      rw [List.filter_cons_of_pos (tied_self _ x), List.filter_cons_of_pos htied] at hfirst
      obtain ⟨rfl, -⟩ := List.cons.inj hfirst
      rw [ih hperm.cons_inv hxs' hys']
      intro d hd
      have hd := hstable d (List.mem_cons_of_mem x hd)
      by_cases h : tied sort.field d x = true
      · rw [List.filter_cons_of_pos h, List.filter_cons_of_pos h] at hd
        exact (List.cons.inj hd).2
      · rwa [List.filter_cons_of_neg h, List.filter_cons_of_neg h] at hd

/-- There is at most one such arrangement, by whatever stable sort it was made. -/
theorem SortedFrom.unique {documents sorted other : List Document}
    (h : SortedFrom sort documents sorted) (hother : SortedFrom sort documents other) :
    other = sorted := by
  apply eq_of_stable (hother.perm.trans h.perm.symm) hother.ordered h.ordered
  intro d hd
  have hmem := hother.perm.subset hd
  rw [hother.stable d hmem, h.stable d hmem]

end Order

/-- The order in which the sorted list stands while documents are entered. -/
def NotBefore (sort : OrderBy) (a b : Document) : Prop := sortCompare sort a b ≠ .lt

instance (sort : OrderBy) : DecidableRel (NotBefore sort) := fun a b =>
  inferInstanceAs (Decidable (sortCompare sort a b ≠ .lt))

theorem enterSorted_eq (sort : OrderBy) (d : Document) (sorted : List Document) :
    enterSorted sort d sorted = sorted.orderedInsert (NotBefore sort) d := by
  induction sorted with
  | nil => rfl
  | cons last earlier ih =>
    by_cases h : sortCompare sort d last = .lt
    · rw [enterSorted, if_pos h, ih, List.orderedInsert_of_not_le _ _ (not_not.mpr h)]
    · rw [enterSorted, if_neg h, List.orderedInsert_cons_of_le _ _ h]

theorem sortBy_eq (sort : OrderBy) (documents : List Document) :
    sortBy sort documents = (documents.reverse.insertionSort (NotBefore sort)).reverse := by
  simp only [sortBy, enterSorted_eq, List.insertionSort, List.foldr_reverse]

section Sorted

variable {sort : OrderBy} {documents : List Document}

theorem perm_sortBy : (sortBy sort documents).Perm documents := by
  rw [sortBy_eq]
  have hsorted := List.perm_insertionSort (NotBefore sort) documents.reverse
  exact (List.reverse_perm _).trans (hsorted.trans (List.reverse_perm documents))

/-- On documents with sortable keys the order is total and transitive, so the library's lemma on
insertion sorts applies to the list as one of such documents. -/
theorem pairwise_insertionSort (h : ∀ d ∈ documents, (d.read sort.field).Sortable) :
    (documents.insertionSort (NotBefore sort)).Pairwise (NotBefore sort) := by
  let Keyed := { d : Document // (d.read sort.field).Sortable }
  let R : Keyed → Keyed → Prop := fun a b => NotBefore sort a.1 b.1
  have total : Std.Total R := ⟨fun a b => by
    by_cases hlt : sortCompare sort a.1 b.1 = .lt
    · refine .inr (sortCompare_ne_lt_iff.mpr ?_)
      rw [hlt]
      nofun
    · exact .inl hlt⟩
  have trans : IsTrans Keyed R := ⟨fun a b c hab hbc =>
    sortCompare_ne_lt_iff.mpr (sortCompare_trans c.2 b.2 a.2 (sortCompare_ne_lt_iff.mp hbc)
      (sortCompare_ne_lt_iff.mp hab))⟩
  lift documents to List Keyed using h
  rw [← List.map_insertionSort R (NotBefore sort) Subtype.val documents fun _ _ _ _ => Iff.rfl,
    List.pairwise_map]
  exact List.pairwise_insertionSort R documents

theorem ordered_sortBy (h : ∀ d ∈ documents, (d.read sort.field).Sortable) :
    (sortBy sort documents).Pairwise fun a b => sortCompare sort a b ≠ .gt := by
  rw [sortBy_eq, List.pairwise_reverse]
  have hreverse : ∀ d ∈ documents.reverse, (d.read sort.field).Sortable :=
    fun d hd => h d (List.mem_reverse.mp hd)
  exact (pairwise_insertionSort hreverse).imp sortCompare_ne_lt_iff.mp

/-- Documents that tie with one tie with each other, so they are already in order. -/
theorem pairwise_filter_tied (h : ∀ d ∈ documents, (d.read sort.field).Sortable) {d : Document}
    (hd : (d.read sort.field).Sortable) :
    (documents.filter (tied sort.field d)).Pairwise (NotBefore sort) := by
  refine List.pairwise_of_forall_mem_list fun a ha b hb => ?_
  obtain ⟨ha, hda⟩ := List.mem_filter.mp ha
  obtain ⟨hb, hdb⟩ := List.mem_filter.mp hb
  apply sortCompare_ne_lt_iff.mpr
  apply sortCompare_trans (h b hb) hd (h a ha)
  · rw [tied_comm] at hdb
    rw [sortCompare_of_tied hdb]
    nofun
  · rw [sortCompare_of_tied hda]
    nofun

theorem stable_sortBy (h : ∀ d ∈ documents, (d.read sort.field).Sortable) {d : Document}
    (hd : (d.read sort.field).Sortable) :
    (sortBy sort documents).filter (tied sort.field d) =
      documents.filter (tied sort.field d) := by
  have hreverse : ∀ d ∈ documents.reverse, (d.read sort.field).Sortable :=
    fun d hd => h d (List.mem_reverse.mp hd)
  have hsub : (documents.reverse.filter (tied sort.field d)).Sublist
      ((documents.reverse.insertionSort (NotBefore sort)).filter (tied sort.field d)) := by
    have hkept := List.sublist_insertionSort (pairwise_filter_tied hreverse hd)
      List.filter_sublist
    simpa only [List.filter_filter, Bool.and_self] using hkept.filter (tied sort.field d)
  have hlength := ((List.perm_insertionSort (NotBefore sort) documents.reverse).filter
    (tied sort.field d)).length_eq
  rw [sortBy_eq, List.filter_reverse, ← hsub.eq_of_length hlength.symm, List.filter_reverse,
    List.reverse_reverse]

theorem sortedFrom_sortBy (h : ∀ d ∈ documents, (d.read sort.field).Sortable) :
    SortedFrom sort documents (sortBy sort documents) where
  perm := perm_sortBy
  ordered := ordered_sortBy h
  stable d hd := stable_sortBy h (h d hd)

/- A `nan` ties with both of its neighbours, and two stays in front of one. -/
example :
    let keyed := fun n : Binary64 => NameMap.ofList [("n", Value.number n)]
    let documents : List Document := [keyed (.ofInt 2), keyed .nan, keyed (.ofInt 1)]
    sortBy ⟨"n", .asc⟩ documents = documents := by
  decide +kernel

end Sorted

end Document

end DocumentSql
