import DocumentSql.Store.Memory
/-
What each operation of the store in memory can do, said once: the answer and the state after it. An
operation that fails leaves the state as it was, and one that succeeds touches one collection.
-/

namespace DocumentSql.Store

/-- A collection that is not there is one that holds nothing, so making it changes no contents. -/
theorem collection_ensure (s : Store) (name other : String) :
    (ensure s name).collection other = s.collection other := by
  simp only [collection, ensure, NameMap.get?_insertIfNew]
  by_cases h : other = name
  · subst h
    cases s.get? other <;> simp
  · simp [h]

theorem insert_ensure (s : Store) (name : String) (c : Collection) :
    NameMap.insert (ensure s name) name c = NameMap.insert s name c := by
  ext1 other
  by_cases h : other = name <;> simp [ensure, NameMap.get?_insertIfNew, h]

theorem get?_eq_some_collection {s : Store} {name : String} (h : s.collection name ≠ {}) :
    s.get? name = some (s.collection name) := by
  unfold collection at h ⊢
  cases hs : s.get? name with
  | none => exact absurd (by rw [hs]; rfl) h
  | some c => rfl

theorem ensure_of_get? {s : Store} {name : String} {c : Collection} (h : s.get? name = some c) :
    ensure s name = s := by
  simp [ensure, NameMap.insertIfNew, NameMap.contains, h]

theorem ensure_of_index {s : Store} {name : String} {index : Index}
    (h : index ∈ (s.collection name).indexes) : ensure s name = s := by
  refine ensure_of_get? (get?_eq_some_collection fun hempty => ?_)
  rw [hempty] at h
  cases h

theorem collection_of_get? {s : Store} {name : String} {c : Collection} (h : s.get? name = some c) :
    s.collection name = c := by
  simp only [collection, h, Option.getD_some]

theorem find_state (name : String) (options : FindOptions) (s : Store) :
    (find name options s).2 = s := by
  unfold find
  split <;> rfl

/-- Unsorted and uncut, a search returns its part of each document that the filter selects. -/
theorem find_projected {filter : Filter} {selects : Document → Bool}
    (h : Filter.compile filter = .ok selects) (name : String) (projection : List String)
    (s : Store) :
    find name { filter := filter, projection := projection } s =
      (.ok (((s.documents name).filter selects).map (Document.project projection)), s) := by
  simp only [find, h, Option.getD_none, List.drop_zero]
  rfl

/-- A search without further options returns the whole documents that the filter selects. -/
theorem find_of_compile {filter : Filter} {selects : Document → Bool}
    (h : Filter.compile filter = .ok selects) (name : String) (s : Store) :
    find name { filter := filter } s = (.ok ((s.documents name).filter selects), s) :=
  (find_projected h name [] s).trans
    (congrArg (fun found => (Except.ok found, s)) (List.map_id _))

def appended (s : Store) (name : String) (d : Document) : Store :=
  NameMap.insert s name
    { s.collection name with documents := (s.collection name).documents ++ [d] }

/-- The first unique index under which a document has the key of one that is there. -/
def firstRefusing (c : Collection) (d : Document) : Option Index :=
  (c.indexes.filter (·.unique)).find? fun index => c.documents.any (index.sameKey · d)

theorem firstRefusing_eq_some {c : Collection} {d : Document} {index : Index}
    (h : firstRefusing c d = some index) : index ∈ c.indexes ∧ index.unique = true ∧
      ∃ other ∈ c.documents, index.sameKey other d = true := by
  unfold firstRefusing at h
  obtain ⟨hindex, hunique⟩ := List.mem_filter.1 (List.mem_of_find?_eq_some h)
  have hany : c.documents.any (index.sameKey · d) := by simpa using List.find?_some h
  exact ⟨hindex, hunique, List.any_eq_true.1 hany⟩

theorem firstRefusing_eq_none {c : Collection} {d : Document} (h : firstRefusing c d = none)
    {index : Index} (hindex : index ∈ c.indexes) (hunique : index.unique = true)
    {other : Document} (hother : other ∈ c.documents) : index.sameKey other d = false := by
  have hfree := List.find?_eq_none.1 h index (List.mem_filter.2 ⟨hindex, hunique⟩)
  simp only [List.any_eq_true, not_exists, not_and, Bool.not_eq_true] at hfree
  exact hfree other hother

/-- An insertion is refused by the first index that it cannot pass, and else the document comes
last. -/
theorem insert_eq (fresh : Uuid) (name : String) (d : Document) (s : Store) :
    insert fresh name d s =
      match firstRefusing (s.collection name) (identified fresh d).1 with
      | some index => (.error (.duplicateKey name index.name), s)
      | none => (.ok ⟨(identified fresh d).2, (identified fresh d).1⟩,
          appended s name (identified fresh d).1) := by
  simp only [insert, collection_ensure]
  cases hfound : firstRefusing (s.collection name) (identified fresh d).1 with
  | some index =>
    obtain ⟨hindex, -⟩ := firstRefusing_eq_some hfound
    rw [firstRefusing] at hfound
    simp only [hfound, ensure_of_index hindex]
  | none =>
    rw [firstRefusing] at hfound
    simp only [hfound, setDocuments, collection_ensure, insert_ensure, appended]

/-- An insertion is refused by a unique index of the collection, and then nothing changes; else the
document comes last. -/
theorem insert_cases (fresh : Uuid) (name : String) (d : Document) (s : Store) :
    (∃ index ∈ (s.collection name).indexes, index.unique = true ∧
      (∃ other ∈ (s.collection name).documents, index.sameKey other (identified fresh d).1 = true) ∧
      insert fresh name d s = (.error (.duplicateKey name index.name), s)) ∨
    ((∀ index ∈ (s.collection name).indexes, index.unique = true →
      ∀ other ∈ (s.collection name).documents,
        index.sameKey other (identified fresh d).1 = false) ∧
      insert fresh name d s = (.ok ⟨(identified fresh d).2, (identified fresh d).1⟩,
        appended s name (identified fresh d).1)) := by
  rw [insert_eq]
  cases hfound : firstRefusing (s.collection name) (identified fresh d).1 with
  | some index =>
    obtain ⟨hindex, hunique, htaken⟩ := firstRefusing_eq_some hfound
    exact .inl ⟨index, hindex, hunique, htaken, rfl⟩
  | none =>
    exact .inr ⟨fun _ hindex hunique _ => firstRefusing_eq_none hfound hindex hunique, rfl⟩

/-- What an update makes of one document, and whether that changes it. -/
def updated (selects : Document → Bool) (set d : Document) : Document × Bool :=
  if selects d then Document.assignAll set d else (d, false)

def changes (selects : Document → Bool) (set : Document) (documents : List Document) : Nat :=
  documents.countP fun d => (updated selects set d).2

def rewritten (selects : Document → Bool) (set : Document) (documents : List Document) :
    List Document :=
  documents.map fun d => (updated selects set d).1

/-- An update whose filter is sound fails only because of a unique index, with no change at all. -/
theorem update_cases {name : String} {filter : Filter} {selects : Document → Bool}
    (hfilter : Filter.compile filter = .ok selects) (set : Document) (s : Store) :
    (s.get? name = none ∧ update name filter set s = (.ok ⟨some 0, some 0⟩, s)) ∨
    ∃ c, s.get? name = some c ∧
      ((changes selects set c.documents = 0 ∧
        update name filter set s = (.ok ⟨some (c.documents.countP selects), some 0⟩, s)) ∨
      (∃ index, Index.firstViolated c.indexes (rewritten selects set c.documents) = some index ∧
        update name filter set s = (.error (.duplicateKey name index.name), s)) ∨
      (Index.firstViolated c.indexes (rewritten selects set c.documents) = none ∧
        update name filter set s =
          (.ok ⟨some (c.documents.countP selects), some (changes selects set c.documents)⟩,
            NameMap.insert s name
              { c with documents := rewritten selects set c.documents }))) := by
  cases hs : s.get? name with
  | none => exact .inl ⟨rfl, by simp only [update, hfilter, hs]⟩
  | some c =>
    have hcount : (c.documents.map (updated selects set)).countP (·.2) =
        changes selects set c.documents := List.countP_map
    have hdocuments : (c.documents.map (updated selects set)).map (·.1) =
        rewritten selects set c.documents := List.map_map
    have hrun : update name filter set s =
        if changes selects set c.documents = 0 then
          (.ok ⟨some (c.documents.countP selects), some 0⟩, s)
        else
          (Index.firstViolated c.indexes (rewritten selects set c.documents)).elim
            (.ok ⟨some (c.documents.countP selects), some (changes selects set c.documents)⟩,
              setDocuments s name (rewritten selects set c.documents))
            fun index => (.error (.duplicateKey name index.name), s) := by
      have hpass : (fun d => if selects d then set.assignAll d else (d, false)) =
          updated selects set := rfl
      simp only [update, hfilter, hs, hpass, hcount, hdocuments]
      cases Index.firstViolated c.indexes (rewritten selects set c.documents) <;> rfl
    refine .inr ⟨c, rfl, ?_⟩
    by_cases hchanges : changes selects set c.documents = 0
    · exact .inl ⟨hchanges, by rw [hrun, if_pos hchanges]⟩
    · rw [if_neg hchanges] at hrun
      cases hviolated : Index.firstViolated c.indexes (rewritten selects set c.documents) with
      | some index => exact .inr (.inl ⟨index, rfl, by rw [hrun, hviolated, Option.elim_some]⟩)
      | none =>
        refine .inr (.inr ⟨rfl, ?_⟩)
        simp only [hrun, hviolated, Option.elim_none, setDocuments, collection_of_get? hs]

theorem delete_cases {name : String} {filter : Filter} {selects : Document → Bool}
    (hfilter : Filter.compile filter = .ok selects) (s : Store) :
    (s.get? name = none ∧ delete name filter s = (.ok ⟨some 0⟩, s)) ∨
    ∃ c, s.get? name = some c ∧
      delete name filter s = (.ok ⟨some (c.documents.countP selects)⟩,
        NameMap.insert s name { c with documents := c.documents.filter fun d => !selects d }) := by
  simp only [delete, hfilter]
  cases hs : s.get? name with
  | none => exact .inl ⟨rfl, rfl⟩
  | some c =>
    refine .inr ⟨c, rfl, ?_⟩
    have hsplit : c.documents.length =
        c.documents.countP selects + c.documents.countP fun d => !selects d := by
      simpa using List.length_eq_countP_add_countP selects (l := c.documents)
    have hcount : c.documents.length - (c.documents.filter fun d => !selects d).length =
        c.documents.countP selects := by
      rw [← List.countP_eq_length_filter]
      omega
    simp only [hcount, setDocuments, collection_of_get? hs]

/-- An index is refused if its name is taken or the documents violate it; nothing changes then. -/
theorem createIndex_cases (name : String) (index : Index) (s : Store) :
    ((∃ present ∈ (s.collection name).indexes, present.name = index.name) ∧
      createIndex name index s = (.error (.indexExists index.name), s)) ∨
    ((∀ present ∈ (s.collection name).indexes, present.name ≠ index.name) ∧
      index.unique = true ∧ index.duplicated (s.collection name).documents = true ∧
      createIndex name index s = (.error (.duplicateKey name index.name), s)) ∨
    ((∀ present ∈ (s.collection name).indexes, present.name ≠ index.name) ∧
      (index.unique = true → index.duplicated (s.collection name).documents = false) ∧
      createIndex name index s = (.ok (), NameMap.insert s name
        { s.collection name with indexes := (s.collection name).indexes ++ [index] })) := by
  simp only [createIndex, collection_ensure, insert_ensure]
  by_cases htaken : ∃ present ∈ (s.collection name).indexes, present.name = index.name
  · obtain ⟨present, hpresent, hname⟩ := htaken
    have hany : (s.collection name).indexes.any (·.name == index.name) = true :=
      List.any_eq_true.2 ⟨present, hpresent, beq_iff_eq.2 hname⟩
    exact .inl ⟨⟨present, hpresent, hname⟩, by rw [if_pos hany, ensure_of_index hpresent]⟩
  · have hfree : ∀ present ∈ (s.collection name).indexes, present.name ≠ index.name :=
      fun present hpresent hname => htaken ⟨present, hpresent, hname⟩
    have hany : ¬(s.collection name).indexes.any (·.name == index.name) = true := by
      simpa using hfree
    rw [if_neg hany]
    by_cases hviolated : (index.unique && index.duplicated (s.collection name).documents) = true
    · obtain ⟨hunique, hduplicated⟩ := Bool.and_eq_true_iff.1 hviolated
      refine .inr (.inl ⟨hfree, hunique, hduplicated, ?_⟩)
      have hthere : s.get? name = some (s.collection name) :=
        get?_eq_some_collection fun hempty => by simp [hempty, Index.duplicated] at hduplicated
      rw [if_pos hviolated, ensure_of_get? hthere]
    · refine .inr (.inr ⟨hfree, fun hunique => ?_, by rw [if_neg hviolated]⟩)
      simpa [hunique] using hviolated

end DocumentSql.Store
