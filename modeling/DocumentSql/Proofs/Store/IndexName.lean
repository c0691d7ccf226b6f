import DocumentSql.Proofs.Store.Clients
import Mathlib.Data.List.Nodup
/-
What a created index is. A collection knows its indexes by name, and a statement whose index name is
taken counts as done; an index that was not named has a name made of its collection and its fields,
which other fields can have as well. So the index of the name is the one that was asked for only if
the name was free.
-/

namespace DocumentSql

/-- The index does what the statement asks for, whatever its name. -/
def CreateIndex.MetBy (c : CreateIndex) (index : Index) : Prop :=
  index.keys = c.fields.map NameCase.storeName ∧ (c.unique = true → index.unique = true)

theorem CreateIndex.metBy_index (c : CreateIndex) : c.MetBy c.index := ⟨rfl, id⟩

namespace Store

def indexes (s : Store) (name : String) : List Index := (s.collection name).indexes

def HasIndex (s : Store) (name indexName : String) : Prop :=
  ∃ index ∈ s.indexes name, index.name = indexName

/-- The names of indexes differ, so a name that is there names one index. -/
theorem Sound.existsUnique_index {s : Store} (h : s.Sound) {name indexName : String}
    (hthere : s.HasIndex name indexName) :
    ∃! index, index ∈ s.indexes name ∧ index.name = indexName := by
  obtain ⟨index, hindex, hname⟩ := hthere
  refine ⟨index, ⟨hindex, hname⟩, ?_⟩
  rintro other ⟨hother, hsame⟩
  have hnames := (h.collection name).names
  exact List.inj_on_of_nodup_map hnames hother hindex (hsame.trans hname.symm)

theorem collection_put (s : Store) (name : String) (c : Collection) (other : String) :
    collection (NameMap.insert s name c) other =
      if other = name then c else s.collection other := by
  rw [collection, NameMap.get?_insert]
  split <;> rfl

/-- The store with one more index of the collection. -/
def indexed (s : Store) (name : String) (index : Index) : Store :=
  NameMap.insert s name { s.collection name with indexes := s.indexes name ++ [index] }

section Indexed

variable (s : Store) (name : String) (index : Index)

theorem collection_indexed (other : String) : (s.indexed name index).collection other =
    if other = name then { s.collection name with indexes := s.indexes name ++ [index] }
    else s.collection other :=
  collection_put s name _ other

theorem indexes_indexed : (s.indexed name index).indexes name = s.indexes name ++ [index] := by
  rw [indexes, collection_indexed, if_pos rfl]

theorem mem_indexes_indexed : index ∈ (s.indexed name index).indexes name := by
  rw [indexes_indexed]
  exact List.mem_append_right _ (List.mem_singleton.mpr rfl)

/-- An index is no document. -/
theorem documents_indexed (other : String) :
    (s.indexed name index).documents other = s.documents other := by
  rw [documents, collection_indexed]
  split
  · next hother => rw [hother, documents]
  · rfl

end Indexed

end Store

namespace Engine

variable {policy : Policy} {fresh : Uuid} {params : List Value} {c : CreateIndex} {s : Store}
  {result : QueryResult}

/-- Creating an index adds it to its collection, or finds the name taken and changes nothing. -/
theorem execute_createIndex
    (h : (execute Store.memory policy fresh params (.createIndex c) s).outcome = .ok result) :
    let state := (execute Store.memory policy fresh params (.createIndex c) s).state
    (s.HasIndex c.collection c.indexName ∧ state = s) ∨
    (¬s.HasIndex c.collection c.indexName ∧ state = s.indexed c.collection c.index) := by
  have hplan : Plan.ofStatement policy params (.createIndex c) =
      .ok (.createIndex c.collection c.index) := rfl
  simp only [execute, hplan, run, askForIndex, Store.memory] at h ⊢
  obtain ⟨htaken, hcreate⟩ | ⟨-, -, -, hcreate⟩ | ⟨hfree, -, hcreate⟩ :=
    Store.createIndex_cases c.collection c.index s
  · simp only [hcreate]
    exact .inl ⟨htaken, trivial⟩
  · simp only [hcreate] at h
    cases h
  · simp only [hcreate]
    refine .inr ⟨?_, rfl⟩
    rintro ⟨present, hpresent, hname⟩
    exact hfree present hpresent hname

end Engine

namespace Call

/-- A statement that has created its index leaves one index of its name. If the name was free, that
is the index asked for, and nothing else has changed. If it was taken, nothing has changed at all,
so an index as asked for is there only if it was there before. -/
theorem index_created_unless_name_taken (calls : List Call) {call : Call} {c : CreateIndex}
    {result : QueryResult}
    (hparse : Statement.parse call.moment call.text = .ok (.createIndex c))
    (hresult : (call.query (runAll calls Store.empty)).outcome = .ok result) :
    let before := runAll calls Store.empty
    let after := (call.query before).state
    (∃! index, index ∈ after.indexes c.collection ∧ index.name = c.indexName) ∧
    (¬before.HasIndex c.collection c.indexName →
      after.indexes c.collection = before.indexes c.collection ++ [c.index] ∧
      (∀ name, after.documents name = before.documents name) ∧
      ∀ other, other ≠ c.collection → after.collection other = before.collection other) ∧
    (before.HasIndex c.collection c.indexName → after = before) ∧
    ((∃ index ∈ after.indexes c.collection, c.MetBy index) ↔
      ¬before.HasIndex c.collection c.indexName ∨
        ∃ index ∈ before.indexes c.collection, c.MetBy index) := by
  intro before after
  have hreaches : Shared.Reaches ⟨Store.empty, [.idle]⟩ ⟨after, [.idle]⟩ :=
    (Shared.reaches_runAll calls Store.empty).trans (Shared.reaches_query call before)
  have hsound : after.Sound := hreaches.sound Store.sound_empty
  obtain ⟨houtcome, hstate⟩ := call.query_of_parse hparse before
  rw [houtcome] at hresult
  obtain ⟨htaken, hsame⟩ | ⟨hfree, hcreated⟩ := Engine.execute_createIndex hresult
  · have hafter : after = before := hstate.trans hsame
    rw [hafter] at hsound ⊢
    refine ⟨hsound.existsUnique_index htaken, fun hfree => absurd htaken hfree, fun _ => rfl, ?_⟩
    simp only [htaken, not_true_eq_false, false_or]
  · have hafter : after = before.indexed c.collection c.index := hstate.trans hcreated
    rw [hafter] at hsound ⊢
    have hmem := before.mem_indexes_indexed c.collection c.index
    refine ⟨hsound.existsUnique_index ⟨c.index, hmem, rfl⟩, fun _ => ⟨?_, ?_, ?_⟩,
      fun htaken => absurd htaken hfree, fun _ => .inl hfree,
      fun _ => ⟨c.index, hmem, c.metBy_index⟩⟩
    · exact before.indexes_indexed c.collection c.index
    · exact before.documents_indexed c.collection c.index
    · intro other hother
      rw [Store.collection_indexed, if_neg hother]

/-- In an empty store every name is free. -/
theorem index_created_unless_name_taken_free :
    let c : CreateIndex := ⟨"t_a_b_idx", "t", ["a", "b"], true, false⟩
    let call : Call := ⟨{}, .series ⟨0⟩ 0 0, "CREATE UNIQUE INDEX ON t (a, b)", []⟩
    Statement.parse call.moment call.text = .ok (.createIndex c) ∧
    (∃ result, (call.query (runAll [] Store.empty)).outcome = .ok result) ∧
    ∃ index ∈ (call.query (runAll [] Store.empty)).state.indexes "t",
      index.name = "t_a_b_idx" ∧ index.keys = ["a", "b"] ∧ index.unique = true := by
  intro c call
  have hparse : Statement.parse call.moment call.text = .ok (.createIndex c) := by decide +kernel
  obtain ⟨houtcome, -⟩ := call.query_of_parse hparse (runAll [] Store.empty)
  obtain ⟨-, hfree, -⟩ := index_created_unless_name_taken [] hparse houtcome
  have hnone : ¬(runAll [] Store.empty).HasIndex "t" "t_a_b_idx" := by
    rintro ⟨index, hindex, -⟩
    cases hindex
  obtain ⟨hindexes, -⟩ := hfree hnone
  have hmem : c.index ∈ (call.query (runAll [] Store.empty)).state.indexes c.collection := by
    rw [hindexes]
    exact List.mem_append_right _ (List.mem_singleton.mpr rfl)
  exact ⟨hparse, ⟨_, houtcome⟩, c.index, hmem, rfl, by decide +kernel, rfl⟩

/-- The field `a_b` and the fields `a` and `b` make one name, so an index on the one passes for a
unique index on the others, of which there is none. -/
theorem earlier_index_passes :
    let moment := Moment.series ⟨0⟩ 0 0
    let earlier : Call := ⟨{}, moment, "CREATE INDEX ON t (a_b)", []⟩
    let c : CreateIndex := ⟨"t_a_b_idx", "t", ["a", "b"], true, false⟩
    let call : Call := ⟨{}, moment, "CREATE UNIQUE INDEX ON t (a, b)", []⟩
    let before := runAll [earlier] Store.empty
    Statement.parse moment call.text = .ok (.createIndex c) ∧
    (∃ result, (call.query before).outcome = .ok result) ∧
    ∀ index ∈ (call.query before).state.indexes "t",
      index.keys ≠ c.fields.map NameCase.storeName := by
  intro moment earlier c call before
  have hparse : Statement.parse moment call.text = .ok (.createIndex c) := by decide +kernel
  have hanswered : fault? (call.query before).outcome = none := by decide +kernel
  refine ⟨hparse, ?_, by decide +kernel⟩
  cases houtcome : (call.query before).outcome with
  | ok result => exact ⟨result, rfl⟩
  | error e =>
    rw [houtcome] at hanswered
    cases hanswered

end Call

end DocumentSql
