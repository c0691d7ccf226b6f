import DocumentSql.Engine
import DocumentSql.Proofs.Store.Operation
import DocumentSql.Proofs.Traversal
import DocumentSql.Proofs.Value.Order
import DocumentSql.Store.Fixture
/-
Unique indexes. A store is sound if in each collection the names of the indexes differ and no unique
index has two documents with one key. Stores begin sound, and no request makes one unsound: the
check of an insertion, that of an update and that of a new index keep the same property.
-/

namespace DocumentSql

namespace Engine

variable {σ α : Type}

theorem ask_state (operation : Operation σ α) (s : σ) (result : α → QueryResult)
    (events : List Log.Event) : (ask operation s result events).state = (operation s).2 := by
  unfold ask
  split <;> simp_all

theorem askForIndex_state (operation : Operation σ Unit) (s : σ) (events : List Log.Event) :
    (askForIndex operation s events).state = (operation s).2 := by
  unfold askForIndex
  split <;> simp_all

end Engine

namespace Index

theorem sameKey_comm (index : Index) (a b : Document) : index.sameKey a b = index.sameKey b a := by
  simp only [sameKey, Value.agrees_comm]

/-- No two documents at different places agree on all keys. -/
def Separates (index : Index) (documents : List Document) : Prop :=
  ∀ (i j : Nat) (a b : Document), i ≠ j → documents[i]? = some a → documents[j]? = some b →
    index.sameKey a b = false

theorem separates_iff_pairwise (index : Index) (documents : List Document) :
    index.Separates documents ↔ documents.Pairwise fun a b => index.sameKey a b = false := by
  rw [List.pairwise_iff_getElem]
  constructor
  · intro h i j hi hj hij
    exact h i j _ _ (Nat.ne_of_lt hij) (List.getElem?_eq_getElem hi) (List.getElem?_eq_getElem hj)
  · intro h i j a b hne ha hb
    obtain ⟨hi, rfl⟩ := List.getElem?_eq_some_iff.1 ha
    obtain ⟨hj, rfl⟩ := List.getElem?_eq_some_iff.1 hb
    cases Nat.lt_or_gt_of_ne hne with
    | inl hlt => exact h i j hi hj hlt
    | inr hgt => exact sameKey_comm index _ _ ▸ h j i hj hi hgt

theorem duplicated_eq_false_iff (index : Index) (documents : List Document) :
    index.duplicated documents = false ↔ index.Separates documents := by
  rw [separates_iff_pairwise]
  induction documents with
  | nil => exact ⟨fun _ => .nil, fun _ => rfl⟩
  | cons d later ih =>
    simp only [duplicated, Bool.or_eq_false_iff, ih, List.pairwise_cons, List.any_eq_false,
      Bool.not_eq_true]

theorem firstViolated_eq_none_iff {indexes : List Index} {documents : List Document} :
    firstViolated indexes documents = none ↔
      ∀ index ∈ indexes, index.unique = true → index.Separates documents := by
  simp only [firstViolated, List.find?_eq_none, List.mem_filter, and_imp, Bool.not_eq_true,
    duplicated_eq_false_iff]

theorem Separates.filter {index : Index} {documents : List Document}
    (h : index.Separates documents) (keeps : Document → Bool) :
    index.Separates (documents.filter keeps) := by
  rw [separates_iff_pairwise] at h ⊢
  exact h.sublist List.filter_sublist

theorem Separates.append {index : Index} {documents : List Document} {d : Document}
    (h : index.Separates documents) (hd : ∀ other ∈ documents, index.sameKey other d = false) :
    index.Separates (documents ++ [d]) := by
  rw [separates_iff_pairwise] at h ⊢
  refine List.pairwise_append.2 ⟨h, List.pairwise_singleton _ _, fun a ha b hb => ?_⟩
  exact List.mem_singleton.1 hb ▸ hd a ha

end Index

/-- The names of the indexes differ, and each unique one tells all documents apart. -/
structure Collection.Sound (c : Collection) : Prop where
  names : (c.indexes.map (·.name)).Nodup
  separated : ∀ index ∈ c.indexes, index.unique = true → index.Separates c.documents

namespace Collection

theorem sound_of_no_index {c : Collection} (h : c.indexes = []) : c.Sound where
  names := by simp [h]
  separated := by simp [h]

end Collection

namespace Store

def Sound (s : Store) : Prop := ∀ name c, s.get? name = some c → c.Sound

theorem Sound.collection {s : Store} (h : Sound s) (name : String) : (s.collection name).Sound := by
  unfold Store.collection
  cases hs : s.get? name with
  | none => exact Collection.sound_of_no_index rfl
  | some c => exact h name c hs

theorem Sound.put {s : Store} (h : Sound s) {name : String} {c : Collection} (hc : c.Sound) :
    Sound (NameMap.insert s name c) := by
  intro other d hd
  rw [NameMap.get?_insert] at hd
  split at hd
  · exact Option.some.inj hd ▸ hc
  · exact h other d hd

theorem Sound.insert {s : Store} (h : Sound s) (fresh : Uuid) (name : String) (d : Document) :
    Sound (Store.insert fresh name d s).2 := by
  obtain ⟨index, -, -, -, hrun⟩ | ⟨hfree, hrun⟩ := insert_cases fresh name d s
  · rw [hrun]
    exact h
  · rw [hrun]
    refine h.put ⟨(h.collection name).names, fun index hindex hunique => ?_⟩
    exact ((h.collection name).separated index hindex hunique).append (hfree index hindex hunique)

theorem Sound.update {s : Store} (h : Sound s) (name : String) (filter : Filter) (set : Document) :
    Sound (Store.update name filter set s).2 := by
  cases hfilter : Filter.compile filter with
  | error e => simpa only [Store.update, hfilter] using h
  | ok selects =>
    obtain ⟨-, hrun⟩ | ⟨c, hc, ⟨-, hrun⟩ | ⟨_, -, hrun⟩ | ⟨hnone, hrun⟩⟩ :=
      update_cases hfilter set s
    · exact hrun ▸ h
    · exact hrun ▸ h
    · exact hrun ▸ h
    · rw [hrun]
      exact h.put ⟨(h name c hc).names, Index.firstViolated_eq_none_iff.1 hnone⟩

theorem Sound.delete {s : Store} (h : Sound s) (name : String) (filter : Filter) :
    Sound (Store.delete name filter s).2 := by
  cases hfilter : Filter.compile filter with
  | error e => simpa only [Store.delete, hfilter] using h
  | ok selects =>
    obtain ⟨-, hrun⟩ | ⟨c, hc, hrun⟩ := delete_cases hfilter s
    · exact hrun ▸ h
    · rw [hrun]
      refine h.put ⟨(h name c hc).names, fun index hindex hunique => ?_⟩
      exact ((h name c hc).separated index hindex hunique).filter _

theorem Sound.createIndex {s : Store} (h : Sound s) (name : String) (index : Index) :
    Sound (Store.createIndex name index s).2 := by
  obtain ⟨-, hrun⟩ | ⟨-, -, -, hrun⟩ | ⟨hfree, hkeys, hrun⟩ := createIndex_cases name index s
  · exact hrun ▸ h
  · exact hrun ▸ h
  · rw [hrun]
    have hc := h.collection name
    refine h.put ⟨?_, fun other hother hunique => ?_⟩
    · rw [List.map_append, List.map_singleton, List.nodup_append]
      refine ⟨hc.names, by simp, ?_⟩
      intro _ hold _ hnew
      obtain ⟨present, hpresent, rfl⟩ := List.mem_map.1 hold
      exact List.mem_singleton.1 hnew ▸ hfree present hpresent
    · cases List.mem_append.1 hother with
      | inl hold => exact hc.separated other hold hunique
      | inr hnew =>
        rw [List.mem_singleton.1 hnew] at hunique ⊢
        exact (index.duplicated_eq_false_iff _).1 (hkeys hunique)

/-- No request to the store makes it unsound, whether it is answered or refused. -/
theorem Sound.run {s : Store} (h : Sound s) (fresh : Uuid) (plan : Plan) :
    Sound (Engine.run memory fresh plan s).state := by
  cases plan with
  | acceptTable | acceptInert | ignore => exact h
  | find collection options =>
    refine (congrArg Sound ?_).mpr h
    exact (Engine.ask_state _ _ _ _).trans (find_state collection options s)
  | insert collection d returning =>
    exact (congrArg Sound (Engine.ask_state _ _ _ _)).mpr (h.insert fresh collection d)
  | update collection filter set =>
    exact (congrArg Sound (Engine.ask_state _ _ _ _)).mpr (h.update collection filter set)
  | delete collection filter =>
    exact (congrArg Sound (Engine.ask_state _ _ _ _)).mpr (h.delete collection filter)
  | probe collection => exact h
  | createIndex collection index =>
    exact (congrArg Sound (Engine.askForIndex_state _ _ _)).mpr (h.createIndex collection index)

theorem sound_empty : Sound empty := fun _ _ h => nomatch h

theorem indexes_of_fixtureCollection {name : String} {fixture : Json} {c : Collection}
    (h : fixtureCollection name fixture = .ok c) : c.indexes = [] := by
  cases fixture with
  | array items =>
    simp only [fixtureCollection, bind_eq_ok_iff, pure_eq_ok_iff] at h
    obtain ⟨documents, -, rfl⟩ := h
    rfl
  | null | bool | integer | number | text | object => cases h

theorem sound_ofFixture {fixture : Json} {s : Store} (h : ofFixture fixture = .ok s) : Sound s := by
  cases fixture with
  | object fields =>
    simp only [ofFixture, bind_eq_ok_iff, pure_eq_ok_iff] at h
    obtain ⟨entries, hentries, rfl⟩ := h
    intro name c hc
    obtain ⟨field, -, hfield⟩ := exists_of_mem_mapM hentries (NameMap.mem_of_get?_ofList hc)
    obtain ⟨documents, hdocuments, heq⟩ := bind_eq_ok_iff.1 hfield
    cases heq
    exact Collection.sound_of_no_index (indexes_of_fixtureCollection hdocuments)
  | null | bool | integer | number | text | array => cases h

end Store

end DocumentSql
