import DocumentSql.Proofs.Store.Retention
import DocumentSql.Proofs.Value.SortOrder
/-
Running an update a second time. A value that was assigned counts as the same from then on, `nan`
aside, which differs even from itself; and `nan` in the place of `nan` is no other document. A run
never brings a document into its own conditions, so the second finds only documents that the first
one has settled.
-/

namespace DocumentSql

namespace Value

theorem ne_nan_of_unchanged {a b : Value} (h : a.unchanged b = true) : b ≠ number .nan := by
  rintro rfl
  cases a with
  | number x =>
    simp only [unchanged, Binary64.same, Binary64.compare?, Binary64.key] at h
    cases x <;> cases h
  | null | bool | text | timestamp | id => cases h

theorem unchanged_self {v : Value} (h : v ≠ number .nan) : v.unchanged v = true := by
  cases v with
  | number x =>
    obtain ⟨place, hplace⟩ := Binary64.exists_key fun hx : x = .nan => h (congrArg number hx)
    simp [unchanged, Binary64.same, Binary64.compare?, hplace]
  | null => rfl
  | bool | text | timestamp | id => exact beq_self_eq_true _

end Value

namespace Document

variable {set d : Document} {field : String} {value : Value}

theorem not_settled_nan (d : Document) (field : String) :
    d.settled field (.number .nan) = false := by
  refine Bool.eq_false_iff.mpr fun hsettled => ?_
  obtain ⟨stored, -, hunchanged⟩ := (Option.any_eq_true _ _).mp hsettled
  exact Value.ne_nan_of_unchanged hunchanged rfl

theorem get?_assignAll_nan (h : set.get? field = some (.number .nan)) (d : Document) :
    (assignAll set d).1.get? field = some (.number .nan) := by
  rw [get?_assignAll, h]
  simp only [not_settled_nan, Bool.false_eq_true, if_false]

/-- A value other than `nan` is settled once it is assigned, even where an equal one stayed. -/
theorem settled_assignAll (h : set.get? field = some value) (hvalue : value ≠ .number .nan)
    (d : Document) : (assignAll set d).1.settled field value = true := by
  have hget := get?_assignAll set d field
  rw [h] at hget
  by_cases hsettled : d.settled field value = true
  · simp only [if_pos hsettled] at hget
    rw [settled, hget]
    exact hsettled
  · simp only [if_neg hsettled] at hget
    rw [settled, hget]
    exact Value.unchanged_self hvalue

theorem assignAll_assignAll (set d : Document) :
    (assignAll set (assignAll set d).1).1 = (assignAll set d).1 := by
  ext1 name
  rw [get?_assignAll set (assignAll set d).1]
  cases hget : set.get? name with
  | none => rfl
  | some value =>
    by_cases hvalue : value = .number .nan
    · subst hvalue
      simp only [not_settled_nan, get?_assignAll_nan hget, Bool.false_eq_true, if_false]
    · simp only [settled_assignAll hget hvalue, if_true]

theorem assignAll_again_changes :
    (assignAll set (assignAll set d).1).2 = true ↔ ∃ name, set.get? name = some (.number .nan) := by
  rw [assignAll_snd]
  constructor
  · rintro ⟨name, value, hget, hsettled⟩
    by_cases hvalue : value = .number .nan
    · exact ⟨name, hvalue ▸ hget⟩
    · rw [settled_assignAll hget hvalue] at hsettled
      cases hsettled
  · rintro ⟨name, hget⟩
    exact ⟨name, _, hget, not_settled_nan _ name⟩

end Document

namespace Store

variable {selects : Document → Bool} {set : Document}

/-- A document that is selected after a run was selected before it, and has been assigned to. -/
theorem updated_of_selected {d : Document} (h : selects (updated selects set d).1 = true) :
    (updated selects set d).1 = (Document.assignAll set d).1 := by
  by_cases hselects : selects d = true
  · rw [updated, if_pos hselects]
  · rw [updated, if_neg hselects] at h
    exact absurd h hselects

theorem updated_updated (selects : Document → Bool) (set d : Document) :
    (updated selects set (updated selects set d).1).1 = (updated selects set d).1 := by
  by_cases hagain : selects (updated selects set d).1 = true
  · rw [updated, if_pos hagain, updated_of_selected hagain]
    exact Document.assignAll_assignAll set d
  · rw [updated, if_neg hagain]

theorem updated_again_changes {d : Document} :
    (updated selects set (updated selects set d).1).2 = true ↔
      selects (updated selects set d).1 = true ∧ ∃ name, set.get? name = some (.number .nan) := by
  by_cases hagain : selects (updated selects set d).1 = true
  · rw [updated, if_pos hagain, updated_of_selected hagain, Document.assignAll_again_changes,
      ← updated_of_selected hagain, and_iff_right hagain]
  · rw [updated, if_neg hagain]
    simp [hagain]

theorem rewritten_rewritten (selects : Document → Bool) (set : Document)
    (documents : List Document) :
    rewritten selects set (rewritten selects set documents) =
      rewritten selects set documents := by
  rw [rewritten, rewritten, List.map_map]
  exact List.map_congr_left fun d _ => updated_updated selects set d

theorem changes_rewritten_of_nan (h : ∃ name, set.get? name = some (.number .nan))
    (documents : List Document) :
    changes selects set (rewritten selects set documents) =
      (rewritten selects set documents).countP selects := by
  rw [changes, rewritten, List.countP_map, List.countP_map]
  refine List.countP_congr fun d _ => ?_
  exact updated_again_changes.trans (and_iff_left h)

theorem changes_rewritten_of_no_nan (h : ¬∃ name, set.get? name = some (.number .nan))
    (documents : List Document) :
    changes selects set (rewritten selects set documents) = 0 := by
  rw [changes, rewritten, List.countP_map, List.countP_eq_zero]
  intro d _ hchanged
  exact h (updated_again_changes.mp hchanged).2

/-- The indexes were checked against the documents of the first run, if it changed any, and the
second leaves the same documents. -/
theorem update_again {name : String} {filter : Filter} {s after : Store} {answer : Updated}
    (hfilter : Filter.compile filter = .ok selects)
    (h : update name filter set s = (.ok answer, after)) :
    ∃ answer', update name filter set after = (.ok answer', after) := by
  obtain ⟨-, hrun⟩ | ⟨c, hc, ⟨-, hrun⟩ | ⟨index, -, hrun⟩ | ⟨hsound, hrun⟩⟩ :=
    update_cases hfilter set s
  · obtain rfl : s = after := congrArg Prod.snd (hrun.symm.trans h)
    exact ⟨answer, h⟩
  · obtain rfl : s = after := congrArg Prod.snd (hrun.symm.trans h)
    exact ⟨answer, h⟩
  · cases hrun.symm.trans h
  · have hafter : NameMap.insert s name
        { c with documents := rewritten selects set c.documents } = after :=
      congrArg Prod.snd (hrun.symm.trans h)
    have hthere : after.get? name =
        some { c with documents := rewritten selects set c.documents } := by
      rw [← hafter, NameMap.get?_insert, if_pos rfl]
    obtain ⟨hnone, -⟩ | ⟨c', hc', ⟨-, hagain⟩ | ⟨index, hviolated, -⟩ | ⟨-, hagain⟩⟩ :=
      update_cases hfilter set after
    · rw [hnone] at hthere
      cases hthere
    · exact ⟨_, hagain⟩
    -- These documents have passed the check of the first run.
    · obtain rfl := Option.some.inj (hc'.symm.trans hthere)
      rw [rewritten_rewritten, hsound] at hviolated
      cases hviolated
    · obtain rfl := Option.some.inj (hc'.symm.trans hthere)
      refine ⟨_, hagain.trans (congrArg _ ?_)⟩
      ext1 other
      rw [rewritten_rewritten, NameMap.get?_insert]
      split
      · next hother => rw [hother, hthere]
      · rfl

end Store

/-- Some field is given `nan`, which no later assignment to it replaces. -/
def AssignsNan (params : List Value) (assignments : List (String × ValueSource)) : Prop :=
  ∃ field, assignedTo params assignments field = some (.number .nan)

theorem AssignsNan.exists_value {params : List Value} {assignments : List (String × ValueSource)}
    (h : AssignsNan params assignments) : ∃ a ∈ assignments, a.2.value params = .number .nan := by
  obtain ⟨field, hfield⟩ := h
  obtain ⟨a, ha, hvalue⟩ := Option.map_eq_some_iff.mp hfield
  exact ⟨a, List.mem_reverse.mp (List.mem_of_find?_eq_some ha), hvalue⟩

namespace Engine

variable {policy : Policy} {fresh : Uuid} {params : List Value} {store : Store}
  {result : QueryResult}

/-- The same request once more. -/
theorem run_update_again {name : String} {filter : Filter} {selects : Document → Bool}
    {set : Document} (hcompile : Filter.compile filter = .ok selects)
    (h : (run Store.memory fresh (.update name filter set) store).outcome = .ok result)
    (fresh' : Uuid) :
    let after := (run Store.memory fresh (.update name filter set) store).state
    let again := run Store.memory fresh' (.update name filter set) after
    again.state = after ∧ again.outcome =
      .ok (.affected .update (Store.changes selects set (after.documents name))) := by
  intro after again
  obtain ⟨answer, state, hanswer, hask⟩ := exists_of_ask h
  have hafter : after = state := congrArg Execution.state hask
  obtain ⟨answer', hagain⟩ := Store.update_again hcompile hanswer
  obtain ⟨hmodified, -⟩ := update_eq_ok hcompile (congrArg Prod.fst hagain)
  have hresult : again =
      ⟨.ok (.affected .update (answer'.modified.getD 0)), state, again.events⟩ := by
    simp only [again, hafter, run, ask, Store.memory, hagain]
  rw [hresult, hmodified, hafter]
  exact ⟨rfl, rfl⟩

/-- An update that succeeds does so again and leaves the store as it is, whether or not documents
have left its conditions. It then counts no document, unless it assigns `nan`: in that case it
counts each one that is still under its conditions. -/
theorem update_idempotent {s : Update}
    (h : (execute Store.memory policy fresh params (.update s) store).outcome = .ok result)
    (policy' : Policy) (fresh' : Uuid) :
    let after := (execute Store.memory policy fresh params (.update s) store).state
    let again := execute Store.memory policy' fresh' params (.update s) after
    let found := (after.documents s.collection).filter (selected params s.predicates)
    again.state = after ∧
    (AssignsNan params s.assignments → again.outcome = .ok (.affected .update found.length)) ∧
    (¬AssignsNan params s.assignments → again.outcome = .ok (.affected .update 0)) := by
  obtain ⟨entries, filter, hentries, hcompile, hrun⟩ := exists_update h
  have hnan : AssignsNan params s.assignments ↔
      ∃ name, (NameMap.ofList entries).get? name = some (.number .nan) :=
    exists_congr fun field => by rw [get?_ofList_entries hentries]
  rw [hrun] at h
  simp only [hrun, hnan]
  have hdocuments := documents_run_update hcompile h
  obtain ⟨hstate, houtcome⟩ := run_update_again hcompile h fresh'
  refine ⟨hstate, fun hassigned => ?_, fun hassigned => ?_⟩
  · rw [houtcome, hdocuments, Store.changes_rewritten_of_nan hassigned,
      List.countP_eq_length_filter]
  · rw [houtcome, hdocuments, Store.changes_rewritten_of_no_nan hassigned]

/-- A document that gets `nan` counts each time, and one that leaves the conditions just once. -/
theorem update_idempotent_users :
    let ann : Document := .ofList [("name", .text "Ann"), ("score", .null)]
    let store : Store := NameMap.empty.insert "users"
      { documents := [ann], indexes := [⟨"by_name", ["name"], true⟩] }
    let named : List Predicate := [.compare "name" .eq (.literal (.text "Ann"))]
    let spoil : Update := ⟨"users", [("score", .parameter 1)], named⟩
    let rename : Update := ⟨"users", [("name", .literal (.text "Eve"))], named⟩
    let run := fun s store => execute Store.memory {} ⟨0⟩ [.number .nan] (.update s) store
    ((run spoil store).outcome = .ok (.affected .update 1) ∧
      (run spoil (run spoil store).state).state = (run spoil store).state ∧
      (run spoil (run spoil store).state).outcome = .ok (.affected .update 1)) ∧
    (run rename store).outcome = .ok (.affected .update 1) ∧
      (run rename (run rename store).state).state = (run rename store).state ∧
      (run rename (run rename store).state).outcome = .ok (.affected .update 0) := by
  intro ann store named spoil rename run
  have hspoil : (run spoil store).outcome = .ok (.affected .update 1) := rfl
  have hrename : (run rename store).outcome = .ok (.affected .update 1) := rfl
  obtain ⟨hspoiled, hnan, -⟩ := update_idempotent hspoil {} ⟨0⟩
  obtain ⟨hrenamed, -, hplain⟩ := update_idempotent hrename {} ⟨0⟩
  have hfound : (((run spoil store).state.documents "users").filter
      (selected [.number .nan] named)).length = 1 := by decide +kernel
  have hassigned : AssignsNan [.number .nan] spoil.assignments := ⟨"score", by decide +kernel⟩
  have hunassigned : ¬AssignsNan [.number .nan] rename.assignments := by
    intro hnan
    obtain ⟨a, ha, hvalue⟩ := hnan.exists_value
    obtain rfl := List.mem_singleton.mp ha
    cases hvalue
  refine ⟨⟨hspoil, hspoiled, ?_⟩, hrename, hrenamed, hplain hunassigned⟩
  exact hfound ▸ hnan hassigned

end Engine

end DocumentSql
