import DocumentSql.Proofs.Traversal
import DocumentSql.Store.Memory
/-
What it is to assign fields to a document. Each assigned field holds its value afterwards, up to the
equality that counts as no change, and all others stay; a document is changed if some field
differed.
-/

namespace DocumentSql.Document

/-- The field already holds a value that counts as the same. -/
def settled (d : Document) (field : String) (value : Value) : Bool :=
  (d.get? field).any (·.unchanged value)

theorem get?_assign (d : Document) (changed : Bool) (name field : String) (value : Value) :
    (assign (d, changed) (name, value)).1.get? field =
      if field = name ∧ d.settled name value = false then some value else d.get? field := by
  unfold assign
  by_cases h : d.settled name value = true
  · have hassign : (d.get? name).any (·.unchanged value) = true := h
    simp [hassign, h]
  · have hassign : ¬(d.get? name).any (·.unchanged value) = true := h
    rw [if_neg hassign, NameMap.get?_insert]
    simp only [Bool.not_eq_true] at h
    simp [h]

theorem assign_snd (d : Document) (changed : Bool) (name : String) (value : Value) :
    (assign (d, changed) (name, value)).2 = (changed || !d.settled name value) := by
  unfold assign settled
  split <;> simp_all

/-- Fields of different names do not meet, so each finds the document as it was. -/
theorem foldl_assign {fields : List (String × Value)} (hfields : Fields.Ordered fields)
    (d : Document) (changed : Bool) :
    (∀ field, (fields.foldl assign (d, changed)).1.get? field =
      match Fields.get? fields field with
      | some value => if d.settled field value then d.get? field else some value
      | none => d.get? field) ∧
    (fields.foldl assign (d, changed)).2 =
      (changed || fields.any fun entry => !d.settled entry.1 entry.2) := by
  induction fields generalizing d changed with
  | nil => simp [Fields.get?]
  | cons entry rest ih =>
    obtain ⟨name, value⟩ := entry
    obtain ⟨hhead, htail⟩ := List.pairwise_cons.1 hfields
    obtain ⟨ihget, ihsnd⟩ := ih htail (assign (d, changed) (name, value)).1
      (assign (d, changed) (name, value)).2
    -- The first step is not seen by the names that follow it.
    have hother : ∀ field, field ≠ name →
        (assign (d, changed) (name, value)).1.get? field = d.get? field := by
      intro field hne
      rw [get?_assign, if_neg fun h => hne h.1]
    have hsettled : ∀ field v, field ≠ name →
        (assign (d, changed) (name, value)).1.settled field v = d.settled field v := by
      intro field v hne
      simp only [settled, hother field hne]
    rw [List.foldl_cons]
    constructor
    · intro field
      refine (ihget field).trans ?_
      by_cases hname : field = name
      · subst hname
        have hrest : Fields.get? rest field = none := Fields.get?_eq_none_of_lt hhead
        simp only [hrest, get?_assign, Fields.get?, if_true, true_and]
        cases d.settled field value <;> rfl
      · simp only [hother field hname, hsettled field _ hname, Fields.get?, if_neg hname]
    · have hany : (rest.any fun entry =>
          !(assign (d, changed) (name, value)).1.settled entry.1 entry.2) =
            rest.any fun entry => !d.settled entry.1 entry.2 := by
        rw [Bool.eq_iff_iff, List.any_eq_true, List.any_eq_true]
        refine exists_congr fun later => and_congr_right fun hlater => ?_
        rw [hsettled _ _ (String.ne_of_lt (hhead later hlater)).symm]
      refine ihsnd.trans ?_
      rw [assign_snd, List.any_cons, hany, Bool.or_assoc]

theorem get?_assignAll (set d : Document) (field : String) :
    (assignAll set d).1.get? field =
      match set.get? field with
      | some value => if d.settled field value then d.get? field else some value
      | none => d.get? field :=
  (foldl_assign set.ordered d false).1 field

theorem assignAll_snd (set d : Document) :
    (assignAll set d).2 = true ↔
      ∃ field value, set.get? field = some value ∧ d.settled field value = false := by
  rw [assignAll, (foldl_assign set.ordered d false).2, Bool.false_or, List.any_eq_true]
  constructor
  · rintro ⟨⟨field, value⟩, hmem, h⟩
    exact ⟨field, value, Fields.get?_of_mem set.ordered hmem, by simpa using h⟩
  · rintro ⟨field, value, hget, h⟩
    exact ⟨(field, value), Fields.mem_of_get? hget, by simpa using h⟩

theorem assignAll_of_not_changed {set d : Document} (h : (assignAll set d).2 = false) :
    (assignAll set d).1 = d := by
  ext1 field
  rw [get?_assignAll]
  cases hget : set.get? field with
  | none => rfl
  | some value =>
    have hsettled : d.settled field value = true := by
      by_contra hnot
      have hchanged := (assignAll_snd set d).2 ⟨field, value, hget, by simpa using hnot⟩
      rw [h] at hchanged
      cases hchanged
    simp only [hsettled, if_true]

end DocumentSql.Document
