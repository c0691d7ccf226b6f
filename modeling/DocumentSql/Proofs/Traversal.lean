import DocumentSql.NameMap
import Mathlib.Data.List.Forall2
/- Passes over lists: a pass that may fail, pointwise, and maps built from lists of entries. -/

namespace DocumentSql

theorem bind_eq_ok_iff {ε α β : Type} {x : Except ε α} {f : α → Except ε β} {b : β} :
    (x >>= f) = .ok b ↔ ∃ a, x = .ok a ∧ f a = .ok b := by
  cases x with
  | error e => exact ⟨(fun h => nomatch h), fun ⟨_, h, _⟩ => nomatch h⟩
  | ok a => exact ⟨fun h => ⟨a, rfl, h⟩, fun ⟨_, ha, h⟩ => Except.ok.inj ha ▸ h⟩

theorem pure_eq_ok_iff {ε α : Type} {a b : α} : (pure a : Except ε α) = .ok b ↔ a = b :=
  ⟨fun h => Except.ok.inj h, fun h => h ▸ rfl⟩

theorem map_eq_ok_iff {ε α β : Type} {x : Except ε α} {f : α → β} {b : β} :
    x.map f = .ok b ↔ ∃ a, x = .ok a ∧ f a = b := by
  cases x with
  | error e => exact ⟨(fun h => nomatch h), fun ⟨_, h, _⟩ => nomatch h⟩
  | ok a => exact ⟨fun h => ⟨a, rfl, Except.ok.inj h⟩, fun ⟨_, ha, h⟩ => by cases ha; exact h ▸ rfl⟩

theorem mapM_eq_ok_iff {ε α β : Type} {f : α → Except ε β} {xs : List α} {ys : List β} :
    xs.mapM f = .ok ys ↔ List.Forall₂ (fun x y => f x = .ok y) xs ys := by
  induction xs generalizing ys with
  | nil =>
    rw [List.mapM_nil, pure_eq_ok_iff, List.forall₂_nil_left_iff]
    exact eq_comm
  | cons x xs ih =>
    simp only [List.mapM_cons, bind_eq_ok_iff, pure_eq_ok_iff, ih]
    constructor
    · rintro ⟨y, hy, rest, hrest, rfl⟩
      exact .cons hy hrest
    · intro h
      cases h with
      | cons hy hrest => exact ⟨_, hy, _, hrest, rfl⟩

/-- Only what is met on the way counts. -/
theorem mapM_congr {ε α β : Type} {f g : α → Except ε β} {xs : List α}
    (h : ∀ x ∈ xs, f x = g x) : xs.mapM f = xs.mapM g := by
  induction xs with
  | nil => rfl
  | cons x xs ih =>
    obtain ⟨hx, hxs⟩ := List.forall_mem_cons.mp h
    rw [List.mapM_cons, List.mapM_cons, hx, ih hxs]

theorem exists_of_mem_mapM {ε α β : Type} {f : α → Except ε β} {xs : List α} {ys : List β} {y : β}
    (h : xs.mapM f = .ok ys) (hy : y ∈ ys) : ∃ x ∈ xs, f x = .ok y := by
  rw [mapM_eq_ok_iff] at h
  induction h with
  | nil => cases hy
  | @cons x _ xs _ hx _ ih =>
    cases List.mem_cons.1 hy with
    | inl heq => exact ⟨x, List.mem_cons_self, heq ▸ hx⟩
    | inr hrest =>
      obtain ⟨x', hx', hfx'⟩ := ih hrest
      exact ⟨x', List.mem_cons_of_mem _ hx', hfx'⟩

/-- The error of a result that failed. -/
def fault? {ε α : Type} : Except ε α → Option ε
  | .error e => some e
  | .ok _ => none

section Faults

variable {ε ε' α β : Type}

theorem fault?_eq_some_iff {x : Except ε α} {e : ε} : fault? x = some e ↔ x = .error e := by
  cases x with
  | error e' =>
    exact ⟨fun h => congrArg _ (Option.some.inj h), fun h => congrArg _ (Except.error.inj h)⟩
  | ok a => exact ⟨nofun, nofun⟩

theorem fault?_mapError (f : ε → ε') (x : Except ε α) :
    fault? (x.mapError f) = (fault? x).map f := by
  cases x <;> rfl

/-- Of two steps of which neither looks at the other's result the first fault counts. -/
theorem fault?_bind {x : Except ε α} {f : α → Except ε β} {y : Option ε}
    (h : ∀ a, fault? (f a) = y) : fault? (x >>= f) = (fault? x).or y := by
  cases x with
  | error e => rfl
  | ok a => exact h a

theorem fault?_bind_pure (x : Except ε α) (f : α → β) :
    fault? (x >>= fun a => pure (f a)) = fault? x := by
  cases x <;> rfl

/-- A pass fails where it first meets a fault. -/
theorem fault?_mapM (f : α → Except ε β) (xs : List α) :
    fault? (xs.mapM f) = xs.findSome? fun x => fault? (f x) := by
  induction xs with
  | nil => rfl
  | cons x xs ih =>
    rw [List.mapM_cons, List.findSome?_cons, fault?_bind fun _ => fault?_bind_pure .., ih]
    cases fault? (f x) <;> rfl

end Faults

theorem findSome?_filterMap {α β γ : Type} (f : α → Option β) (g : β → Option γ) (xs : List α) :
    (xs.filterMap f).findSome? g = xs.findSome? fun x => (f x).bind g := by
  induction xs with
  | nil => rfl
  | cons x xs ih =>
    rw [List.filterMap_cons, List.findSome?_cons]
    cases f x with
    | none => exact ih
    | some y => rw [Option.bind_some, ← ih, List.findSome?_cons]

namespace Fields

variable {α : Type} {fields : List (String × α)} {name : String}

theorem mem_of_get? {value : α} (h : get? fields name = some value) : (name, value) ∈ fields := by
  induction fields with
  | nil => cases h
  | cons field rest ih =>
    obtain ⟨k, v⟩ := field
    by_cases hk : name = k
    · subst hk
      simp only [get?, if_true, Option.some.injEq] at h
      exact h ▸ List.mem_cons_self
    · exact List.mem_cons_of_mem _ (ih (by simpa only [get?, if_neg hk] using h))

theorem exists_get?_of_mem {value : α} (h : (name, value) ∈ fields) :
    ∃ found, get? fields name = some found := by
  induction fields with
  | nil => cases h
  | cons field rest ih =>
    obtain ⟨k, v⟩ := field
    by_cases hk : name = k
    · exact ⟨v, if_pos hk⟩
    · have hrest : (name, value) ∈ rest :=
        (List.mem_cons.mp h).resolve_left fun heq => hk (congrArg Prod.fst heq)
      obtain ⟨found, hfound⟩ := ih hrest
      exact ⟨found, by rw [get?, if_neg hk, hfound]⟩

theorem get?_eq_none_iff : get? fields name = none ↔ name ∉ fields.map Prod.fst := by
  induction fields with
  | nil => simp [get?]
  | cons field rest ih =>
    obtain ⟨key, value⟩ := field
    by_cases hkey : name = key <;> simp [get?, hkey, ih]

theorem get?_append (left right : List (String × α)) :
    get? (left ++ right) name = (get? left name).or (get? right name) := by
  induction left with
  | nil => rfl
  | cons field rest ih =>
    obtain ⟨k, v⟩ := field
    by_cases hk : name = k <;> simp [get?, hk, ih]

theorem get?_of_mem {value : α} (hfields : Ordered fields) (h : (name, value) ∈ fields) :
    get? fields name = some value := by
  induction fields with
  | nil => cases h
  | cons field rest ih =>
    obtain ⟨hhead, htail⟩ := List.pairwise_cons.1 hfields
    cases List.mem_cons.1 h with
    | inl heq => simp [← heq, get?]
    | inr hrest =>
      have hne : name ≠ field.1 := fun heq => String.lt_irrefl name (by
        simpa [heq] using hhead _ hrest)
      simpa [get?, hne] using ih htail hrest

end Fields

namespace NameMap

theorem get?_ofList {α : Type} (entries : List (String × α)) (name : String) :
    (ofList entries).get? name = Fields.get? entries.reverse name := by
  suffices h : ∀ m : NameMap α,
      (entries.foldl (fun m entry => m.insert entry.1 entry.2) m).get? name =
        (Fields.get? entries.reverse name).or (m.get? name) by
    simpa [ofList] using h empty
  induction entries with
  | nil => intro m; rfl
  | cons entry rest ih =>
    intro m
    obtain ⟨k, v⟩ := entry
    simp only [List.foldl_cons, ih, List.reverse_cons, Fields.get?_append, get?_insert]
    by_cases hk : name = k <;> simp [Fields.get?, hk]

theorem mem_of_get?_ofList {α : Type} {entries : List (String × α)} {name : String} {value : α}
    (h : (ofList entries).get? name = some value) : (name, value) ∈ entries := by
  rw [get?_ofList] at h
  exact List.mem_reverse.1 (Fields.mem_of_get? h)

theorem exists_get?_ofList {α : Type} {entries : List (String × α)} {name : String} {value : α}
    (h : (name, value) ∈ entries) : ∃ found, (ofList entries).get? name = some found := by
  rw [get?_ofList]
  exact Fields.exists_get?_of_mem (List.mem_reverse.mpr h)

end NameMap

end DocumentSql
