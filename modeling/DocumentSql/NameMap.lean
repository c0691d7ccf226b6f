/- Finite maps from names to values, kept in name order. -/

namespace DocumentSql

universe u

variable {α : Type u}

namespace Fields

def get? : List (String × α) → String → Option α
  | [], _ => none
  | (k, v) :: rest, name => if name = k then some v else get? rest name

/-- Replaces the value of `name`, or enters it before the first later name. -/
def insert : List (String × α) → String → α → List (String × α)
  | [], name, value => [(name, value)]
  | (k, v) :: rest, name, value =>
    if name = k then (name, value) :: rest
    else if name < k then (name, value) :: (k, v) :: rest
    else (k, v) :: insert rest name value

/-- Strictly increasing names, so no name occurs twice. -/
def Ordered (fields : List (String × α)) : Prop :=
  fields.Pairwise fun a b => a.1 < b.1

theorem get?_insert (fields : List (String × α)) (name other : String) (value : α) :
    get? (insert fields name value) other =
      if other = name then some value else get? fields other := by
  induction fields with
  | nil => simp [insert, get?]
  | cons field rest ih =>
    obtain ⟨k, v⟩ := field
    by_cases hk : name = k
    · subst hk
      by_cases ho : other = name <;> simp [insert, get?, ho]
    · by_cases hlt : name < k
      · simp [insert, get?, hk, hlt]
      · by_cases ho : other = k
        · subst ho
          simp [insert, get?, hk, hlt, Ne.symm hk]
        · simp [insert, get?, hk, hlt, ho, ih]

theorem mem_insert {fields : List (String × α)} {name : String} {value : α}
    {entry : String × α} (h : entry ∈ insert fields name value) :
    entry.1 = name ∨ entry ∈ fields := by
  induction fields with
  | nil =>
    simp only [insert, List.mem_singleton] at h
    exact .inl (by rw [h])
  | cons field rest ih =>
    obtain ⟨k, v⟩ := field
    simp only [insert] at h
    split at h
    · cases List.mem_cons.1 h with
      | inl heq => exact .inl (by rw [heq])
      | inr hrest => exact .inr (List.mem_cons_of_mem _ hrest)
    · split at h
      · cases List.mem_cons.1 h with
        | inl heq => exact .inl (by rw [heq])
        | inr hrest => exact .inr hrest
      · cases List.mem_cons.1 h with
        | inl heq => exact .inr (by rw [heq]; exact List.mem_cons_self)
        | inr hrest =>
          cases ih hrest with
          | inl hname => exact .inl hname
          | inr hmem => exact .inr (List.mem_cons_of_mem _ hmem)

theorem lt_of_not_lt {a b : String} (hne : a ≠ b) (hlt : ¬a < b) : b < a := by
  refine Classical.byContradiction fun h => hne ?_
  exact String.le_antisymm (String.not_lt.1 h) (String.not_lt.1 hlt)

theorem lt_or_eq_or_lt (a b : String) : a < b ∨ a = b ∨ b < a := by
  by_cases heq : a = b
  · exact .inr (.inl heq)
  · by_cases hlt : a < b
    · exact .inl hlt
    · exact .inr (.inr (lt_of_not_lt heq hlt))

theorem Ordered.insert {fields : List (String × α)} (h : Ordered fields) (name : String)
    (value : α) : Ordered (Fields.insert fields name value) := by
  induction fields with
  | nil => exact List.pairwise_singleton _ _
  | cons field rest ih =>
    obtain ⟨k, v⟩ := field
    have hhead : ∀ entry ∈ rest, k < entry.1 := (List.pairwise_cons.1 h).1
    have htail : Ordered rest := List.Pairwise.of_cons h
    simp only [Fields.insert]
    split
    · rename_i hk
      subst hk
      exact List.pairwise_cons.2 ⟨hhead, htail⟩
    · rename_i hk
      split
      · rename_i hlt
        refine List.pairwise_cons.2 ⟨?_, h⟩
        intro entry hmem
        cases List.mem_cons.1 hmem with
        | inl heq => exact heq ▸ hlt
        | inr hrest => exact String.lt_trans hlt (hhead _ hrest)
      · rename_i hlt
        refine List.pairwise_cons.2 ⟨?_, ih htail⟩
        intro entry hmem
        cases mem_insert hmem with
        | inl hname => exact hname ▸ lt_of_not_lt hk hlt
        | inr hrest => exact hhead _ hrest

theorem get?_eq_none_of_lt {fields : List (String × α)} {name : String}
    (h : ∀ entry ∈ fields, name < entry.1) : get? fields name = none := by
  induction fields with
  | nil => rfl
  | cons field rest ih =>
    have hne : name ≠ field.1 := fun heq =>
      String.lt_irrefl name (by simpa [← heq] using h field List.mem_cons_self)
    simp [get?, hne, ih fun entry hmem => h entry (List.mem_cons_of_mem _ hmem)]

/-- Ordered fields are determined by what each name maps to. -/
theorem eq_of_get?_eq {left right : List (String × α)} (hl : Ordered left) (hr : Ordered right)
    (h : ∀ name, get? left name = get? right name) : left = right := by
  induction left generalizing right with
  | nil =>
    cases right with
    | nil => rfl
    | cons field rest =>
      have := h field.1
      simp [get?] at this
  | cons field rest ih =>
    obtain ⟨k, v⟩ := field
    cases right with
    | nil =>
      have := h k
      simp [get?] at this
    | cons field' rest' =>
      obtain ⟨k', v'⟩ := field'
      have hlk : ∀ entry ∈ rest, k < entry.1 := (List.pairwise_cons.1 hl).1
      have hrk : ∀ entry ∈ rest', k' < entry.1 := (List.pairwise_cons.1 hr).1
      have hkk : k = k' := by
        rcases lt_or_eq_or_lt k k' with hlt | heq | hlt
        · have hk := h k
          have hnone : get? ((k', v') :: rest') k = none := get?_eq_none_of_lt (by
            intro entry hmem
            cases List.mem_cons.1 hmem with
            | inl heq => exact heq ▸ hlt
            | inr hrest => exact String.lt_trans hlt (hrk _ hrest))
          rw [hnone] at hk
          simp [get?] at hk
        · exact heq
        · have hk := h k'
          have hnone : get? ((k, v) :: rest) k' = none := get?_eq_none_of_lt (by
            intro entry hmem
            cases List.mem_cons.1 hmem with
            | inl heq => exact heq ▸ hlt
            | inr hrest => exact String.lt_trans hlt (hlk _ hrest))
          rw [hnone] at hk
          simp [get?] at hk
      subst hkk
      have hv : v = v' := by simpa [get?] using h k
      subst hv
      have hrest : rest = rest' := by
        refine ih (List.Pairwise.of_cons hl) (List.Pairwise.of_cons hr) ?_
        intro name
        by_cases hname : name = k
        · subst hname
          rw [get?_eq_none_of_lt hlk, get?_eq_none_of_lt hrk]
        · simpa [get?, hname] using h name
      rw [hrest]

end Fields

/-- A finite map from names to values. Its fields are strictly ordered by name, so two maps are
equal as soon as they agree on every name. -/
structure NameMap (α : Type u) where
  fields : List (String × α)
  ordered : Fields.Ordered fields
deriving DecidableEq

namespace NameMap

def empty : NameMap α := ⟨[], List.Pairwise.nil⟩

instance : EmptyCollection (NameMap α) := ⟨empty⟩

instance : Inhabited (NameMap α) := ⟨empty⟩

def get? (m : NameMap α) (name : String) : Option α := Fields.get? m.fields name

def contains (m : NameMap α) (name : String) : Bool := (m.get? name).isSome

def insert (m : NameMap α) (name : String) (value : α) : NameMap α :=
  ⟨Fields.insert m.fields name value, m.ordered.insert name value⟩

def insertIfNew (m : NameMap α) (name : String) (value : α) : NameMap α :=
  if m.contains name then m else m.insert name value

/-- Of two entries with one name the later counts. -/
def ofList (entries : List (String × α)) : NameMap α :=
  entries.foldl (fun m entry => m.insert entry.1 entry.2) empty

def keys (m : NameMap α) : List String := m.fields.map Prod.fst

def size (m : NameMap α) : Nat := m.fields.length

def isEmpty (m : NameMap α) : Bool := m.fields.isEmpty

@[simp] theorem get?_empty (name : String) : (empty : NameMap α).get? name = none := rfl

@[simp] theorem get?_insert (m : NameMap α) (name other : String) (value : α) :
    (m.insert name value).get? other = if other = name then some value else m.get? other :=
  Fields.get?_insert m.fields name other value

theorem get?_insertIfNew (m : NameMap α) (name other : String) (value : α) :
    (m.insertIfNew name value).get? other =
      if other = name then some ((m.get? name).getD value) else m.get? other := by
  unfold insertIfNew contains
  cases h : m.get? name with
  | none => simp
  | some present => by_cases ho : other = name <;> simp [ho, h]

@[ext] theorem ext {left right : NameMap α} (h : ∀ name, left.get? name = right.get? name) :
    left = right := by
  obtain ⟨lf, lo⟩ := left
  obtain ⟨rf, ro⟩ := right
  have : lf = rf := Fields.eq_of_get?_eq lo ro h
  subst this
  rfl

end NameMap

end DocumentSql
