import DocumentSql.Filter
import DocumentSql.Proofs.Traversal
/-
Filters as JSON documents. Under a field stands what the conditions on that field make one after
another: the bare value of a single equality, and an object of operators for anything else. In that
object the last of several conditions with one operator stays. An equality with a timestamp that
other conditions follow is taken for an object of operators itself, because its value is one that
holds a tag.
-/

namespace DocumentSql

namespace Fields

variable {α : Type}

theorem mem_map_fst_iff {fields : List (String × α)} {name : String} :
    name ∈ fields.map Prod.fst ↔ (get? fields name).isSome = true := by
  induction fields with
  | nil => simp [get?]
  | cons field rest ih =>
    obtain ⟨k, v⟩ := field
    by_cases hk : name = k <;> simp [get?, hk, ← ih]

end Fields

theorem FilterOperator.name_injective {a b : FilterOperator} (h : a.name = b.name) : a = b := by
  cases a <;> cases b <;> first | rfl | exact absurd h (by decide)

theorem FilterOperator.name_ne_options (a : FilterOperator) : a.name ≠ "$options" := by
  cases a <;> decide

theorem FilterOperator.name_ne_date (a : FilterOperator) : a.name ≠ "$date" := by
  cases a <;> decide

/-- Only timestamps are tagged, and no other value is an object. -/
theorem Value.toFilterJson_eq_object {v : Value} {fields : List (String × Json)}
    (h : v.toFilterJson = .object fields) : ∃ t, v = .timestamp t := by
  cases v with
  | timestamp t => exact ⟨t, rfl⟩
  | number x =>
    simp only [toFilterJson, toJson, numberJson] at h
    split at h <;> cases h
  | _ => cases h

/-- What a condition puts under a name in the object of its field. -/
def Condition.part (name : String) (c : Condition) : Option Json :=
  if name = c.operator.name then some c.value.toFilterJson
  else if name = "$options" ∧ c.operator = .regex then some (.text "is")
  else none

theorem Condition.part_name (op : FilterOperator) (c : Condition) :
    c.part op.name = if c.operator = op then some c.value.toFilterJson else none := by
  unfold part
  by_cases hop : c.operator = op
  · rw [if_pos (congrArg FilterOperator.name hop).symm, if_pos hop]
  · rw [if_neg fun h => hop (FilterOperator.name_injective h).symm, if_neg hop,
      if_neg fun h => op.name_ne_options h.1]

namespace Filter

/-- The conditions on one field, in their order. -/
def on (field : String) (filter : Filter) : Filter := filter.filter (·.field = field)

/-- What conditions on one field make of it. -/
def entry (conditions : Filter) : Option Json :=
  conditions.foldl (fun entry c => some (mergeEntry entry c.operator c.value.toFilterJson)) none

/-- The conditions on other fields do not count. -/
theorem get?_document (filter : Filter) (field : String) :
    (document filter).get? field = entry (filter.on field) := by
  suffices h : ∀ m : NameMap Json, (filter.foldl addCondition m).get? field =
      (filter.on field).foldl
        (fun entry c => some (mergeEntry entry c.operator c.value.toFilterJson))
        (m.get? field) from h NameMap.empty
  induction filter with
  | nil => exact fun m => rfl
  | cons c filter ih =>
    intro m
    rw [List.foldl_cons, ih, addCondition, NameMap.get?_insert]
    by_cases hfield : c.field = field
    · subst hfield
      simp [on]
    · simp [on, hfield, Ne.symm hfield]

/-- The next condition, in an object of operators. -/
def enter (fields : List (String × Json)) (c : Condition) : List (String × Json) :=
  insertOperator fields c.operator c.value.toFilterJson

theorem get?_enter (fields : List (String × Json)) (c : Condition) (name : String) :
    Fields.get? (enter fields c) name = (c.part name).or (Fields.get? fields name) := by
  obtain ⟨field, op, value⟩ := c
  have hoptions := op.name_ne_options
  cases op with
  | regex =>
    simp only [enter, insertOperator, Fields.get?_insert, Condition.part]
    by_cases hname : name = "$options"
    · subst hname
      simp [hoptions.symm]
    · by_cases hop : name = FilterOperator.regex.name
      · subst hop
        simp [hoptions]
      · simp [hname, hop]
  | _ =>
    simp only [enter, insertOperator, Fields.get?_insert, Condition.part]
    split <;> simp

/-- Of the conditions that put something under a name, the last one counts. -/
theorem get?_foldl_enter (conditions : Filter) (fields : List (String × Json)) (name : String) :
    Fields.get? (conditions.foldl enter fields) name =
      (conditions.reverse.findSome? (·.part name)).or (Fields.get? fields name) := by
  induction conditions generalizing fields with
  | nil => rfl
  | cons c conditions ih =>
    rw [List.foldl_cons, ih, get?_enter, List.reverse_cons, List.findSome?_append, Option.or_assoc]
    congr 1
    simp only [List.findSome?_cons, List.findSome?_nil]
    cases c.part name <;> rfl

theorem ordered_enter {fields : List (String × Json)} (h : Fields.Ordered fields) (c : Condition) :
    Fields.Ordered (enter fields c) := by
  obtain ⟨field, op, value⟩ := c
  cases op with
  | regex => exact (h.insert _ _).insert _ _
  | _ => exact h.insert _ _

theorem ordered_foldl_enter {fields : List (String × Json)} (h : Fields.Ordered fields)
    (conditions : Filter) : Fields.Ordered (conditions.foldl enter fields) := by
  induction conditions generalizing fields with
  | nil => exact h
  | cons c conditions ih => exact ih (ordered_enter h c)

def AllDollar (fields : List (String × Json)) : Prop :=
  ∀ field ∈ fields, startsWithDollar field.1 = true

theorem AllDollar.insert {fields : List (String × Json)} (h : AllDollar fields) {name : String}
    (hname : startsWithDollar name = true) (value : Json) :
    AllDollar (Fields.insert fields name value) := by
  intro field hfield
  cases Fields.mem_insert hfield with
  | inl heq => rwa [heq]
  | inr hmem => exact h field hmem

theorem startsWithDollar_name (op : FilterOperator) : startsWithDollar op.name = true := by
  cases op <;> decide

theorem AllDollar.enter {fields : List (String × Json)} (h : AllDollar fields) (c : Condition) :
    AllDollar (enter fields c) := by
  obtain ⟨field, op, value⟩ := c
  have hop := startsWithDollar_name op
  cases op with
  | regex => exact (h.insert hop _).insert (by decide) _
  | _ => exact h.insert hop _

theorem isOperatorObject_iff {fields : List (String × Json)} :
    isOperatorObject fields = true ↔ fields ≠ [] ∧ AllDollar fields := by
  simp [isOperatorObject, AllDollar]

theorem enter_ne_nil (fields : List (String × Json)) (c : Condition) : enter fields c ≠ [] := by
  intro h
  have hget := get?_enter fields c c.operator.name
  rw [h, Condition.part_name, if_pos rfl, Option.some_or] at hget
  cases hget

theorem mergeEntry_object {fields : List (String × Json)} (h : isOperatorObject fields = true)
    (op : FilterOperator) (value : Json) :
    mergeEntry (some (.object fields)) op value = .object (insertOperator fields op value) := by
  cases op <;> simp [mergeEntry, h]

theorem mergeEntry_bare {earlier : Json} (h : ∀ fields, earlier ≠ .object fields)
    (op : FilterOperator) (value : Json) :
    mergeEntry (some earlier) op value = .object (insertOperator [("$eq", earlier)] op value) := by
  cases earlier with
  | object fields => exact absurd rfl (h fields)
  | _ => rfl

/-- What has become an object of operators stays one. -/
theorem foldl_mergeEntry {fields : List (String × Json)} (hne : fields ≠ [])
    (h : AllDollar fields) (conditions : Filter) :
    conditions.foldl (fun entry c => some (mergeEntry entry c.operator c.value.toFilterJson))
      (some (.object fields)) = some (.object (conditions.foldl enter fields)) := by
  induction conditions generalizing fields with
  | nil => rfl
  | cons c conditions ih =>
    rw [List.foldl_cons, List.foldl_cons, mergeEntry_object (isOperatorObject_iff.mpr ⟨hne, h⟩)]
    exact ih (enter_ne_nil fields c) (h.enter c)

theorem allDollar_nil : AllDollar [] := fun _ h => nomatch h

/-- An equality with a timestamp comes first, and others follow. -/
def ledByTimestamp : Filter → Bool
  | ⟨_, .eq, .timestamp _⟩ :: _ :: _ => true
  | _ => false

/-- What the object of operators begins with. -/
def tag : Filter → List (String × Json)
  | ⟨_, .eq, .timestamp t⟩ :: _ :: _ => [("$date", .text t.text)]
  | _ => []

/-- The conditions that are entered into the object of operators. -/
def entered (conditions : Filter) : Filter :=
  if ledByTimestamp conditions then conditions.tail else conditions

theorem entry_ledByTimestamp (field : String) (t : Instant) (d : Condition) (more : Filter) :
    entry (⟨field, .eq, .timestamp t⟩ :: d :: more) =
      some (.object ((d :: more).foldl enter [("$date", .text t.text)])) := by
  have hdollar : AllDollar [("$date", Json.text t.text)] := by
    intro entry hentry
    obtain rfl := List.mem_singleton.mp hentry
    exact (by decide : startsWithDollar "$date" = true)
  exact foldl_mergeEntry (List.cons_ne_nil _ _) hdollar (d :: more)

theorem entry_eq_cons {field : String} {value : Value} (h : ∀ t, value ≠ .timestamp t)
    (d : Condition) (more : Filter) :
    entry (⟨field, .eq, value⟩ :: d :: more) =
      some (.object ((⟨field, .eq, value⟩ :: d :: more).foldl enter [])) := by
  have hbare : ∀ fields, value.toFilterJson ≠ .object fields := by
    intro fields hobject
    obtain ⟨t, rfl⟩ := Value.toFilterJson_eq_object hobject
    exact h t rfl
  have hdollar := (allDollar_nil.enter ⟨field, .eq, value⟩).enter d
  have hmore := foldl_mergeEntry (enter_ne_nil _ d) hdollar more
  refine Eq.trans ?_ hmore
  exact congrArg (fun first => List.foldl _ (some first) more) (mergeEntry_bare hbare _ _)

theorem entry_cons {c : Condition} (h : c.operator ≠ .eq) (more : Filter) :
    entry (c :: more) = some (.object ((c :: more).foldl enter [])) := by
  have hfirst : mergeEntry none c.operator c.value.toFilterJson = .object (enter [] c) := by
    obtain ⟨field, op, value⟩ := c
    cases op with
    | eq => exact absurd rfl h
    | _ => rfl
  have hmore := foldl_mergeEntry (enter_ne_nil [] c) (allDollar_nil.enter c) more
  exact (congrArg (fun first => List.foldl _ (some first) more) hfirst).trans hmore

/-- One equality alone is a bare value. -/
def Bare (conditions : Filter) : Prop := ∃ c, conditions = [c] ∧ c.operator = .eq

theorem entry_of_not_bare {conditions : Filter} (hne : conditions ≠ []) (h : ¬Bare conditions) :
    entry conditions = some (.object ((entered conditions).foldl enter (tag conditions))) := by
  obtain ⟨⟨field, op, value⟩, more, rfl⟩ := List.exists_cons_of_ne_nil hne
  cases op with
  | eq =>
    cases more with
    | nil => exact absurd ⟨_, rfl, rfl⟩ h
    | cons d more =>
      cases value with
      | timestamp t => exact entry_ledByTimestamp field t d more
      | _ =>
        refine entry_eq_cons (fun t ht => ?_) d more
        cases ht
  | _ =>
    refine entry_cons (fun heq => ?_) more
    cases heq

theorem tag_of_not_led {conditions : Filter} (h : ledByTimestamp conditions = false) :
    tag conditions = [] := by
  unfold tag
  split
  · cases h
  · rfl

theorem led_cases {conditions : Filter} (h : ledByTimestamp conditions = true) :
    ∃ field t d more, conditions = ⟨field, .eq, .timestamp t⟩ :: d :: more := by
  unfold ledByTimestamp at h
  split at h
  · exact ⟨_, _, _, _, rfl⟩
  · cases h

theorem not_bare_of_led {conditions : Filter} (h : ledByTimestamp conditions = true) :
    conditions ≠ [] ∧ ¬Bare conditions := by
  obtain ⟨field, t, d, more, rfl⟩ := led_cases h
  refine ⟨List.cons_ne_nil _ _, ?_⟩
  rintro ⟨c, hc, -⟩
  cases hc

theorem Bare.not_led {conditions : Filter} (h : Bare conditions) :
    ledByTimestamp conditions = false := by
  rw [← Bool.not_eq_true]
  exact fun hled => (not_bare_of_led hled).2 h

section Names

/-- The names that an object of operators is made to hold. -/
def Named (conditions : Filter) (name : String) : Prop :=
  (∃ c ∈ conditions, c.operator.name = name) ∨
    name = "$options" ∧ ∃ c ∈ conditions, c.operator = .regex

theorem exists_part_iff (conditions : Filter) (name : String) :
    (conditions.reverse.findSome? (·.part name)).isSome = true ↔ Named conditions name := by
  have hpart : ∀ c : Condition, (c.part name).isSome = true ↔
      c.operator.name = name ∨ name = "$options" ∧ c.operator = .regex := by
    intro c
    unfold Condition.part
    split
    · next h => simp [h]
    · next h =>
      have hname : c.operator.name ≠ name := fun heq => h heq.symm
      split
      · next h => simp [h]
      · next h => simp [h, hname]
  simp only [List.findSome?_isSome_iff, List.mem_reverse, hpart, Named]
  constructor
  · rintro ⟨c, hc, hop | ⟨rfl, hregex⟩⟩
    · exact .inl ⟨c, hc, hop⟩
    · exact .inr ⟨rfl, c, hc, hregex⟩
  · rintro (⟨c, hc, hop⟩ | ⟨rfl, c, hc, hregex⟩)
    · exact ⟨c, hc, .inl hop⟩
    · exact ⟨c, hc, .inr ⟨rfl, hregex⟩⟩

theorem mem_names_iff (conditions : Filter) (name : String) :
    name ∈ ((entered conditions).foldl enter (tag conditions)).map Prod.fst ↔
      Named (entered conditions) name ∨ (Fields.get? (tag conditions) name).isSome = true := by
  rw [Fields.mem_map_fst_iff, get?_foldl_enter, Option.isSome_or, Bool.or_eq_true, exists_part_iff]

/-- What the entry of a field should be: nothing without conditions, the value of a single equality,
and else an object whose names are those of the operators. -/
structure WellFormed (conditions : Filter) (entry : Option Json) : Prop where
  absent : conditions = [] → entry = none
  bare : ∀ c, conditions = [c] → c.operator = .eq → entry = some c.value.toFilterJson
  operators : conditions ≠ [] → ¬Bare conditions → ∃ fields, entry = some (.object fields) ∧
    Fields.Ordered fields ∧ ∀ name, name ∈ fields.map Prod.fst ↔ Named conditions name

theorem wellFormed_entry {conditions : Filter} (h : ledByTimestamp conditions = false) :
    WellFormed conditions (entry conditions) where
  absent := by
    rintro rfl
    rfl
  bare := by
    rintro ⟨field, op, value⟩ rfl rfl
    rfl
  operators := by
    intro hne hbare
    refine ⟨_, entry_of_not_bare hne hbare, ?_, fun name => ?_⟩
    · rw [tag_of_not_led h]
      exact ordered_foldl_enter .nil _
    · rw [mem_names_iff, tag_of_not_led h, entered, h]
      simp [Fields.get?]

/-- The tag stands among the operators and is the name of none. -/
theorem not_wellFormed_of_led {conditions : Filter} (h : ledByTimestamp conditions = true) :
    ¬WellFormed conditions (entry conditions) := by
  intro hwell
  obtain ⟨hne, hbare⟩ := not_bare_of_led h
  obtain ⟨fields, hentry, -, hnames⟩ := hwell.operators hne hbare
  obtain rfl := Json.object.inj (Option.some.inj ((entry_of_not_bare hne hbare).symm.trans hentry))
  have hdate : (Fields.get? (tag conditions) "$date").isSome = true := by
    obtain ⟨field, t, d, more, rfl⟩ := led_cases h
    rfl
  obtain ⟨c, -, hc⟩ | ⟨hc, -⟩ := (hnames "$date").mp ((mem_names_iff _ _).mpr (.inr hdate))
  · exact c.operator.name_ne_date hc
  · exact absurd hc (by decide)

/-- Each entry of the document is what the conditions on its field call for, unless an equality
with a timestamp comes first among several. -/
theorem entry_wellFormed_iff (filter : Filter) (field : String) :
    WellFormed (filter.on field) ((document filter).get? field) ↔
      ledByTimestamp (filter.on field) = false := by
  rw [get?_document]
  constructor
  · intro hwell
    rw [← Bool.not_eq_true]
    exact fun hled => not_wellFormed_of_led hled hwell
  · exact wellFormed_entry

/-- The value of the equality is left among the operators, without an operator of its own. -/
theorem led_entry_not_wellFormed :
    let filter : Filter := [⟨"createdAt", .eq, .timestamp (.ofSeconds 0 0)⟩,
      ⟨"createdAt", .lt, .timestamp (.ofSeconds 60 0)⟩]
    toJson filter = .object [("createdAt", .object [
      ("$date", .text "1970-01-01T00:00:00.000Z"),
      ("$lt", .object [("$date", .text "1970-01-01T00:01:00.000Z")])])] ∧
      ¬WellFormed (filter.on "createdAt") ((document filter).get? "createdAt") := by
  intro filter
  have hepoch : (Instant.ofSeconds 0 0).text = "1970-01-01T00:00:00.000Z" := by decide +kernel
  have hminute : (Instant.ofSeconds 60 0).text = "1970-01-01T00:01:00.000Z" := by decide +kernel
  rw [← hepoch, ← hminute]
  exact ⟨rfl, not_wellFormed_of_led rfl⟩

end Names

section Kept

/-- The value of a condition can be found where its field and its operator say. -/
def Kept (conditions : Filter) (entry : Option Json) (c : Condition) : Prop :=
  conditions = [c] ∧ c.operator = .eq ∧ entry = some c.value.toFilterJson ∨
    ∃ fields, entry = some (.object fields) ∧
      Fields.get? fields c.operator.name = some c.value.toFilterJson

/-- Conditions with one operator have one value. -/
def Agree (conditions : Filter) : Prop :=
  ∀ c ∈ conditions, ∀ d ∈ conditions, c.operator = d.operator →
    c.value.toFilterJson = d.value.toFilterJson

/-- An equality with a timestamp comes first, and none of those that follow is an equality. -/
def losesTimestamp (conditions : Filter) : Bool :=
  ledByTimestamp conditions && conditions.tail.all (·.operator ≠ .eq)

theorem kept_iff_of_not_bare {conditions : Filter} (hne : conditions ≠ [])
    (h : ¬Bare conditions) (c : Condition) :
    Kept conditions (entry conditions) c ↔
      (entered conditions).reverse.findSome? (·.part c.operator.name) =
        some c.value.toFilterJson := by
  have htag : Fields.get? (tag conditions) c.operator.name = none := by
    unfold tag
    split
    · simp [Fields.get?, c.operator.name_ne_date]
    · rfl
  have hget := get?_foldl_enter (entered conditions) (tag conditions) c.operator.name
  rw [htag, Option.or_none] at hget
  rw [← hget, entry_of_not_bare hne h]
  constructor
  · rintro (⟨hsingle, heq, -⟩ | ⟨fields, hfields, hvalue⟩)
    · exact absurd ⟨c, hsingle, heq⟩ h
    · obtain rfl := Json.object.inj (Option.some.inj hfields)
      exact hvalue
  · exact fun hvalue => .inr ⟨_, rfl, hvalue⟩

theorem entered_subset (conditions : Filter) : entered conditions ⊆ conditions := by
  unfold entered
  split
  · exact fun _ => List.mem_of_mem_tail
  · exact List.Subset.refl _

/-- An operator is entered wherever it is used, but for the equality that leads. -/
theorem exists_entered {conditions : Filter} (h : losesTimestamp conditions = false)
    {c : Condition} (hc : c ∈ conditions) :
    ∃ d ∈ entered conditions, d.operator = c.operator := by
  cases hled : ledByTimestamp conditions with
  | false => exact ⟨c, by simpa [entered, hled] using hc, rfl⟩
  | true =>
    have htail : entered conditions = conditions.tail := by simp [entered, hled]
    rw [losesTimestamp, hled, Bool.true_and, List.all_eq_false] at h
    obtain ⟨d, hd, heq⟩ := h
    have heq : d.operator = .eq := by simpa using heq
    obtain ⟨field, t, e, more, rfl⟩ := led_cases hled
    rw [htail]
    cases List.mem_cons.mp hc with
    | inl hhead => exact ⟨d, hd, by rw [hhead, heq]⟩
    | inr hmem => exact ⟨c, hmem, rfl⟩

theorem exists_of_findSome?_part {conditions : Filter} {op : FilterOperator} {value : Json}
    (h : conditions.reverse.findSome? (·.part op.name) = some value) :
    ∃ d ∈ conditions, d.operator = op ∧ d.value.toFilterJson = value := by
  obtain ⟨d, hd, hpart⟩ := List.exists_of_findSome?_eq_some h
  rw [Condition.part_name] at hpart
  split at hpart
  · next hop => exact ⟨d, List.mem_reverse.mp hd, hop, Option.some.inj hpart⟩
  · cases hpart

theorem kept_entry_iff (conditions : Filter) :
    (∀ c ∈ conditions, Kept conditions (entry conditions) c) ↔
      Agree conditions ∧ losesTimestamp conditions = false := by
  by_cases hne : conditions = []
  · subst hne
    simp [Agree, losesTimestamp, ledByTimestamp]
  by_cases hbare : Bare conditions
  · have hled := hbare.not_led
    obtain ⟨⟨field, op, value⟩, rfl, rfl⟩ := hbare
    simp [Agree, losesTimestamp, hled, Kept, entry, mergeEntry]
  simp only [kept_iff_of_not_bare hne hbare]
  constructor
  · intro h
    refine ⟨fun c hc d hd hop => ?_, ?_⟩
    · have hd' := h d hd
      rw [← hop, h c hc] at hd'
      exact Option.some.inj hd'
    · rw [← Bool.not_eq_true, losesTimestamp, Bool.and_eq_true, List.all_eq_true]
      rintro ⟨hled, hall⟩
      have htail : entered conditions = conditions.tail := by simp [entered, hled]
      rw [htail] at h
      obtain ⟨field, t, d, more, rfl⟩ := led_cases hled
      obtain ⟨e, he, heq, -⟩ := exists_of_findSome?_part (h _ List.mem_cons_self)
      exact absurd heq (by simpa using hall e he)
  · rintro ⟨hagree, hloses⟩ c hc
    obtain ⟨d, hd, hop⟩ := exists_entered hloses hc
    have hsome : ((entered conditions).reverse.findSome? (·.part c.operator.name)).isSome = true :=
      (exists_part_iff _ _).mpr (.inl ⟨d, hd, congrArg FilterOperator.name hop⟩)
    obtain ⟨value, hvalue⟩ := Option.isSome_iff_exists.mp hsome
    obtain ⟨e, he, heop, hejson⟩ := exists_of_findSome?_part hvalue
    rw [hvalue, ← hejson, hagree e (entered_subset _ he) c hc heop]

/-- All conditions of a filter are found in its document just if on each field those with one
operator have one value, and no equality with a timestamp is lost to those that follow it. -/
theorem conditions_kept_iff (filter : Filter) :
    (∀ c ∈ filter, Kept (filter.on c.field) ((document filter).get? c.field) c) ↔
      ∀ field, Agree (filter.on field) ∧ losesTimestamp (filter.on field) = false := by
  have hmem : ∀ {c field}, c ∈ filter.on field ↔ c ∈ filter ∧ c.field = field := by simp [on]
  simp only [← kept_entry_iff, get?_document]
  constructor
  · intro h field c hc
    obtain ⟨hfilter, rfl⟩ := hmem.mp hc
    exact h c hfilter
  · intro h c hc
    exact h c.field c (hmem.mpr ⟨hc, rfl⟩)

/-- Of two conditions with one operator only the second is left. -/
theorem repeated_operator_not_kept :
    let filter : Filter := [⟨"status", .ne, .text "draft"⟩, ⟨"status", .ne, .text "deleted"⟩]
    toJson filter = .object [("status", .object [("$ne", .text "deleted")])] ∧
      ¬∀ c ∈ filter, Kept (filter.on c.field) ((document filter).get? c.field) c := by
  intro filter
  have hentry : (document filter).get? "status" = some (.object [("$ne", .text "deleted")]) := rfl
  refine ⟨rfl, fun h => ?_⟩
  obtain ⟨hsingle, -⟩ | ⟨fields, hfields, hvalue⟩ := h _ List.mem_cons_self
  · cases hsingle
  · obtain rfl := Json.object.inj (Option.some.inj (hentry.symm.trans hfields))
    have htext : "deleted" = "draft" := Json.text.inj (Option.some.inj hvalue)
    exact absurd htext (by decide)

end Kept

end Filter

end DocumentSql
