import DocumentSql.NameCase
import DocumentSql.Proofs.Characters
import Mathlib.Data.List.Chain
import Mathlib.Data.Set.Function
/-
The way from the callers' spelling of a name to the store's and back. Upper-case letters are the
marks of the store's spelling, so a name that has none comes back as it was, and a name that changes
on its way to the store gains one. What the way to the store leaves has no more words to join, so a
second time changes nothing; and every name without words to join is a spelling in the store, unless
it begins with an upper-case letter.
-/

namespace DocumentSql.NameCase

/-- No letter of ASCII is upper-case. -/
def Plain (name : String) : Prop := ∀ c ∈ name.toList, c.isUpper = false

instance (name : String) : Decidable (Plain name) :=
  List.decidableBAll (fun c : Char => c.isUpper = false) name.toList

/-- A letter that rises as its underscore goes comes back with the underscore. -/
theorem splitWords_joinWords (s : List Char) : splitWords (joinWords s) = splitWords s := by
  fun_induction joinWords s with
  | case1 => rfl
  | case2 c rest hlower ih =>
    have hupper : c.toUpper.isUpper = true := Text.isUpper_toUpper hlower
    have hkept : ¬c.isUpper = true := Text.not_isUpper_of_isLower hlower
    rw [splitWords, if_pos hupper, Text.toLower_toUpper hlower, ih, splitWords,
      if_neg (by decide), splitWords, if_neg hkept]
  | case3 c rest _ ih =>
    rw [splitWords, ih]
    rfl
  | case4 c rest _ ih => rw [splitWords, ih, splitWords]

theorem splitWords_eq_self {s : List Char} (h : ∀ c ∈ s, c.isUpper = false) :
    splitWords s = s := by
  induction s with
  | nil => rfl
  | cons c rest ih =>
    obtain ⟨hc, hrest⟩ := List.forall_mem_cons.mp h
    rw [splitWords, if_neg (Bool.eq_false_iff.mp hc), ih hrest]

/-- What changes gains an upper-case letter. -/
theorem joinWords_eq_self {s : List Char} (h : ∀ c ∈ joinWords s, c.isUpper = false) :
    joinWords s = s := by
  fun_induction joinWords s with
  | case1 => rfl
  | case2 c rest hlower ih =>
    have hupper : c.toUpper.isUpper = true := Text.isUpper_toUpper hlower
    rw [h _ List.mem_cons_self] at hupper
    cases hupper
  | case3 c rest _ ih => rw [ih fun d hd => h d (List.mem_cons_of_mem _ hd)]
  | case4 c rest _ ih => rw [ih fun d hd => h d (List.mem_cons_of_mem _ hd)]

/-- No lower-case letter follows an underscore. -/
def Joined (s : List Char) : Prop := s.IsChain fun c next => c = '_' → next.isLower = false

instance (s : List Char) : Decidable (Joined s) :=
  inferInstanceAs (Decidable (s.IsChain fun c next => c = '_' → next.isLower = false))

/-- Only a letter that stood first can come first in lower case. -/
theorem head_joinWords {s : List Char} {c : Char} (h : c ∈ (joinWords s).head?)
    (hlower : c.isLower = true) : c ∈ s.head? := by
  fun_cases joinWords s with
  | case1 => exact h
  | case2 d rest hd =>
    rw [joinWords, if_pos hd] at h
    obtain rfl := Option.some.inj h
    exact absurd (Text.isUpper_toUpper hd) (Text.not_isUpper_of_isLower hlower)
  | case3 d rest hd =>
    rw [joinWords, if_neg hd] at h
    exact h
  | case4 d rest _ =>
    rwa [joinWords] at h
    assumption

theorem joined_joinWords (s : List Char) : Joined (joinWords s) := by
  unfold Joined
  fun_induction joinWords s with
  | case1 => exact .nil
  | case2 c rest hlower ih =>
    refine List.isChain_cons.mpr ⟨fun next _ hmark => ?_, ih⟩
    have hupper : c.toUpper.isUpper = true := Text.isUpper_toUpper hlower
    rw [hmark] at hupper
    cases hupper
  | case3 c rest hlower ih =>
    refine List.isChain_cons.mpr ⟨fun next hnext _ => ?_, ih⟩
    refine Bool.eq_false_iff.mpr fun hnextLower => hlower ?_
    obtain rfl := Option.some.inj (head_joinWords hnext hnextLower)
    exact hnextLower
  | case4 c rest hlast ih =>
    refine List.isChain_cons.mpr ⟨fun next hnext hmark => ?_, ih⟩
    cases rest with
    | nil => cases hnext
    | cons d rest => exact absurd rfl (hlast d rest hmark)

theorem joinWords_of_joined {s : List Char} (h : Joined s) : joinWords s = s := by
  unfold Joined at h
  fun_induction joinWords s with
  | case1 => rfl
  | case2 c rest hlower ih =>
    rw [(List.isChain_cons_cons.mp h).1 rfl] at hlower
    cases hlower
  | case3 c rest hlower ih => rw [ih (List.isChain_cons.mp h).2]
  | case4 c rest _ ih => rw [ih (List.isChain_cons.mp h).2]

theorem toStore_toStore (s : List Char) : toStore (toStore s) = toStore s := by
  cases s with
  | nil => rfl
  | cons c rest => rw [toStore, toStore, joinWords_of_joined (joined_joinWords rest)]

theorem toCaller_toStore (s : List Char) : toCaller (toStore s) = toCaller s := by
  cases s with
  | nil => rfl
  | cons c rest => rw [toStore, toCaller, splitWords_joinWords, toCaller]

theorem toCaller_eq_self {s : List Char} (h : ∀ c ∈ s, c.isUpper = false) : toCaller s = s := by
  cases s with
  | nil => rfl
  | cons c rest =>
    obtain ⟨hc, hrest⟩ := List.forall_mem_cons.mp h
    rw [toCaller, splitWords_eq_self hrest,
      Text.toLower_of_not_isUpper (Bool.eq_false_iff.mp hc)]

theorem toStore_eq_self {s : List Char} (h : ∀ c ∈ toStore s, c.isUpper = false) :
    toStore s = s := by
  cases s with
  | nil => rfl
  | cons c rest =>
    rw [toStore, joinWords_eq_self (List.forall_mem_cons.mp h).2]

/-- Upper-case letters fall on the way to the caller's spelling. -/
theorem isUpper_splitWords {s : List Char} {c : Char} (h : c ∈ splitWords s) :
    c.isUpper = false := by
  fun_induction splitWords s with
  | case1 => cases h
  | case2 d rest _ ih =>
    rcases List.mem_cons.mp h with rfl | h
    · decide
    rcases List.mem_cons.mp h with rfl | h
    · exact Text.isUpper_toLower d
    · exact ih h
  | case3 d rest hd ih =>
    rcases List.mem_cons.mp h with rfl | h
    · exact Bool.eq_false_iff.mpr hd
    · exact ih h

theorem isUpper_toCaller {s : List Char} {c : Char} (h : c ∈ toCaller s) : c.isUpper = false := by
  cases s with
  | nil => cases h
  | cons d rest =>
    rcases List.mem_cons.mp h with rfl | h
    · exact Text.isUpper_toLower d
    · exact isUpper_splitWords h

/-- Split words begin with an underscore, or as the joined ones do. -/
theorem head_splitWords {s : List Char} {c : Char} (h : c ∈ (splitWords s).head?)
    (hlower : c.isLower = true) : c ∈ s.head? := by
  cases s with
  | nil => exact h
  | cons d rest =>
    by_cases hd : d.isUpper = true
    · rw [splitWords, if_pos hd] at h
      obtain rfl := Option.some.inj h
      cases hlower
    · rw [splitWords, if_neg hd] at h
      exact h

theorem joinWords_cons {c : Char} {rest : List Char}
    (h : c = '_' → ∀ next ∈ rest.head?, next.isLower = false) :
    joinWords (c :: rest) = c :: joinWords rest := by
  by_cases hmark : c = '_'
  · subst hmark
    cases rest with
    | nil => rfl
    | cons next rest => rw [joinWords, if_neg (Bool.eq_false_iff.mp (h rfl next rfl))]
  · rw [joinWords]
    exact fun _ _ heq _ => hmark heq

theorem joinWords_splitWords {s : List Char} (h : Joined s) : joinWords (splitWords s) = s := by
  unfold Joined at h
  fun_induction splitWords s with
  | case1 => rfl
  | case2 c rest hupper ih =>
    rw [joinWords, if_pos (Text.isLower_toLower hupper), Text.toUpper_toLower hupper,
      ih (List.isChain_cons.mp h).2]
  | case3 c rest _ ih =>
    obtain ⟨hhead, hrest⟩ := List.isChain_cons.mp h
    rw [joinWords_cons, ih hrest]
    intro hmark next hnext
    refine Bool.eq_false_iff.mpr fun hlower => ?_
    have hnext' : next ∈ rest.head? := head_splitWords hnext hlower
    rw [hhead next hnext' hmark] at hlower
    cases hlower

/-- The spellings in the store: no upper-case letter comes first, and from the second place on no
lower-case letter follows an underscore. -/
structure StoreSpelled (name : String) : Prop where
  head : ∀ c ∈ name.toList.head?, c.isUpper = false
  joined : Joined name.toList.tail

theorem storeSpelled_iff {name : String} : StoreSpelled name ↔
    name.toList.head?.all (!·.isUpper) = true ∧ Joined name.toList.tail := by
  simp only [Option.all_eq_true, Bool.not_eq_true']
  exact ⟨fun h => ⟨h.head, h.joined⟩, fun h => ⟨h.1, h.2⟩⟩

instance (name : String) : Decidable (StoreSpelled name) :=
  decidable_of_iff _ storeSpelled_iff.symm

theorem toStore_toCaller {s : List Char} (hhead : ∀ c ∈ s.head?, c.isUpper = false)
    (hjoined : Joined s.tail) : toStore (toCaller s) = s := by
  cases s with
  | nil => rfl
  | cons c rest =>
    have hc : c.toLower = c :=
      Text.toLower_of_not_isUpper (Bool.eq_false_iff.mp (hhead c rfl))
    rw [toCaller, toStore, hc, joinWords_splitWords (s := rest) hjoined]

/-- Callers spell a name as they spell its spelling in the store. -/
theorem callerName_respelled (name : String) : callerName (storeName name) = callerName name := by
  rw [callerName, storeName, String.toList_ofList, toCaller_toStore, callerName]

theorem callerName_eq_self {name : String} (h : Plain name) : callerName name = name := by
  rw [callerName, toCaller_eq_self h, String.ofList_toList]

theorem callerName_storeName {name : String} (h : Plain name) :
    callerName (storeName name) = name := by
  rw [callerName_respelled, callerName_eq_self h]

theorem storeName_eq_self {name : String} (h : Plain (storeName name)) : storeName name = name := by
  rw [Plain, storeName, String.toList_ofList] at h
  rw [storeName, toStore_eq_self h, String.ofList_toList]

/-- A store's spelling is its own spelling in the store, upper-case letters or not. -/
theorem storeName_storeName (name : String) : storeName (storeName name) = storeName name := by
  rw [storeName, storeName, String.toList_ofList, toStore_toStore]

theorem storeName_injective {name other : String} (hname : Plain name) (hother : Plain other)
    (h : storeName name = storeName other) : name = other := by
  rw [← callerName_storeName hname, h, callerName_storeName hother]

theorem plain_callerName (name : String) : Plain (callerName name) := by
  intro c hc
  rw [callerName, String.toList_ofList] at hc
  exact isUpper_toCaller hc

/-- The callers' spelling of a name is its own. -/
theorem callerName_callerName (name : String) : callerName (callerName name) = callerName name :=
  callerName_eq_self (plain_callerName name)

theorem eq_of_storeName_eq_callerName {name other : String}
    (h : storeName name = callerName other) : name = callerName other := by
  have hplain : Plain (storeName name) := h ▸ plain_callerName other
  exact (storeName_eq_self hplain).symm.trans h

theorem storeName_callerName {name : String} (h : StoreSpelled name) :
    storeName (callerName name) = name := by
  rw [storeName, callerName, String.toList_ofList, toStore_toCaller h.head h.joined,
    String.ofList_toList]

theorem storeSpelled_storeName {name : String} (h : Plain name) :
    StoreSpelled (storeName name) := by
  unfold Plain at h
  constructor
  · intro c hc
    rw [storeName, String.toList_ofList] at hc
    cases hname : name.toList with
    | nil =>
      rw [hname] at hc
      cases hc
    | cons d rest =>
      rw [hname] at hc h
      obtain rfl := Option.some.inj hc
      exact h d List.mem_cons_self
  · rw [storeName, String.toList_ofList]
    cases name.toList with
    | nil => exact .nil
    | cons d rest => exact joined_joinWords rest

/-- The two spellings of a name stand for each other: every name without upper-case letters has one
spelling in the store and comes back from it, and every store spelling belongs to one such name. -/
theorem storeName_bijOn :
    Set.BijOn storeName {name | Plain name} {name | StoreSpelled name} ∧
    (∀ name, Plain name → callerName (storeName name) = name) ∧
    ∀ name, StoreSpelled name →
      storeName (callerName name) = name ∧ Plain (callerName name) := by
  refine ⟨⟨?_, ?_, ?_⟩, ?_, ?_⟩
  · intro name hname
    exact storeSpelled_storeName hname
  · intro name hname other hother heq
    exact storeName_injective hname hother heq
  · intro name hname
    exact ⟨callerName name, plain_callerName name, storeName_callerName hname⟩
  · intro name hname
    exact callerName_storeName hname
  · intro name hname
    exact ⟨storeName_callerName hname, plain_callerName name⟩

/-- Underscores at both ends, in a row and before a digit. -/
theorem storeName_bijOn_underscores :
    Plain "_a__b_1_c_" ∧ callerName (storeName "_a__b_1_c_") = "_a__b_1_c_" ∧
    StoreSpelled "_a_B_1C_" ∧ storeName (callerName "_a_B_1C_") = "_a_B_1C_" := by
  have hplain : Plain "_a__b_1_c_" := by decide
  have hspelled : StoreSpelled "_a_B_1C_" := by decide
  obtain ⟨_, hname, hstore⟩ := storeName_bijOn
  exact ⟨hplain, hname _ hplain, hspelled, (hstore _ hspelled).1⟩

end DocumentSql.NameCase
