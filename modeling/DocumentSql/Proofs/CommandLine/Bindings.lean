import DocumentSql.CommandLine.Arguments
import DocumentSql.Proofs.Grammar.Lexeme
/-
What a binding denotes when it has no digits. Numerals are tried before texts, and they have words
of their own for what digits cannot write, so a binding that is such a word is no text.
-/

namespace DocumentSql

namespace Numeral

def Digitless (s : List Char) : Prop := ∀ c ∈ s, c.isDigit = false

instance (s : List Char) : Decidable (Digitless s) :=
  List.decidableBAll (fun c : Char => c.isDigit = false) s

def words : List String := ["inf", "infinity", "nan"]

/-- A word in any letter case, perhaps behind a sign. -/
def IsWord (s : List Char) : Prop :=
  ∃ mark ∈ [[], ['+'], ['-']], ∃ letters, s = mark ++ letters ∧
    String.ofList (Text.lower letters) ∈ words

variable {s : List Char}

theorem isWord_iff : IsWord s ↔ String.ofList (Text.lower (sign s).2) ∈ words := by
  constructor
  · rintro ⟨mark, hmark, letters, rfl, hword⟩
    simp only [List.mem_cons, List.not_mem_nil, or_false] at hmark
    obtain rfl | rfl | rfl := hmark
    · -- No word begins with a sign, so none is taken off.
      have hsign : sign letters = (false, letters) := by
        unfold sign
        split
        · simp [words, Text.lower, String.ext_iff] at hword
        · simp [words, Text.lower, String.ext_iff] at hword
        · rfl
      rw [List.nil_append, hsign]
      exact hword
    · exact hword
    · exact hword
  · intro hword
    unfold sign at hword
    split at hword
    · exact ⟨['-'], by decide, _, rfl, hword⟩
    · exact ⟨['+'], by decide, _, rfl, hword⟩
    · exact ⟨[], by decide, _, rfl, hword⟩

instance (s : List Char) : Decidable (IsWord s) := decidable_of_iff _ isWord_iff.symm

theorem Digitless.stops (h : Digitless s) : Stops Char.isDigit s := stops_of_forall h

theorem Digitless.tail {c : Char} (h : Digitless (c :: s)) : Digitless s := fun d hd =>
  h d (List.mem_cons_of_mem c hd)

theorem Digitless.sign (h : Digitless s) : Digitless (Numeral.sign s).2 := by
  unfold Numeral.sign
  split
  · exact h.tail
  · exact h.tail
  · exact h

theorem decimalBody_eq_none (negative : Bool) (h : Digitless s) :
    decimalBody negative s = none := by
  rw [decimalBody, h.stops.takeWhile_eq, h.stops.dropWhile_eq]
  split
  next fraction rest hcut =>
    have hfraction : fraction = [] := by
      split at hcut
      · exact (Prod.mk.inj hcut).1.symm.trans h.tail.stops.takeWhile_eq
      · exact (Prod.mk.inj hcut).1.symm
    rw [hfraction]
    rfl

/-- Without digits only a word is a numeral, and that of no finite number. -/
theorem ofText?_cases (h : Digitless s) :
    (¬IsWord s ∧ ofText? s = none) ∨
      IsWord s ∧ (ofText? s = some nan ∨ ∃ negative, ofText? s = some (infinite negative)) := by
  rw [isWord_iff, ofText?]
  dsimp only
  by_cases hinfinite : String.ofList (Text.lower (sign s).2) = "inf" ∨
      String.ofList (Text.lower (sign s).2) = "infinity"
  · rw [if_pos hinfinite]
    refine .inr ⟨?_, .inr ⟨_, rfl⟩⟩
    obtain hword | hword := hinfinite
    · rw [hword]
      decide
    · rw [hword]
      decide
  rw [if_neg hinfinite]
  by_cases hnan : String.ofList (Text.lower (sign s).2) = "nan"
  · rw [if_pos hnan, hnan]
    exact .inr ⟨by decide, .inl rfl⟩
  · rw [if_neg hnan, decimalBody_eq_none _ h.sign]
    refine .inl ⟨fun hword => ?_, rfl⟩
    simp only [words, List.mem_cons, List.not_mem_nil, or_false] at hword
    tauto

end Numeral

open Numeral (Digitless IsWord)

theorem int64OfText?_eq_none {s : List Char} (h : Digitless s) : int64OfText? s = none := by
  rw [int64OfText?]
  dsimp only
  cases hdigits : (Numeral.sign s).2 with
  | nil => rfl
  | cons c rest =>
    have hc : c.isDigit = false := h.sign c (hdigits ▸ List.mem_cons_self)
    rw [List.all_cons, hc]
    rfl

namespace CommandLine

def typedWords : List String := ["true", "false", "null", "NULL"]

theorem bindingValue_of_digitless {binding : String} (h : Digitless binding.toList)
    (hword : binding ∉ typedWords) :
    (¬IsWord binding.toList ∧ bindingValue binding = .text binding) ∨
      IsWord binding.toList ∧ ∃ x, bindingValue binding = .number x ∧
        (x = .nan ∨ ∃ negative, x = .infinite negative) := by
  unfold bindingValue
  rw [int64OfText?_eq_none h]
  dsimp only
  obtain ⟨hplain, hnone⟩ | ⟨hnumber, hsome⟩ := Numeral.ofText?_cases h
  · rw [hnone]
    refine .inl ⟨hplain, ?_⟩
    simp only [typedWords, List.mem_cons, List.not_mem_nil, or_false, not_or] at hword
    obtain ⟨htrue, hfalse, hnull, hnull'⟩ := hword
    dsimp only
    split
    · exact absurd rfl htrue
    · exact absurd rfl hfalse
    · exact absurd rfl hnull
    · exact absurd rfl hnull'
    · rfl
  · refine .inr ⟨hnumber, ?_⟩
    obtain hnan | ⟨negative, hinfinite⟩ := hsome
    · rw [hnan]
      exact ⟨_, rfl, .inl rfl⟩
    · rw [hinfinite]
      exact ⟨_, rfl, .inr ⟨negative, rfl⟩⟩

/-- Each binding gives one value, in their order. One without digits, typed words apart, is kept as
a text just if it is no word for a number, and of such a word the number is not finite. -/
theorem text_kept_iff (bindings : List String) :
    (bindingValues bindings).length = bindings.length ∧
    ∀ (i : Nat) (binding : String), bindings[i]? = some binding →
      Digitless binding.toList → binding ∉ typedWords →
      ((bindingValues bindings)[i]? = some (.text binding) ↔ ¬IsWord binding.toList) ∧
      (IsWord binding.toList → ∃ x, (bindingValues bindings)[i]? = some (.number x) ∧
        (x = .nan ∨ ∃ negative, x = .infinite negative)) := by
  refine ⟨List.length_map bindingValue, ?_⟩
  intro i binding hbinding hdigitless hword
  rw [bindingValues, List.getElem?_map, hbinding, Option.map_some, Option.some.injEq]
  obtain ⟨hplain, hvalue⟩ | ⟨hnumber, x, hvalue, hx⟩ := bindingValue_of_digitless hdigitless hword
  · exact ⟨iff_of_true hvalue hplain, fun hnumber => absurd hnumber hplain⟩
  · rw [hvalue]
    exact ⟨iff_of_false nofun (not_not_intro hnumber), fun _ => ⟨x, rfl, hx⟩⟩

/-- A name, a word that is typed only in small letters, and a word for a number behind its sign. -/
theorem text_kept_iff_names :
    let bindings := ["Ann", "TRUE", "-Infinity"]
    (bindingValues bindings).length = 3 ∧
      Digitless "Ann".toList ∧ "Ann" ∉ typedWords ∧ ¬IsWord "Ann".toList ∧
      (bindingValues bindings)[0]? = some (.text "Ann") ∧
      Digitless "TRUE".toList ∧ "TRUE" ∉ typedWords ∧ ¬IsWord "TRUE".toList ∧
      (bindingValues bindings)[1]? = some (.text "TRUE") ∧
      Digitless "-Infinity".toList ∧ "-Infinity" ∉ typedWords ∧ IsWord "-Infinity".toList ∧
      (bindingValues bindings)[2]? ≠ some (.text "-Infinity") := by
  intro bindings
  obtain ⟨hlength, hkept⟩ := text_kept_iff bindings
  have hann : Digitless "Ann".toList := by decide +kernel
  have htrue : Digitless "TRUE".toList := by decide +kernel
  have hinfinity : Digitless "-Infinity".toList := by decide +kernel
  have hplain : ¬IsWord "Ann".toList := by decide +kernel
  have hplain' : ¬IsWord "TRUE".toList := by decide +kernel
  have hnumber : IsWord "-Infinity".toList := by decide +kernel
  refine ⟨hlength, hann, by decide, hplain, ?_, htrue, by decide, hplain', ?_, hinfinity,
    by decide, hnumber, ?_⟩
  · exact (hkept 0 "Ann" rfl hann (by decide)).1.mpr hplain
  · exact (hkept 1 "TRUE" rfl htrue (by decide)).1.mpr hplain'
  · exact fun htext => (hkept 2 "-Infinity" rfl hinfinity (by decide)).1.mp htext hnumber

/-- A person's name without digits is read as a number. -/
theorem name_read_as_number :
    Digitless "Nan".toList ∧ "Nan" ∉ typedWords ∧ bindingValues ["Nan"] = [.number .nan] := by
  decide +kernel

end CommandLine

end DocumentSql
