import GraphQLModels.CommandLine.Pairs
import GraphQLModels.Proofs.Characters
import Mathlib.Data.List.Basic
import Mathlib.Data.List.TakeWhile

/-!
# Pairs and names of fields

A pair is split at its first separator and stripped on both sides; the name of a field is split at
its first point and nothing is taken away, so no two names name one field.
-/

namespace GraphQLModels

namespace Text

/-- The texts before and after the first separator of a text. -/
structure SplitsAt (separator : Char) (text left right : String) : Prop where
  joined : text.toList = left.toList ++ separator :: right.toList
  first : separator ∉ left.toList

/-- What is in front of the first separator is taken, and the separator comes behind it. -/
theorem cut_iff (separator c : Char) (cs front after : List Char) :
    cs.takeWhile (· != separator) = front ∧ cs.dropWhile (· != separator) = c :: after ↔
      c = separator ∧ cs = front ++ c :: after ∧ separator ∉ front := by
  constructor
  · rintro ⟨rfl, rest⟩
    have stopped := List.head?_dropWhile_not (· != separator) cs
    have parts := List.takeWhile_append_dropWhile (p := (· != separator)) (l := cs)
    refine ⟨by simpa [rest] using stopped, ?_, fun within => ?_⟩
    · rw [← rest, parts]
    · simpa using List.mem_takeWhile_imp within
  · rintro ⟨rfl, rfl, free⟩
    have passed : ∀ x ∈ front, (x != c) = true := by
      intro x within
      simpa using fun same : x = c => free (same ▸ within)
    rw [List.takeWhile_append_of_pos passed, List.dropWhile_append_of_pos passed]
    simp

theorem splitFirst_iff (separator : Char) (text left right : String) :
    splitFirst separator text = some (left, right) ↔ SplitsAt separator text left right := by
  unfold splitFirst
  constructor
  · intro split
    cases rest : text.toList.dropWhile (· != separator) with
    | nil => simp [rest] at split
    | cons c after =>
      simp only [rest, Option.some.injEq, Prod.mk.injEq] at split
      obtain ⟨rfl, rfl⟩ := split
      obtain ⟨rfl, joined, free⟩ := (cut_iff separator c _ _ after).mp ⟨rfl, rest⟩
      constructor
      · simpa only [String.toList_ofList] using joined
      · simpa only [String.toList_ofList] using free
  · intro split
    obtain ⟨taken, dropped⟩ :=
      (cut_iff separator separator _ _ _).mpr ⟨rfl, split.joined, split.first⟩
    simp [taken, dropped]

/-- A text without the white space around it. -/
structure Strips (text core : String) : Prop where
  around : ∃ before after, text.toList = before ++ (core.toList ++ after) ∧
    (∀ c ∈ before, isBlank c = true) ∧ ∀ c ∈ after, isBlank c = true
  starts : ∀ c ∈ core.toList.head?, isBlank c = false
  ends : ∀ c ∈ core.toList.getLast?, isBlank c = false

theorem trim_strips (text : String) : Strips text (trim text) := by
  let body := text.toList.dropWhile isBlank
  let trailing := body.reverse.takeWhile isBlank
  have front : text.toList.takeWhile isBlank ++ body = text.toList :=
    List.takeWhile_append_dropWhile
  have back : dropEndWhile isBlank body ++ trailing.reverse = body := by
    rw [dropEndWhile, ← List.reverse_append, List.takeWhile_append_dropWhile, List.reverse_reverse]
  have core : (trim text).toList = dropEndWhile isBlank body := String.toList_ofList
  constructor
  · refine ⟨_, _, by rw [core, back, front], ?_, ?_⟩
    · exact fun c within => List.mem_takeWhile_imp within
    · exact fun c within => List.mem_takeWhile_imp (List.mem_reverse.mp within)
  · rw [core]
    intro c first
    have same : body.head? = some c := by
      rw [← back, List.head?_append, Option.mem_def.mp first]
      rfl
    have stopped := List.head?_dropWhile_not isBlank text.toList
    simpa [body, same] using stopped
  · rw [core, dropEndWhile, List.getLast?_reverse]
    intro c last
    have stopped := List.head?_dropWhile_not isBlank body.reverse
    simpa [Option.mem_def.mp last] using stopped

theorem Strips.trim_eq {text core : String} (strips : Strips text core) : trim text = core := by
  obtain ⟨before, after, whole, blank, blank'⟩ := strips.around
  rw [trim, whole, List.dropWhile_append_of_pos blank]
  by_cases empty : core.toList = []
  · have nothing : after.dropWhile isBlank = [] := List.dropWhile_eq_nil_iff.mpr blank'
    rw [empty, List.nil_append, nothing, ← String.ofList_toList (s := core), empty]
    rfl
  · have head : ∀ c ∈ (core.toList ++ after).head?, isBlank c = false := by
      rw [List.head?_append_of_ne_nil _ empty]
      exact strips.starts
    rw [dropWhile_of_head head, dropEndWhile_append strips.ends blank', String.ofList_toList]

end Text

namespace CommandLine

/-- A text that holds a key and an item on both sides of its first separator, with or without white
space around them. -/
structure IsPair (separator : Char) (text key item : String) : Prop where
  parts : ∃ left right, Text.SplitsAt separator text left right ∧ Text.Strips left key ∧
    Text.Strips right item
  key_given : key ≠ ""
  item_given : item ≠ ""

theorem readPair_ok_iff (name : String) (separator : Char) (text key item : String) :
    readPair name separator text = .ok (key, item) ↔ IsPair separator text key item := by
  unfold readPair
  constructor
  · intro read
    cases split : Text.splitFirst separator text with
    | none => simp [split] at read
    | some sides =>
      obtain ⟨left, right⟩ := sides
      simp only [split] at read
      split at read
      · cases read
      · rename_i given
        simp only [Except.ok.injEq, Prod.mk.injEq] at read
        obtain ⟨rfl, rfl⟩ := read
        simp only [Bool.or_eq_true, String.isEmpty_iff, not_or] at given
        exact ⟨⟨left, right, (Text.splitFirst_iff _ _ _ _).mp split, Text.trim_strips left,
          Text.trim_strips right⟩, given.1, given.2⟩
  · rintro ⟨⟨left, right, split, stripped, stripped'⟩, key_given, item_given⟩
    simp [(Text.splitFirst_iff _ _ _ _).mpr split, stripped.trim_eq, stripped'.trim_eq, key_given,
      item_given]

/-- A text that names a field of a type: the type stands before the first point. -/
structure NamesField (text : String) (place : String × String) : Prop where
  split : Text.SplitsAt '.' text place.1 place.2
  type_given : place.1 ≠ ""
  field_given : place.2 ≠ ""

theorem overrideKey_ok_iff (text : String) (place : String × String) :
    overrideKey text = .ok place ↔ NamesField text place := by
  obtain ⟨type, field⟩ := place
  unfold overrideKey
  constructor
  · intro read
    cases split : Text.splitFirst '.' text with
    | none => simp [split] at read
    | some sides =>
      obtain ⟨left, right⟩ := sides
      simp only [split] at read
      split at read
      · cases read
      · rename_i given
        simp only [Except.ok.injEq, Prod.mk.injEq] at read
        obtain ⟨rfl, rfl⟩ := read
        simp only [Bool.or_eq_true, String.isEmpty_iff, not_or] at given
        exact ⟨(Text.splitFirst_iff _ _ _ _).mp split, given.1, given.2⟩
  · rintro ⟨split, type_given, field_given⟩
    simp only at split type_given field_given
    simp [(Text.splitFirst_iff _ _ _ _).mpr split, type_given, field_given]

/-- Two texts that name one field are the same text. -/
theorem NamesField.text_eq {text other : String} {place : String × String}
    (names : NamesField text place) (names' : NamesField other place) : text = other :=
  String.toList_inj.mp (names.split.joined.trans names'.split.joined.symm)

theorem NamesField.place_eq {text : String} {place other : String × String}
    (names : NamesField text place) (names' : NamesField text other) : place = other := by
  have same := (overrideKey_ok_iff text place).mpr names
  rw [(overrideKey_ok_iff text other).mpr names', Except.ok.injEq] at same
  exact same.symm

end CommandLine

end GraphQLModels
