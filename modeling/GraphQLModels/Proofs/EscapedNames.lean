import GraphQLModels.Identifier
import GraphQLModels.Proofs.Characters
import GraphQLModels.Proofs.Mappings

/-!
# Escaped names

Escaping makes a name free for its use. Two names come to be the same only if one of them is what
the other is escaped to.
-/

namespace GraphQLModels

namespace Text

/-! ## The ends of a text -/

theorem beginsWith_iff (s start : String) : beginsWith s start = true ↔ ∃ rest, s = start ++ rest := by
  rw [beginsWith, List.isPrefixOf_iff_prefix]
  constructor
  · rintro ⟨letters, joined⟩
    refine ⟨String.ofList letters, String.toList_inj.mp ?_⟩
    rw [String.toList_append, String.toList_ofList, joined]
  · rintro ⟨rest, rfl⟩
    exact ⟨rest.toList, String.toList_append.symm⟩

theorem endsWith_iff (s finish : String) : endsWith s finish = true ↔ ∃ stem, s = stem ++ finish := by
  rw [endsWith, List.isSuffixOf_iff_suffix]
  constructor
  · rintro ⟨letters, joined⟩
    refine ⟨String.ofList letters, String.toList_inj.mp ?_⟩
    rw [String.toList_append, String.toList_ofList, joined]
  · rintro ⟨stem, rfl⟩
    exact ⟨stem.toList, String.toList_append.symm⟩

/-! ## Underscores around a name -/

theorem isPrefixOf_marks (n : Nat) (cs : List Char) :
    (List.replicate n '_').isPrefixOf cs = true ↔ n ≤ (cs.takeWhile (· == '_')).length := by
  induction n generalizing cs with
  | zero => simp
  | succ n ih =>
    cases cs with
    | nil => simp [List.replicate_succ]
    | cons c rest =>
      by_cases mark : c = '_'
      · subst mark
        simp [List.replicate_succ, ih]
      · have other : ('_' == c) = false := by simpa using Ne.symm mark
        simp [List.replicate_succ, List.isPrefixOf_cons_cons, other, mark]

theorem beginsWith_mark (s : String) : beginsWith s "_" = true ↔ 1 ≤ leadingMarks s :=
  isPrefixOf_marks 1 s.toList

theorem beginsWith_marks (s : String) : beginsWith s "__" = true ↔ 2 ≤ leadingMarks s :=
  isPrefixOf_marks 2 s.toList

theorem endsWith_mark (s : String) : endsWith s "_" = true ↔ 1 ≤ trailingMarks s :=
  isPrefixOf_marks 1 s.toList.reverse

theorem endsWith_marks (s : String) : endsWith s "__" = true ↔ 2 ≤ trailingMarks s :=
  isPrefixOf_marks 2 s.toList.reverse

theorem leadingMarks_le (s : String) : leadingMarks s ≤ s.length := by
  rw [← String.length_toList]
  exact (List.takeWhile_prefix _).length_le

theorem takeWhile_length_lt {α : Type} (p : α → Bool) (xs : List α) :
    (xs.takeWhile p).length < xs.length ↔ ∃ x ∈ xs, p x = false := by
  induction xs with
  | nil => simp
  | cons x xs ih => cases given : p x <;> simp [given, ih]

/-- A text that is not all underscores is so from either end. -/
theorem trailingMarks_lt (s : String) :
    trailingMarks s < s.length ↔ leadingMarks s < s.length := by
  unfold trailingMarks leadingMarks
  have length : s.length = s.toList.reverse.length := by
    rw [List.length_reverse, String.length_toList]
  rw [← String.length_toList, takeWhile_length_lt, String.length_toList, length,
    takeWhile_length_lt]
  simp

theorem takeWhile_append_of_lt {α : Type} (p : α → Bool) (xs ys : List α)
    (stops : (xs.takeWhile p).length < xs.length) :
    (xs ++ ys).takeWhile p = xs.takeWhile p := by
  rw [List.takeWhile_append, if_neg (Nat.ne_of_lt stops)]

/-- Nothing changes in front of a text that is not all underscores. -/
theorem leadingMarks_append (s t : String) (stops : leadingMarks s < s.length) :
    leadingMarks (s ++ t) = leadingMarks s := by
  unfold leadingMarks at stops ⊢
  rw [← String.length_toList] at stops
  rw [String.toList_append, takeWhile_append_of_lt _ _ _ stops]

theorem leadingMarks_le_append (s t : String) : leadingMarks s ≤ leadingMarks (s ++ t) := by
  unfold leadingMarks
  rw [String.toList_append, List.takeWhile_append]
  split
  · rename_i all
    rw [List.length_append, all]
    exact Nat.le_add_right _ _
  · exact Nat.le_refl _

/-- Nothing changes behind a text that is not all underscores. -/
theorem trailingMarks_append (s t : String) (stops : trailingMarks t < t.length) :
    trailingMarks (s ++ t) = trailingMarks t := by
  unfold trailingMarks at stops ⊢
  have length : t.length = t.toList.reverse.length := by
    rw [List.length_reverse, String.length_toList]
  rw [length] at stops
  rw [String.toList_append, List.reverse_append, takeWhile_append_of_lt _ _ _ stops]

theorem trailingMarks_marked (s : String) : trailingMarks (s ++ "_") = trailingMarks s + 1 := by
  simp [trailingMarks, List.reverse_append]

theorem length_marked (s : String) : (s ++ "_").length = s.length + 1 := by
  rw [String.length_append]
  rfl

end Text

namespace IdentifierUse

open Text (leadingMarks trailingMarks)

theorem isSunder_iff (name : String) :
    isSunder name = true ↔ 2 < name.length ∧ 1 ≤ leadingMarks name ∧ 1 ≤ trailingMarks name := by
  have first : ∀ cs : List Char, cs.head? = some '_' ↔ 1 ≤ (cs.takeWhile (· == '_')).length := by
    intro cs
    cases cs with
    | nil => simp
    | cons c rest => by_cases mark : c = '_' <;> simp [mark]
  simp only [isSunder, String.length_toList, Bool.and_eq_true, decide_eq_true_eq, beq_iff_eq,
    and_assoc]
  rw [← List.head?_reverse, first, first]
  rfl

/-! ## Reserved names -/

/-- No reserved name has an underscore in front or begins as a name that is set off, and only one
has an underscore behind it. -/
theorem reserved_letters (use : IdentifierUse) : ∀ cs ∈ (reserved use).map String.toList,
    cs ≠ [] ∧ cs.head? ≠ some '_' ∧ cs.take 5 ≠ ['f', 'i', 'e', 'l', 'd'] ∧
      (cs.getLast? = some '_' → cs = ['t', 'y', 'p', 'e', 'n', 'a', 'm', 'e', '_', '_']) := by
  cases use <;>
    simp only [reserved, keywords, classAttributes, memberAttributes, List.map_cons, List.map_nil,
      List.cons_append, List.nil_append, Text.toList_of_eq rfl] <;>
    decide

theorem typename_free (use : IdentifierUse) : "typename_" ∉ reserved use := by
  cases use <;> simp [reserved, keywords, classAttributes, memberAttributes, typenameField]

/-- A reserved name is free with an underscore behind it. -/
theorem reserved_marked (use : IdentifierUse) (name : String) (taken : name ∈ reserved use) :
    name ++ "_" ∉ reserved use := by
  intro again
  have mark := (reserved_letters use _ (List.mem_map_of_mem again)).2.2.2 (by simp)
  rw [String.toList_append] at mark
  have split : name.toList ++ ['_'] = "typename_".toList ++ ['_'] := mark
  have same : name = "typename_" := String.toList_inj.mp (List.append_cancel_right split)
  exact typename_free use (same ▸ taken)
/-- Whatever stands behind a reserved name, no underscore is in front of it. -/
theorem reserved_leadingMarks (use : IdentifierUse) (name tail : String)
    (taken : name ∈ reserved use) : leadingMarks (name ++ tail) = 0 := by
  obtain ⟨nonempty, unmarked, -⟩ := reserved_letters use _ (List.mem_map_of_mem taken)
  obtain ⟨c, rest, letters⟩ := List.exists_cons_of_ne_nil nonempty
  rw [letters] at unmarked
  have other : c ≠ '_' := fun same => unmarked (congrArg some same)
  simp [leadingMarks, String.toList_append, letters, other]

theorem reserved_unmarked (use : IdentifierUse) (name : String) (taken : name ∈ reserved use) :
    leadingMarks name = 0 := by
  rw [← String.append_empty (s := name)]
  exact reserved_leadingMarks use name "" taken

/-- What is set off is free. -/
theorem field_free (use : IdentifierUse) (name : String) : "field" ++ name ∉ reserved use := by
  intro taken
  exact (reserved_letters use _ (List.mem_map_of_mem taken)).2.2.1 (by simp)

/-! ## Escaping -/

/-- Whether a name gets an underscore behind it. -/
def marks (use : IdentifierUse) (name : String) : Bool :=
  use.reserved.contains name || use == .enumMember && isSunder name

theorem marks_iff (use : IdentifierUse) (name : String) :
    use.marks name = true ↔ name ∈ use.reserved ∨
      use = .enumMember ∧ 2 < name.length ∧ 1 ≤ leadingMarks name ∧ 1 ≤ trailingMarks name := by
  simp [marks, isSunder_iff]

theorem escape_eq (use : IdentifierUse) (name : String) :
    use.escape name =
      if use == .field && Text.beginsWith name "_" then "field" ++ name
      else if use.marks name then name ++ "_" else name := by
  unfold escape marks
  cases use.reserved.contains name <;> rfl

/-- Names other than those of fields are not set off. -/
theorem escape_unset (use : IdentifierUse) (other : use ≠ .field) (name : String) :
    use.escape name = if use.marks name then name ++ "_" else name := by
  have differ : (use == IdentifierUse.field) = false := by simpa using other
  rw [escape_eq, differ, Bool.false_and, if_neg Bool.false_ne_true]

theorem escape_field (name : String) :
    escape .field name =
      if Text.beginsWith name "_" then "field" ++ name
      else if (reserved .field).contains name then name ++ "_" else name := by
  have other : (IdentifierUse.field == IdentifierUse.enumMember) = false := rfl
  simp only [escape_eq, marks, other, Bool.false_and, Bool.or_false, BEq.rfl, Bool.true_and]

theorem escape_not_reserved (use : IdentifierUse) (name : String) :
    use.escape name ∉ use.reserved := by
  rw [escape_eq]
  -- A name is set off, gets an underscore or stays as it is.
  split
  · exact field_free use name
  split
  · rename_i marked
    rcases (use.marks_iff name).mp marked with taken | ⟨-, -, front, -⟩
    · exact reserved_marked use name taken
    · -- With an underscore in front it is reserved neither before nor after.
      intro again
      have kept := Text.leadingMarks_le_append name "_"
      have none := reserved_unmarked use _ again
      omega
  · rename_i free
    exact fun taken => free ((use.marks_iff name).mpr (.inl taken))

/-- An escaped name is free, and no underscore is in front of it. -/
theorem escape_free (name : String) :
    escape .field name ∉ reserved .field ∧ Text.beginsWith (escape .field name) "_" = false := by
  refine ⟨escape_not_reserved .field name, ?_⟩
  rw [escape_field]
  split
  · rw [Text.beginsWith, String.toList_append]
    rfl
  · rename_i plain
    split
    · rename_i taken
      have unmarked := reserved_leadingMarks .field name "_" (List.contains_iff_mem.mp taken)
      rw [← Bool.not_eq_true, Text.beginsWith_mark]
      omega
    · simpa using plain

theorem escape_escape (name : String) :
    escape .field (escape .field name) = escape .field name := by
  obtain ⟨free, unmarked⟩ := escape_free name
  rw [escape_field (escape .field name), unmarked, if_neg Bool.false_ne_true,
    if_neg fun taken => free (List.contains_iff_mem.mp taken)]

/-! ## Names that clash -/

/-- Whether the second name is what the first one is escaped to. -/
inductive Clashes (use : IdentifierUse) (one other : String) : Prop
  | marked (taken : one ∈ use.reserved) (same : other = one ++ "_")
  | setOff (isField : use = .field) (mark : Text.beginsWith one "_" = true)
      (same : other = "field" ++ one)

instance (use : IdentifierUse) (one other : String) : Decidable (use.Clashes one other) :=
  decidable_of_iff
    (one ∈ use.reserved ∧ other = one ++ "_" ∨
      use = .field ∧ Text.beginsWith one "_" = true ∧ other = "field" ++ one)
    ⟨fun given =>
      given.elim (fun both => .marked both.1 both.2) fun all => .setOff all.1 all.2.1 all.2.2,
      fun
      | .marked taken same => .inl ⟨taken, same⟩
      | .setOff isField mark same => .inr ⟨isField, mark, same⟩⟩

theorem Clashes.ne {use : IdentifierUse} {one other : String} (clash : use.Clashes one other) :
    one ≠ other := by
  rintro rfl
  cases clash with
  | marked _ same => exact absurd (String.append_eq_left_iff.mp same.symm) (by decide)
  | setOff _ _ same => exact absurd (String.append_eq_right_iff.mp same.symm) (by decide)

/-- What a name is escaped to stays as it is. -/
theorem Clashes.escape_eq {use : IdentifierUse} {one other : String}
    (clash : use.Clashes one other) : use.escape one = use.escape other := by
  cases clash with
  | marked taken same =>
    have begins : ∀ name, leadingMarks name = 0 → Text.beginsWith name "_" = false := by
      intro name none
      rw [← Bool.not_eq_true, Text.beginsWith_mark]
      omega
    have front := reserved_leadingMarks use one "_" taken
    have isMarked : use.marks one = true := (use.marks_iff one).mpr (.inl taken)
    have isFree : use.marks (one ++ "_") = false := by
      rw [← Bool.not_eq_true, marks_iff]
      rintro (again | ⟨-, -, marks, -⟩)
      · exact reserved_marked use one taken again
      · omega
    rw [same, IdentifierUse.escape_eq, IdentifierUse.escape_eq,
      begins _ (reserved_unmarked use one taken), begins _ front]
    simp [isMarked, isFree]
  | setOff isField mark same =>
    have front : Text.beginsWith ("field" ++ one) "_" = false := by
      rw [Text.beginsWith, String.toList_append]
      rfl
    subst isField
    rw [same, escape_field, escape_field, mark, if_pos rfl, front]
    simp [field_free]

/-- Where two names get the same ending or none, it tells nothing. -/
theorem eq_of_marks_eq (use : IdentifierUse) (one other : String)
    (same : (if use.marks one then one ++ "_" else one) =
      if use.marks other then other ++ "_" else other) :
    one = other ∨ use.marks one = true ∧ use.marks other = false ∧ other = one ++ "_" ∨
      use.marks other = true ∧ use.marks one = false ∧ one = other ++ "_" := by
  cases first : use.marks one <;> cases second : use.marks other <;>
    simp only [first, second, if_true, Bool.false_eq_true, if_false] at same
  · exact .inl same
  · exact .inr (.inr ⟨rfl, rfl, same⟩)
  · exact .inr (.inl ⟨rfl, rfl, same.symm⟩)
  · exact .inl ((String.append_left_inj "_").mp same)

/-- A name that gets an underscore, where the name with an underscore gets none, is reserved: an
enum would reserve both for itself. -/
theorem taken_of_marks (use : IdentifierUse) (name : String) (marked : use.marks name = true)
    (free : use.marks (name ++ "_") = false) : name ∈ use.reserved := by
  rcases (use.marks_iff name).mp marked with taken | ⟨isMember, long, front, behind⟩
  · exact taken
  · -- One more underscore behind the name keeps it between underscores.
    have kept := Text.leadingMarks_le_append name "_"
    have again : use.marks (name ++ "_") = true := by
      rw [marks_iff, Text.trailingMarks_marked, Text.length_marked]
      exact .inr ⟨isMember, by omega, by omega, by omega⟩
    exact absurd (free.symm.trans again) Bool.false_ne_true

/-- A name that is set off can only meet one that already begins as if it were. -/
theorem setOff_clashes (use : IdentifierUse) (one other : String)
    (off : (use == .field && Text.beginsWith one "_") = true)
    (same : "field" ++ one = if use.marks other then other ++ "_" else other) :
    use.Clashes one other := by
  rw [Bool.and_eq_true, beq_iff_eq] at off
  cases marked : use.marks other with
  | false =>
    rw [marked, if_neg Bool.false_ne_true] at same
    exact .setOff off.1 off.2 same.symm
  | true =>
    rw [marked, if_pos rfl] at same
    have taken : other ∈ use.reserved := by
      rcases (use.marks_iff other).mp marked with taken | ⟨isMember, -⟩
      · exact taken
      · cases off.1.symm.trans isMember
    obtain ⟨nonempty, -, begins, -⟩ := reserved_letters use _ (List.mem_map_of_mem taken)
    have letters := congrArg String.toList same
    rw [String.toList_append, String.toList_append] at letters
    obtain ⟨c, tail, split⟩ : ∃ c tail, one.toList = c :: tail := by
      cases spelled : one.toList with
      | nil => simp [Text.beginsWith, spelled] at off
      | cons c tail => exact ⟨c, tail, rfl⟩
    -- The reserved name is at least as long as the word that sets off.
    have long : 5 ≤ other.toList.length := by
      have lengths := congrArg List.length letters
      simp [split] at lengths
      omega
    have front := congrArg (List.take 5) letters
    rw [List.take_append_of_le_length long] at front
    exact absurd (by simpa using front.symm) begins

/-- **Two names are escaped to the same one** exactly if one of them is what the other is escaped
to. -/
theorem escape_eq_iff (use : IdentifierUse) (one other : String) (different : one ≠ other) :
    use.escape one = use.escape other ↔ use.Clashes one other ∨ use.Clashes other one := by
  constructor
  swap
  · rintro (clash | clash)
    · exact clash.escape_eq
    · exact clash.escape_eq.symm
  intro same
  rw [escape_eq, escape_eq] at same
  cases first : (use == .field && Text.beginsWith one "_") <;>
    cases second : (use == .field && Text.beginsWith other "_") <;>
    simp only [first, second, if_true, Bool.false_eq_true, if_false] at same
  · rcases eq_of_marks_eq use one other same with equal | ⟨marked, free, rfl⟩ | ⟨marked, free, rfl⟩
    · exact absurd equal different
    · exact .inl (.marked (taken_of_marks use one marked free) rfl)
    · exact .inr (.marked (taken_of_marks use other marked free) rfl)
  · exact .inr (setOff_clashes use other one second same.symm)
  · exact .inl (setOff_clashes use one other first same)
  · exact absurd ((String.append_right_inj "field").mp same) different

/-- Different names are escaped to different ones exactly if none of them is what another is escaped
to. -/
theorem map_escape_nodup_iff (use : IdentifierUse) (names : List String)
    (distinct : names.Nodup) :
    (names.map use.escape).Nodup ↔ ∀ one ∈ names, ∀ other ∈ names, ¬use.Clashes one other := by
  exact nodup_map_iff_unrelated use.escape use.Clashes (fun one other => Clashes.ne)
    (escape_eq_iff use) names distinct

end IdentifierUse

end GraphQLModels
