import GraphQLModels.Proofs.EscapedNames
import GraphQLModels.Proofs.LaidOut
import GraphQLModels.Proofs.Mappings

/-!
# The members of an enum

An enum has one member for each of its values unless a value is hidden in it or two values come to
share a name. A value is hidden if its name is private to the class or stands between double
underscores once it is escaped.
-/

namespace GraphQLModels

namespace Model

open Text (leadingMarks trailingMarks)

/-! ## Names in a class -/

theorem isPrivate_iff (name : String) :
    isPrivate name = true ↔ 2 ≤ leadingMarks name ∧ trailingMarks name < 2 := by
  rw [isPrivate, Bool.and_eq_true, Bool.not_eq_true', Text.beginsWith_marks, ← Bool.not_eq_true,
    Text.endsWith_marks, Nat.not_le]

theorem isPrivate_stops (name : String) (isPrivate : isPrivate name = true) :
    trailingMarks name < name.length ∧ leadingMarks name < name.length := by
  obtain ⟨front, behind⟩ := (isPrivate_iff name).mp isPrivate
  have length := Text.leadingMarks_le name
  have stops : trailingMarks name < name.length := by omega
  exact ⟨stops, (Text.trailingMarks_lt name).mp stops⟩

/-- A class keeps names as they are, except that it may put something in front of private ones. -/
theorem keptName_cases (className : String) :
    (∀ name, keptName className name = name) ∨
      ∃ front, leadingMarks front = 1 ∧ 1 < front.length ∧ ∀ name, keptName className name =
        if isPrivate name then front ++ name else name := by
  -- Nothing is put in front if the name of the class is all underscores.
  generalize spelled : className.toList.dropWhile (· == '_') = stem
  cases stem with
  | nil =>
    left
    intro name
    simp [keptName, spelled]
  | cons c rest =>
    right
    have other : c ≠ '_' := by
      have first := List.head?_dropWhile_not (· == '_') className.toList
      rw [spelled] at first
      simpa using first
    refine ⟨"_" ++ String.ofList (c :: rest), ?_, ?_, fun name => ?_⟩
    · simp [leadingMarks, other]
    · rw [← String.length_toList]
      simp
    · simp [keptName, spelled]

theorem isSetBetween_iff (count : Nat) (name : String) :
    isSetBetween count name = true ↔
      2 * count < name.length ∧ leadingMarks name = count ∧ trailingMarks name = count := by
  simp [isSetBetween, and_assoc]

theorem isLeftOut_bounds (className name : String) (leftOut : isLeftOut className name = true) :
    1 ≤ leadingMarks name ∧ trailingMarks name < 2 ∧ 2 < name.length := by
  rw [isLeftOut, Bool.and_eq_true, Bool.not_eq_true', ← Bool.not_eq_true, Text.endsWith_marks,
    Nat.not_le] at leftOut
  obtain ⟨begins, behind⟩ := leftOut
  -- A name is left out since the class puts its own name in front, or since it is there already.
  by_cases hidden : isPrivate name = true
  · have front := ((isPrivate_iff name).mp hidden).1
    have stops := (isPrivate_stops name hidden).2
    exact ⟨by omega, behind, by omega⟩
  · have same : keptName className name = name := by
      rcases keptName_cases className with plain | ⟨_, _, _, kept⟩
      · exact plain name
      · rw [kept, if_neg hidden]
    rw [same, Text.beginsWith, List.isPrefixOf_iff_prefix] at begins
    have length := begins.length_le
    refine ⟨?_, behind, ?_⟩
    · rw [← Text.beginsWith_mark, Text.beginsWith, List.isPrefixOf_iff_prefix]
      refine List.IsPrefix.trans ?_ begins
      rw [String.toList_append, String.toList_append, List.append_assoc]
      exact List.prefix_append _ _
    · rw [← String.length_toList]
      simp at length
      omega

/-! ## Values that share a name -/

/-- Whether the second of two values takes the name of the first one: that to which the first one is
escaped, or that which a class makes of a private one. -/
inductive SharesName (use : IdentifierUse) (className one other : String) : Prop
  | escaped (clash : use.Clashes one other)
  | disguised (hidden : isPrivate (use.escape one) = true) (same : other = keptName className one)
      (different : other ≠ one)

instance (use : IdentifierUse) (className one other : String) :
    Decidable (SharesName use className one other) :=
  decidable_of_iff
    (use.Clashes one other ∨ isPrivate (use.escape one) = true ∧
      other = keptName className one ∧ other ≠ one)
    ⟨fun given => given.elim .escaped fun all => .disguised all.1 all.2.1 all.2.2,
      fun
      | .escaped clash => .inl clash
      | .disguised hidden same different => .inr ⟨hidden, same, different⟩⟩

theorem SharesName.ne {use : IdentifierUse} {className one other : String}
    (shares : SharesName use className one other) : one ≠ other := by
  cases shares with
  | escaped clash => exact clash.ne
  | disguised _ _ different => exact different.symm

section

variable (use : IdentifierUse) (unset : use ≠ .field)

include unset

/-- A name that gets an underscore is not private. -/
theorem escape_of_private (name : String) (hidden : isPrivate (use.escape name) = true) :
    use.escape name = name ∧ use.marks name = false := by
  rw [use.escape_unset unset] at hidden ⊢
  cases marked : use.marks name with
  | false => exact ⟨rfl, rfl⟩
  | true =>
    rw [marked, if_pos rfl, isPrivate_iff, Text.trailingMarks_marked] at hidden
    rcases (use.marks_iff name).mp marked with taken | ⟨-, -, -, behind⟩
    · have front := use.reserved_leadingMarks name "_" taken
      omega
    · omega

/-- With something in front a private name stays as it is, and comes from no other name. -/
theorem escape_disguised (front name other : String) (mark : leadingMarks front = 1)
    (long : 1 < front.length) (hidden : isPrivate (use.escape name) = true) :
    use.escape other = front ++ name ↔ other = front ++ name := by
  obtain ⟨same, unmarked⟩ := escape_of_private use unset name hidden
  rw [same] at hidden
  have bounds := (isPrivate_iff name).mp hidden
  have stops := isPrivate_stops name hidden
  -- With one underscore in front a name is neither reserved nor private.
  have begins : leadingMarks (front ++ name) = 1 := by
    rw [Text.leadingMarks_append _ _ (by omega), mark]
  have ends := Text.trailingMarks_append front name stops.1
  have free : ∀ other, other = front ++ name → use.marks other = false := by
    rintro _ rfl
    rw [← Bool.not_eq_true, use.marks_iff] at unmarked ⊢
    rintro (taken | ⟨isMember, -, -, behind⟩)
    · have none := use.reserved_unmarked _ taken
      omega
    · exact unmarked (.inr ⟨isMember, by omega, by omega, by omega⟩)
  rw [use.escape_unset unset]
  constructor
  · intro given
    cases marked : use.marks other with
    | false => simpa [marked] using given
    | true =>
      exfalso
      rw [marked, if_pos rfl] at given
      rcases (use.marks_iff other).mp marked with taken | ⟨-, -, -, behind⟩
      · have none := use.reserved_leadingMarks other "_" taken
        rw [given] at none
        omega
      · rw [← given, Text.trailingMarks_marked] at ends
        omega
  · intro given
    rw [free other given, if_neg Bool.false_ne_true, given]

section

variable (className front : String) (mark : leadingMarks front = 1) (long : 1 < front.length)
  (kept : ∀ name, keptName className name = if isPrivate name then front ++ name else name)

include mark long kept

/-- A private value is kept as what another one is escaped to exactly if this is the other one. -/
theorem keptName_eq_escape_iff (one other : String)
    (hidden : isPrivate (use.escape one) = true) :
    keptName className (use.escape one) = use.escape other ↔ other = keptName className one := by
  have unchanged := (escape_of_private use unset one hidden).1
  rw [unchanged, kept one, if_pos (unchanged ▸ hidden), eq_comm,
    escape_disguised use unset front one other mark long hidden]

/-- What a private value is kept as is not private. -/
theorem not_isPrivate_kept (one : String) (hidden : isPrivate (use.escape one) = true) :
    isPrivate (use.escape (keptName className one)) = false := by
  have unchanged := (escape_of_private use unset one hidden).1
  have same : keptName className one = front ++ one := by
    rw [kept, if_pos (unchanged ▸ hidden)]
  rw [(escape_disguised use unset front one _ mark long hidden).mpr same, ← Bool.not_eq_true,
    isPrivate_iff, Text.leadingMarks_append _ _ (by omega)]
  omega

/-- What takes the name of a value is kept under the same name. -/
theorem SharesName.keptName_eq {one other : String} (shares : SharesName use className one other) :
    keptName className (use.escape one) = keptName className (use.escape other) := by
  cases shares with
  | escaped clash => rw [clash.escape_eq]
  | disguised hidden same _ =>
    subst same
    rw [kept (use.escape (keptName className one)),
      not_isPrivate_kept use unset className front mark long kept one hidden,
      if_neg Bool.false_ne_true]
    exact (keptName_eq_escape_iff use unset className front mark long kept one _ hidden).mpr rfl

end

/-- **Two values come to share a name** in a class exactly if one takes the name of the other. -/
theorem keptName_escape_eq_iff (className one other : String) (different : one ≠ other) :
    keptName className (use.escape one) = keptName className (use.escape other) ↔
      SharesName use className one other ∨ SharesName use className other one := by
  rcases keptName_cases className with plain | ⟨front, mark, long, kept⟩
  · rw [plain, plain, use.escape_eq_iff one other different]
    constructor
    · exact Or.imp .escaped .escaped
    · rintro (shares | shares)
      · cases shares with
        | escaped clash => exact .inl clash
        | disguised _ same different => exact absurd (same.trans (plain one)) different
      · cases shares with
        | escaped clash => exact .inr clash
        | disguised _ same different => exact absurd (same.trans (plain other)) different
  constructor
  swap
  · rintro (shares | shares)
    · exact shares.keptName_eq use unset className front mark long kept
    · exact (shares.keptName_eq use unset className front mark long kept).symm
  intro same
  -- Which of the two are private decides where the class puts something in front.
  cases first : isPrivate (use.escape one) <;> cases second : isPrivate (use.escape other)
  · rw [kept, kept, first, second] at same
    exact ((use.escape_eq_iff one other different).mp same).imp .escaped .escaped
  · rw [kept (use.escape one), first, if_neg Bool.false_ne_true, eq_comm,
      keptName_eq_escape_iff use unset className front mark long kept other one second] at same
    exact .inr (.disguised second same different)
  · rw [kept (use.escape other), second, if_neg Bool.false_ne_true,
      keptName_eq_escape_iff use unset className front mark long kept one other first] at same
    exact .inl (.disguised first same different.symm)
  · rw [kept, kept, first, second, if_pos rfl, if_pos rfl] at same
    have escaped := (String.append_right_inj front).mp same
    exact ((use.escape_eq_iff one other different).mp escaped).imp .escaped .escaped

theorem map_keptName_nodup_iff (className : String) (values : List String)
    (distinct : values.Nodup) :
    (values.map fun v => keptName className (use.escape v)).Nodup ↔
      ∀ one ∈ values, ∀ other ∈ values, ¬SharesName use className one other := by
  exact nodup_map_iff_unrelated _ (SharesName use className)
    (fun one other => SharesName.ne) (keptName_escape_eq_iff use unset className) values distinct

end

/-! ## Values that are hidden -/

/-- Whether an enum makes no member of a value: the name is private to the class, or it gets its
second underscore behind where there are two in front. -/
inductive IsHidden (className value : String) : Prop
  | isPrivate (leftOut : isLeftOut className value = true)
      (unmarked : Text.endsWith value "_" = false)
  | isSpecial (doubled : isSetBetween 2 (value ++ "_") = true)

instance (className value : String) : Decidable (IsHidden className value) :=
  decidable_of_iff
    (isLeftOut className value = true ∧ Text.endsWith value "_" = false ∨
      isSetBetween 2 (value ++ "_") = true)
    ⟨fun given => given.elim (fun both => .isPrivate both.1 both.2) .isSpecial,
      fun
      | .isPrivate leftOut unmarked => .inl ⟨leftOut, unmarked⟩
      | .isSpecial doubled => .inr doubled⟩

theorem marks_member_iff (name : String) :
    IdentifierUse.enumMember.marks name = true ↔ name ∈ IdentifierUse.enumMember.reserved ∨
      2 < name.length ∧ 1 ≤ leadingMarks name ∧ 1 ≤ trailingMarks name := by
  rw [IdentifierUse.marks_iff, eq_self, true_and]

theorem escape_member (name : String) : IdentifierUse.enumMember.escape name =
    if IdentifierUse.enumMember.marks name then name ++ "_" else name :=
  IdentifierUse.enumMember.escape_unset (by decide) name

/-- What stands between underscores is not private, so that nothing is put in front of it. -/
theorem keptName_doubled (className name : String)
    (doubled : isSetBetween 2 (keptName className name) = true) :
    keptName className name = name := by
  rcases keptName_cases className with plain | ⟨front, mark, long, kept⟩
  · exact plain name
  · rw [isSetBetween_iff, kept] at doubled
    rw [kept]
    split
    · rename_i hidden
      rw [if_pos hidden, Text.leadingMarks_append _ _ (by omega)] at doubled
      omega
    · rfl

theorem keptName_of_behind (className name : String) (behind : 2 ≤ trailingMarks name) :
    keptName className name = name := by
  have visible : ¬isPrivate name = true := by
    rw [isPrivate_iff]
    omega
  rcases keptName_cases className with plain | ⟨_, _, _, kept⟩
  · exact plain name
  · rw [kept, if_neg visible]

/-- An escaped name is passed over by an enum exactly if its value is hidden. -/
theorem isHidden_iff (className value : String) :
    IsHidden className value ↔
      isLeftOut className (IdentifierUse.enumMember.escape value) = true ∨
        isSetBetween 2 (keptName className (IdentifierUse.enumMember.escape value)) = true := by
  rw [escape_member]
  have marked := marks_member_iff value
  have tail := Text.trailingMarks_marked value
  -- All conditions are on how many underscores are in front of the value and behind it.
  constructor
  · rintro (⟨leftOut, unmarked⟩ | doubled)
    · have bounds := isLeftOut_bounds className value leftOut
      rw [← Bool.not_eq_true, Text.endsWith_mark] at unmarked
      have free : ¬IdentifierUse.enumMember.marks value = true := by
        rw [marked]
        rintro (taken | sunder)
        · have front := IdentifierUse.reserved_unmarked _ value taken
          omega
        · omega
      rw [if_neg free]
      exact .inl leftOut
    · obtain ⟨long, front, behind⟩ := (isSetBetween_iff 2 _).mp doubled
      rw [Text.length_marked] at long
      have stops := (Text.trailingMarks_lt value).mp (by omega)
      rw [Text.leadingMarks_append _ _ stops] at front
      have isMarked : IdentifierUse.enumMember.marks value = true :=
        marked.mpr (.inr ⟨by omega, by omega, by omega⟩)
      rw [if_pos isMarked, keptName_of_behind _ _ (by omega)]
      exact .inr doubled
  · rintro (leftOut | doubled)
    · obtain ⟨front, behind, long⟩ := isLeftOut_bounds className _ leftOut
      by_cases isMarked : IdentifierUse.enumMember.marks value = true
      · rw [if_pos isMarked] at front behind
        rcases marked.mp isMarked with taken | sunder
        · have none := IdentifierUse.reserved_leadingMarks _ value "_" taken
          omega
        · omega
      · rw [if_neg isMarked] at leftOut front behind long
        rw [marked] at isMarked
        refine .isPrivate leftOut ?_
        rw [← Bool.not_eq_true, Text.endsWith_mark]
        exact fun ends => isMarked (.inr ⟨long, front, ends⟩)
    · have same := keptName_doubled className _ doubled
      rw [same] at doubled
      by_cases isMarked : IdentifierUse.enumMember.marks value = true
      · rw [if_pos isMarked] at doubled
        exact .isSpecial doubled
      · rw [if_neg isMarked, isSetBetween_iff] at doubled
        exact absurd (marked.mpr (.inr ⟨by omega, by omega, by omega⟩)) isMarked

/-- No escaped name is one that an enum reserves for itself. -/
theorem escaped_not_sunder (className value : String) :
    isSetBetween 1 (keptName className (IdentifierUse.enumMember.escape value)) = false := by
  rw [← Bool.not_eq_true, isSetBetween_iff]
  rintro ⟨long, front, behind⟩
  have marked := marks_member_iff value
  have plain : keptName className (IdentifierUse.enumMember.escape value) =
      IdentifierUse.enumMember.escape value → False := by
    intro same
    rw [same, escape_member] at long front behind
    by_cases isMarked : IdentifierUse.enumMember.marks value = true
    · rw [if_pos isMarked] at front behind
      rw [Text.trailingMarks_marked] at behind
      rcases marked.mp isMarked with taken | sunder
      · have none := IdentifierUse.reserved_leadingMarks _ value "_" taken
        omega
      · omega
    · rw [if_neg isMarked] at long front behind
      exact isMarked (marked.mpr (.inr ⟨by omega, by omega, by omega⟩))
  rcases keptName_cases className with never | ⟨start, mark, long', kept⟩
  · exact plain (never _)
  -- A private value has no underscore behind, since it would have got one more.
  by_cases hidden : isPrivate (IdentifierUse.enumMember.escape value) = true
  · obtain ⟨same, free⟩ := escape_of_private .enumMember (by decide) value hidden
    rw [kept, if_pos hidden, same] at behind
    rw [same] at hidden
    have stops := isPrivate_stops value hidden
    have bounds := (isPrivate_iff value).mp hidden
    rw [Text.trailingMarks_append _ _ stops.1] at behind
    rw [← Bool.not_eq_true, marked] at free
    exact free (.inr ⟨by omega, by omega, by omega⟩)
  · exact plain (by rw [kept, if_neg hidden])

/-- No escaped name is a keyword or an attribute of the members, as a class keeps it. -/
theorem keptName_not_reserved (className value : String) :
    keptName className (IdentifierUse.enumMember.escape value) ∉
      IdentifierUse.enumMember.reserved := by
  have free := IdentifierUse.enumMember.escape_not_reserved value
  rcases keptName_cases className with never | ⟨start, mark, long, kept⟩
  · rwa [never]
  · rw [kept]
    split
    · intro taken
      have none := IdentifierUse.reserved_unmarked _ _ taken
      rw [Text.leadingMarks_append _ _ (by omega)] at none
      omega
    · exact free

/-! ## The body of an enum -/

/-- The members that an enum makes of its body, if it makes them: those that are not passed over. -/
def shownMembers (className : String) (body : List Source.Member) : List (String × String) :=
  (body.filter fun m =>
    !isLeftOut className m.name && !isSetBetween 2 (keptName className m.name)).map fun m =>
    (keptName className m.name, m.value)

/-- Members are made exactly if none has a name of the enum itself and all names are different. -/
theorem enumMembers_ok_iff (className : String) (seen : List (String × String))
    (body : List Source.Member) (result : List (String × String))
    (distinct : (seen.map (·.1)).Nodup) :
    enumMembers className seen body = .ok result ↔
      (∀ m ∈ body, isLeftOut className m.name = false →
        isSetBetween 1 (keptName className m.name) = false) ∧
      ((seen ++ shownMembers className body).map (·.1)).Nodup ∧
      result = seen ++ shownMembers className body := by
  -- The induction is on the body, over all members that are already made.
  induction body generalizing seen with
  | nil =>
    simp only [enumMembers, shownMembers, List.filter_nil, List.map_nil, List.append_nil,
      Except.ok.injEq]
    constructor
    · rintro rfl
      exact ⟨by simp, distinct, rfl⟩
    · rintro ⟨-, -, rfl⟩
      rfl
  | cons m rest ih =>
    unfold enumMembers
    cases leftOut : isLeftOut className m.name with
    | true =>
      simpa [leftOut, shownMembers] using ih seen distinct
    | false =>
      cases sunder : isSetBetween 1 (keptName className m.name) with
      | true => simp [leftOut, sunder]
      | false =>
        cases dunder : isSetBetween 2 (keptName className m.name) with
        | true =>
          simpa [leftOut, sunder, dunder, shownMembers] using ih seen distinct
        | false =>
          have shown : shownMembers className (m :: rest) =
              (keptName className m.name, m.value) :: shownMembers className rest := by
            simp [shownMembers, leftOut, dunder]
          rw [shown]
          cases known : seen.any fun entry => entry.1 == keptName className m.name with
          | true =>
            -- A name that has been seen is there twice.
            simp only [sunder, dunder, known, Bool.false_eq_true, if_false, if_true, reduceCtorEq,
              false_iff]
            rintro ⟨-, apart, -⟩
            rw [List.map_append, List.map_cons, List.nodup_append] at apart
            exact apart.2.2 _ ((any_key_iff _ _).mp known) _ List.mem_cons_self rfl
          | false =>
            have fresh : keptName className m.name ∉ seen.map (·.1) := fun old =>
              Bool.false_ne_true (known.symm.trans ((any_key_iff _ _).mpr old))
            have step := ih (seen ++ [(keptName className m.name, m.value)])
              (by simpa using List.Nodup.concat fresh distinct)
            simpa [leftOut, sunder, dunder, known] using step

/-- Whether a body has one statement for each of some values, under its escaped names. -/
structure IsBodyOf (body : List Source.Member) (values : List String) : Prop where
  values : body.map (·.value) = values
  names : ∀ m ∈ body, m.name = IdentifierUse.enumMember.escape m.value
  constants : ∀ m ∈ body, m.constant = IdentifierUse.constant.escape m.value

/-- Whether an enum has exactly one member for each value, in order: each under a name of its own
that is free and that the enum does not treat in a way of its own. -/
structure HasEveryValue (members : List (String × String)) (values : List String) : Prop where
  values : members.map (·.2) = values
  apart : (members.map (·.1)).Nodup
  free : ∀ entry ∈ members, entry.1 ∉ IdentifierUse.enumMember.reserved ∧
    isSetBetween 1 entry.1 = false ∧ isSetBetween 2 entry.1 = false

/-- Only names between double underscores keep an enum from being built. -/
theorem spoilsEnum_doubled (hasMembers : Bool) (name : String)
    (spoils : spoilsEnum hasMembers name = true) (className : String) :
    isSetBetween 2 (keptName className name) = true := by
  have listed : name ∈ ["__classcell__", "__order__", "__getattr__", "__getattribute__", "__init__",
      "__new__", "__setattr__"] := by
    simp only [spoilsEnum, Bool.or_eq_true, Bool.and_eq_true, List.contains_iff_mem] at spoils
    rcases spoils with first | ⟨-, second⟩
    · exact List.mem_append_left ["__getattr__", "__getattribute__", "__init__", "__new__",
        "__setattr__"] first
    · exact List.mem_append_right ["__classcell__", "__order__"] second
  have known : ∀ name ∈ ["__classcell__", "__order__", "__getattr__", "__getattribute__",
      "__init__", "__new__", "__setattr__"], isSetBetween 2 name = true := by
    decide
  have doubled := known name listed
  rwa [keptName_of_behind className name (by have := (isSetBetween_iff 2 name).mp doubled; omega)]

theorem enumBody_ok_iff (className : String) (body : List Source.Member)
    (members : List (String × String)) :
    enumBody className body = .ok members ↔ enumMembers className [] body = .ok members ∧
      ∀ m ∈ body, spoilsEnum (!members.isEmpty) m.name = false := by
  unfold enumBody
  rw [Outcome.bind_ok_iff]
  constructor
  · rintro ⟨made, listed, built⟩
    split at built
    · cases built
    · rename_i none
      cases built
      refine ⟨listed, fun m member => ?_⟩
      simpa using List.find?_eq_none.mp none m member
  · rintro ⟨listed, whole⟩
    refine ⟨members, listed, ?_⟩
    have none : (body.find? fun m => spoilsEnum (!members.isEmpty) m.name) = none :=
      List.find?_eq_none.mpr fun m member => by simp [whole m member]
    rw [none]
    rfl

/-- As many members as statements are made only if no statement is passed over. -/
theorem length_shownMembers_iff (className : String) (body : List Source.Member) :
    (shownMembers className body).length = body.length ↔ ∀ m ∈ body,
      isLeftOut className m.name = false ∧ isSetBetween 2 (keptName className m.name) = false := by
  rw [shownMembers, List.length_map]
  constructor
  · intro lengths m member
    have all := (List.filter_sublist).eq_of_length lengths
    simpa using List.filter_eq_self.mp all m member
  · intro shown
    rw [List.filter_eq_self.mpr fun m member => by simp [shown m member]]

theorem shownMembers_eq (className : String) (body : List Source.Member)
    (shown : ∀ m ∈ body,
      isLeftOut className m.name = false ∧ isSetBetween 2 (keptName className m.name) = false) :
    shownMembers className body = body.map fun m => (keptName className m.name, m.value) := by
  rw [shownMembers, List.filter_eq_self.mpr fun m member => by simp [shown m member]]

/-- No statement is passed over exactly if no value is hidden. -/
theorem IsBodyOf.shown_iff {body : List Source.Member} {values : List String}
    (of : IsBodyOf body values) (className : String) :
    (∀ m ∈ body, isLeftOut className m.name = false ∧
      isSetBetween 2 (keptName className m.name) = false) ↔
      ∀ v ∈ values, ¬IsHidden className v := by
  rw [← of.values, List.forall_mem_map]
  refine forall₂_congr fun m member => ?_
  rw [isHidden_iff, ← of.names m member, not_or, Bool.not_eq_true, Bool.not_eq_true]

/-- **An enum has a member for each value** exactly if no value is hidden and none takes the name of
another. -/
theorem enumBody_complete_iff (className : String) (body : List Source.Member)
    (values : List String) (of : IsBodyOf body values) (distinct : values.Nodup) :
    (∃ members, enumBody className body = .ok members ∧ HasEveryValue members values) ↔
      (∀ v ∈ values, ¬IsHidden className v) ∧
      ∀ one ∈ values, ∀ other ∈ values, ¬SharesName .enumMember className one other := by
  have names : body.map (fun m => keptName className m.name) =
      values.map fun v => keptName className (IdentifierUse.enumMember.escape v) := by
    rw [← of.values, List.map_map]
    exact List.map_congr_left fun m member => by rw [of.names m member]; rfl
  rw [← map_keptName_nodup_iff .enumMember (by decide) className values distinct, ← names,
    ← of.shown_iff className]
  constructor
  · rintro ⟨members, built, every⟩
    obtain ⟨listed, -⟩ := (enumBody_ok_iff className body members).mp built
    obtain ⟨-, apart, rfl⟩ :=
      (enumMembers_ok_iff className [] body members List.nodup_nil).mp listed
    rw [List.nil_append] at every apart
    -- A statement that is passed over would leave too few members.
    have lengths := congrArg List.length (every.values.trans of.values.symm)
    rw [List.length_map, List.length_map] at lengths
    have shown := (length_shownMembers_iff className body).mp lengths
    rw [shownMembers_eq className body shown, List.map_map] at apart
    exact ⟨shown, apart⟩
  · rintro ⟨shown, apart⟩
    have listed := (enumMembers_ok_iff className [] body _ List.nodup_nil).mpr
      ⟨fun m member _ => of.names m member ▸ escaped_not_sunder className m.value, by
        rw [List.nil_append, shownMembers_eq className body shown, List.map_map]
        exact apart, rfl⟩
    rw [List.nil_append, shownMembers_eq className body shown] at listed
    refine ⟨_, (enumBody_ok_iff className body _).mpr ⟨listed, fun m member => ?_⟩, ?_, ?_, ?_⟩
    · -- Names that spoil an enum are hidden in it.
      rw [← Bool.not_eq_true]
      intro spoils
      have doubled := spoilsEnum_doubled _ m.name spoils className
      exact Bool.false_ne_true ((shown m member).2.symm.trans doubled)
    · rw [List.map_map, ← of.values]
      rfl
    · rw [List.map_map]
      exact apart
    · intro entry member
      obtain ⟨m, isMember, rfl⟩ := List.mem_map.mp member
      have named := of.names m isMember
      exact ⟨named ▸ keptName_not_reserved className m.value,
        named ▸ escaped_not_sunder className m.value, (shown m isMember).2⟩

/-! ## The companion of an enum -/

/-- Only a keyword comes to be another constant, and no keyword keeps a class from being built. -/
theorem spoilsConstants_escape (value : String) :
    spoilsConstants (IdentifierUse.constant.escape value) = spoilsConstants value := by
  rw [IdentifierUse.constant.escape_unset (by decide)]
  cases marked : IdentifierUse.constant.marks value with
  | false => rw [if_neg Bool.false_ne_true]
  | true =>
    have none : ∀ name, leadingMarks name = 0 → spoilsConstants name = false := by
      intro name zero
      rw [← Bool.not_eq_true]
      simp only [spoilsConstants, List.contains_iff_mem, List.mem_cons, List.not_mem_nil, or_false]
      rintro (rfl | rfl) <;> exact absurd zero (by decide)
    rcases (IdentifierUse.marks_iff _ value).mp marked with taken | ⟨isMember, -⟩
    · rw [if_pos rfl, none _ (IdentifierUse.reserved_unmarked _ value taken),
        none _ (IdentifierUse.reserved_leadingMarks _ value "_" taken)]
    · cases isMember

/-- Whether a class of constants has exactly one constant for each value, in order, each under a
name of its own. -/
structure HasEveryConstant (constants : List (String × String)) (values : List String) : Prop where
  values : constants.map (·.2) = values
  apart : (constants.map (·.1)).Nodup

/-- **The companion of an enum has a constant for each value** exactly if none of them keeps it from
being built and none takes the name of another. -/
theorem companionConstants_complete_iff (className : String) (body : List Source.Member)
    (values : List String) (of : IsBodyOf body values) (distinct : values.Nodup) :
    (∃ constants, companionConstants className body = .ok constants ∧
      HasEveryConstant constants values) ↔
      (∀ v ∈ values, spoilsConstants v = false) ∧
      ∀ one ∈ values, ∀ other ∈ values, ¬SharesName .constant className one other := by
  -- The constants have the escaped names of the values, which spoil the class if the values do.
  have spoils : ∀ m ∈ body, spoilsConstants m.constant = spoilsConstants m.value :=
    fun m member => by rw [of.constants m member, spoilsConstants_escape]
  have names : (body.map fun m => (keptName className m.constant, m.value)).map (·.1) =
      values.map fun v => keptName className (IdentifierUse.constant.escape v) := by
    rw [← of.values, List.map_map, List.map_map]
    exact List.map_congr_left fun m member => by
      rw [Function.comp_apply, of.constants m member]; rfl
  have lengths : (body.map fun m => (keptName className m.constant, m.value)).length =
      values.length := by
    rw [← of.values, List.length_map, List.length_map]
  rw [← map_keptName_nodup_iff .constant (by decide) className values distinct, ← names]
  unfold companionConstants
  constructor
  · rintro ⟨constants, built, every⟩
    split at built
    · cases built
    · rename_i none
      cases built
      refine ⟨fun v isValue => ?_, ?_⟩
      · rw [← of.values] at isValue
        obtain ⟨m, member, rfl⟩ := List.mem_map.mp isValue
        rw [← spoils m member]
        simpa using List.find?_eq_none.mp none m member
      · -- Keys that are all kept are all different.
        refine distinct_of_length_setKeys [] _ List.nodup_nil ?_
        have all := congrArg List.length every.values
        rw [List.length_map] at all
        rw [all, lengths, List.length_nil, Nat.zero_add]
  · rintro ⟨whole, apart⟩
    have none : (body.find? fun m => spoilsConstants m.constant) = none := by
      refine List.find?_eq_none.mpr fun m member => ?_
      rw [spoils m member, whole m.value (of.values ▸ List.mem_map_of_mem member)]
      exact Bool.false_ne_true
    rw [none]
    refine ⟨_, rfl, ?_, setKeys_nodup [] _ List.nodup_nil⟩
    rw [setKeys_distinct [] _ apart, List.nil_append, List.map_map, ← of.values]
    rfl

/-! ## Loaded enums -/

theorem loadEnum_ok (s s' : Loading) (e : Source.EnumClass) (given : loadEnum s e = .ok s') :
    ∃ members, enumBody (nameText e.name) e.members = .ok members ∧
      s'.enums = s.enums ++ [{ name := nameText e.name, members }] ∧
      (e.stringConstants = true → ∃ constants,
        companionConstants (Source.Module.companionName e.name) e.members = .ok constants) := by
  obtain ⟨members, built, given⟩ := (Outcome.bind_ok_iff _ _ _).mp given
  refine ⟨members, built, ?_⟩
  split at given
  · obtain ⟨constants, made, given⟩ := (Outcome.bind_ok_iff _ _ _).mp given
    cases given
    exact ⟨rfl, fun _ => ⟨constants, made⟩⟩
  · rename_i without
    cases given
    exact ⟨rfl, fun with' => absurd with' without⟩

/-- Whether an enum is loaded from an enum class, with all its members, and so is its companion. -/
def IsLoadedFrom (loaded : List Enum) (e : Source.EnumClass) : Prop :=
  (∃ members, enumBody (nameText e.name) e.members = .ok members ∧
    { name := nameText e.name, members } ∈ loaded) ∧
  (e.stringConstants = true → ∃ constants,
    companionConstants (Source.Module.companionName e.name) e.members = .ok constants)

/-- A module loads only if each of its enums can be built, and has what is built. -/
theorem load_enums {world : World} (m : Source.Module) (lib : Library)
    (given : load m world = .ok lib) :
    ∀ e ∈ m.enums, IsLoadedFrom lib.enums e := by
  obtain ⟨trace⟩ := load_trace m lib given
  intro e member
  obtain ⟨i, present⟩ := List.mem_iff_getElem?.mp member
  obtain ⟨t, u, -, loaded, later⟩ := Outcome.foldlM_at loadEnum m.enums _ _ trace.enums i e present
  obtain ⟨members, built, added, companion⟩ := loadEnum_ok t u e loaded
  refine ⟨⟨members, built, ?_⟩, companion⟩
  -- The enums after it come behind it.
  rw [trace.libraryEnums, trace.withAliases_enums]
  refine Outcome.foldlM_preserves (fun s => { name := nameText e.name, members } ∈ s.enums)
    loadEnum _ u _ (by simp [added]) later fun other _ s s' listed step => ?_
  obtain ⟨_, -, same, -⟩ := loadEnum_ok s s' other step
  rw [same]
  exact List.mem_append_left _ listed

end Model

/-! ## Laid-out enums -/

namespace Source

theorem member_ok (value : EnumValue) (made : Member) (given : member value = .ok made) :
    value.name = some made.value ∧ made.name = IdentifierUse.enumMember.escape made.value ∧
      made.constant = IdentifierUse.constant.escape made.value := by
  unfold member at given
  split at given
  · rename_i name named
    cases given
    exact ⟨named, rfl, rfl⟩
  · cases given

theorem enumClass_ok (d : EnumDef) (c : EnumClass) (values : List String)
    (named : d.values.map (·.name) = values.map some) (given : enumClass d = .ok c) :
    c.name = d.name ∧ c.stringConstants = d.stringConstants ∧ Model.IsBodyOf c.members values := by
  obtain ⟨members, made, given⟩ := (Outcome.bind_ok_iff _ _ _).mp given
  cases given
  refine ⟨rfl, rfl, ?_, ?_, ?_⟩
  · have same := Outcome.mapM_map member (fun m => some m.value) (·.name)
      (fun value m given => (member_ok value m given).1.symm) d.values members made
    rw [named] at same
    have injective : Function.Injective (some : String → Option String) :=
      fun _ _ => Option.some.inj
    refine injective.list_map ?_
    rw [List.map_map]
    exact same
  · intro m isMember
    obtain ⟨value, -, gives⟩ := Outcome.mapM_from _ _ _ made m isMember
    exact (member_ok value m gives).2.1
  · intro m isMember
    obtain ⟨value, -, gives⟩ := Outcome.mapM_from _ _ _ made m isMember
    exact (member_ok value m gives).2.2

end Source

/-- The class of a kept enum is in the laid-out module. -/
theorem exists_enumClass (m : Module) (setup : Setup) (source : Source.Module)
    (laidOut : m.source setup = .ok source) (d : EnumDef)
    (kept : .enum d ∈ Hook.runFilters setup.hooks m.definitions) :
    ∃ c ∈ source.enums, Source.enumClass d = .ok c :=
  Outcome.mapM_mem _ _ _ (source_laysOut m setup source laidOut).enums d
    (List.mem_filterMap.mpr ⟨_, kept, rfl⟩)

/-- **Which values of an enum are kept.** The class of an enum with different values has exactly one
member for each of them if and only if none is hidden in it and none takes the name of another; and
its companion has one constant for each if and only if none keeps it from being built and none takes
the name of another. A module that cannot build them does not load. -/
theorem enum_values_kept_iff (options : Options) (t : SchemaType) (values : List String)
    (named : t.enumValues.map (·.name) = values.map some) (distinct : values.Nodup) (m : Module)
    (setup : Setup) (kept : .enum (emitEnum options t) ∈ Hook.runFilters setup.hooks m.definitions)
    (source : Source.Module) (laidOut : m.source setup = .ok source) :
    ∃ c ∈ source.enums, c.name = t.name ∧ c.stringConstants = options.enumsAsText ∧
      ((∃ members, Model.enumBody (nameText t.name) c.members = .ok members ∧
          Model.HasEveryValue members values) ↔
        (∀ v ∈ values, ¬Model.IsHidden (nameText t.name) v) ∧
        ∀ one ∈ values, ∀ other ∈ values,
          ¬Model.SharesName .enumMember (nameText t.name) one other) ∧
      ((∃ constants, Model.companionConstants (Source.Module.companionName t.name) c.members =
          .ok constants ∧ Model.HasEveryConstant constants values) ↔
        (∀ v ∈ values, Model.spoilsConstants v = false) ∧
        ∀ one ∈ values, ∀ other ∈ values,
          ¬Model.SharesName .constant (Source.Module.companionName t.name) one other) ∧
      ∀ world lib, Model.load source world = .ok lib → Model.IsLoadedFrom lib.enums c := by
  obtain ⟨c, listed, made⟩ := exists_enumClass m setup source laidOut _ kept
  have values_named : (emitEnum options t).values.map (·.name) = values.map some := by
    rw [← named]
    exact List.map_map
  obtain ⟨name, constants, body⟩ := Source.enumClass_ok _ c values values_named made
  refine ⟨c, listed, name, constants, ?_, ?_, fun world lib loaded => ?_⟩
  · exact Model.enumBody_complete_iff _ c.members values body distinct
  · exact Model.companionConstants_complete_iff _ c.members values body distinct
  · exact Model.load_enums source lib loaded c listed

/-! ## A value and the name it is escaped to -/

/-- An enum of letters with given values. -/
def letterType (values : List String) : SchemaType where
  kind := .enum
  name := "Letter"
  enumValues := values.map fun value => { name := some value }

def letterOptions : Options := { moduleName := "letters", enumsAsText := true }

def letterModule (values : List String) : Module where
  moduleName := "letters"
  definitions := [.enum (emitEnum letterOptions (letterType values))]
  enumsAsText := true

theorem letterModule_emitted (values : List String) :
    (emit letterOptions { types := [letterType values] }).outcome = .ok (letterModule values) := rfl

def letterSource (members : List Source.Member) : Source.Module where
  title := "letters"
  imports := []
  enums := [{ name := some "Letter", description := none, members, stringConstants := true }]
  contracts := []
  objects := []
  aliases := []

/-- The members for a reserved name, a name between underscores, and a free one. -/
def lowMembers : List Source.Member :=
  [{ name := "lower_", constant := "lower", value := "lower" },
    { name := "_low__", constant := "_low_", value := "_low_" },
    { name := "L", constant := "L", value := "L" }]

/-- An enum that keeps its values. -/
theorem enum_values_kept_iff_low : ∃ c ∈ (letterSource lowMembers).enums, ∃ members,
    Model.enumBody "Letter" c.members = .ok members ∧
      Model.HasEveryValue members ["lower", "_low_", "L"] := by
  obtain ⟨c, listed, -, -, iff, -⟩ := enum_values_kept_iff letterOptions
    (letterType ["lower", "_low_", "L"]) ["lower", "_low_", "L"] rfl (by decide)
    (letterModule ["lower", "_low_", "L"]) {} (List.mem_singleton.mpr rfl)
    (letterSource lowMembers) (source_of_sorted _ _ _ rfl rfl)
  exact ⟨c, listed, iff.mpr (by decide)⟩

/-- The members for a reserved name and the name to which it is escaped. -/
def lowerMembers : List Source.Member :=
  [{ name := "lower_", constant := "lower", value := "lower" },
    { name := "lower_", constant := "lower_", value := "lower_" }]

/-- Different values may be escaped to the same member, and then the enum cannot be built. -/
theorem enum_value_may_be_lost :
    ¬∀ (options : Options) (schema : Schema) (m : Module) (setup : Setup) (source : Source.Module),
      (emit options schema).outcome = .ok m → m.source setup = .ok source →
      ∀ t ∈ schema.types, .enum (emitEnum options t) ∈ m.definitions →
      ∀ values : List String, t.enumValues.map (·.name) = values.map some → values.Nodup →
      ∃ c ∈ source.enums, c.name = t.name ∧ ∃ members,
        Model.enumBody (nameText t.name) c.members = .ok members ∧ members.map (·.2) = values := by
  intro keeps
  obtain ⟨c, listed, -, members, built, -⟩ := keeps letterOptions _ _ {} (letterSource lowerMembers)
    (letterModule_emitted ["lower", "lower_"]) (source_of_sorted _ _ _ rfl rfl) _
    (List.mem_singleton.mpr rfl) (List.mem_singleton.mpr rfl) ["lower", "lower_"] rfl (by decide)
  cases List.mem_singleton.mp listed
  have refused : Model.enumBody "Letter" lowerMembers = .error (.repeatedMember "lower_") := rfl
  cases refused.symm.trans built

end GraphQLModels
