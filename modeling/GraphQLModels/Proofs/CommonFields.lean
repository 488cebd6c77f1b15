import GraphQLModels.Proofs.Emission
import Mathlib.Data.List.Nodup
import Mathlib.Data.List.Perm.Basic
import Mathlib.Data.Nat.Find

/-!
# The fields that types have in common

Fields are compared by key: the name and how the type reads outside of any field. The common fields
of some types are those of the first type, in its order, that come first with their key there and
whose key every further type has as well. So the keys depend on which types are given and not on
their order, a further type can only take keys away, and a non-null wrapper changes nothing.

The fields are described by their places in the first type. A key that a field repeats is compared
with all that come before it, also when the two fields differ in what the key leaves out.
-/

namespace GraphQLModels

/-! ## Selections -/

section Selections

variable {α β : Type} {chosen : Nat → Prop} {all selected : List α}

/-- The elements of a list at the places with a property, in order. -/
def IsSelection (chosen : Nat → Prop) (all selected : List α) : Prop :=
  ∃ places : List Nat, places.Pairwise (· < ·) ∧ (∀ i, i ∈ places ↔ chosen i) ∧
    List.Forall₂ (fun i x => all[i]? = some x) places selected

namespace IsSelection

theorem nil (none : ∀ i, ¬chosen i) : IsSelection chosen all [] := by
  refine ⟨[], .nil, ?_, .nil⟩
  intro i
  simp [none i]

theorem congr {other : Nat → Prop} (selection : IsSelection chosen all selected)
    (same : ∀ i, chosen i ↔ other i) : IsSelection other all selected := by
  obtain ⟨places, increasing, exact, found⟩ := selection
  exact ⟨places, increasing, fun i => (exact i).trans (same i), found⟩

/-- A selection of the rest is one of the whole list that leaves the first element out. -/
theorem skip {rest : List α} (x : α) (selection : IsSelection (fun i => chosen (i + 1)) rest selected)
    (out : ¬chosen 0) : IsSelection chosen (x :: rest) selected := by
  obtain ⟨places, increasing, exact, found⟩ := selection
  refine ⟨places.map (· + 1), ?_, ?_, List.forall₂_map_left_iff.mpr found⟩
  · exact increasing.map _ fun _ _ less => Nat.succ_lt_succ less
  · intro i
    cases i with
    | zero => simp [out]
    | succ i => simp [exact]

/-- A selection of the rest, behind the first element, is one of the whole list. -/
theorem keep {rest : List α} (x : α) (selection : IsSelection (fun i => chosen (i + 1)) rest selected)
    (isIn : chosen 0) : IsSelection chosen (x :: rest) (x :: selected) := by
  obtain ⟨places, increasing, exact, found⟩ := selection
  refine ⟨0 :: places.map (· + 1), ?_, ?_, .cons rfl (List.forall₂_map_left_iff.mpr found)⟩
  · refine List.pairwise_cons.mpr ⟨?_, increasing.map _ fun _ _ less => Nat.succ_lt_succ less⟩
    simp
  · intro i
    cases i with
    | zero => simp [isIn]
    | succ i => simp [exact]

theorem mem_iff (selection : IsSelection chosen all selected) (x : α) :
    x ∈ selected ↔ ∃ i, chosen i ∧ all[i]? = some x := by
  obtain ⟨places, _, exact, found⟩ := selection
  constructor
  · intro member
    obtain ⟨i, isPlace, here⟩ := Outcome.forall₂_right found x member
    exact ⟨i, (exact i).mp isPlace, here⟩
  · rintro ⟨i, isChosen, here⟩
    obtain ⟨y, member, there⟩ := Outcome.forall₂_left found i ((exact i).mpr isChosen)
    cases here.symm.trans there
    exact member

theorem map (f : α → β) (selection : IsSelection chosen all selected) :
    IsSelection chosen (all.map f) (selected.map f) := by
  obtain ⟨places, increasing, exact, found⟩ := selection
  refine ⟨places, increasing, exact, List.forall₂_map_right_iff.mpr (found.imp ?_)⟩
  intro i x here
  rw [List.getElem?_map, here, Option.map_some]

/-- Filtering what is selected selects the places whose elements pass. -/
theorem filter (passes : α → Bool) (selection : IsSelection chosen all selected) :
    IsSelection (fun i => chosen i ∧ ∃ x, all[i]? = some x ∧ passes x = true) all
      (selected.filter passes) := by
  obtain ⟨places, increasing, exact, found⟩ := selection
  refine ⟨places.filter fun i => all[i]?.any passes, increasing.filter _, ?_, ?_⟩
  · intro i
    rw [List.mem_filter, exact, Option.any_eq_true]
  · clear increasing exact
    induction found with
    | nil => exact .nil
    | @cons i x places selected here found ih =>
      rw [List.filter_cons, List.filter_cons, here, Option.any_some]
      by_cases kept : passes x = true
      · rw [if_pos kept, if_pos kept]
        exact .cons here ih
      · rw [if_neg kept, if_neg kept]
        exact ih

/-- Elements at different places differ in a selection if they do in the whole list. -/
theorem pairwise {R : α → α → Prop} (selection : IsSelection chosen all selected)
    (related : ∀ i j x y, i < j → chosen j → all[i]? = some x → all[j]? = some y → R x y) :
    selected.Pairwise R := by
  obtain ⟨places, increasing, exact, found⟩ := selection
  replace exact : ∀ i ∈ places, chosen i := fun i => (exact i).mp
  induction found with
  | nil => exact .nil
  | @cons i x places selected here found ih =>
    obtain ⟨before, increasing⟩ := List.pairwise_cons.mp increasing
    refine List.pairwise_cons.mpr
      ⟨?_, ih increasing fun j later => exact j (List.mem_cons_of_mem _ later)⟩
    intro y member
    obtain ⟨j, isPlace, there⟩ := Outcome.forall₂_right found y member
    exact related i j x y (before j isPlace) (exact j (List.mem_cons_of_mem _ isPlace)) here there

/-- Selections by one property from lists that are related are related. -/
theorem forall₂ {R : α → β → Prop} {others picked : List β} (related : List.Forall₂ R all others)
    (selection : IsSelection chosen all selected) (again : IsSelection chosen others picked) :
    List.Forall₂ R selected picked := by
  obtain ⟨places, increasing, exact, found⟩ := selection
  obtain ⟨places', increasing', exact', found'⟩ := again
  -- Increasing lists with the same members are the same list.
  have same : places = places' := by
    have members : ∀ i, i ∈ places ↔ i ∈ places' := fun i => (exact i).trans (exact' i).symm
    apply List.Perm.eq_of_pairwise (fun i j _ _ less more => absurd more (Nat.lt_asymm less))
      increasing increasing'
    exact (List.perm_ext_iff_of_nodup (increasing.imp Nat.ne_of_lt)
      (increasing'.imp Nat.ne_of_lt)).mpr members
  subst same
  clear increasing exact increasing' exact'
  have pointwise : ∀ (i : Nat) (x : α) (y : β), all[i]? = some x → others[i]? = some y → R x y := by
    intro i x y here there
    obtain ⟨inside, rfl⟩ := List.getElem?_eq_some_iff.mp here
    obtain ⟨_, rfl⟩ := List.getElem?_eq_some_iff.mp there
    exact related.get inside (by simpa [related.length_eq] using inside)
  induction found generalizing picked with
  | nil =>
    cases found'
    exact .nil
  | cons here found ih =>
    cases found' with
    | cons there found' => exact .cons (pointwise _ _ _ here there) (ih found')

/-- There is one selection of a list by a property. -/
theorem unique {other : List α} (selection : IsSelection chosen all selected)
    (again : IsSelection chosen all other) : selected = other := by
  have related : List.Forall₂ Eq all all := List.forall₂_refl all
  exact List.forall₂_eq_eq_eq ▸ forall₂ related selection again

end IsSelection

end Selections

/-! ## Keys -/

/-- Whether the fields of some types all resolve. -/
def Resolves (options : Options) (types : List SchemaType) : Prop :=
  ∀ t ∈ types, ∀ field ∈ t.fields, ∃ key, fieldKey options field = .ok key

/-- Whether a type has a field with a key. -/
def Offers (options : Options) (t : SchemaType) (key : FieldKey) : Prop :=
  ∃ field ∈ t.fields, fieldKey options field = .ok key

instance (options : Options) (t : SchemaType) (key : FieldKey) :
    Decidable (Offers options t key) :=
  inferInstanceAs (Decidable (∃ field ∈ t.fields, fieldKey options field = .ok key))

/-- Whether a field of the first type is the first there with its key, and every further type has
that key. -/
def IsCommon (options : Options) (first : SchemaType) (rest : List SchemaType) (i : Nat) : Prop :=
  ∃ field key, first.fields[i]? = some field ∧ fieldKey options field = .ok key ∧
    (∀ j < i, ∀ earlier, first.fields[j]? = some earlier → fieldKey options earlier ≠ .ok key) ∧
    ∀ t ∈ rest, Offers options t key

theorem keyedFields_ok_iff (options : Options) (fields : List SchemaField)
    (keyed : List (FieldKey × SchemaField)) :
    keyedFields options fields = .ok keyed ↔
      keyed.map (·.2) = fields ∧ ∀ entry ∈ keyed, fieldKey options entry.2 = .ok entry.1 := by
  unfold keyedFields
  rw [Outcome.mapM_ok_iff]
  constructor
  · intro each
    induction each with
    | nil => simp
    | cons made _ ih =>
      obtain ⟨key, found, same⟩ := (Outcome.bind_ok_iff _ _ _).mp made
      cases (Outcome.pure_ok_iff _ _).mp same
      exact ⟨by rw [List.map_cons, ih.1], List.forall_mem_cons.mpr ⟨found, ih.2⟩⟩
  · rintro ⟨rfl, each⟩
    rw [List.forall₂_map_left_iff, List.forall₂_same]
    intro entry member
    rw [each entry member]
    rfl

/-- A list of fields gets its keys exactly if all of them resolve. -/
theorem exists_keyedFields_iff (options : Options) (fields : List SchemaField) :
    (∃ keyed, keyedFields options fields = .ok keyed) ↔
      ∀ field ∈ fields, ∃ key, fieldKey options field = .ok key := by
  constructor
  · rintro ⟨keyed, given⟩ field member
    obtain ⟨rfl, each⟩ := (keyedFields_ok_iff options fields keyed).mp given
    obtain ⟨entry, isEntry, rfl⟩ := List.mem_map.mp member
    exact ⟨entry.1, each entry isEntry⟩
  · intro each
    choose! key keyed using each
    refine ⟨fields.map fun field => (key field, field), ?_⟩
    rw [keyedFields_ok_iff]
    constructor
    · rw [List.map_map]
      exact List.map_id fields
    · intro entry member
      obtain ⟨field, isField, rfl⟩ := List.mem_map.mp member
      exact keyed field isField

theorem resolves_cons (options : Options) (t : SchemaType) (rest : List SchemaType) :
    Resolves options (t :: rest) ↔
      (∃ keyed, keyedFields options t.fields = .ok keyed) ∧ Resolves options rest := by
  rw [exists_keyedFields_iff, Resolves, List.forall_mem_cons]
  rfl

theorem offers_iff_of_keyed (options : Options) (t : SchemaType)
    (keyed : List (FieldKey × SchemaField)) (given : keyedFields options t.fields = .ok keyed)
    (key : FieldKey) : Offers options t key ↔ key ∈ keyed.map (·.1) := by
  simp only [Offers, List.mem_map, Prod.exists, exists_and_right, exists_eq_right,
    mem_keyedFields options t.fields keyed given]

/-! ## The first field of each key -/

/-- Of entries with keys, those stay whose key has not been seen and no earlier entry has. -/
theorem firstByKey_selection (seen : List FieldKey) (entries : List (FieldKey × SchemaField)) :
    IsSelection (fun i => ∃ entry, entries[i]? = some entry ∧ entry.1 ∉ seen ∧
        ∀ j < i, ∀ earlier, entries[j]? = some earlier → earlier.1 ≠ entry.1)
      entries (firstByKey seen entries) := by
  induction entries generalizing seen with
  | nil => exact .nil (by simp)
  | cons entry rest ih =>
    rcases entry with ⟨key, field⟩
    unfold firstByKey
    by_cases old : seen.contains key = true
    · rw [if_pos old]
      have isSeen : key ∈ seen := by simpa using old
      refine ((ih seen).congr ?_).skip _ (by simp [isSeen])
      -- The key of the entry in front is a seen one, so it excludes nothing further.
      intro i
      simp only [List.getElem?_cons_succ]
      refine exists_congr fun later => and_congr_right fun _ => and_congr_right fun fresh => ?_
      constructor
      · intro none j less earlier here
        cases j with
        | zero =>
          cases here
          rintro rfl
          exact fresh isSeen
        | succ j => exact none j (by omega) earlier here
      · intro none j less earlier here
        exact none (j + 1) (by omega) earlier here
    · rw [if_neg old]
      have unseen : key ∉ seen := by simpa using old
      refine ((ih (key :: seen)).congr ?_).keep _ ⟨(key, field), rfl, unseen, by simp⟩
      intro i
      simp only [List.getElem?_cons_succ, List.mem_cons, not_or]
      refine exists_congr fun later => and_congr_right fun _ => ?_
      constructor
      · rintro ⟨⟨other, fresh⟩, none⟩
        refine ⟨fresh, ?_⟩
        intro j less earlier here
        cases j with
        | zero =>
          cases here
          exact fun same => other same.symm
        | succ j => exact none j (by omega) earlier here
      · rintro ⟨fresh, none⟩
        refine ⟨⟨?_, fresh⟩, ?_⟩
        · exact fun same => none 0 (by omega) _ rfl same.symm
        · intro j less earlier here
          exact none (j + 1) (by omega) earlier here

/-! ## The common fields -/

/-- What is left after some types is what all of them offer, and they have to resolve for it. -/
theorem sharedWith_ok_iff (options : Options) (shared result : List (FieldKey × SchemaField))
    (types : List SchemaType) :
    sharedWith options shared types = .ok result ↔ Resolves options types ∧
      result = shared.filter fun entry => ∀ t ∈ types, Offers options t entry.1 := by
  -- What is shared shrinks from type to type, so the induction is on all that may be left.
  induction types generalizing shared with
  | nil =>
    simp only [sharedWith, Except.ok.injEq, Resolves, List.not_mem_nil, false_implies,
      implies_true, true_and, decide_true, List.filter_true]
    exact eq_comm
  | cons t rest ih =>
    have narrowed : ∀ keyed, keyedFields options t.fields = .ok keyed →
        ((shared.filter fun entry => (keyed.map (·.1)).contains entry.1).filter fun entry =>
          ∀ other ∈ rest, Offers options other entry.1) =
        shared.filter fun entry => ∀ other ∈ t :: rest, Offers options other entry.1 := by
      intro keyed given
      rw [List.filter_filter]
      apply List.filter_congr
      intro entry _
      simp only [List.forall_mem_cons, offers_iff_of_keyed options t keyed given,
        List.contains_eq_mem, Bool.decide_and]
      exact Bool.and_comm _ _
    rw [sharedWith, Outcome.bind_ok_iff]
    simp only [ih, resolves_cons]
    constructor
    · rintro ⟨keyed, given, resolves, rfl⟩
      exact ⟨⟨⟨keyed, given⟩, resolves⟩, narrowed keyed given⟩
    · rintro ⟨⟨⟨keyed, given⟩, resolves⟩, rfl⟩
      exact ⟨keyed, given, resolves, (narrowed keyed given).symm⟩

/-- With the keys of its fields at hand, the common fields of a type and others are its first fields
by key that the others offer as well. -/
theorem commonFields_of_keyed (options : Options) (first : SchemaType) (rest : List SchemaType)
    (keyed : List (FieldKey × SchemaField)) (given : keyedFields options first.fields = .ok keyed)
    (further : Resolves options rest) :
    commonFields options (first :: rest) = .ok (((firstByKey [] keyed).filter fun entry =>
      ∀ t ∈ rest, Offers options t entry.1).map (·.2)) := by
  have shared := (sharedWith_ok_iff options (firstByKey [] keyed) _ rest).mpr ⟨further, rfl⟩
  rw [commonFields, given, Outcome.ok_bind]
  dsimp only
  rw [shared, Outcome.ok_bind]
  rfl

/-- The first fields by key that further types offer are the selection that `IsCommon` describes. -/
theorem isCommon_selection (options : Options) (first : SchemaType) (rest : List SchemaType)
    (keyed : List (FieldKey × SchemaField)) (given : keyedFields options first.fields = .ok keyed) :
    IsSelection (IsCommon options first rest) first.fields
      (((firstByKey [] keyed).filter fun entry =>
        ∀ t ∈ rest, Offers options t entry.1).map (·.2)) := by
  obtain ⟨own, each⟩ := (keyedFields_ok_iff options first.fields keyed).mp given
  have selection := ((firstByKey_selection [] keyed).filter
    (fun entry => ∀ t ∈ rest, Offers options t entry.1)).map (·.2)
  rw [own] at selection
  -- The keys at hand are those that `IsCommon` computes anew at each place.
  have keyOf : ∀ (j : Nat) (entry : FieldKey × SchemaField), keyed[j]? = some entry →
      fieldKey options entry.2 = .ok entry.1 :=
    fun j entry here => each entry (List.mem_of_getElem? here)
  apply selection.congr
  intro i
  unfold IsCommon
  simp only [← own, List.getElem?_map, List.not_mem_nil, not_false_eq_true, true_and,
    decide_eq_true_eq]
  constructor
  · rintro ⟨⟨entry, here, fresh⟩, again, there, everywhere⟩
    cases here.symm.trans there
    refine ⟨entry.2, entry.1, by rw [here]; rfl, keyOf i entry here, ?_, everywhere⟩
    intro j less earlier before
    obtain ⟨other, isOther, rfl⟩ := Option.map_eq_some_iff.mp before
    rw [keyOf j other isOther]
    exact fun same => fresh j less other isOther (Except.ok.inj same)
  · rintro ⟨field, key, present, resolved, fresh, everywhere⟩
    obtain ⟨entry, here, rfl⟩ := Option.map_eq_some_iff.mp present
    obtain rfl : key = entry.1 := Except.ok.inj (resolved.symm.trans (keyOf i entry here))
    refine ⟨⟨entry, here, ?_⟩, entry, here, everywhere⟩
    intro j less other isOther same
    refine fresh j less other.2 (by rw [isOther]; rfl) ?_
    rw [keyOf j other isOther, same]

/-- The common fields are the selection that `IsCommon` describes. They exist exactly if all fields
of all the types resolve. -/
theorem commonFields_ok_iff (options : Options) (first : SchemaType) (rest : List SchemaType)
    (shared : List SchemaField) :
    commonFields options (first :: rest) = .ok shared ↔ Resolves options (first :: rest) ∧
      IsSelection (IsCommon options first rest) first.fields shared := by
  rw [resolves_cons]
  constructor
  · intro common
    obtain ⟨keyed, given, common'⟩ := (Outcome.bind_ok_iff _ _ _).mp common
    obtain ⟨_, others, _⟩ := (Outcome.bind_ok_iff _ _ _).mp common'
    obtain ⟨further, _⟩ := (sharedWith_ok_iff _ _ _ _).mp others
    refine ⟨⟨⟨keyed, given⟩, further⟩, ?_⟩
    cases (commonFields_of_keyed options first rest keyed given further).symm.trans common
    exact isCommon_selection options first rest keyed given
  · rintro ⟨⟨⟨keyed, given⟩, further⟩, selection⟩
    rw [commonFields_of_keyed options first rest keyed given further]
    exact congrArg Except.ok ((isCommon_selection options first rest keyed given).unique selection)

theorem exists_commonFields (options : Options) (types : List SchemaType)
    (resolves : Resolves options types) : ∃ shared, commonFields options types = .ok shared := by
  cases types with
  | nil => exact ⟨[], rfl⟩
  | cons first rest =>
    obtain ⟨⟨keyed, given⟩, further⟩ := (resolves_cons options first rest).mp resolves
    exact ⟨_, commonFields_of_keyed options first rest keyed given further⟩

/-- The keys of some fields. -/
def keysOf (options : Options) (fields : List SchemaField) :
    List (Except ResolutionError FieldKey) :=
  fields.map (fieldKey options)

theorem offers_iff_mem_keysOf (options : Options) (t : SchemaType) (key : FieldKey) :
    Offers options t key ↔ .ok key ∈ keysOf options t.fields :=
  List.mem_map.symm

/-- Which fields are common depends on the keys alone. -/
theorem isCommon_iff_keys (options : Options) (first : SchemaType) (rest : List SchemaType)
    (i : Nat) :
    IsCommon options first rest i ↔ ∃ key, (keysOf options first.fields)[i]? = some (.ok key) ∧
      (∀ j < i, (keysOf options first.fields)[j]? ≠ some (.ok key)) ∧
      ∀ t ∈ rest, .ok key ∈ keysOf options t.fields := by
  simp only [IsCommon, offers_iff_mem_keysOf, keysOf, List.getElem?_map, Option.map_eq_some_iff,
    ne_eq, not_exists, not_and]
  constructor
  · rintro ⟨field, key, here, keyed, fresh, everywhere⟩
    exact ⟨key, ⟨field, here, keyed⟩, fresh, everywhere⟩
  · rintro ⟨key, ⟨field, here, keyed⟩, fresh, everywhere⟩
    exact ⟨field, key, here, keyed, fresh, everywhere⟩

/-- The first field with a key is a common one if every further type offers the key. -/
theorem exists_isCommon (options : Options) (first : SchemaType) (rest : List SchemaType)
    (key : FieldKey) (everywhere : ∀ t ∈ first :: rest, Offers options t key) :
    ∃ i field, IsCommon options first rest i ∧ first.fields[i]? = some field ∧
      fieldKey options field = .ok key := by
  obtain ⟨own, further⟩ := List.forall_mem_cons.mp everywhere
  have somewhere : ∃ (i : Nat) (field : SchemaField), first.fields[i]? = some field ∧
      fieldKey options field = .ok key := by
    obtain ⟨field, member, keyed⟩ := own
    obtain ⟨i, here⟩ := List.getElem?_of_mem member
    exact ⟨i, field, here, keyed⟩
  classical
  obtain ⟨field, here, keyed⟩ := Nat.find_spec somewhere
  refine ⟨Nat.find somewhere, field, ⟨field, key, here, keyed, ?_, further⟩, here, keyed⟩
  intro j less earlier there again
  exact Nat.find_min somewhere less ⟨earlier, there, again⟩

/-- A key is one of the common fields exactly if every type offers it. -/
theorem mem_keysOf_commonFields (options : Options) (types : List SchemaType)
    (given : types ≠ []) (shared : List SchemaField)
    (common : commonFields options types = .ok shared) (key : FieldKey) :
    .ok key ∈ keysOf options shared ↔ ∀ t ∈ types, Offers options t key := by
  obtain ⟨first, rest, rfl⟩ := List.exists_cons_of_ne_nil given
  obtain ⟨_, selection⟩ := (commonFields_ok_iff options first rest shared).mp common
  constructor
  · intro member
    obtain ⟨field, isShared, keyed⟩ := List.mem_map.mp member
    obtain ⟨i, ⟨other, own, here, found, _, everywhere⟩, again⟩ :=
      (selection.mem_iff field).mp isShared
    cases here.symm.trans again
    cases keyed.symm.trans found
    exact List.forall_mem_cons.mpr ⟨⟨field, List.mem_of_getElem? here, keyed⟩, everywhere⟩
  · intro everywhere
    obtain ⟨i, field, isCommon, here, keyed⟩ := exists_isCommon options first rest key everywhere
    exact List.mem_map.mpr ⟨field, (selection.mem_iff field).mpr ⟨i, isCommon, here⟩, keyed⟩

theorem keysOf_commonFields_nodup (options : Options) (types : List SchemaType)
    (shared : List SchemaField) (common : commonFields options types = .ok shared) :
    (keysOf options shared).Nodup := by
  cases types with
  | nil =>
    cases common
    exact .nil
  | cons first rest =>
    obtain ⟨_, selection⟩ := (commonFields_ok_iff options first rest shared).mp common
    apply List.pairwise_map.mpr
    apply selection.pairwise
    rintro i j earlier field less ⟨other, key, there, keyed, fresh, _⟩ here again same
    cases there.symm.trans again
    exact fresh i less earlier here (same.trans keyed)

/-- Every entry of the keys of common fields is a key. -/
theorem exists_of_mem_keysOf (options : Options) (types : List SchemaType)
    (shared : List SchemaField) (common : commonFields options types = .ok shared)
    (found : Except ResolutionError FieldKey) (member : found ∈ keysOf options shared) :
    ∃ key, found = .ok key := by
  obtain ⟨field, isShared, rfl⟩ := List.mem_map.mp member
  cases types with
  | nil =>
    cases common
    cases isShared
  | cons first rest =>
    obtain ⟨_, key, keyed, _⟩ := commonFields_ok options first rest shared common field isShared
    exact ⟨key, keyed⟩

/-- More types have fewer keys in common. -/
theorem keysOf_commonFields_subset (options : Options) (types more : List SchemaType)
    (given : types ≠ []) (shared fewer : List SchemaField) (larger : types ⊆ more)
    (common : commonFields options types = .ok shared)
    (further : commonFields options more = .ok fewer) :
    keysOf options fewer ⊆ keysOf options shared := by
  intro found member
  obtain ⟨key, rfl⟩ := exists_of_mem_keysOf options more fewer further found member
  have some : more ≠ [] := by
    rintro rfl
    exact given (List.subset_nil.mp larger)
  have everywhere := (mem_keysOf_commonFields options more some fewer further key).mp member
  refine (mem_keysOf_commonFields options types given shared common key).mpr ?_
  exact fun t among => everywhere t (larger among)

/-- Types in another order, or repeated, have the same keys in common. -/
theorem keysOf_commonFields_perm (options : Options) (types others : List SchemaType)
    (given : types ≠ []) (shared same : List SchemaField)
    (members : ∀ t, t ∈ others ↔ t ∈ types)
    (common : commonFields options types = .ok shared)
    (again : commonFields options others = .ok same) :
    (keysOf options same).Perm (keysOf options shared) := by
  have some : others ≠ [] := by
    rintro rfl
    obtain ⟨t, rest, rfl⟩ := List.exists_cons_of_ne_nil given
    exact List.not_mem_nil ((members t).mpr List.mem_cons_self)
  apply (List.perm_ext_iff_of_nodup (keysOf_commonFields_nodup options others same again)
    (keysOf_commonFields_nodup options types shared common)).mpr
  intro found
  constructor
  · exact fun member => keysOf_commonFields_subset options types others given shared same
      (fun t among => (members t).mpr among) common again member
  · exact fun member => keysOf_commonFields_subset options others types some same shared
      (fun t among => (members t).mp among) again common member

/-! ## Non-null wrappers -/

/-- A reference without its non-null wrappers. -/
def SchemaType.unmarked (t : SchemaType) : SchemaType :=
  match t with
  | { kind := .nonNull, ofType := some inner, .. } => inner.unmarked
  | { kind := .list, ofType := some inner, .. } => { t with ofType := some inner.unmarked }
  | t => t
termination_by structural t

/-- A reference resolves to the same type without its non-null wrappers. -/
theorem SchemaType.resolve_unmarked (options : Options) (type field : Option String)
    (t : SchemaType) : t.unmarked.resolve options type field = t.resolve options type field := by
  induction t using unwrapping with
  | named t kind =>
    rcases t with ⟨k, _, _, _, _, _, _, ofType⟩
    cases k <;> first | rfl | cases kind
  | opened t kind nothing =>
    rcases t with ⟨k, _, _, _, _, _, _, ofType⟩
    cases nothing
    cases k <;> rfl
  | wrapped t inner kind wraps ih =>
    rcases t with ⟨k, name, description, fields, interfaces, possibleTypes, enumValues, ofType⟩
    cases wraps
    rcases (isWrapper_iff k).mp kind with rfl | rfl
    · exact ih
    · exact congrArg (Except.map FieldType.list) ih

/-- Two fields of one name whose types differ in non-null wrappers only. -/
def SchemaField.SameUnmarked (one other : SchemaField) : Prop :=
  one.name = other.name ∧ one.type.unmarked = other.type.unmarked

/-- Two types whose fields differ, place by place, in non-null wrappers only. -/
def SchemaType.SameUnmarked (one other : SchemaType) : Prop :=
  List.Forall₂ SchemaField.SameUnmarked one.fields other.fields

theorem SchemaField.SameUnmarked.fieldKey (options : Options) {one other : SchemaField}
    (same : one.SameUnmarked other) : fieldKey options other = fieldKey options one := by
  obtain ⟨name, type⟩ := same
  unfold GraphQLModels.fieldKey SchemaType.resolvedName
  rw [← SchemaType.resolve_unmarked, ← type, SchemaType.resolve_unmarked, name]

/-- Fields that differ in non-null wrappers only have the same keys. -/
theorem keysOf_sameUnmarked (options : Options) {fields others : List SchemaField}
    (same : List.Forall₂ SchemaField.SameUnmarked fields others) :
    keysOf options others = keysOf options fields := by
  induction same with
  | nil => rfl
  | cons field _ ih => exact congrArg₂ List.cons (field.fieldKey options) ih

theorem resolves_iff_keys (options : Options) (types : List SchemaType) :
    Resolves options types ↔ ∀ t ∈ types, ∀ found ∈ keysOf options t.fields,
      ∃ key, found = .ok key := by
  simp only [Resolves, keysOf, List.forall_mem_map]

/-- Types that differ in non-null wrappers only have the same fields in common, place by place. -/
theorem commonFields_sameUnmarked (options : Options) (types others : List SchemaType)
    (alike : List.Forall₂ SchemaType.SameUnmarked types others) (shared : List SchemaField)
    (common : commonFields options types = .ok shared) :
    ∃ same, commonFields options others = .ok same ∧
      List.Forall₂ SchemaField.SameUnmarked shared same := by
  cases alike with
  | nil =>
    cases common
    exact ⟨[], rfl, .nil⟩
  | @cons first first' rest rest' head tail =>
    obtain ⟨resolves, selection⟩ := (commonFields_ok_iff options first rest shared).mp common
    have keys := keysOf_sameUnmarked options head
    -- The other types resolve because they have the same keys.
    have resolves' : Resolves options (first' :: rest') := by
      rw [resolves_iff_keys] at resolves ⊢
      intro t among
      obtain ⟨t', among', same⟩ := Outcome.forall₂_right (.cons head tail) t among
      rw [keysOf_sameUnmarked options same]
      exact resolves t' among'
    obtain ⟨same, common'⟩ := exists_commonFields options _ resolves'
    obtain ⟨_, selection'⟩ := (commonFields_ok_iff options first' rest' same).mp common'
    refine ⟨same, common', selection.forall₂ head (selection'.congr ?_)⟩
    -- The two choices of places are the same, because the keys are.
    intro i
    rw [isCommon_iff_keys, isCommon_iff_keys, keys]
    refine exists_congr fun key => and_congr_right fun _ => and_congr_right fun _ => ?_
    constructor
    · intro everywhere t among
      obtain ⟨t', among', same⟩ := Outcome.forall₂_left tail t among
      exact keysOf_sameUnmarked options same ▸ everywhere t' among'
    · intro everywhere t' among'
      obtain ⟨t, among, same⟩ := Outcome.forall₂_right tail t' among'
      exact (keysOf_sameUnmarked options same).symm ▸ everywhere t among

/-- **The common fields are the intersection.** If all fields of some types resolve, their common
fields are those of the first type, in its order, that come first there with their key and whose key
every further type has. So no key occurs twice, and the keys are those that all the types have: other
orders and repetitions of the types give the same keys, a further type can only take keys away, and
non-null wrappers make no difference. -/
theorem commonFields_intersection (options : Options) (first : SchemaType)
    (rest : List SchemaType) (resolves : Resolves options (first :: rest)) :
    ∃ shared, commonFields options (first :: rest) = .ok shared ∧
      IsSelection (IsCommon options first rest) first.fields shared ∧
      (keysOf options shared).Nodup ∧
      (∀ key, .ok key ∈ keysOf options shared ↔ ∀ t ∈ first :: rest, Offers options t key) ∧
      (∀ others, (∀ t, t ∈ others ↔ t ∈ first :: rest) → ∃ same,
        commonFields options others = .ok same ∧
          (keysOf options same).Perm (keysOf options shared)) ∧
      (∀ more, first :: rest ⊆ more → Resolves options more → ∃ fewer,
        commonFields options more = .ok fewer ∧ keysOf options fewer ⊆ keysOf options shared) ∧
      ∀ others, List.Forall₂ SchemaType.SameUnmarked (first :: rest) others → ∃ same,
        commonFields options others = .ok same ∧
          List.Forall₂ SchemaField.SameUnmarked shared same ∧
          keysOf options same = keysOf options shared := by
  have given : first :: rest ≠ [] := List.cons_ne_nil first rest
  obtain ⟨shared, common⟩ := exists_commonFields options (first :: rest) resolves
  obtain ⟨_, selection⟩ := (commonFields_ok_iff options first rest shared).mp common
  refine ⟨shared, common, selection, keysOf_commonFields_nodup options _ shared common,
    mem_keysOf_commonFields options _ given shared common, ?_, ?_, ?_⟩
  · intro others members
    have resolves' : Resolves options others := fun t among => resolves t ((members t).mp among)
    obtain ⟨same, again⟩ := exists_commonFields options others resolves'
    exact ⟨same, again, keysOf_commonFields_perm options _ others given shared same members common
      again⟩
  · intro more larger resolves'
    obtain ⟨fewer, further⟩ := exists_commonFields options more resolves'
    exact ⟨fewer, further, keysOf_commonFields_subset options _ more given shared fewer larger common
      further⟩
  · intro others alike
    obtain ⟨same, again, related⟩ := commonFields_sameUnmarked options _ others alike shared common
    exact ⟨same, again, related, keysOf_sameUnmarked options related⟩

/-! ## Points and pixels -/

def intType : SchemaType := { kind := .scalar, name := some "Int" }

/-- A type that has its first coordinate twice, once marked as never null. -/
def pointType : SchemaType where
  kind := .object
  name := some "Point"
  fields := [
    { name := some "x", type := { kind := .nonNull, ofType := some intType } },
    { name := some "x", type := intType },
    { name := some "y", type := { kind := .scalar, name := some "String" } }]

def pixelType : SchemaType where
  kind := .object
  name := some "Pixel"
  fields := [
    { name := some "z", type := { kind := .scalar, name := some "Boolean" } },
    { name := some "x", type := intType }]

def pointOptions : Options := { moduleName := "points" }

example : commonFields pointOptions [pointType, pixelType] = .ok (pointType.fields.take 1) := rfl

/-- Points and pixels share the first coordinate, in both orders. -/
theorem commonFields_intersection_points :
    Resolves pointOptions [pointType, pixelType] ∧
      ∃ shared same, commonFields pointOptions [pointType, pixelType] = .ok shared ∧
        commonFields pointOptions [pixelType, pointType] = .ok same ∧
        (keysOf pointOptions same).Perm (keysOf pointOptions shared) ∧
        .ok (some "int", some "x") ∈ keysOf pointOptions shared := by
  have resolves : Resolves pointOptions [pointType, pixelType] :=
    ((commonFields_ok_iff pointOptions pointType [pixelType] (pointType.fields.take 1)).mp rfl).1
  obtain ⟨shared, common, _, _, everywhere, permuted, _⟩ :=
    commonFields_intersection pointOptions pointType [pixelType] resolves
  obtain ⟨same, again, perm⟩ := permuted [pixelType, pointType] (by simp [or_comm])
  exact ⟨resolves, shared, same, common, again, perm, (everywhere _).mpr (by decide)⟩

end GraphQLModels
