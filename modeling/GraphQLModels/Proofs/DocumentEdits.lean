import GraphQLModels.Proofs.ReadingBack

/-!
# Edits of documents

An edit changes a JSON value at one place: null is put there, or a member of an object is taken
away. Everything else stays as it is, and no value gets deeper.
-/

namespace GraphQLModels

namespace Json

/-- A change at one place of a JSON value, behind the members and items that lead there. -/
inductive Edit where
  /-- Puts null in place of the value. -/
  | null
  /-- Takes the member with a name away. -/
  | remove (key : String)
  | member (key : String) (inner : Edit)
  | item (index : Nat) (inner : Edit)

/-- Changes the value of the member with a name. -/
def changeMember (key : String) (change : Json → Json) (members : List (String × Json)) :
    List (String × Json) :=
  members.map fun entry => if entry.1 == key then (entry.1, change entry.2) else entry

/-- Takes away the member with a name. -/
def removeMember (key : String) (members : List (String × Json)) : List (String × Json) :=
  members.filter fun entry => entry.1 != key

namespace Edit

/-- The value after an edit. A value that does not have the place is left as it is. -/
def apply : Edit → Json → Json
  | null, _ => .null
  | remove key, .obj members => .obj (removeMember key members)
  | member key inner, .obj members => .obj (changeMember key inner.apply members)
  | item index inner, .arr items => .arr (items.modify index inner.apply)
  | _, j => j

end Edit

/-! ## Members -/

section Members

variable (key : String) (change : Json → Json) (members : List (String × Json))

theorem changeMember_keys : (changeMember key change members).map (·.1) = members.map (·.1) := by
  rw [changeMember, List.map_map]
  refine List.map_congr_left fun entry _ => ?_
  rw [Function.comp_apply]
  split <;> rfl

theorem removeMember_keys :
    (removeMember key members).map (·.1) = (members.map (·.1)).filter (· != key) := by
  rw [removeMember, List.filter_map]
  rfl

theorem findKey?_changeMember (other : String) :
    findKey? other (changeMember key change members) =
      if other = key then (findKey? key members).map change else findKey? other members := by
  -- A change keeps names, so the member that is found is the changed one.
  have same_names : ((fun entry : String × Json => entry.1 == other) ∘ fun entry =>
      if entry.1 == key then (entry.1, change entry.2) else entry) =
        fun entry => entry.1 == other := by
    funext entry
    rw [Function.comp_apply]
    split <;> rfl
  unfold findKey? changeMember
  rw [List.find?_map, same_names]
  cases found : members.find? fun entry => entry.1 == other with
  | none =>
    by_cases same : other = key
    · subst same
      simp [found]
    · simp [same]
  | some entry =>
    have named : entry.1 = other := by simpa using List.find?_some found
    by_cases same : other = key
    · subst same
      simp [found, named]
    · simp [named, same]

theorem findKey?_removeMember (other : String) :
    findKey? other (removeMember key members) =
      if other = key then none else findKey? other members := by
  unfold findKey? removeMember
  rw [List.find?_filter]
  split
  · rename_i same
    subst same
    simp
  · rename_i different
    refine congrArg _ (congrArg (fun p => List.find? p members) (funext fun entry => ?_))
    by_cases here : entry.1 = other <;> simp [here, different]

end Members

/-- Whether an object differs from another at most in the member with a name, which it holds as
given. -/
structure Replaces (key : String) (new : Option Json) (members members' : List (String × Json)) :
    Prop where
  keys : ∀ name ∈ members'.map (·.1), name ∈ members.map (·.1)
  values : ∀ name, findKey? name members' = if name = key then new else findKey? name members

namespace Replaces

variable {key : String} {new : Option Json} {members members' : List (String × Json)}

theorem here (replaces : Replaces key new members members') : findKey? key members' = new := by
  simp [replaces.values]

theorem elsewhere (replaces : Replaces key new members members') (name : String)
    (other : key ≠ name) : findKey? name members' = findKey? name members := by
  simp [replaces.values, Ne.symm other]

theorem change (value : Json) (found : findKey? key members = some value) (change : Json → Json) :
    Replaces key (some (change value)) members (changeMember key change members) where
  keys name listed := changeMember_keys key change members ▸ listed
  values name := by simp [findKey?_changeMember, found]

theorem remove : Replaces key none members (removeMember key members) where
  keys name listed := by
    rw [removeMember_keys] at listed
    exact List.mem_of_mem_filter listed
  values := findKey?_removeMember key members

end Replaces

/-! ## Items -/

/-- What holds of all items still holds after a change exactly if it holds of the changed item. -/
theorem forall_mem_modify_iff {α : Type} (holds : α → Prop) (items : List α) (index : Nat)
    (change : α → α) (item : α) (found : items[index]? = some item) (all : ∀ x ∈ items, holds x) :
    (∀ x ∈ items.modify index change, holds x) ↔ holds (change item) := by
  constructor
  · intro changed
    apply changed
    apply List.mem_iff_getElem?.mpr
    exact ⟨index, by simp [found]⟩
  · intro here x member
    obtain ⟨i, isItem⟩ := List.mem_iff_getElem?.mp member
    rw [List.getElem?_modify] at isItem
    obtain ⟨old, isOld, rfl⟩ := Option.map_eq_some_iff.mp isItem
    split
    · rename_i same
      subst same
      cases found.symm.trans isOld
      exact here
    · exact all old (List.mem_of_getElem? isOld)

/-! ## Depths -/

open Model (depthOf depthOfItems_le_iff depthOfMembers_le_iff)

theorem depthOf_changeMember (key : String) (change : Json → Json) (members : List (String × Json))
    (shallower : ∀ j, depthOf (change j) ≤ depthOf j) :
    depthOf (.obj (changeMember key change members)) ≤ depthOf (.obj members) := by
  refine Nat.succ_le_succ ((depthOfMembers_le_iff _ _).mpr fun entry listed => ?_)
  have bounds := (depthOfMembers_le_iff members _).mp (Nat.le_refl _)
  obtain ⟨old, member, rfl⟩ := List.mem_map.mp listed
  split
  · exact (shallower old.2).trans (bounds old member)
  · exact bounds old member

theorem depthOf_removeMember (key : String) (members : List (String × Json)) :
    depthOf (.obj (removeMember key members)) ≤ depthOf (.obj members) := by
  refine Nat.succ_le_succ ((depthOfMembers_le_iff _ _).mpr fun entry listed => ?_)
  exact (depthOfMembers_le_iff members _).mp (Nat.le_refl _) entry (List.mem_of_mem_filter listed)

theorem depthOf_modify (index : Nat) (change : Json → Json) (items : List Json)
    (shallower : ∀ j, depthOf (change j) ≤ depthOf j) :
    depthOf (.arr (items.modify index change)) ≤ depthOf (.arr items) := by
  refine Nat.succ_le_succ ((depthOfItems_le_iff _ _).mpr fun item listed => ?_)
  have bounds := (depthOfItems_le_iff items _).mp (Nat.le_refl _)
  obtain ⟨i, found⟩ := List.mem_iff_getElem?.mp listed
  rw [List.getElem?_modify] at found
  obtain ⟨old, isOld, rfl⟩ := Option.map_eq_some_iff.mp found
  have member := List.mem_of_getElem? isOld
  split
  · exact (shallower old).trans (bounds old member)
  · exact bounds old member

namespace Edit

/-- No value gets deeper. -/
theorem depthOf_apply (e : Edit) (j : Json) : depthOf (e.apply j) ≤ depthOf j := by
  induction e generalizing j with
  | null => exact Nat.zero_le _
  | remove key =>
    cases j with
    | obj members => exact depthOf_removeMember key members
    | _ => exact Nat.le_refl _
  | member key inner ih =>
    cases j with
    | obj members => exact depthOf_changeMember key inner.apply members ih
    | _ => exact Nat.le_refl _
  | item index inner ih =>
    cases j with
    | arr items => exact depthOf_modify index inner.apply items ih
    | _ => exact Nat.le_refl _

end Edit

end Json

end GraphQLModels
