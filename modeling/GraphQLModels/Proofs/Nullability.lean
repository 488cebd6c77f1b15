import GraphQLModels.Proofs.DocumentEdits
import GraphQLModels.Proofs.NullableFields
import GraphQLModels.Proofs.RoundTrip

/-!
# Nullability

A document that is accepted is accepted with null in place of any field or item and without any
member, since every field of a loaded class is nullable at each level of its type. The one exception
is a field that is named as the attribute of the mark is: such a member may be what tells an object.
-/

namespace GraphQLModels

namespace Model

theorem Decoded.exists_all_iff {α β : Type} (read : α → Decoded β) (xs : List α) :
    (∃ values, all (xs.map read) = .ok values) ↔ ∀ x ∈ xs, ∃ value, read x = .ok value := by
  constructor
  · rintro ⟨values, given⟩ x member
    obtain ⟨pairs, rfl, -, each⟩ := all_map_ok read xs values given
    obtain ⟨pair, isPair, rfl⟩ := List.mem_map.mp member
    exact ⟨pair.2, each pair isPair⟩
  · intro each
    induction xs with
    | nil => exact ⟨[], rfl⟩
    | cons x rest ih =>
      rw [List.forall_mem_cons] at each
      obtain ⟨⟨value, first⟩, others⟩ := each
      obtain ⟨values, all⟩ := ih others
      exact ⟨value :: values, (all_cons_ok_iff _ _ _).mpr ⟨value, values, first, all, rfl⟩⟩

namespace Library

/-! ## Accepted documents -/

/-- Whether a JSON value is decoded under a shape. -/
def Accepts (lib : Library) (shape : Shape) (j : Json) : Prop :=
  ∃ v, lib.decode .document j shape = .ok v

/-- What an object holds for a field. -/
def valueOf? (members : List (String × Json)) (f : FieldSpec) : Option Json :=
  (findKey? f.wire members).or (findKey? f.name members)

theorem held?_value (members : List (String × Json)) (f : FieldSpec) :
    (held? members f).map (·.2) = valueOf? members f := by
  unfold held? valueOf? findKey?
  cases members.find? fun entry => entry.1 == f.wire <;> rfl

section Accepts

variable (lib : Library)

theorem accepts_optional_null (inner : Shape) : lib.Accepts (.optional inner) .null :=
  ⟨.null, lib.decode_optional_null .document inner⟩

theorem accepts_optional_iff (inner : Shape) (j : Json) (something : j ≠ .null) :
    lib.Accepts (.optional inner) j ↔ lib.Accepts inner j := by
  simp only [Accepts, lib.decode_optional .document inner j something]

theorem accepts_list_iff (inner : Shape) (items : List Json) :
    lib.Accepts (.list inner) (.arr items) ↔ ∀ item ∈ items, lib.Accepts inner item := by
  simp only [Accepts]
  rw [← Decoded.exists_all_iff fun item => lib.decode .document item inner]
  simp only [decode_list_ok_iff, Json.arr.injEq]
  constructor
  · rintro ⟨_, _, values, rfl, all, -⟩
    exact ⟨values, all⟩
  · rintro ⟨values, all⟩
    exact ⟨_, items, values, rfl, all, rfl⟩

/-- An object is accepted if what it holds for each field is. -/
theorem accepts_model_iff (place : Nat) (members : List (String × Json)) :
    lib.Accepts (.model place) (.obj members) ↔ ∀ f ∈ lib.fieldsOf place, ∀ value,
      valueOf? members f = some value → lib.Accepts f.shape value := by
  have each : ∀ f : FieldSpec,
      (∃ a, decodeField (lib.memberDecoders .document members) f = .ok a) ↔
        ∀ value, valueOf? members f = some value → lib.Accepts f.shape value := by
    intro f
    simp only [Prod.exists, decodeField_ok_iff, ← held?_value]
    cases held? members f with
    | none => simp
    | some entry => simp [Accepts]
  have all := Decoded.exists_all_iff (decodeField (lib.memberDecoders .document members))
    (lib.fieldsOf place)
  simp only [each] at all
  rw [← all]
  simp only [Accepts, decode_model_ok_iff, Json.obj.injEq]
  constructor
  · rintro ⟨_, _, attributes, rfl, read, -⟩
    exact ⟨attributes, read⟩
  · rintro ⟨attributes, read⟩
    exact ⟨_, members, attributes, rfl, read, rfl⟩

theorem accepts_choice_iff (places : List Nat) (members : List (String × Json)) :
    lib.Accepts (.choice places) (.obj members) ↔ ∃ tag place,
      tagOf? members = some (.str tag) ∧ lib.tagged? places tag = some place ∧
        lib.Accepts (.model place) (.obj members) := by
  simp only [Accepts, decode_choice_ok_iff, Json.obj.injEq]
  constructor
  · rintro ⟨v, _, tag, place, rfl, told, named, read⟩
    exact ⟨tag, place, told, named, v, read⟩
  · rintro ⟨tag, place, told, named, v, read⟩
    exact ⟨v, members, tag, place, rfl, told, named, read⟩

theorem accepts_literal_iff (text : String) (j : Json) :
    lib.Accepts (.literal text) j ↔ j = .str text := by
  simp [Accepts, decode_literal_ok_iff]

end Accepts

/-! ## Fields and marks -/

/-- Whether the fields of a class have different attributes, and all but the mark are nullable. -/
structure HasNullableFields (lib : Library) : Prop where
  apart : ∀ place, ((lib.fieldsOf place).map (·.name)).Nodup
  fields : ∀ place, ∀ f ∈ lib.fieldsOf place, (∃ text, f = typenameSpec text) ∨
    f.name = IdentifierUse.field.escape f.wire ∧ f.shape.IsNullable

/-- Whether all members of an object are the mark or belong to fields of the class at a place. -/
def IsKeyed (lib : Library) (place : Nat) (members : List (String × Json)) : Prop :=
  ∀ key ∈ members.map (·.1), key = typenameAlias ∨ ∃ f ∈ lib.fieldsOf place, f.wire = key

theorem IsKeyed.replaced {lib : Library} {place : Nat} {key : String} {new : Option Json}
    {members members' : List (String × Json)} (keyed : lib.IsKeyed place members)
    (replaces : Json.Replaces key new members members') : lib.IsKeyed place members' :=
  fun name listed => keyed name (replaces.keys name listed)

theorem valueOf?_mark (members : List (String × Json)) (text : String) :
    valueOf? members (typenameSpec text) =
      (findKey? typenameAlias members).or (findKey? typenameField members) :=
  rfl

section Fields

variable {lib : Library} (has : lib.HasNullableFields) {place : Nat}

include has

theorem HasNullableFields.unique (f g : FieldSpec) (first : f ∈ lib.fieldsOf place)
    (second : g ∈ lib.fieldsOf place) (same : f.name = g.name) : f = g :=
  List.inj_on_of_nodup_map (has.apart place) first second same

/-- A field that is not named as the mark is holds a field of the schema. -/
theorem HasNullableFields.unmarked (f : FieldSpec) (isField : f ∈ lib.fieldsOf place)
    (unmarked : f.wire ≠ typenameAlias) :
    f.name = IdentifierUse.field.escape f.wire ∧ f.shape.IsNullable := by
  rcases has.fields place f isField with ⟨text, rfl⟩ | escaped
  · exact absurd rfl unmarked
  · exact escaped

/-- Fields of the schema have different names in documents. -/
theorem HasNullableFields.wire_unique (f g : FieldSpec) (first : f ∈ lib.fieldsOf place)
    (second : g ∈ lib.fieldsOf place) (unmarked : f.wire ≠ typenameAlias)
    (same : f.wire = g.wire) : f = g := by
  apply has.unique f g first second
  rw [(has.unmarked f first unmarked).1, (has.unmarked g second (same ▸ unmarked)).1, same]

/-- The class that a tag leads to is marked with the tag. -/
theorem HasNullableFields.mark_mem (places : List Nat) (tag : String)
    (known : lib.tagged? places tag = some place) : typenameSpec tag ∈ lib.fieldsOf place := by
  have tagged : (lib.class? place).bind ClassOf.tag? = some tag := by
    simpa using List.find?_some known
  obtain ⟨c, found, tagged⟩ := Option.bind_eq_some_iff.mp tagged
  obtain ⟨f, isMark, literal⟩ := Option.bind_eq_some_iff.mp tagged
  have isField : f ∈ lib.fieldsOf place := by
    rw [lib.fieldsOf_eq place c found]
    exact List.mem_of_find?_eq_some isMark
  rcases has.fields place f isField with ⟨text, rfl⟩ | ⟨-, nullable⟩
  · cases literal
    exact isField
  · -- The mark is the one field that is not nullable.
    obtain ⟨core, shape, -⟩ := nullable.core
    rw [shape] at literal
    cases literal

variable {members : List (String × Json)} (keyed : lib.IsKeyed place members)

include keyed

/-- A field of the schema is read under its name in documents only: no other field is named as its
attribute is. -/
theorem IsKeyed.value (f : FieldSpec) (isField : f ∈ lib.fieldsOf place)
    (escaped : f.name = IdentifierUse.field.escape f.wire) :
    valueOf? members f = findKey? f.wire members := by
  unfold valueOf?
  cases here : findKey? f.wire members with
  | some value => rfl
  | none =>
    rw [Option.none_or]
    by_contra found
    obtain ⟨value, known⟩ := Option.ne_none_iff_exists'.mp found
    have listed := List.mem_map_of_mem (f := (·.1)) (findKey?_mem f.name value members known)
    have free := (IdentifierUse.escape_free f.wire).2
    rw [← escaped] at free
    have unmarked : f.name ≠ typenameAlias := by
      intro same
      rw [same] at free
      exact absurd free (by decide)
    rcases keyed f.name listed with marked | ⟨g, isOther, named⟩
    · exact unmarked marked
    · -- A field with this name has this attribute as well, so it is the field itself.
      have escaped' := (has.unmarked g isOther (named ▸ unmarked)).1
      rw [named, escaped, IdentifierUse.escape_escape, ← escaped] at escaped'
      have same := has.unique g f isOther isField escaped'
      rw [← named, same, here] at known
      cases known

end Fields

/-! ## Clearing -/

/-- Whether an edit clears a value inside of a document: it puts null in place of the value of a
field or of an item, or takes a field away, where objects have no members but those of fields. -/
inductive Clears (lib : Library) : Json.Edit → Shape → Json → Prop where
  | null {shape : Shape} {j : Json} : lib.Clears .null shape j
  | optional {e : Json.Edit} {inner : Shape} {j : Json} (within : lib.Clears e inner j) :
    lib.Clears e (.optional inner) j
  | item {index : Nat} {e : Json.Edit} {inner : Shape} {items : List Json} {item : Json}
      (found : items[index]? = some item) (within : lib.Clears e inner item) :
    lib.Clears (.item index e) (.list inner) (.arr items)
  | remove {key : String} {place : Nat} {members : List (String × Json)} {f : FieldSpec}
      (keyed : lib.IsKeyed place members) (isField : f ∈ lib.fieldsOf place) (named : f.wire = key)
      (unmarked : key ≠ typenameAlias) : lib.Clears (.remove key) (.model place) (.obj members)
  | member {key : String} {e : Json.Edit} {place : Nat} {members : List (String × Json)}
      {f : FieldSpec} {value : Json} (keyed : lib.IsKeyed place members)
      (isField : f ∈ lib.fieldsOf place) (named : f.wire = key) (unmarked : key ≠ typenameAlias)
      (found : findKey? key members = some value) (within : lib.Clears e f.shape value) :
    lib.Clears (.member key e) (.model place) (.obj members)
  /-- The members of an object of a choice belong to the class that its tag names. -/
  | choice {e : Json.Edit} {places : List Nat} {tag : String} {place : Nat}
      {members : List (String × Json)} (told : tagOf? members = some (.str tag))
      (known : lib.tagged? places tag = some place)
      (within : lib.Clears e (.model place) (.obj members)) :
    lib.Clears e (.choice places) (.obj members)

/-- Whether an edit is made to a member that tells an object, because it is named as the attribute
of the mark is. -/
inductive TakesMark (lib : Library) : Json.Edit → Shape → Json → Prop where
  /-- The mark itself is read under the name of its attribute if it is not there under its own. -/
  | mark {place : Nat} {members : List (String × Json)} {text : String}
      (isMarked : typenameSpec text ∈ lib.fieldsOf place)
      (unmarked : findKey? typenameAlias members = none) :
    lib.TakesMark (.member typenameField .null) (.model place) (.obj members)
  /-- The tag of an object of a choice is looked for under the name of the attribute first. -/
  | tag {places : List Nat} {members : List (String × Json)} :
    lib.TakesMark (.member typenameField .null) (.choice places) (.obj members)
  | removed {places : List Nat} {members : List (String × Json)}
      (unmarked : findKey? typenameAlias members = none) :
    lib.TakesMark (.remove typenameField) (.choice places) (.obj members)
  | optional {e : Json.Edit} {inner : Shape} {j : Json} (within : lib.TakesMark e inner j) :
    lib.TakesMark e (.optional inner) j
  | item {index : Nat} {e : Json.Edit} {inner : Shape} {items : List Json} {item : Json}
      (found : items[index]? = some item) (within : lib.TakesMark e inner item) :
    lib.TakesMark (.item index e) (.list inner) (.arr items)
  | member {key : String} {e : Json.Edit} {place : Nat} {members : List (String × Json)}
      {f : FieldSpec} {value : Json} (isField : f ∈ lib.fieldsOf place) (named : f.wire = key)
      (unmarked : key ≠ typenameAlias) (found : findKey? key members = some value)
      (within : lib.TakesMark e f.shape value) :
    lib.TakesMark (.member key e) (.model place) (.obj members)
  | choice {e : Json.Edit} {places : List Nat} {tag : String} {place : Nat}
      {members : List (String × Json)} (told : tagOf? members = some (.str tag))
      (known : lib.tagged? places tag = some place)
      (within : lib.TakesMark e (.model place) (.obj members)) :
    lib.TakesMark e (.choice places) (.obj members)

/-- Only values with parts are cleared inside. -/
theorem Clears.inside {lib : Library} {e : Json.Edit} {shape : Shape} {j : Json}
    (clears : lib.Clears e shape j) :
    e = .null ∨ e ≠ .null ∧ j ≠ .null ∧ e.apply j ≠ .null ∧ ∀ s, j ≠ .str s := by
  induction clears with
  | null => exact .inl rfl
  | optional _ ih => exact ih
  | item | remove | member => simp [Json.Edit.apply]
  | choice _ _ _ ih => exact ih

/-- Null in place of a whole value takes no mark. -/
theorem TakesMark.ne_null {lib : Library} {e : Json.Edit} {shape : Shape} {j : Json}
    (takes : lib.TakesMark e shape j) : e ≠ .null := by
  induction takes with
  | mark | tag | removed | item | member => simp
  | optional _ ih | choice _ _ _ ih => exact ih

/-! ## Objects with another member -/

section Replaced

variable {lib : Library} {place : Nat} {key : String} {new : Option Json}
  {members members' : List (String × Json)}
  (replaces : Json.Replaces key new members members') (unmarked : key ≠ typenameAlias)

include replaces unmarked

/-- The tag of an object does not change with members that are named otherwise. -/
theorem tagOf?_replaced (other : key ≠ typenameField) : tagOf? members' = tagOf? members := by
  simp only [tagOf?, replaces.elsewhere _ unmarked, replaces.elsewhere _ other]

/-- A mark that is right stays so unless it is read from the member: it is read under the name of
its attribute if it is not there under its own. -/
theorem mark_replaced_iff (text : String)
    (before : ∀ value, valueOf? members (typenameSpec text) = some value → value = .str text) :
    (∀ value, valueOf? members' (typenameSpec text) = some value → value = .str text) ↔
      (key = typenameField → findKey? typenameAlias members = none →
        ∀ value, new = some value → value = .str text) := by
  simp only [valueOf?_mark, replaces.elsewhere _ unmarked] at before ⊢
  cases told : findKey? typenameAlias members with
  | some tag => simpa [told] using before
  | none =>
    by_cases marked : key = typenameField
    · subst marked
      simp [replaces.here]
    · simpa [told, marked, replaces.elsewhere _ marked] using before

variable (has : lib.HasNullableFields) (keyed : lib.IsKeyed place members) (f : FieldSpec)
  (isField : f ∈ lib.fieldsOf place) (named : f.wire = key)

include has keyed isField named

/-- An object with another member for a field is accepted if the new value is, and the mark is not
read from it. -/
theorem accepts_replaced_iff (accepted : lib.Accepts (.model place) (.obj members)) :
    lib.Accepts (.model place) (.obj members') ↔
      (∀ value, new = some value → lib.Accepts f.shape value) ∧
        ∀ text, typenameSpec text ∈ lib.fieldsOf place → key = typenameField →
          findKey? typenameAlias members = none →
          ∀ value, new = some value → value = .str text := by
  subst named
  have keyed' := keyed.replaced replaces
  have escaped := (has.unmarked f isField unmarked).1
  rw [accepts_model_iff] at accepted ⊢
  -- A mark is also read from the name of its attribute, which may be that of the field.
  have marks : ∀ text, typenameSpec text ∈ lib.fieldsOf place →
      ((∀ value, valueOf? members' (typenameSpec text) = some value → value = .str text) ↔
        (f.wire = typenameField → findKey? typenameAlias members = none →
          ∀ value, new = some value → value = .str text)) := by
    intro text isMark
    apply mark_replaced_iff replaces unmarked text
    intro value reads
    exact (accepts_literal_iff lib text value).mp (accepted _ isMark value reads)
  constructor
  · intro each
    constructor
    · intro value isNew
      apply each f isField
      rw [keyed'.value has f isField escaped, replaces.here, isNew]
    · intro text isMark
      refine (marks text isMark).mp fun value reads => ?_
      exact (accepts_literal_iff lib text value).mp (each _ isMark value reads)
  · rintro ⟨here, mark⟩ g isOther value reads
    rcases has.fields place g isOther with ⟨text, rfl⟩ | ⟨escaped', -⟩
    · exact (accepts_literal_iff lib text value).mpr
        ((marks text isOther).mpr (mark text isOther) value reads)
    · rw [keyed'.value has g isOther escaped'] at reads
      by_cases same : g = f
      · subst same
        exact here value (replaces.here ▸ reads)
      · -- Other fields have other names, under which nothing has changed.
        have other : f.wire ≠ g.wire := fun wires =>
          same (has.wire_unique f g isField isOther unmarked wires).symm
        apply accepted g isOther
        rw [keyed.value has g isOther escaped', ← replaces.elsewhere _ other, reads]

end Replaced

/-! ## Choices -/

/-- An object with a tag is accepted as one of a choice if it is accepted as the class that the tag
leads to. -/
theorem accepts_told_iff (lib : Library) (places : List Nat) (members : List (String × Json))
    (tag : String) (place : Nat) (told : tagOf? members = some (.str tag))
    (known : lib.tagged? places tag = some place) :
    lib.Accepts (.choice places) (.obj members) ↔ lib.Accepts (.model place) (.obj members) := by
  simp [accepts_choice_iff, told, known]

/-- An object of a choice is accepted with a cleared member if it is accepted as the class of its
tag, unless the member is the tag. -/
theorem accepts_choice_member_iff {lib : Library} {key : String} {e : Json.Edit} {places : List Nat}
    {tag : String} {place : Nat} {members : List (String × Json)} {f : FieldSpec} {value : Json}
    (told : tagOf? members = some (.str tag)) (known : lib.tagged? places tag = some place)
    (unmarked : key ≠ typenameAlias) (found : findKey? key members = some value)
    (within : lib.Clears e f.shape value)
    (step : lib.Accepts (.model place) (.obj (Json.changeMember key e.apply members)) ↔
      ¬lib.TakesMark (.member key e) (.model place) (.obj members)) :
    lib.Accepts (.choice places) (.obj (Json.changeMember key e.apply members)) ↔
      ¬lib.TakesMark (.member key e) (.choice places) (.obj members) := by
  by_cases marked : key = typenameField
  · -- The tag is a text, so that it can be cleared as a whole only.
    subst marked
    have tagged := told
    rw [tagOf?, found] at tagged
    cases tagged
    rcases within.inside with rfl | ⟨-, -, -, noText⟩
    swap
    · exact absurd rfl (noText tag)
    refine iff_of_false ?_ (not_not_intro .tag)
    rw [accepts_choice_iff]
    rintro ⟨other, -, told', -⟩
    simp [tagOf?, Json.findKey?_changeMember, found, Json.Edit.apply] at told'
  · rw [accepts_told_iff lib places _ tag place
      ((tagOf?_replaced (.change value found e.apply) unmarked marked).trans told) known, step]
    refine not_congr ⟨.choice told known, fun takes => ?_⟩
    cases takes with
    | tag => exact absurd rfl marked
    | choice told' known' within' =>
      cases told.symm.trans told'
      cases known.symm.trans known'
      exact within'

/-! ## One edit -/

section Edit

variable {lib : Library} (has : lib.HasNullableFields)

include has

/-- A cleared member keeps its object accepted if its value stays so, unless the member is the
mark. -/
theorem accepts_member_iff {key : String} {e : Json.Edit} {place : Nat}
    {members : List (String × Json)} {f : FieldSpec} {value : Json}
    (keyed : lib.IsKeyed place members) (isField : f ∈ lib.fieldsOf place) (named : f.wire = key)
    (unmarked : key ≠ typenameAlias) (found : findKey? key members = some value)
    (within : lib.Clears e f.shape value) (accepted : lib.Accepts (.model place) (.obj members))
    (step : lib.Accepts f.shape (e.apply value) ↔ ¬lib.TakesMark e f.shape value) :
    lib.Accepts (.model place) (.obj (Json.changeMember key e.apply members)) ↔
      ¬lib.TakesMark (.member key e) (.model place) (.obj members) := by
  rw [accepts_replaced_iff (.change value found e.apply) unmarked has keyed f isField named
    accepted]
  simp only [Option.some.injEq, forall_eq', step]
  constructor
  · rintro ⟨inside, mark⟩ takes
    cases takes with
    | mark isMarked untold =>
      have cleared := mark _ isMarked rfl untold
      simp [Json.Edit.apply] at cleared
    | member isField' named' _ found' within' =>
      subst named
      cases has.wire_unique f _ isField isField' unmarked named'.symm
      cases found.symm.trans found'
      exact inside within'
  · intro kept
    refine ⟨fun takes => kept (.member isField named unmarked found takes), ?_⟩
    intro text isMarked marked untold
    subst marked
    -- The member is the mark itself, which is a text: there is nothing to clear inside of it.
    have told := (accepts_model_iff lib place members).mp accepted _ isMarked value (by
      rw [valueOf?_mark, untold, Option.none_or, found])
    rw [typenameSpec, accepts_literal_iff] at told
    rcases within.inside with rfl | ⟨-, -, -, noText⟩
    · exact absurd (.mark isMarked untold) kept
    · exact absurd told (noText text)

/-- An object is accepted without the member of a field. -/
theorem accepts_removed {key : String} {place : Nat} {members : List (String × Json)}
    {f : FieldSpec} (keyed : lib.IsKeyed place members) (isField : f ∈ lib.fieldsOf place)
    (named : f.wire = key) (unmarked : key ≠ typenameAlias)
    (accepted : lib.Accepts (.model place) (.obj members)) :
    lib.Accepts (.model place) (.obj (Json.removeMember key members)) := by
  rw [accepts_replaced_iff .remove unmarked has keyed f isField named accepted]
  simp

/-- An object of a choice is accepted without a member, unless the member is all that tells it. -/
theorem accepts_choice_remove_iff {key : String} {places : List Nat} {tag : String} {place : Nat}
    {members : List (String × Json)} (told : tagOf? members = some (.str tag))
    (known : lib.tagged? places tag = some place) (unmarked : key ≠ typenameAlias)
    (accepted : lib.Accepts (.model place) (.obj members))
    (without : lib.Accepts (.model place) (.obj (Json.removeMember key members))) :
    lib.Accepts (.choice places) (.obj (Json.removeMember key members)) ↔
      ¬lib.TakesMark (.remove key) (.choice places) (.obj members) := by
  by_cases untold : key = typenameField ∧ findKey? typenameAlias members = none
  · obtain ⟨rfl, untold⟩ := untold
    refine iff_of_false ?_ (not_not_intro (.removed untold))
    rw [accepts_choice_iff]
    rintro ⟨other, -, told', -⟩
    simp [tagOf?, Json.findKey?_removeMember, untold] at told'
  · have told' : tagOf? (Json.removeMember key members) = some (.str tag) := by
      by_cases marked : key = typenameField
      · -- The mark is there under its own name as well, and says the same.
        subst marked
        obtain ⟨mark, isMark⟩ := Option.ne_none_iff_exists'.mp fun none => untold ⟨rfl, none⟩
        have same := (accepts_model_iff lib place members).mp accepted _
          (has.mark_mem places tag known) mark (by rw [valueOf?_mark, isMark]; rfl)
        rw [typenameSpec, accepts_literal_iff] at same
        simp [tagOf?, Json.findKey?_removeMember, Ne.symm unmarked, isMark, same]
      · exact (tagOf?_replaced .remove unmarked marked).trans told
    rw [accepts_told_iff lib places _ tag place told' known]
    refine iff_of_true without fun takes => ?_
    cases takes with
    | removed none => exact untold ⟨rfl, none⟩
    | choice _ _ within => cases within

/-- **A cleared document is accepted** exactly if the edit does not take a mark. -/
theorem accepts_apply_iff {e : Json.Edit} {shape : Shape} {j : Json}
    (clears : lib.Clears e shape j) (nullable : shape.IsNullable ∨ shape.IsCore ∧ e ≠ .null)
    (accepted : lib.Accepts shape j) :
    lib.Accepts shape (e.apply j) ↔ ¬lib.TakesMark e shape j := by
  -- The induction is along the edit: what is below a field or an item is nullable again.
  induction clears with
  | null =>
    rcases nullable with nullable | ⟨-, something⟩
    · obtain ⟨core, rfl, -⟩ := nullable.core
      exact iff_of_true (lib.accepts_optional_null core) fun takes => takes.ne_null rfl
    · exact absurd rfl something
  | @optional e inner j within ih =>
    rcases nullable with nullable | ⟨isCore, -⟩
    swap
    · exact isCore.elim
    obtain ⟨core, same, isCore⟩ := nullable.core
    cases same
    rcases within.inside with rfl | ⟨something, given, cleared, -⟩
    · exact iff_of_true (lib.accepts_optional_null inner) fun takes => takes.ne_null rfl
    · rw [accepts_optional_iff lib inner j given] at accepted
      rw [accepts_optional_iff lib inner _ cleared, ih (.inr ⟨isCore, something⟩) accepted]
      refine not_congr ⟨.optional, fun takes => ?_⟩
      cases takes with
      | optional takes => exact takes
  | @item index e inner items item found within ih =>
    rcases nullable with nullable | ⟨isCore, -⟩
    · exact nullable.elim
    rw [accepts_list_iff] at accepted
    rw [Json.Edit.apply, accepts_list_iff,
      Json.forall_mem_modify_iff _ items index e.apply item found accepted,
      ih (.inl isCore) (accepted item (List.mem_of_getElem? found))]
    refine not_congr ⟨.item found, fun takes => ?_⟩
    cases takes with
    | item found' takes =>
      cases found.symm.trans found'
      exact takes
  | remove keyed isField named unmarked =>
    exact iff_of_true (accepts_removed has keyed isField named unmarked accepted) nofun
  | @member key e place members f value keyed isField named unmarked found within ih =>
    have nullable := (has.unmarked f isField (named ▸ unmarked)).2
    refine accepts_member_iff has keyed isField named unmarked found within accepted
      (ih (.inl nullable) ?_)
    apply (accepts_model_iff lib place members).mp accepted f isField
    rw [valueOf?, named, found]
    rfl
  | @choice e places tag place members told known within ih =>
    rcases nullable with nullable | ⟨-, something⟩
    · exact nullable.elim
    rw [accepts_told_iff lib places members tag place told known] at accepted
    have step := ih (.inr ⟨trivial, something⟩) accepted
    cases within with
    | null => exact absurd rfl something
    | remove keyed isField named unmarked =>
      exact accepts_choice_remove_iff has told known unmarked accepted
        (accepts_removed has keyed isField named unmarked accepted)
    | member keyed isField named unmarked found within =>
      exact accepts_choice_member_iff told known unmarked found within step

end Edit

/-! ## Documents for a name -/

/-- A step that clears something and takes no mark. -/
def ClearsTo (lib : Library) (shape : Shape) (j j' : Json) : Prop :=
  ∃ e : Json.Edit, e ≠ .null ∧ lib.Clears e shape j ∧ ¬lib.TakesMark e shape j ∧ j' = e.apply j

section Documents

variable {lib : Library} (has : lib.HasNullableFields) {shape : Shape} (isCore : shape.IsCore)
  {j : Json}

include has isCore

/-- What is accepted is accepted after any number of steps, and is no deeper then. -/
theorem accepts_run {j' : Json} (run : Relation.ReflTransGen (lib.ClearsTo shape) j j')
    (accepted : lib.Accepts shape j) : lib.Accepts shape j' ∧ depthOf j' ≤ depthOf j := by
  induction run with
  | refl => exact ⟨accepted, Nat.le_refl _⟩
  | tail _ step ih =>
    obtain ⟨e, something, clears, told, rfl⟩ := step
    obtain ⟨before, shallower⟩ := ih
    have after := (accepts_apply_iff has clears (.inr ⟨isCore, something⟩) before).mpr told
    exact ⟨after, (e.depthOf_apply _).trans shallower⟩

end Documents

/-- A document of bounded depth is read for a name if it is accepted under the shape of the name. -/
theorem fromJson_ok_iff (lib : Library) (name text : String) (v : Value) (shape : Shape)
    (shaped : lib.typeShape name = .ok shape) (read : lib.fromJson name text = .ok v)
    (other : String) (j : Json) (parsed : Json.parse? other = some j)
    (shallow : depthOf j ≤ maxDepth) :
    (∃ v', lib.fromJson name other = .ok v') ↔ lib.Accepts shape j := by
  obtain ⟨known, shaped', -, from_shape⟩ := fromJson_ok lib name text v read
  cases shaped.symm.trans shaped'
  simp only [from_shape, readAs_ok_iff, parsed, Option.some.injEq, Accepts]
  constructor
  · rintro ⟨v', _, rfl, -, decoded⟩
    exact ⟨v', decoded⟩
  · rintro ⟨v', decoded⟩
    exact ⟨v', j, rfl, shallow, decoded⟩

/-- **Clearing a document of a library.** -/
theorem reads_cleared (lib : Library) (has : lib.HasNullableFields) (name text : String) (v : Value)
    (shape : Shape) (j : Json) (read : lib.fromJson name text = .ok v)
    (shaped : lib.typeShape name = .ok shape) (parsed : Json.parse? text = some j) :
    (∀ e : Json.Edit, e ≠ .null → lib.Clears e shape j →
      ∀ text', Json.parse? text' = some (e.apply j) →
        ((∃ v', lib.fromJson name text' = .ok v') ↔ ¬lib.TakesMark e shape j)) ∧
      ∀ j', Relation.ReflTransGen (lib.ClearsTo shape) j j' →
        ∀ text', Json.parse? text' = some j' → ∃ v', lib.fromJson name text' = .ok v' := by
  obtain ⟨known, shaped', isBottom, from_shape⟩ := fromJson_ok lib name text v read
  cases shaped.symm.trans shaped'
  have isRead := read
  rw [from_shape, readAs_ok_iff] at isRead
  obtain ⟨_, parsed', shallow, decoded⟩ := isRead
  cases parsed.symm.trans parsed'
  have accepted : lib.Accepts shape j := ⟨v, decoded⟩
  constructor
  · intro e something clears text' parsed'
    have shallower := (e.depthOf_apply j).trans shallow
    rw [lib.fromJson_ok_iff name text v shape shaped read text' _ parsed' shallower]
    exact accepts_apply_iff has clears (.inr ⟨isBottom.isCore, something⟩) accepted
  · intro j' run text' parsed'
    obtain ⟨after, shallower⟩ := accepts_run has isBottom.isCore run accepted
    rw [lib.fromJson_ok_iff name text v shape shaped read text' j' parsed'
      (shallower.trans shallow)]
    exact after

/-- A mark is only taken where a field is named as the attribute of the mark is. -/
theorem TakesMark.exists_field {lib : Library} (has : lib.HasNullableFields) {e : Json.Edit}
    {shape : Shape} {j : Json} (takes : lib.TakesMark e shape j) (clears : lib.Clears e shape j) :
    ∃ place, ∃ f ∈ lib.fieldsOf place, f.wire = typenameField := by
  -- Both judgments follow the edit down the shape, and the edit ends at a field of that name.
  induction clears with
  | null => exact absurd rfl takes.ne_null
  | optional _ ih =>
    cases takes with
    | optional takes => exact ih takes
  | item found _ ih =>
    cases takes with
    | item found' takes =>
      cases found.symm.trans found'
      exact ih takes
  | remove => cases takes
  | member _ isField named unmarked found _ ih =>
    cases takes with
    | mark => exact ⟨_, _, isField, named⟩
    | member isField' named' _ found' takes =>
      subst named
      cases has.wire_unique _ _ isField isField' unmarked named'.symm
      cases found.symm.trans found'
      exact ih takes
  | choice told known within ih =>
    cases takes with
    | tag =>
      cases within with
      | member _ isField named => exact ⟨_, _, isField, named⟩
    | removed =>
      cases within with
      | remove _ isField named => exact ⟨_, _, isField, named⟩
    | choice told' known' takes =>
      cases told.symm.trans told'
      cases known.symm.trans known'
      exact ih takes

/-- An object without members is accepted as every class. -/
theorem accepts_empty (lib : Library) (place : Nat) : lib.Accepts (.model place) (.obj []) := by
  rw [accepts_model_iff]
  intro f _ value reads
  cases reads

end Library

/-! ## Loaded modules -/

/-- No field of the foundation is named as the attribute of the mark is. -/
theorem foundationNames_unmarked (place : Nat) : typenameField ∉ foundationNames place := by
  match place with
  | 0 | 1 | 2 | 3 | 4 | 5 | 6 => decide
  | _ + 7 => exact List.not_mem_nil

section Loaded

variable {world : World} {imports : ImportTable} {definitions : List Definition}
  {source : Source.Module} {lib : Library} (laysOut : Source.LaysOut imports definitions source)
  (loaded : load source world = .ok lib)

include laysOut loaded

/-- The fields of a loaded module are nullable. -/
theorem hasNullableFields : lib.HasNullableFields where
  apart place := by
    cases found : lib.class? place with
    | none => simp [Library.fieldsOf, found]
    | some c =>
      rw [lib.fieldsOf_eq place c found]
      exact (library_hasNames laysOut loaded place c found).apart
  fields place f isField := by
    obtain ⟨c, -, found, member⟩ := Library.fieldsOf_mem place f isField
    refine (class_field_holds laysOut loaded place c found f member).imp_right ?_
    rintro ⟨_, _, g, _, holds⟩
    exact ⟨holds.name, holds.isNullable⟩

/-- A field under the name of the attribute of the mark is one of a definition. -/
theorem exists_named_mark (place : Nat) (f : FieldSpec) (isField : f ∈ lib.fieldsOf place)
    (named : f.wire = typenameField) : ∃ e ∈ definitions, typenameField ∈ e.fieldNames := by
  obtain ⟨c, -, found, member⟩ := Library.fieldsOf_mem place f isField
  rcases class_field_holds laysOut loaded place c found f member with
    ⟨text, rfl⟩ | ⟨p, -, g, belongs, holds⟩
  · exact absurd (show typenameAlias = typenameField from named) (by decide)
  have isNamed : g.name = some typenameField := named ▸ holds.wire
  cases belongs with
  | @foundation _ _ name isName given =>
    cases isNamed.symm.trans given
    exact absurd isName (foundationNames_unmarked _)
  | @definition i e _ listed isOwn =>
    refine ⟨e, Source.mem_of_classDefinitions _ e (List.mem_of_getElem? listed), ?_⟩
    exact List.mem_filterMap.mpr ⟨g, isOwn, isNamed⟩

/-- Documents for the class of an object are objects of this class. -/
theorem documentShape_object (i : Nat) (o : ObjectDef)
    (listed : (Source.classDefinitions definitions)[i]? = some (.object o)) :
    lib.isModel (Foundation.classes.length + i) = true ∧
      lib.documentShape (Foundation.classes.length + i) =
        .ok (.model (Foundation.classes.length + i)) := by
  obtain ⟨trace⟩ := load_trace source lib loaded
  obtain ⟨model, none⟩ := implementers_of_object laysOut trace i o listed
  refine ⟨model, ?_⟩
  rw [Library.documentShape, none]
  rfl

end Loaded

end Model

/-- **Nullability.** A document that is read for a class of a loaded module is read again after null
is put in place of the value of any field or of any item of a list, or after any field is taken
away, if and only if this takes no mark; so it is after any number of such edits. A mark can be
taken only where a definition has a field that is named as the attribute of the mark is. Every
object type reads the empty document. The fields of a class are those of its definition and of the
definitions above it, each nullable at every level of its type, and all of them if no two share an
attribute. -/
theorem nullability_iff {world : Model.World} (m : Module) (setup : Setup) (source : Source.Module)
    (lib : Model.Library) (laidOut : m.source setup = .ok source)
    (loaded : Model.load source world = .ok lib) :
    (∀ name text v shape j, lib.fromJson name text = .ok v → lib.typeShape name = .ok shape →
      Json.parse? text = some j →
      (∀ e : Json.Edit, e ≠ .null → lib.Clears e shape j →
        ∀ text', Json.parse? text' = some (e.apply j) →
          ((∃ v', lib.fromJson name text' = .ok v') ↔ ¬lib.TakesMark e shape j)) ∧
        ∀ j', Relation.ReflTransGen (lib.ClearsTo shape) j j' →
          ∀ text', Json.parse? text' = some j' → ∃ v', lib.fromJson name text' = .ok v') ∧
    ((∀ d ∈ m.definitions, typenameField ∉ d.fieldNames) →
      ∀ e shape j, lib.Clears e shape j → ¬lib.TakesMark e shape j) ∧
    (∀ i o, (Source.classDefinitions (Hook.runFilters setup.hooks m.definitions))[i]? =
        some (.object o) → ∀ name, lib.binding? name =
          some (.cls (Model.Foundation.classes.length + i)) →
        ∃ v, lib.fromJson name "\x7b\x7d" = .ok v) ∧
    ∀ place c, lib.class? place = some c →
      (∀ f ∈ c.fields, (∃ text, f = Model.typenameSpec text) ∨ ∃ p ∈ c.order, ∃ g,
        Model.IsFieldAt (Hook.runFilters setup.hooks m.definitions) p g ∧ f.Holds g) ∧
      (Model.NoClash (fun name => ∃ q ∈ c.order, name ∈ Model.namesAt
          (Hook.runFilters setup.hooks m.definitions) q) →
        ∀ q ∈ c.order, ∀ name ∈ Model.namesAt (Hook.runFilters setup.hooks m.definitions) q,
          ∃ f ∈ c.fields, f.wire = name) := by
  have laysOut := source_laysOut m setup source laidOut
  have has := Model.hasNullableFields laysOut loaded
  refine ⟨lib.reads_cleared has, ?_, ?_, ?_⟩
  · intro unmarked e shape j clears takes
    obtain ⟨place, f, isField, named⟩ := takes.exists_field has clears
    obtain ⟨d, member, isName⟩ := Model.exists_named_mark laysOut loaded place f isField named
    obtain ⟨given, isGiven, same⟩ := Hook.fields_of_runFilters _ _ d member
    apply unmarked given isGiven
    rwa [Definition.fieldNames, ← same]
  · intro i o listed name bound
    obtain ⟨isModel, document⟩ := Model.documentShape_object laysOut loaded i o listed
    have found : lib.lookup name = .ok (.cls (Model.Foundation.classes.length + i)) := by
      rw [Model.Library.lookup, bound]
    have parsed : Json.parse? "\x7b\x7d" = some (.obj []) :=
      Json.parse?_compact (.obj []) ⟨by simp, trivial⟩
    obtain ⟨v, decoded⟩ := lib.accepts_empty (Model.Foundation.classes.length + i)
    refine ⟨v, ?_⟩
    rw [lib.fromJson_eq name _ _ found isModel document, Model.Library.readAs_ok_iff]
    exact ⟨_, parsed, by decide, decoded⟩
  · intro place c found
    have names := Model.library_hasNames laysOut loaded place c found
    refine ⟨Model.class_field_holds laysOut loaded place c found, ?_⟩
    intro free q within name isName
    obtain ⟨f, isField, -, same⟩ := (Model.keeps_above_iff names).mpr free name ⟨q, within, isName⟩
    exact ⟨f, isField, same⟩

/-! ## A pair -/

/-- A pair is read from the text of an object that is decoded. -/
theorem pair_isRead (fields : List Model.FieldSpec) (members : List (String × Json))
    (v : Model.Value) (parsed : Json.parse? (Json.compact (.obj members)) = some (.obj members))
    (shallow : Model.depthOf (.obj members) ≤ Model.maxDepth)
    (decoded : (pairLibrary fields).decode .document (.obj members) (.model 7) = .ok v) :
    (pairLibrary fields).fromJson "Pair" (Json.compact (.obj members)) = .ok v := by
  rw [(pairLibrary fields).fromJson_eq "Pair" 7 (.model 7) rfl rfl rfl,
    Model.Library.readAs_ok_iff]
  exact ⟨_, parsed, shallow, decoded⟩

/-- The members of a pair may be those of its fields. -/
theorem pair_isKeyed (fields : List Model.FieldSpec) (members : List (String × Json))
    (named : ∀ key ∈ members.map (·.1), ∃ f ∈ fields, f.wire = key) :
    (pairLibrary fields).IsKeyed 7 members := by
  intro key listed
  obtain ⟨f, isField, same⟩ := named key listed
  exact .inr ⟨f, List.mem_cons_of_mem _ isField, same⟩

/-- Null may stand for a text of a pair. -/
theorem pair_clears (fields : List Model.FieldSpec) (members : List (String × Json))
    (named : ∀ key ∈ members.map (·.1), ∃ f ∈ fields, f.wire = key) (f : Model.FieldSpec)
    (isField : f ∈ fields) (unmarked : f.wire ≠ typenameAlias) (value : Json)
    (found : findKey? f.wire members = some value) :
    (pairLibrary fields).Clears (.member f.wire .null) (.model 7) (.obj members) :=
  .member (pair_isKeyed fields members named) (List.mem_cons_of_mem _ isField) rfl unmarked found
    .null

/-- A pair is read with null in place of a text whose name is escaped. -/
theorem nullability_iff_pair : ∃ v,
    (pairLibrary [textField "from_" "from", textField "to" "to"]).fromJson "Pair"
      (Json.compact (.obj [("from", .null), ("to", .str "b")])) = .ok v := by
  have parsed := Json.parse?_compact (.obj [("from", .str "a"), ("to", .str "b")])
    ⟨by decide, trivial, trivial, trivial⟩
  have parsed' := Json.parse?_compact (.obj [("from", .null), ("to", .str "b")])
    ⟨by decide, trivial, trivial, trivial⟩
  have read := pair_isRead [textField "from_" "from", textField "to" "to"] _
    (.object none 7 [("typename__", .text "Pair"), ("from_", .text "a"), ("to", .text "b")]) parsed
    (by decide) rfl
  have clears := pair_clears [textField "from_" "from", textField "to" "to"]
    [("from", .str "a"), ("to", .str "b")] (by decide) (textField "from_" "from")
    List.mem_cons_self (by decide) (.str "a") rfl
  obtain ⟨clearing, unmarked, -, -⟩ := nullability_iff (pairModule ["from", "to"]) {}
    (pairSource [textAttribute "from_" (some "from"), textAttribute "to" none])
    (pairLibrary [textField "from_" "from", textField "to" "to"])
    (source_of_sorted _ _ _ rfl rfl) rfl
  have told := unmarked (by decide) _ _ _ clears
  exact ((clearing "Pair" _ _ (.model 7) _ read rfl parsed).1 (.member "from" .null) nofun clears _
    parsed').mpr told

/-- A field that is named as the attribute of the mark is may be read and yet not be null. -/
theorem field_may_not_be_null :
    ¬∀ (options : Options) (schema : Schema) (m : Module) (setup : Setup) (source : Source.Module)
      (lib : Model.Library), (emit options schema).outcome = .ok m → m.source setup = .ok source →
      Model.load source = .ok lib →
      (∀ d ∈ m.definitions, (typenameField ::
        d.fieldNames.map IdentifierUse.field.escape).Nodup) →
      ∀ name text v shape j (e : Json.Edit) text', lib.fromJson name text = .ok v →
      lib.typeShape name = .ok shape → Json.parse? text = some j → e ≠ .null →
      lib.Clears e shape j → Json.parse? text' = some (e.apply j) →
      ∃ v', lib.fromJson name text' = .ok v' := by
  intro accepts
  have parsed := Json.parse?_compact (.obj [("typename__", .str "Pair")])
    ⟨by decide, trivial, trivial⟩
  have parsed' := Json.parse?_compact (.obj [("typename__", .null)]) ⟨by decide, trivial, trivial⟩
  -- The text of the field is taken for the mark, which is not there under its own name.
  have read := pair_isRead [textField "typename___" "typename__"] _
    (.object none 7 [("typename__", .text "Pair"), ("typename___", .text "Pair")]) parsed
    (by decide) rfl
  have clears := pair_clears [textField "typename___" "typename__"]
    [("typename__", .str "Pair")] (by decide) (textField "typename___" "typename__")
    List.mem_cons_self (by decide) (.str "Pair") rfl
  have laidOut : (pairModule ["typename__"]).source {} =
      .ok (pairSource [textAttribute "typename___" (some "typename__")]) :=
    source_of_sorted _ _ _ rfl rfl
  have loaded : Model.load (pairSource [textAttribute "typename___" (some "typename__")]) =
      .ok (pairLibrary [textField "typename___" "typename__"]) := rfl
  obtain ⟨v, again⟩ := accepts pairOptions { types := [pairType ["typename__"]] }
    (pairModule ["typename__"]) {} _ _ rfl laidOut loaded (by decide) "Pair" _ _ (.model 7)
    _ (.member "typename__" .null) _ read rfl parsed nofun clears parsed'
  have has := Model.hasNullableFields (source_laysOut _ _ _ laidOut) loaded
  have told := ((Model.Library.reads_cleared _ has "Pair" _ _ (.model 7) _ read rfl parsed).1
    (.member "typename__" .null) nofun clears _ parsed').mp ⟨v, again⟩
  exact told (.mark List.mem_cons_self rfl)

end GraphQLModels
