import GraphQLModels.Proofs.Decoding
import GraphQLModels.Proofs.LoadedFields
import GraphQLModels.Proofs.Serialization

/-!
# Values read back

A value that is decoded is written as a document that is decoded as what the text of the value holds:
null for every number that is not finite, and the value itself otherwise. Only an object of a choice
may be read as nothing, when another member stands in place of its tag.
-/

namespace GraphQLModels.Model

/-! ## Depths -/

theorem depthOfItems_le_iff (items : List Json) (bound : Nat) :
    depthOfItems items ≤ bound ↔ ∀ item ∈ items, depthOf item ≤ bound := by
  induction items with
  | nil => simp [depthOfItems]
  | cons item rest ih => rw [depthOfItems, max_le_iff, ih, List.forall_mem_cons]

theorem depthOfMembers_le_iff (members : List (String × Json)) (bound : Nat) :
    depthOfMembers members ≤ bound ↔ ∀ entry ∈ members, depthOf entry.2 ≤ bound := by
  induction members with
  | nil => simp [depthOfMembers]
  | cons entry rest ih => rw [depthOfMembers, max_le_iff, ih, List.forall_mem_cons]

/-- The text of a value is as deep as the value. -/
theorem depthOf_written (j : Json) : depthOf j.written = depthOf j := by
  have items : ∀ items : List Json, (∀ item ∈ items, depthOf item.written = depthOf item) →
      depthOfItems (Json.writtenItems items) = depthOfItems items := by
    intro items
    induction items with
    | nil => exact fun _ => rfl
    | cons item rest ih =>
      intro same
      rw [List.forall_mem_cons] at same
      rw [Json.writtenItems, depthOfItems, depthOfItems, same.1, ih same.2]
  have members : ∀ members : List (String × Json),
      (∀ entry ∈ members, depthOf entry.2.written = depthOf entry.2) →
      depthOfMembers (Json.writtenMembers members) = depthOfMembers members := by
    intro members
    induction members with
    | nil => exact fun _ => rfl
    | cons entry rest ih =>
      intro same
      rw [List.forall_mem_cons] at same
      rw [Json.writtenMembers, depthOfMembers, depthOfMembers, same.1, ih same.2]
  induction j using Json.induction_on with
  | null | bool _ | int _ | str _ => rfl
  | float x => cases x <;> rfl
  | arr parts ih => rw [Json.written, depthOf, depthOf, items parts ih]
  | obj parts ih => rw [Json.written, depthOf, depthOf, members parts ih]

namespace Library

/-! ## The fields of a class -/

/-- Whether all classes of a library are generated ones. -/
def IsGenerated (lib : Library) : Prop := ∀ c ∈ lib.classes, c.IsGenerated id Shape.IsNullable

section Fields

variable {lib : Library} (generated : lib.IsGenerated)

theorem fieldsOf_mem (place : Nat) (f : FieldSpec) (member : f ∈ lib.fieldsOf place) :
    ∃ c ∈ lib.classes, lib.class? place = some c ∧ f ∈ c.fields := by
  unfold fieldsOf at member
  cases found : lib.class? place with
  | none =>
    rw [found] at member
    cases member
  | some c =>
    rw [found] at member
    exact ⟨c, List.mem_of_getElem? found, rfl, member⟩

include generated

theorem fieldsOf_apart (place : Nat) : ((lib.fieldsOf place).map (·.name)).Nodup := by
  unfold fieldsOf
  cases found : lib.class? place with
  | none => exact List.nodup_nil
  | some c => exact (generated c (List.mem_of_getElem? found)).apart

theorem field_isGenerated (place : Nat) (f : FieldSpec) (member : f ∈ lib.fieldsOf place) :
    f.IsGenerated id Shape.IsNullable := by
  obtain ⟨c, isClass, -, isField⟩ := fieldsOf_mem place f member
  exact (generated c isClass).fields f isField

theorem field_unique (place : Nat) (f g : FieldSpec) (first : f ∈ lib.fieldsOf place)
    (second : g ∈ lib.fieldsOf place) (same : f.name = g.name) : f = g :=
  List.inj_on_of_nodup_map (fieldsOf_apart generated place) first second same

/-- Fields of one class have different names in documents. -/
theorem wire_unique (place : Nat) (f g : FieldSpec) (first : f ∈ lib.fieldsOf place)
    (second : g ∈ lib.fieldsOf place) (same : f.wire = g.wire) : f = g := by
  refine field_unique generated place f g first second ?_
  rcases field_isGenerated generated place f first with ⟨text, rfl⟩ | ⟨escaped, unmarked, -⟩
  · rcases field_isGenerated generated place g second with ⟨text', rfl⟩ | ⟨-, unmarked', -⟩
    · rfl
    · exact absurd same.symm unmarked'
  · rcases field_isGenerated generated place g second with ⟨text', rfl⟩ | ⟨escaped', -⟩
    · exact absurd same unmarked
    · rw [escaped, escaped', same]

/-- No field of the schema has an attribute that is named as another field is in documents. -/
theorem name_unique (place : Nat) (f g : FieldSpec) (first : f ∈ lib.fieldsOf place)
    (second : g ∈ lib.fieldsOf place) (escaped : f.name = IdentifierUse.field.escape f.wire)
    (same : f.name = g.wire) : f = g := by
  refine field_unique generated place f g first second ?_
  rcases field_isGenerated generated place g second with ⟨text, rfl⟩ | ⟨escaped', -⟩
  · -- The name of the mark in documents has an underscore in front.
    have unmarked := (IdentifierUse.escape_free f.wire).2
    rw [← escaped, same] at unmarked
    exact absurd unmarked (show ¬Text.beginsWith typenameAlias "_" = false by decide)
  · rw [escaped', ← same, escaped, IdentifierUse.escape_escape]

end Fields

/-! ## Values that are read again -/

/-- Whether some object of a choice is written with a member in place of its tag. -/
inductive HidesTag (lib : Library) : Shape → Value → Prop where
  | here {shape : Shape} {identity : Option Nat} {place : Nat} {attributes : List (String × Value)}
      (chosen : shape.choices ≠ [])
      (hidden : tagOf? (lib.encodeAttributes place attributes) ≠
        ((lib.class? place).bind ClassOf.tag?).map Json.str) :
      HidesTag lib shape (.object identity place attributes)
  | within {shape : Shape} {identity : Option Nat} {place : Nat}
      {attributes : List (String × Value)} (name : String) (value : Value)
      (member : (name, value) ∈ attributes) (f : FieldSpec)
      (field : lib.field? place name = some f) (inner : HidesTag lib f.shape value) :
      HidesTag lib shape (.object identity place attributes)
  | item {shape : Shape} {items : List Value} (value : Value) (member : value ∈ items)
      (inner : HidesTag lib shape.item value) : HidesTag lib shape (.list items)

/-- Whether a value is written as a document of bounded depth that is read as what its text holds,
unless it hides a tag. -/
structure ReadsAgain (lib : Library) (shape : Shape) (bound : Nat) (v : Value) : Prop where
  proper : (lib.encode shape v).IsProper
  depth : depthOf (lib.encode shape v) ≤ bound
  again : ∀ v', lib.decode .document (lib.encode shape v).written shape = .ok v' ↔
    ¬lib.HidesTag shape v ∧ v' = v.settled

/-- Whether the same holds under a shape that need not allow null: a value that is written as null
is null in its text. -/
structure ReadsBack (lib : Library) (shape : Shape) (bound : Nat) (v : Value) : Prop where
  proper : (lib.encode shape v).IsProper
  depth : depthOf (lib.encode shape v) ≤ bound
  null : (lib.encode shape v).written = .null → v.settled = .null ∧ ¬lib.HidesTag shape v
  again : (lib.encode shape v).written ≠ .null → ∀ v',
    lib.decode .document (lib.encode shape v).written shape = .ok v' ↔
      ¬lib.HidesTag shape v ∧ v' = v.settled

theorem encode_optional (lib : Library) (inner : Shape) (v : Value) :
    lib.encode (.optional inner) v = lib.encode inner v := by
  cases v <;> rfl

theorem hidesTag_optional (lib : Library) (inner : Shape) (v : Value) :
    lib.HidesTag (.optional inner) v ↔ lib.HidesTag inner v := by
  constructor
  · intro hides
    cases hides with
    | here chosen hidden => exact .here chosen hidden
    | within name value member f field inner => exact .within name value member f field inner
    | item value member inner => exact .item value member inner
  · intro hides
    cases hides with
    | here chosen hidden => exact .here chosen hidden
    | within name value member f field inner => exact .within name value member f field inner
    | item value member inner => exact .item value member inner

theorem ReadsBack.optional {lib : Library} {inner : Shape} {bound : Nat} {v : Value}
    (back : lib.ReadsBack inner bound v) : lib.ReadsAgain (.optional inner) bound v where
  proper := encode_optional lib inner v ▸ back.proper
  depth := encode_optional lib inner v ▸ back.depth
  again v' := by
    rw [encode_optional, hidesTag_optional]
    by_cases null : (lib.encode inner v).written = .null
    · obtain ⟨settled, told⟩ := back.null null
      rw [null, decode_optional_null, settled]
      simp [told, eq_comm]
    · rw [decode_optional lib .document inner _ null, back.again null]

theorem readsAgain_null (lib : Library) (inner : Shape) (bound : Nat) :
    lib.ReadsAgain (.optional inner) bound .null where
  proper := trivial
  depth := Nat.zero_le _
  again v' := by
    change Except.ok Value.null = Except.ok v' ↔ _
    have told : ¬lib.HidesTag (.optional inner) .null := nofun
    simp [told, Value.settled, eq_comm]

theorem readsAgain_mark (lib : Library) (text : String) (bound : Nat) :
    lib.ReadsAgain (.literal text) bound (.text text) where
  proper := trivial
  depth := Nat.zero_le _
  again v' := by
    have told : ¬lib.HidesTag (.literal text) (.text text) := nofun
    rw [decode_literal_ok_iff]
    simp [told, Value.settled, encode, Json.written]

/-! ## Objects -/

/-- A field with the attribute that holds its value. -/
abbrev Entry := FieldSpec × String × Value

/-- The member that a field is written as, if its value is not null. -/
def memberOf? (lib : Library) (p : Entry) : Option (String × Json) :=
  if p.2.2.isNull then none else some (p.1.wire, lib.encode p.1.shape p.2.2)

theorem memberOf?_some (lib : Library) (p : Entry) (entry : String × Json) :
    lib.memberOf? p = some entry ↔
      p.2.2.isNull = false ∧ entry = (p.1.wire, lib.encode p.1.shape p.2.2) := by
  unfold memberOf?
  cases p.2.2.isNull <;> simp [eq_comm]

theorem mem_written (lib : Library) (entries : List Entry) (entry : String × Json) :
    entry ∈ Json.writtenMembers (entries.filterMap lib.memberOf?) ↔ ∃ q ∈ entries,
      q.2.2.isNull = false ∧ entry = (q.1.wire, (lib.encode q.1.shape q.2.2).written) := by
  rw [Json.writtenMembers_eq, List.mem_map]
  constructor
  · rintro ⟨member, listed, rfl⟩
    obtain ⟨q, isEntry, made⟩ := List.mem_filterMap.mp listed
    obtain ⟨something, rfl⟩ := (memberOf?_some lib q member).mp made
    exact ⟨q, isEntry, something, rfl⟩
  · rintro ⟨q, isEntry, something, rfl⟩
    exact ⟨(q.1.wire, lib.encode q.1.shape q.2.2),
      List.mem_filterMap.mpr ⟨q, isEntry, (memberOf?_some lib q _).mpr ⟨something, rfl⟩⟩, rfl⟩

theorem find?_none (lib : Library) (entries : List Entry) (name : String)
    (null : ∀ q ∈ entries, q.1.wire = name → q.2.2.isNull = true) :
    (Json.writtenMembers (entries.filterMap lib.memberOf?)).find? (fun entry => entry.1 == name)
      = none := by
  rw [List.find?_eq_none]
  intro entry listed same
  obtain ⟨q, isEntry, something, rfl⟩ := (mem_written lib entries entry).mp listed
  rw [null q isEntry (by simpa using same)] at something
  cases something

/-- Whether entries are the fields of the class at a place, with values that are read again and of
which only those of the schema are null. -/
structure AreRead (lib : Library) (place bound : Nat) (entries : List Entry) : Prop where
  fields : entries.map (·.1) = lib.fieldsOf place
  names : ∀ p ∈ entries, p.2.1 = p.1.name
  again : ∀ p ∈ entries, lib.ReadsAgain p.1.shape bound p.2.2
  null : ∀ p ∈ entries, p.2.2.isNull = true →
    p.1.initial = .null ∧ p.1.name = IdentifierUse.field.escape p.1.wire
  marks : ∀ p ∈ entries, ∀ text, p.1 = typenameSpec text → p.2.2 = .text text

namespace AreRead

variable {lib : Library} (generated : lib.IsGenerated) {place bound : Nat} {entries : List Entry}
  (areRead : lib.AreRead place bound entries)

include areRead

theorem field_mem (p : Entry) (member : p ∈ entries) : p.1 ∈ lib.fieldsOf place :=
  areRead.fields ▸ List.mem_map_of_mem member

include generated

theorem entry_unique (p q : Entry) (first : p ∈ entries) (second : q ∈ entries)
    (same : p.1 = q.1) : p = q := by
  have apart : (entries.map (·.1)).Nodup := by
    rw [areRead.fields]
    exact (fieldsOf_apart generated place).of_map _
  exact List.inj_on_of_nodup_map apart first second same

theorem field_found (p : Entry) (member : p ∈ entries) : lib.field? place p.2.1 = some p.1 := by
  rw [areRead.names p member]
  exact lib.field?_of_apart place (fieldsOf_apart generated place) p.1 (areRead.field_mem p member)

theorem encodeAttributes_eq_members :
    lib.encodeAttributes place (entries.map (·.2)) = entries.filterMap lib.memberOf? := by
  rw [encodeAttributes_eq, List.filterMap_map]
  refine List.filterMap_congr fun p member => ?_
  simp only [Function.comp_apply, memberFor?, areRead.field_found generated p member, memberOf?]

/-- A field whose value is not null is found under its name in documents. -/
theorem find?_written (p : Entry) (member : p ∈ entries) (something : p.2.2.isNull = false) :
    (Json.writtenMembers (entries.filterMap lib.memberOf?)).find? (fun entry => entry.1 == p.1.wire)
      = some (p.1.wire, (lib.encode p.1.shape p.2.2).written) := by
  have listed := (mem_written lib entries _).mpr ⟨p, member, something, rfl⟩
  have isFound : ((Json.writtenMembers (entries.filterMap lib.memberOf?)).find?
      fun entry => entry.1 == p.1.wire).isSome := by
    rw [List.find?_isSome]
    exact ⟨_, listed, by simp⟩
  obtain ⟨entry, found⟩ := Option.isSome_iff_exists.mp isFound
  have key : entry.1 = p.1.wire := by simpa using List.find?_some found
  obtain ⟨q, isEntry, -, rfl⟩ := (mem_written lib entries entry).mp (List.mem_of_find?_eq_some found)
  have same : q = p := areRead.entry_unique generated q p isEntry member
    (wire_unique generated place q.1 p.1 (areRead.field_mem q isEntry)
      (areRead.field_mem p member) key)
  exact same ▸ found

/-- What a written object holds for a field: the value of the field, unless it is null. -/
theorem held?_written (p : Entry) (member : p ∈ entries) :
    held? (Json.writtenMembers (entries.filterMap lib.memberOf?)) p.1 =
      if p.2.2.isNull then none
      else some (p.1.wire, (lib.encode p.1.shape p.2.2).written) := by
  have same : ∀ q ∈ entries, q.1 = p.1 → q = p := fun q isEntry equal =>
    areRead.entry_unique generated q p isEntry member equal
  unfold held?
  -- A null value is not written, and no other field stands under one of the two names.
  by_cases null : p.2.2.isNull = true
  · obtain ⟨-, escaped⟩ := areRead.null p member null
    rw [find?_none lib entries p.1.wire, find?_none lib entries p.1.name, if_pos null]
    · rfl
    · intro q isEntry named
      have equal := name_unique generated place p.1 q.1 (areRead.field_mem p member)
        (areRead.field_mem q isEntry) escaped named.symm
      rw [same q isEntry equal.symm]
      exact null
    · intro q isEntry named
      rw [same q isEntry (wire_unique generated place q.1 p.1 (areRead.field_mem q isEntry)
        (areRead.field_mem p member) named)]
      exact null
  · rw [find?_written generated areRead p member (by simpa using null), if_neg null]
    rfl

/-- Every field of a written object is read as what its text holds. -/
theorem decodeField_written (p : Entry) (member : p ∈ entries) (a : String × Value) :
    decodeField (lib.memberDecoders .document
        (Json.writtenMembers (entries.filterMap lib.memberOf?))) p.1 = .ok a ↔
      ¬lib.HidesTag p.1.shape p.2.2 ∧ a = (p.2.1, p.2.2.settled) := by
  obtain ⟨name, v⟩ := a
  rw [decodeField_ok_iff, held?_written generated areRead p member, Prod.mk.injEq,
    areRead.names p member]
  by_cases null : p.2.2.isNull = true
  · have told : ¬lib.HidesTag p.1.shape p.2.2 := by
      cases known : p.2.2 with
      | null => nofun
      | _ => simp [known, Value.isNull] at null
    have settled : p.2.2.settled = .null := by
      cases known : p.2.2 with
      | null => rfl
      | _ => simp [known, Value.isNull] at null
    rw [if_pos null, (areRead.null p member null).1]
    simp [told, settled]
  · rw [if_neg null]
    dsimp only
    rw [(areRead.again p member).again]
    tauto

/-- **An object is read again** field by field. -/
theorem decode_written (v : Value) :
    lib.decode .document (.obj (Json.writtenMembers (lib.encodeAttributes place
        (entries.map (·.2))))) (.model place) = .ok v ↔
      (∀ p ∈ entries, ¬lib.HidesTag p.1.shape p.2.2) ∧
        v = .object none place (Value.settledMembers (entries.map (·.2))) := by
  rw [areRead.encodeAttributes_eq_members generated, decode_model_ok_iff, ← areRead.fields,
    Value.settledMembers_eq]
  simp only [Json.obj.injEq, List.map_map]
  have each := fun (p : Entry) (member : p ∈ entries) =>
    areRead.decodeField_written generated p member
  have all := Decoded.all_map_ok_iff
    (fun p : Entry => decodeField (lib.memberDecoders .document
      (Json.writtenMembers (entries.filterMap lib.memberOf?))) p.1)
    (fun p => ¬lib.HidesTag p.1.shape p.2.2) (fun p => (p.2.1, p.2.2.settled)) entries each
  constructor
  · rintro ⟨members, attributes, rfl, read, rfl⟩
    obtain ⟨told, rfl⟩ := (all attributes).mp read
    exact ⟨told, rfl⟩
  · rintro ⟨told, rfl⟩
    exact ⟨_, _, rfl, (all _).mpr ⟨told, rfl⟩, rfl⟩

/-- A written object repeats no name, and its members are as proper and as deep as their values. -/
theorem isProper_written :
    (Json.obj (lib.encodeAttributes place (entries.map (·.2)))).IsProper ∧
      depthOfMembers (lib.encodeAttributes place (entries.map (·.2))) ≤ bound := by
  rw [areRead.encodeAttributes_eq_members generated]
  have wires : ((lib.fieldsOf place).map (·.wire)).Nodup := by
    refine ((fieldsOf_apart generated place).of_map _).map_on ?_
    exact fun f first g second same => wire_unique generated place f g first second same
  have members : ∀ entry ∈ entries.filterMap lib.memberOf?, ∃ p ∈ entries,
      entry = (p.1.wire, lib.encode p.1.shape p.2.2) := by
    intro entry listed
    obtain ⟨p, isEntry, made⟩ := List.mem_filterMap.mp listed
    exact ⟨p, isEntry, ((memberOf?_some lib p entry).mp made).2⟩
  refine ⟨⟨?_, ?_⟩, ?_⟩
  · have kept : ((entries.filterMap lib.memberOf?).map (·.1)).Sublist
        (entries.map fun p => p.1.wire) := by
      -- Entries that are null are left out, and the others keep their order.
      clear areRead members
      induction entries with
      | nil => exact List.Sublist.refl _
      | cons p rest ih =>
        cases made : lib.memberOf? p with
        | none =>
          rw [List.filterMap_cons_none made]
          exact ih.cons _
        | some entry =>
          rw [List.filterMap_cons_some made, ((memberOf?_some lib p entry).mp made).2]
          exact ih.cons_cons _
    refine List.Nodup.sublist kept ?_
    rw [← areRead.fields, List.map_map] at wires
    exact wires
  · rw [Json.membersAreProper_iff]
    intro entry listed
    obtain ⟨p, isEntry, rfl⟩ := members entry listed
    exact (areRead.again p isEntry).proper
  · rw [depthOfMembers_le_iff]
    intro entry listed
    obtain ⟨p, isEntry, rfl⟩ := members entry listed
    exact (areRead.again p isEntry).depth

end AreRead

/-! ## Documents -/

end Library

/-- Whether values under a shape are null only in documents that are null: the shape of what a name
means, or of a list of nullable items. -/
def Shape.IsCore : Shape → Prop
  | .list inner => inner.IsNullable
  | shape => shape.IsBottom

theorem Shape.IsBottom.isCore {shape : Shape} (isBottom : shape.IsBottom) : shape.IsCore := by
  cases shape with
  | list _ => exact isBottom.elim
  | _ => exact isBottom

theorem Shape.IsNullable.core {shape : Shape} (nullable : shape.IsNullable) :
    ∃ core, shape = .optional core ∧ core.IsCore := by
  cases shape with
  | optional inner =>
    refine ⟨inner, rfl, ?_⟩
    cases inner with
    | list _ => exact nullable
    | literal _ | optional _ => exact nullable.elim
    | null | scalar _ | enum _ | model _ | choice _ | foreign _ => trivial
  | null | literal _ | scalar _ | enum _ | model _ | choice _ | list _ | foreign _ =>
    exact nullable.elim

/-- Whether the types of a world hold values of their own, each of which is written as something other
than null that is read as the value again. -/
def World.Returns (world : World) : Prop :=
  ∀ of j v, j.IsProper → world.read of .document j = .ok v → ∃ content, v = .foreign of content ∧
    (world.write of content).IsProper ∧ depthOf (world.write of content) ≤ depthOf j ∧
    (world.write of content).written ≠ .null ∧
    world.read of .document (world.write of content).written = .ok v

theorem World.closed_returns : World.closed.Returns := by
  rintro _ _ _ _ read
  cases read

namespace Library

theorem ReadsBack.mono {lib : Library} {shape : Shape} {bound higher : Nat} {v : Value}
    (back : lib.ReadsBack shape bound v) (le : bound ≤ higher) : lib.ReadsBack shape higher v :=
  { back with depth := back.depth.trans le }

/-- Whether what a document is decoded as is read back from what it is written as. -/
def Returns (lib : Library) (j : Json) : Prop :=
  ∀ core v, core.IsCore → lib.decode .document j core = .ok v → lib.ReadsBack core (depthOf j) v

section Decode

variable {lib : Library}

theorem Returns.nullable {j : Json} (returns : lib.Returns j) (bound : Nat)
    (within : depthOf j ≤ bound) (shape : Shape) (nullable : shape.IsNullable) (v : Value)
    (read : lib.decode .document j shape = .ok v) : lib.ReadsAgain shape bound v := by
  obtain ⟨core, rfl, isCore⟩ := nullable.core
  by_cases null : j = .null
  · rw [null, decode_optional_null] at read
    cases read
    exact readsAgain_null lib core bound
  · rw [decode_optional lib .document core j null] at read
    exact ((returns core v isCore read).mono within).optional

theorem hidesTag_list (inner : Shape) (values : List Value) :
    lib.HidesTag (.list inner) (.list values) ↔ ∃ v ∈ values, lib.HidesTag inner v := by
  constructor
  · intro hides
    cases hides with
    | item v member hides => exact ⟨v, member, hides⟩
  · rintro ⟨v, member, hides⟩
    exact .item v member hides

/-- A list is read back item by item. -/
theorem list_readsBack (items : List Json) (returns : ∀ item ∈ items, lib.Returns item)
    (inner : Shape) (nullable : inner.IsNullable) (v : Value)
    (read : lib.decode .document (.arr items) (.list inner) = .ok v) :
    lib.ReadsBack (.list inner) (depthOf (.arr items)) v := by
  obtain ⟨known, values, same, all, rfl⟩ := (decode_list_ok_iff lib .document inner _ v).mp read
  obtain rfl := Json.arr.inj same
  obtain ⟨pairs, fromItems, rfl, each⟩ := Decoded.all_map_ok _ _ _ all
  -- Each item is read again by itself, under the one shape of all items.
  have again : ∀ p ∈ pairs, lib.ReadsAgain inner (depthOfItems items) p.2 := by
    intro p member
    have isItem : p.1 ∈ items := fromItems ▸ List.mem_map_of_mem member
    exact (returns p.1 isItem).nullable _ ((depthOfItems_le_iff items _).mp le_rfl p.1 isItem)
      inner nullable p.2 (each p member)
  have encoded : lib.encode (.list inner) (.list (pairs.map (·.2))) =
      .arr ((pairs.map (·.2)).map (lib.encode inner)) := by
    rw [encode, encodeItems_eq]
    rfl
  refine ⟨?_, ?_, ?_, ?_⟩
  · rw [encoded]
    change Json.AreProper _
    rw [Json.areProper_iff, List.map_map, List.forall_mem_map]
    exact fun p member => (again p member).proper
  · rw [encoded, depthOf, depthOf, add_le_add_iff_right, depthOfItems_le_iff, List.map_map,
      List.forall_mem_map]
    exact fun p member => (again p member).depth
  · intro null
    rw [encoded] at null
    cases null
  · intro _ v'
    rw [encoded, Json.written, Json.writtenItems_eq, decode_list_ok_iff, hidesTag_list,
      Value.settled, Value.settledItems_eq]
    simp only [Json.arr.injEq, List.map_map]
    have all := Decoded.all_map_ok_iff
      (fun p : Json × Value => lib.decode .document (lib.encode inner p.2).written inner)
      (fun p => ¬lib.HidesTag inner p.2) (fun p => p.2.settled) pairs
      (fun p member => (again p member).again)
    constructor
    · rintro ⟨_, values, rfl, read, rfl⟩
      rw [List.map_map] at read
      obtain ⟨told, rfl⟩ := (all values).mp read
      refine ⟨?_, rfl⟩
      rintro ⟨v, member, hides⟩
      obtain ⟨p, isPair, rfl⟩ := List.mem_map.mp member
      exact told p isPair hides
    · rintro ⟨told, rfl⟩
      refine ⟨_, _, rfl, ?_, rfl⟩
      rw [List.map_map]
      exact (all _).mpr
        ⟨fun p member hides => told ⟨p.2, List.mem_map_of_mem member, hides⟩, rfl⟩

theorem held?_mem (members : List (String × Json)) (f : FieldSpec) (entry : String × Json)
    (held : held? members f = some entry) : entry ∈ members := by
  rcases Option.or_eq_some_iff.mp ((Option.or_eq_orElse ..).trans held) with found | ⟨-, found⟩
  · exact List.mem_of_find?_eq_some found
  · exact List.mem_of_find?_eq_some found

/-- A field that is read holds the name of its class, or a nullable value that is read again. -/
theorem field_readsAgain (members : List (String × Json))
    (returns : ∀ entry ∈ members, lib.Returns entry.2) (f : FieldSpec)
    (generated : f.IsGenerated id Shape.IsNullable) (a : String × Value)
    (read : decodeField (lib.memberDecoders .document members) f = .ok a) :
    (∃ text, f = typenameSpec text ∧ a.2 = .text text) ∨
      f.initial = .null ∧ f.name = IdentifierUse.field.escape f.wire ∧
        lib.ReadsAgain f.shape (depthOfMembers members) a.2 := by
  obtain ⟨name, v⟩ := a
  obtain ⟨-, read⟩ := (decodeField_ok_iff lib .document members f name v).mp read
  -- Where nothing is given, the mark has its own text and any other field is null.
  rcases generated with ⟨text, rfl⟩ | ⟨escaped, -, initial, nullable⟩
  · refine .inl ⟨text, rfl, ?_⟩
    split at read
    · exact ((decode_literal_ok_iff lib .document text _ v).mp read).2
    · exact read
  · refine .inr ⟨initial, escaped, ?_⟩
    split at read
    · rename_i entry held
      have member := held?_mem members f entry held
      exact (returns entry member).nullable _
        ((depthOfMembers_le_iff members _).mp le_rfl entry member) f.shape nullable v read
    · obtain ⟨core, shape, -⟩ := nullable.core
      rw [initial] at read
      rw [read, shape]
      exact readsAgain_null lib core _

theorem tagOf?_written (members : List (String × Json)) (tag : String) :
    tagOf? (Json.writtenMembers members) = some (.str tag) ↔ tagOf? members = some (.str tag) := by
  have found : ∀ key, findKey? key (Json.writtenMembers members) =
      (findKey? key members).map Json.written := by
    intro key
    unfold findKey?
    rw [Json.writtenMembers_eq, List.find?_map, Option.map_map, Option.map_map]
    rfl
  have text : ∀ j : Json, j.written = .str tag ↔ j = .str tag := by
    intro j
    cases j with
    | float x => cases x <;> simp [Json.written, Json.writtenFloat]
    | _ => simp [Json.written]
  unfold tagOf?
  rw [found, found]
  cases findKey? typenameField members with
  | none =>
    cases findKey? typenameAlias members with
    | none => simp
    | some j => simp [text]
  | some j => simp [text]

section Objects

variable (generated : lib.IsGenerated)

include generated

/-- The attributes of an object that is read are read again, each under its field. -/
theorem attributes_areRead (members : List (String × Json))
    (returns : ∀ entry ∈ members, lib.Returns entry.2) (place : Nat)
    (attributes : List (String × Value))
    (all : Decoded.all ((lib.fieldsOf place).map
      (decodeField (lib.memberDecoders .document members))) = .ok attributes) :
    ∃ entries : List Entry, entries.map (·.2) = attributes ∧
      lib.AreRead place (depthOfMembers members) entries := by
  obtain ⟨entries, fields, made, each⟩ := Decoded.all_map_ok _ _ _ all
  -- An entry is the mark of the object, or its value is read again.
  have known := fun (p : Entry) (member : p ∈ entries) =>
    field_readsAgain members returns p.1
      (field_isGenerated generated place p.1 (fields ▸ List.mem_map_of_mem member)) p.2
      (each p member)
  refine ⟨entries, made, fields, ?_, ?_, ?_, ?_⟩
  · intro p member
    exact ((decodeField_ok_iff lib .document members p.1 p.2.1 p.2.2).mp (each p member)).1
  · intro p member
    rcases known p member with ⟨text, mark, value⟩ | ⟨-, -, again⟩
    · rw [mark, value]
      exact readsAgain_mark lib text _
    · exact again
  · intro p member null
    rcases known p member with ⟨text, -, value⟩ | ⟨initial, escaped, -⟩
    · rw [value] at null
      cases null
    · exact ⟨initial, escaped⟩
  · intro p member text mark
    rcases known p member with ⟨text', mark', value⟩ | ⟨initial, -⟩
    · have same : typenameSpec text = typenameSpec text' := mark.symm.trans mark'
      have equal : Value.text text = Value.text text' := congrArg FieldOf.initial same
      exact value.trans equal.symm
    · rw [mark] at initial
      cases initial

theorem hidesTag_object (shape : Shape) (identity : Option Nat) (place bound : Nat)
    (entries : List Entry) (areRead : lib.AreRead place bound entries) :
    lib.HidesTag shape (.object identity place (entries.map (·.2))) ↔
      (shape.choices ≠ [] ∧ tagOf? (lib.encodeAttributes place (entries.map (·.2))) ≠
        ((lib.class? place).bind ClassOf.tag?).map Json.str) ∨
      ∃ p ∈ entries, lib.HidesTag p.1.shape p.2.2 := by
  have field := areRead.field_found generated
  constructor
  · intro hides
    cases hides with
    | here chosen hidden => exact .inl ⟨chosen, hidden⟩
    | within name value member f found hides =>
      obtain ⟨p, isEntry, same⟩ := List.mem_map.mp member
      have known := field p isEntry
      rw [same] at known
      cases known.symm.trans found
      exact .inr ⟨p, isEntry, by rwa [same]⟩
  · rintro (⟨chosen, hidden⟩ | ⟨p, isEntry, hides⟩)
    · exact .here chosen hidden
    · exact .within p.2.1 p.2.2 (List.mem_map_of_mem isEntry) p.1 (field p isEntry) hides

/-- The class of an object that is told by a tag has a field that holds the tag. -/
theorem mark_mem (place : Nat) (tag : String)
    (marked : (lib.class? place).bind ClassOf.tag? = some tag) :
    typenameSpec tag ∈ lib.fieldsOf place := by
  obtain ⟨c, found, marked⟩ := Option.bind_eq_some_iff.mp marked
  obtain ⟨f, isField, shape⟩ := Option.bind_eq_some_iff.mp marked
  have member : f ∈ lib.fieldsOf place := by
    unfold fieldsOf
    rw [found]
    exact List.mem_of_find?_eq_some isField
  have named : f.name = typenameField := by simpa using List.find?_some isField
  rcases field_isGenerated generated place f member with ⟨text, rfl⟩ | ⟨escaped, -⟩
  · cases shape
    exact member
  · have free := (IdentifierUse.escape_free f.wire).1
    rw [← escaped, named] at free
    exact absurd (by simp [IdentifierUse.reserved, classAttributes]) free

/-- An object that is told by a tag holds the tag under its name in documents. -/
theorem find?_tag (place bound : Nat) (entries : List Entry)
    (areRead : lib.AreRead place bound entries) (tag : String)
    (marked : (lib.class? place).bind ClassOf.tag? = some tag) :
    (Json.writtenMembers (lib.encodeAttributes place (entries.map (·.2)))).find?
      (fun entry => entry.1 == typenameAlias) = some (typenameAlias, .str tag) := by
  have member := mark_mem generated place tag marked
  rw [← areRead.fields] at member
  obtain ⟨p, isEntry, mark⟩ := List.mem_map.mp member
  have value := areRead.marks p isEntry tag mark
  have found := AreRead.find?_written generated areRead p isEntry (by rw [value]; rfl)
  rw [mark, value] at found
  rw [areRead.encodeAttributes_eq_members generated]
  exact found

/-- Whatever is decoded as the class of a tag holds this tag. -/
theorem tag_of_decode (members : List (String × Json)) (place : Nat) (tag held : String)
    (marked : (lib.class? place).bind ClassOf.tag? = some tag) (v : Value)
    (found : members.find? (fun entry => entry.1 == typenameAlias) =
      some (typenameAlias, .str held))
    (read : lib.decode .document (.obj members) (.model place) = .ok v) : held = tag := by
  obtain ⟨known, attributes, same, all, -⟩ := (decode_model_ok_iff lib .document place _ v).mp read
  obtain rfl := Json.obj.inj same
  obtain ⟨entries, fields, -, each⟩ := Decoded.all_map_ok _ _ _ all
  have member := mark_mem generated place tag marked
  rw [← fields] at member
  obtain ⟨p, isEntry, mark⟩ := List.mem_map.mp member
  have decoded := (decodeField_ok_iff lib .document members p.1 p.2.1 p.2.2).mp (each p isEntry)
  have isHeld : held? members (typenameSpec tag) = some (typenameAlias, .str held) := by
    unfold held?
    change Option.orElse (members.find? fun entry => entry.1 == typenameAlias) _ = _
    rw [found]
    rfl
  rw [mark, isHeld] at decoded
  exact Json.str.inj ((decode_literal_ok_iff lib .document tag _ p.2.2).mp decoded.2).1

/-- An object is read back as the class that it was read as. -/
theorem model_readsBack (members : List (String × Json))
    (returns : ∀ entry ∈ members, lib.Returns entry.2) (place : Nat) (v : Value)
    (read : lib.decode .document (.obj members) (.model place) = .ok v) :
    lib.ReadsBack (.model place) (depthOf (.obj members)) v := by
  obtain ⟨known, attributes, same, all, rfl⟩ :=
    (decode_model_ok_iff lib .document place _ v).mp read
  obtain rfl := Json.obj.inj same
  obtain ⟨entries, rfl, areRead⟩ := attributes_areRead generated members returns place _ all
  obtain ⟨proper, depth⟩ := areRead.isProper_written generated
  refine ⟨proper, Nat.succ_le_succ depth, nofun, ?_⟩
  intro _ v'
  rw [encode, Json.written, areRead.decode_written generated,
    hidesTag_object generated _ _ _ _ _ areRead]
  simp [Shape.choices, Value.settled]

/-- An object of a choice is read back as the class that its tag names, unless a member stands in
place of the tag. -/
theorem choice_readsBack (members : List (String × Json))
    (returns : ∀ entry ∈ members, lib.Returns entry.2) (places : List Nat) (v : Value)
    (read : lib.decode .document (.obj members) (.choice places) = .ok v) :
    lib.ReadsBack (.choice places) (depthOf (.obj members)) v := by
  obtain ⟨_, tag, place, -, -, named, read⟩ :=
    (decode_choice_ok_iff lib .document places _ v).mp read
  obtain ⟨known, attributes, same, all, rfl⟩ :=
    (decode_model_ok_iff lib .document place _ v).mp read
  obtain rfl := Json.obj.inj same
  obtain ⟨entries, rfl, areRead⟩ := attributes_areRead generated members returns place _ all
  obtain ⟨proper, depth⟩ := areRead.isProper_written generated
  have marked : (lib.class? place).bind ClassOf.tag? = some tag := by
    simpa using List.find?_some named
  have chosen : places ≠ [] := List.ne_nil_of_mem (List.mem_of_find?_eq_some named)
  have found := find?_tag generated place _ entries areRead tag marked
  refine ⟨proper, Nat.succ_le_succ depth, nofun, ?_⟩
  intro _ v'
  have told : ¬lib.HidesTag (.choice places) (.object none place (entries.map (·.2))) ↔
      tagOf? (lib.encodeAttributes place (entries.map (·.2))) = some (.str tag) ∧
        ∀ p ∈ entries, ¬lib.HidesTag p.1.shape p.2.2 := by
    rw [hidesTag_object generated _ _ _ _ _ areRead, marked]
    simp [Shape.choices, chosen]
  rw [encode, Json.written, told, decode_choice_ok_iff]
  constructor
  · rintro ⟨_, tag', place', same, hasTag, named', read'⟩
    obtain rfl := Json.obj.inj same
    have marked' : (lib.class? place').bind ClassOf.tag? = some tag' := by
      simpa using List.find?_some named'
    -- The text may name another class of the choice, which then refuses the mark.
    obtain rfl := tag_of_decode generated _ place' tag' tag marked' v' found read'
    obtain rfl := Option.some.inj (named.symm.trans named')
    obtain ⟨inner, rfl⟩ := (areRead.decode_written generated v').mp read'
    exact ⟨⟨(tagOf?_written _ tag).mp hasTag, inner⟩, rfl⟩
  · rintro ⟨⟨hasTag, inner⟩, rfl⟩
    exact ⟨_, tag, place, rfl, (tagOf?_written _ tag).mpr hasTag, named,
      (areRead.decode_written generated _).mpr ⟨inner, rfl⟩⟩

end Objects

theorem not_hidesTag_ofJson (shape : Shape) (j : Json) : ¬lib.HidesTag shape (.ofJson j) := by
  induction j using Json.induction_on generalizing shape with
  | null | bool _ | int _ | float _ | str _ | obj _ _ => nofun
  | arr items ih =>
    rw [Value.ofJson, Value.ofItems_eq]
    intro hides
    cases hides with
    | item v member hides =>
      obtain ⟨j, isItem, rfl⟩ := List.mem_map.mp member
      exact ih j isItem _ hides

theorem not_hidesTag_scalar (type : ScalarType) (shape : Shape) (j : Json) (v : Value)
    (proper : j.IsProper) (read : type.read .document j = .ok v) : ¬lib.HidesTag shape v := by
  -- No value of a scalar type but of the one for any value has parts.
  cases type with
  | text =>
    obtain ⟨s, rfl⟩ := ScalarType.readText_ok j v read
    nofun
  | int =>
    obtain ⟨n, rfl⟩ := ScalarType.readInt_ok j v read
    nofun
  | float =>
    obtain ⟨x, -, rfl⟩ := ScalarType.readFloat_ok j v proper read
    nofun
  | bool =>
    obtain ⟨b, rfl⟩ := ScalarType.readBool_ok j v read
    nofun
  | decimal =>
    obtain ⟨d, rfl⟩ := ScalarType.readDecimal_ok _ j v read
    nofun
  | moment =>
    obtain ⟨m, -, rfl⟩ := ScalarType.readMoment_ok j v read
    nofun
  | date =>
    obtain ⟨d, -, rfl⟩ := ScalarType.readDate_ok j v read
    nofun
  | clock =>
    obtain ⟨c, -, rfl⟩ := ScalarType.readClock_ok j v read
    nofun
  | uuid =>
    obtain ⟨ds, -, -, rfl⟩ := ScalarType.readUuid_ok j v read
    nofun
  | any =>
    cases read
    exact not_hidesTag_ofJson shape j

theorem scalar_readsBack (type : ScalarType) (j : Json) (proper : j.IsProper) (v : Value)
    (read : type.read .document j = .ok v) : lib.ReadsBack (.scalar type) (depthOf j) v := by
  have told : ¬lib.HidesTag (.scalar type) v :=
    not_hidesTag_scalar type (.scalar type) j v proper read
  obtain ⟨isProper, depth, null | ⟨something, again⟩⟩ :=
    scalar_readAgain lib type (.scalar type) rfl j proper v read
  · exact ⟨isProper, depth, fun _ => ⟨null.2, told⟩, fun something => absurd null.1 something⟩
  · refine ⟨isProper, depth, fun null => absurd null something, fun _ v' => ?_⟩
    rw [decode_scalar, again]
    simp [told, eq_comm]

theorem null_readsBack (j : Json) (v : Value) (read : lib.decode .document j .null = .ok v) :
    lib.ReadsBack .null (depthOf j) v := by
  obtain ⟨-, rfl⟩ := (decode_null_ok_iff lib .document j v).mp read
  exact ⟨trivial, Nat.zero_le _, fun _ => ⟨rfl, nofun⟩, fun something => absurd rfl something⟩

theorem enum_readsBack (place : Nat) (j : Json) (v : Value)
    (read : lib.decode .document j (.enum place) = .ok v) :
    lib.ReadsBack (.enum place) (depthOf j) v := by
  obtain ⟨enum, name, value, rfl, again⟩ := decode_enum_ok lib .document place j v read
  refine ⟨trivial, Nat.zero_le _, nofun, fun _ v' => ?_⟩
  have told : ¬lib.HidesTag (.enum place) (.member enum name value) := nofun
  change lib.decode .document (.str value) (.enum place) = .ok v' ↔ _
  rw [again]
  simp [told, Value.settled, eq_comm]

theorem foreign_readsBack (leaves : lib.world.Returns) (of : Foreign) (j : Json)
    (proper : j.IsProper) (v : Value) (read : lib.decode .document j (.foreign of) = .ok v) :
    lib.ReadsBack (.foreign of) (depthOf j) v := by
  rw [decode_foreign] at read
  obtain ⟨content, rfl, isProper, depth, something, again⟩ := leaves of j v proper read
  have told : ¬lib.HidesTag (.foreign of) (.foreign of content) := nofun
  refine ⟨isProper, depth, fun null => absurd null something, fun _ v' => ?_⟩
  change lib.decode .document (lib.world.write of content).written (.foreign of) = .ok v' ↔ _
  rw [decode_foreign, again]
  simp [told, Value.settled, eq_comm]

/-- A document returns if its parts do. -/
theorem returns_of_parts (generated : lib.IsGenerated) (leaves : lib.world.Returns) (j : Json)
    (proper : j.IsProper)
    (ofItems : ∀ items, j = .arr items → ∀ item ∈ items, lib.Returns item)
    (ofMembers : ∀ members, j = .obj members → ∀ entry ∈ members, lib.Returns entry.2) :
    lib.Returns j := by
  intro core v isCore read
  cases core with
  | null => exact null_readsBack j v read
  | scalar type =>
    rw [decode_scalar] at read
    exact scalar_readsBack type j proper v read
  | enum place => exact enum_readsBack place j v read
  | list inner =>
    obtain ⟨items, _, rfl, -, -⟩ := (decode_list_ok_iff lib .document inner j v).mp read
    exact list_readsBack items (ofItems items rfl) inner isCore v read
  | model place =>
    obtain ⟨members, _, rfl, -, -⟩ := (decode_model_ok_iff lib .document place j v).mp read
    exact model_readsBack generated members (ofMembers members rfl) place v read
  | choice places =>
    obtain ⟨members, _, _, rfl, -, -, -⟩ := (decode_choice_ok_iff lib .document places j v).mp read
    exact choice_readsBack generated members (ofMembers members rfl) places v read
  | foreign of => exact foreign_readsBack leaves of j proper v read
  | literal _ | optional _ => exact isCore.elim

/-- **Whatever is decoded is read back** from what it is written as. -/
theorem decode_returns (generated : lib.IsGenerated) (leaves : lib.world.Returns) (j : Json)
    (proper : j.IsProper) : lib.Returns j := by
  -- The parts of a document are decoded under the shapes of fields and items, which are nullable.
  induction j using Json.induction_on with
  | arr items ih =>
    refine returns_of_parts generated leaves _ proper (fun known same item member => ?_) nofun
    obtain rfl := Json.arr.inj same
    exact ih item member ((Json.areProper_iff items).mp proper item member)
  | obj members ih =>
    refine returns_of_parts generated leaves _ proper nofun (fun known same entry member => ?_)
    obtain rfl := Json.obj.inj same
    exact ih entry member ((Json.membersAreProper_iff members).mp proper.2 entry member)
  | null | bool _ | int _ | float _ | str _ =>
    exact returns_of_parts generated leaves _ proper nofun nofun

end Decode

end Library

end GraphQLModels.Model
