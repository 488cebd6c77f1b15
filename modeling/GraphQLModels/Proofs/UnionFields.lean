import GraphQLModels.Proofs.Emission
import Mathlib.Data.List.Nodup

/-!
# The fields of a union and of its members

A union declares the fields that its members share by name and by the type they resolve to outside of
any field. The field of the union and the field of a member read the same exactly if the overrides
for the two leave the same target.
-/

namespace GraphQLModels

/-- How a field of a type reads: as it resolves by itself, but with the name at the bottom that the
override for the field leaves there. -/
def fieldReads (options : Options) (type : Option String) (field : SchemaField) : Option String :=
  match field.type.resolve options none none with
  | .ok plain => FieldType.listText plain.listDepth (options.targetUnder type field.name plain)
  | .error _ => none

/-- A field with a key reads as the override for it says, wherever it is emitted. -/
theorem emitField_reads (options : Options) (type : Option String) (readOnly : Bool)
    (source : SchemaField) (field : Field) (key : FieldKey)
    (keyed : fieldKey options source = .ok key)
    (given : emitField options type readOnly source = .ok field) :
    field.type.displayName = fieldReads options type source := by
  obtain ⟨resolved, _⟩ := (fieldKey_ok_iff options source key).mp keyed
  obtain ⟨plain, alone, _⟩ := (Outcome.map_ok_iff _ _ _).mp resolved
  obtain ⟨_, emitted⟩ := emitField_ok options type readOnly source field given
  have inside := source.type.resolve_of_plain options type source.name plain alone
  rw [Except.ok.inj (emitted.symm.trans inside), Options.displayName_overridden, fieldReads, alone]

/-- The fields of a type that give the fields of its definition, one for each. -/
theorem emitFields_mem (options : Options) (type : Option String) (readOnly : Bool)
    (sources : List SchemaField) (fields : List Field)
    (given : emitFields options type readOnly sources = .ok fields) :
    (∀ field ∈ fields, ∃ source ∈ sources, emitField options type readOnly source = .ok field) ∧
      ∀ source ∈ sources, ∃ field ∈ fields, emitField options type readOnly source = .ok field :=
  ⟨Outcome.mapM_from _ _ _ given, Outcome.mapM_mem _ _ _ given⟩

/-- A member that a union maps a name to is one of the types that the union resolves to. -/
theorem mem_membersOf_of_maps (schema : Schema) (u t : SchemaType) (targets : List String)
    (name target : String)
    (maps : (name, target) ∈ discriminatorMap (schema.membersOf u) targets)
    (found : schema.find? name = some t) : t ∈ schema.membersOf u := by
  obtain ⟨i, member, same⟩ := mem_discriminatorMap _ _ _ _ maps
  obtain ⟨known, _, located⟩ := (schema.mem_membersOf u i).mp member
  obtain ⟨named, _⟩ := schema.find?_some known i located
  rw [named] at same
  cases same
  cases found.symm.trans located
  exact member

/-- **Union fields and member fields.** Every field of a union's contract comes from a field of the
first member; every emitted member declares a field of that name which resolves to the same type by
itself. The class's field reads like the union's exactly if the overrides for the two places leave
the same target at the bottom. -/
theorem union_field_agrees_iff (options : Options) (schema : Schema) (m : Module)
    (emitted : (emit options schema).outcome = .ok m)
    (distinct : ∀ t ∈ schema.types, (t.fields.map (·.name)).Nodup)
    (union : ContractDef) (isUnion : union.kind = .union)
    (defined : .contract union ∈ m.definitions) :
    ∃ u ∈ schema.types, Emits options schema u (.contract union) ∧ union.schemaName = u.name ∧
      ∀ f ∈ union.fields, ∀ name target, (name, target) ∈ union.possibleTypes →
      ∀ t, schema.find? name = some t → ∀ object, Emits options schema t (.object object) →
      ∃ shared own : SchemaField,
        (∃ first ∈ (schema.membersOf u).head?, shared ∈ first.fields) ∧ own ∈ t.fields ∧
        shared.name = f.name ∧ own.name = f.name ∧
        shared.type.resolvedName options = own.type.resolvedName options ∧
        ((∃ g ∈ object.fields, g.name = f.name ∧ g.type.displayName = f.type.displayName) ↔
          fieldReads options t.name own = fieldReads options u.name shared) := by
  obtain ⟨u, listed, emits⟩ := (mem_definitions_iff options schema m emitted _).mp defined
  refine ⟨u, listed, emits, ?_⟩
  obtain ⟨_, _, made⟩ := (emits_union_iff options schema u union).mp ⟨emits, isUnion⟩
  obtain ⟨shared, targets, common, fields, _, _, schemaName, possible, _⟩ :=
    emitUnion_ok options schema u union made
  refine ⟨schemaName, ?_⟩
  intro f isField name target maps t found object ofObject
  rw [possible] at maps
  have member := mem_membersOf_of_maps schema u t targets name target maps found
  -- The union has a member, so its fields come from the first one.
  obtain ⟨first, rest, members⟩ := List.exists_cons_of_ne_nil (List.ne_nil_of_mem member)
  rw [members] at common member
  obtain ⟨source, isShared, madeField⟩ := (emitFields_mem _ _ _ _ _ fields).1 f isField
  obtain ⟨early, key, keyed, everywhere⟩ :=
    commonFields_ok options first rest shared common source isShared
  obtain ⟨own, isOwn, ownKeyed⟩ := everywhere t member
  have sourceName := (emitField_ok _ _ _ _ _ madeField).1
  obtain ⟨sourceResolved, sourceKey⟩ := (fieldKey_ok_iff options source key).mp keyed
  obtain ⟨ownResolved, ownKey⟩ := (fieldKey_ok_iff options own key).mp ownKeyed
  have ownName : own.name = f.name := by rw [ownKey, sourceName, sourceKey]
  refine ⟨source, own, ⟨first, by simp [members], early⟩, isOwn, sourceName.symm, ownName,
    sourceResolved.trans ownResolved.symm, ?_⟩
  obtain ⟨_, _, madeObject⟩ := (emits_object_iff options schema t object).mp ofObject
  obtain ⟨_, _, _, classFields, _⟩ := emitObject_ok options schema t object madeObject
  have objectFields := emitFields_mem _ _ _ _ _ classFields
  rw [emitField_reads options u.name false source f key keyed madeField]
  constructor
  · rintro ⟨g, isClassField, sameName, reads⟩
    obtain ⟨other, isOther, madeOther⟩ := objectFields.1 g isClassField
    -- Field names are distinct, so the class has no second field of this name.
    have same : other = own := by
      have names : other.name = own.name := by
        rw [← (emitField_ok _ _ _ _ _ madeOther).1, sameName, ownName]
      exact List.inj_on_of_nodup_map (distinct t (schema.find?_some name t found).2) isOther isOwn
        names
    subst same
    rw [← emitField_reads options t.name false other g key ownKeyed madeOther, reads]
  · intro agree
    obtain ⟨g, isClassField, madeOwn⟩ := objectFields.2 own isOwn
    refine ⟨g, isClassField, ?_, ?_⟩
    · rw [(emitField_ok _ _ _ _ _ madeOwn).1, ownName]
    · rw [emitField_reads options t.name false own g key ownKeyed madeOwn, agree]

/-! ## A union of two members -/

def titleField : SchemaField :=
  { name := some "title", type := { kind := .scalar, name := some "String" } }

def titledType (name : String) : SchemaType :=
  { kind := .object, name := some name, fields := [titleField] }

/-- A union of books and songs, which both have a title. -/
def searchSchema : Schema where
  types := [
    { kind := .union, name := some "Result"
      possibleTypes := [
        { kind := .object, name := some "Book" }, { kind := .object, name := some "Song" }] },
    titledType "Book", titledType "Song"]

/-- Options that override the title of books and of nothing else. -/
def searchOptions : Options :=
  { moduleName := "search", overrides := [(("Book", "title"), "datetime")] }

def resultContract : ContractDef where
  kind := .union
  name := "IResult"
  schemaName := some "Result"
  fields := [{ name := some "title", type := .named (some "str") .scalar }]
  possibleTypes := [("Book", "Book"), ("Song", "Song")]
  accessors := ["Book", "Song"]

/-- The class of a member whose title has a target. -/
def titledClass (name target : String) : ObjectDef where
  name := some name
  schemaName := some name
  fields := [{ name := some "title", type := .named (some target) .scalar }]
  contracts := ["IResult"]

def searchModule : Module where
  moduleName := "search"
  definitions := [
    .contract resultContract, .object (titledClass "Book" "datetime"),
    .object (titledClass "Song" "str")]

theorem searchModule_emitted : (emit searchOptions searchSchema).outcome = .ok searchModule := rfl

theorem searchSchema_distinct : ∀ t ∈ searchSchema.types, (t.fields.map (·.name)).Nodup := by
  decide

/-- The title of a book reads like that of a result exactly if the overrides for both agree. -/
theorem union_field_agrees_iff_book :
    ∃ shared own : SchemaField, shared.name = some "title" ∧ own ∈ [titleField] ∧
      ((∃ g ∈ (titledClass "Book" "datetime").fields,
          g.name = some "title" ∧ g.type.displayName = some "str") ↔
        fieldReads searchOptions (some "Book") own =
          fieldReads searchOptions (some "Result") shared) := by
  obtain ⟨u, _, _, named, agreement⟩ := union_field_agrees_iff searchOptions searchSchema
    searchModule searchModule_emitted searchSchema_distinct resultContract rfl (by decide)
  obtain ⟨shared, own, _, isOwn, sharedName, _, _, agrees⟩ :=
    agreement { name := some "title", type := .named (some "str") .scalar } (by decide) "Book"
      "Book" (by decide) (titledType "Book") rfl (titledClass "Book" "datetime") rfl
  rw [← named] at agrees
  exact ⟨shared, own, sharedName, isOwn, agrees⟩

/-- The fields of a union's contract need not be those of its members' classes. -/
theorem union_field_may_disagree :
    ¬∀ (options : Options) (schema : Schema) (m : Module),
      (emit options schema).outcome = .ok m →
      (∀ t ∈ schema.types, (t.fields.map (·.name)).Nodup) →
      ∀ union : ContractDef, .contract union ∈ m.definitions → union.kind = .union →
      ∀ f ∈ union.fields, ∀ name target, (name, target) ∈ union.possibleTypes →
      ∀ object : ObjectDef, .object object ∈ m.definitions → object.name = some target →
      ∃ g ∈ object.fields, g.name = f.name ∧ g.type.displayName = f.type.displayName := by
  intro agree
  have book := agree searchOptions searchSchema searchModule searchModule_emitted
    searchSchema_distinct resultContract (by decide) rfl
    { name := some "title", type := .named (some "str") .scalar } (by decide) "Book" "Book"
    (by decide) (titledClass "Book" "datetime") (by decide) rfl
  revert book
  decide

end GraphQLModels
