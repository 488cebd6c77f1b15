import GraphQLModels.Proofs.DocumentReading
import GraphQLModels.Proofs.LaidOut

/-!
# Declared errors

A document may have the right form and still describe no schema: its references lead nowhere or in
circles, its kinds are unknown, its wrappers are empty. Whatever it describes, a run over a document
of the right form gives a text or ends in one of the errors that are declared for it. A name that is
needed anywhere on the way is there.
-/

namespace GraphQLModels

open Outcome (Ends)

namespace Document

/-! ## Documents of the right form -/

/-- Whether a value is a text or null. -/
inductive IsText : Json → Prop
  | nothing : IsText .null
  | text (text : String) : IsText (.str text)

/-- Whether a value is a list of values of one form or null. -/
inductive IsList (form : Json → Prop) : Json → Prop
  | nothing : IsList form .null
  | items {items : List Json} (each : ∀ item ∈ items, form item) : IsList form (.arr items)

/-- Whether a value has a form or is null. -/
inductive IsOption (form : Json → Prop) : Json → Prop
  | nothing : IsOption form .null
  | given {json : Json} (holds : form json) : IsOption form json

/-- Which name goes with a kind: none with that of a wrapper, and a text with any other. -/
inductive HasNameFor : Json → Json → Prop
  | wrapper (kind : TypeKind) (wraps : kind.isWrapper = true) : HasNameFor (.str kind.label) .null
  | named (label name : String)
      (other : ∀ kind : TypeKind, kind.isWrapper = true → kind.label ≠ label) :
      HasNameFor (.str label) (.str name)

/-- Whether a value of an enum type has the right form. -/
structure IsValue (json : Json) : Prop where
  name : ∃ name, json.get? "name" = some (.str name)
  description : IsText (json.getD "description")
  deprecationReason : IsText (json.getD "deprecationReason")

mutual

/-- Whether a type entry or a reference has the right form. -/
inductive IsEntry : Json → Prop
  | entry {members : List (String × Json)}
      (name : HasNameFor ((Json.obj members).getD "kind") ((Json.obj members).getD "name"))
      (description : IsText ((Json.obj members).getD "description"))
      (fields : IsList IsField ((Json.obj members).getD "fields"))
      (interfaces : IsList IsEntry ((Json.obj members).getD "interfaces"))
      (possibleTypes : IsList IsEntry ((Json.obj members).getD "possibleTypes"))
      (enumValues : IsList IsValue ((Json.obj members).getD "enumValues"))
      (ofType : IsOption IsEntry ((Json.obj members).getD "ofType")) : IsEntry (.obj members)

/-- Whether a field has the right form. -/
inductive IsField : Json → Prop
  | field {members : List (String × Json)}
      (name : ∃ name, (Json.obj members).get? "name" = some (.str name))
      (type : IsEntry ((Json.obj members).getD "type"))
      (description : IsText ((Json.obj members).getD "description"))
      (deprecationReason : IsText ((Json.obj members).getD "deprecationReason")) :
      IsField (.obj members)

end

/-- Whether a document has the right form: a type table whose entries all have it. -/
def HasForm (root : Json) : Prop := ∃ items, HasTable items root ∧ ∀ item ∈ items, IsEntry item

end Document

/-! ## Names that are there -/

/-- Whether each type along the wrappers of a reference is a wrapper or has a name. -/
inductive SchemaType.IsNamed : SchemaType → Prop
  | type {t : SchemaType} (name : t.kind.isWrapper = false → t.name.isSome = true)
      (inner : ∀ u, t.ofType = some u → u.IsNamed) : IsNamed t

/-- Whether a field has a name, and so has its type. -/
structure FieldOf.HasNames (field : SchemaField) : Prop where
  name : field.name.isSome = true
  type : field.type.IsNamed

/-- Whether a type has all the names that its definition needs. -/
structure SchemaType.HasNames (t : SchemaType) : Prop where
  name : t.IsNamed
  fields : ∀ field ∈ t.fields, field.HasNames
  values : ∀ value ∈ t.enumValues, value.name.isSome = true

namespace Document

/-! ## Reading -/

/-- Whether an error is about a kind that does not exist. -/
inductive IsUnknownKind : DocumentError → Prop
  | kind {label : String} {name : Json} (unknown : TypeKind.ofLabel? label = none) :
      IsUnknownKind (.unknownKind (.str label) name)

theorem HasNameFor.label {kind name : Json} (has : HasNameFor kind name) :
    ∃ label, kind = .str label := by
  cases has with
  | wrapper kind => exact ⟨kind.label, rfl⟩
  | named label => exact ⟨label, rfl⟩

theorem HasNameFor.isText {kind name : Json} (has : HasNameFor kind name) : IsText name := by
  cases has with
  | wrapper => exact .nothing
  | named label name => exact .text name

/-- A kind is read, or it does not exist; and a name is read with it, unless it is a wrapper. -/
theorem HasNameFor.ends {kind name : Json} (has : HasNameFor kind name) :
    Ends (fun kind => kind.isWrapper = false → (optionalText name).isSome = true) IsUnknownKind
      (readKind kind name) := by
  cases has with
  | wrapper kind wraps =>
    rw [readKind_label]
    exact .ok fun unwrapped => absurd (wraps.symm.trans unwrapped) nofun
  | named label name other =>
    simp only [readKind, Json.str?, Option.bind_some]
    split
    · exact .ok fun _ => rfl
    · rename_i unknown
      exact .error (.kind unknown)

/-- The items of a list in an entry end well if what is nested less deep than the entry does. -/
theorem IsList.ends {α : Type} {form : Json → Prop} {json : Json} {key : String}
    {good : α → Prop} {bad : DocumentError → Prop} (isList : IsList form (json.getD key))
    (readItem : Json → Except DocumentError α)
    (each : ∀ item, form item → depth item < depth json → Ends good bad (readItem item)) :
    Ends (fun values => ∀ value ∈ values, good value) bad
      (listItems (json.getD key) >>= fun items => items.mapM readItem) := by
  generalize member : json.getD key = list at isList
  cases isList with
  | nothing => exact .ok fun _ => nofun
  | @items items formed =>
    have deeper : depth (.arr items) < depth json := by
      rw [← member]
      exact depth_getD json key (member ▸ nofun)
    have listed : listItems (.arr items) = .ok items := by
      cases items <;> rfl
    rw [listed, Outcome.ok_bind]
    exact Outcome.ends_mapM readItem items fun item present =>
      each item (formed item present) (Nat.lt_trans (depth_item items item present) deeper)

theorem readEnumValue_ends {bad : DocumentError → Prop} (json : Json) (isValue : IsValue json) :
    Ends (fun value => value.name.isSome = true) bad (readEnumValue json) := by
  obtain ⟨⟨name, named⟩⟩ := isValue
  cases json with
  | obj members =>
    rw [readEnumValue, named]
    exact .ok rfl
  | _ => cases named

theorem IsEntry.isGiven {json : Json} (isEntry : IsEntry json) :
    ∃ members, json = .obj members ∧ json.isGiven = true := by
  obtain ⟨name⟩ := isEntry
  obtain ⟨label, kind⟩ := name.label
  exact isObject_of_kind _ label kind

/-- An entry inside another one is nested less deep. -/
theorem IsEntry.depth_lt {json : Json} {key : String} (isEntry : IsEntry (json.getD key)) :
    depth (json.getD key) < depth json := by
  obtain ⟨members, object, -⟩ := isEntry.isGiven
  exact depth_getD json key (object ▸ nofun)

theorem IsOption.cases {json : Json} (isOption : IsOption IsEntry json) :
    json.isGiven = false ∨ (json.isGiven = true ∧ IsEntry json) := by
  cases isOption with
  | nothing => exact .inl rfl
  | given isEntry =>
    obtain ⟨-, -, isGiven⟩ := isEntry.isGiven
    exact .inr ⟨isGiven, isEntry⟩

/-- A type of the right form is read with all its names, or its kind or that of a type inside it does
not exist; and so is a field. The fuel has to exceed the depth. -/
theorem readType_ends (fuel : Nat) :
    (∀ json, IsEntry json → depth json < fuel →
      Ends SchemaType.HasNames IsUnknownKind (readType fuel json)) ∧
    (∀ json, IsField json → depth json < fuel →
      Ends FieldOf.HasNames IsUnknownKind (readField fuel json)) := by
  induction fuel with
  | zero =>
    exact ⟨fun _ _ within => absurd within (Nat.not_lt_zero _),
      fun _ _ within => absurd within (Nat.not_lt_zero _)⟩
  | succ fuel ih =>
    obtain ⟨ihType, ihField⟩ := ih
    constructor
    · rintro json ⟨name, -, fields, interfaces, possibleTypes, enumValues, ofType⟩ within
      rename_i members
      -- Whatever an entry holds is nested less deep, so the fuel that is left is enough for it.
      have below : ∀ item, depth item < depth (.obj members) → depth item < fuel :=
        fun item deeper => Nat.lt_of_lt_of_le deeper (Nat.le_of_lt_succ within)
      have types : ∀ item, IsEntry item → depth item < depth (.obj members) →
          Ends SchemaType.HasNames IsUnknownKind (readType fuel item) :=
        fun item isEntry deeper => ihType item isEntry (below item deeper)
      simp only [readType, entryMembers, Outcome.ok_bind]
      -- The members are read in order, and the first one that fails ends the reading.
      refine name.ends.bind fun kind isNamed => ?_
      simp only [← bind_assoc]
      refine (fields.ends (readField fuel) fun item isField deeper =>
        ihField item isField (below item deeper)).bind fun fields fieldsNamed => ?_
      refine (interfaces.ends (readType fuel) types).bind fun interfaces _ => ?_
      refine (possibleTypes.ends (readType fuel) types).bind fun possibleTypes _ => ?_
      refine (enumValues.ends readEnumValue fun item isValue _ =>
        readEnumValue_ends item isValue).bind fun values valuesNamed => ?_
      rcases ofType.cases with nothing | ⟨isGiven, isEntry⟩
      · rw [if_neg (by simp [nothing])]
        refine .ok ⟨.type isNamed fun u isInner => ?_, fieldsNamed, valuesNamed⟩
        cases isInner
      · rw [if_pos isGiven, bind_map_left]
        refine (types _ isEntry isEntry.depth_lt).bind fun inner innerNamed => .ok ?_
        refine ⟨.type isNamed fun u isInner => ?_, fieldsNamed, valuesNamed⟩
        exact Option.some.inj isInner ▸ innerNamed.name
    · rintro json ⟨⟨name, named⟩, type⟩ within
      rename_i members
      have typeEnds := ihType _ type (Nat.lt_of_lt_of_le type.depth_lt (Nat.le_of_lt_succ within))
      obtain ⟨reference, isReference, -⟩ := type.isGiven
      rw [isReference] at typeEnds
      simp only [readField, entryMembers, isReference, named, Outcome.ok_bind]
      exact typeEnds.bind fun type typeNamed => .ok ⟨rfl, typeNamed.name⟩

theorem readEntry_ends (json : Json) (isEntry : IsEntry json) :
    Ends SchemaType.HasNames IsUnknownKind (readEntry json) := by
  rw [readEntry]
  refine ((readType_ends (depth json + 1)).1 json isEntry (Nat.lt_succ_self _)).bind fun t named => ?_
  obtain ⟨name⟩ := isEntry
  have isText := name.isText
  generalize (Json.obj _).getD "name" = name at isText
  cases isText <;> exact .ok named

theorem readEntries_ends (items : List Json) (each : ∀ item ∈ items, IsEntry item)
    (kept : List SchemaType) (named : ∀ t ∈ kept, t.HasNames) :
    Ends (fun types => ∀ t ∈ types, t.HasNames) IsUnknownKind (readEntries kept items).outcome := by
  induction items generalizing kept with
  | nil => exact .ok named
  | cons json rest ih =>
    rw [List.forall_mem_cons] at each
    rw [readEntries, Report.outcome_bind]
    refine (readEntry_ends json each.1).bind fun t hasNames => ?_
    have others : ∀ u ∈ kept ++ [t], u.HasNames :=
      List.forall_mem_append.mpr ⟨named, List.forall_mem_singleton.mpr hasNames⟩
    -- A type is dropped if its name was there before, and kept otherwise.
    split
    · split
      · exact ih each.2 kept named
      · exact ih each.2 _ others
    · exact ih each.2 _ others

/-- A document of the right form is read as a schema whose types have all their names, unless one of
its kinds does not exist. -/
theorem read_ends (root : Json) (hasForm : HasForm root) :
    Ends (fun schema => ∀ t ∈ schema.types, t.HasNames) IsUnknownKind
      (Document.read root).outcome := by
  obtain ⟨items, hasTable, each⟩ := hasForm
  obtain ⟨schema, located, listed⟩ := hasTable.schemaObject
  rw [Document.read, located, Report.lift_ok_bind, listed]
  dsimp only
  rw [Report.outcome_bind]
  refine (readEntries_ends items each [] (List.forall_mem_nil _)).bind fun types named => ?_
  have table : ∀ t ∈ (Schema.mk types).types, t.HasNames := named
  exact .ok table

end Document

/-! ## Emission -/

/-- Whether a generated field has a name, and so has its type. -/
structure Field.HasNames (field : Field) : Prop where
  name : field.name.isSome = true
  type : field.type.terminalName.isSome = true

/-- Whether a definition has all the names that its statement needs. -/
structure Definition.HasNames (d : Definition) : Prop where
  name : d.name.isSome = true
  schemaName : d.schemaName.isSome = true
  fields : ∀ field ∈ d.fields, field.HasNames
  values : ∀ e, d = .enum e → ∀ value ∈ e.values, value.name.isSome = true

theorem SchemaType.IsNamed.name {t : SchemaType} (named : t.IsNamed)
    (unwrapped : t.kind.isWrapper = false) : t.name.isSome = true := by
  cases named with
  | type name inner => exact name unwrapped

theorem SchemaType.IsNamed.inner {t u : SchemaType} (named : t.IsNamed) (wraps : t.ofType = some u) :
    u.IsNamed := by
  cases named with
  | type name inner => exact inner u wraps

/-- The target of a type that has a name has one too. -/
theorem typeName_isSome (options : Options) (t : SchemaType) (type field target : Option String)
    (named : t.name.isSome = true) (given : options.typeName t type field = .ok target) :
    target.isSome = true := by
  unfold Options.typeName at given
  cases kind : t.kind with
  | «enum» =>
    simp only [kind] at given
    split at given <;> cases given
    · rfl
    · split
      · rfl
      · exact named
  | scalar =>
    simp only [kind] at given
    split at given <;> cases given
    rfl
  | object | inputObject =>
    simp only [kind] at given
    cases given
    exact named
  | interface | union =>
    simp only [kind] at given
    cases given
    rfl
  | list | nonNull => simp [kind] at given

/-- What a reference resolves to has a name at its bottom. -/
theorem resolve_hasName (options : Options) (type field : Option String) (t : SchemaType)
    (named : t.IsNamed) (result : FieldType)
    (resolved : t.resolve options type field = .ok result) : result.terminalName.isSome = true := by
  induction t using SchemaType.unwrapping generalizing result with
  | named t unwrapped =>
    rw [t.resolve_named options type field unwrapped, Outcome.map_ok_iff] at resolved
    obtain ⟨target, given, rfl⟩ := resolved
    exact typeName_isSome options t type field target (named.name unwrapped) given
  | opened t wraps nothing =>
    rcases t with ⟨kind, _, _, _, _, _, _, ofType⟩
    cases nothing
    rcases (SchemaType.isWrapper_iff kind).mp wraps with rfl | rfl <;> cases resolved
  | wrapped t inner wraps inside ih =>
    rcases (SchemaType.isWrapper_iff t.kind).mp wraps with nonNull | list
    · rw [t.resolve_nonNull options type field inner nonNull inside] at resolved
      exact ih (named.inner inside) result resolved
    · rw [t.resolve_list options type field inner list inside, Outcome.map_ok_iff] at resolved
      obtain ⟨below, resolved, rfl⟩ := resolved
      exact ih (named.inner inside) below resolved

theorem emitFields_hasNames (options : Options) (type : Option String) (readOnly : Bool)
    (sources : List SchemaField) (named : ∀ source ∈ sources, source.HasNames)
    (fields : List Field) (given : emitFields options type readOnly sources = .ok fields) :
    ∀ field ∈ fields, field.HasNames := by
  intro field isField
  obtain ⟨source, isSource, emitted⟩ := Outcome.mapM_from _ _ _ given field isField
  obtain ⟨name, resolved⟩ := emitField_ok options type readOnly source field emitted
  exact ⟨name ▸ (named source isSource).name,
    resolve_hasName options type source.name source.type (named source isSource).type _ resolved⟩

/-- The definition of a type has all the names that it needs, if the types of the schema do. -/
theorem emits_hasNames (options : Options) (schema : Schema)
    (named : ∀ t ∈ schema.types, t.HasNames) (t : SchemaType) (listed : t ∈ schema.types)
    (d : Definition) (emits : Emits options schema t d) : d.HasNames := by
  obtain ⟨gives, name, schemaName⟩ := emits_named options schema t d emits
  have unwrapped : t.kind.isWrapper = false := by
    cases kind : t.kind <;> rw [kind] at gives <;> first | rfl | cases gives
  have hasName := (named t listed).name.name unwrapped
  have targetName : d.name.isSome = true := by
    rw [name]
    cases d.kind <;> first | exact hasName | rfl
  refine ⟨targetName, schemaName ▸ hasName, ?_, ?_⟩
  -- The fields of a definition come from fields of the schema, which have names.
  · cases d with
    | «enum» d => exact fun _ => nofun
    | object d =>
      obtain ⟨-, -, made⟩ := (emits_object_iff options schema t d).mp emits
      obtain ⟨_, -, -, fields, -⟩ := emitObject_ok options schema t d made
      exact emitFields_hasNames options t.name false t.fields (named t listed).fields _ fields
    | contract d =>
      obtain ⟨-, ⟨-, made⟩ | ⟨-, made⟩⟩ := (emits_contract_iff options schema t d).mp emits
      · obtain ⟨_, fields, -⟩ := emitInterface_ok options schema t d made
        refine emitFields_hasNames options t.name true _ (fun source isOwn => ?_) _ fields
        exact (named t listed).fields source (List.mem_of_mem_filter isOwn)
      · -- The fields of a union are fields of its members, and those are types of the schema.
        obtain ⟨shared, _, common, fields, -⟩ := emitUnion_ok options schema t d made
        refine emitFields_hasNames options t.name false shared (fun source isShared => ?_) _ fields
        obtain ⟨member, isMember, declared⟩ :=
          commonFields_from options _ shared common source isShared
        obtain ⟨_, -, found⟩ := (schema.mem_membersOf t member).mp isMember
        exact (named member (schema.find?_some _ member found).2).fields source declared
  · rintro e rfl value isValue
    obtain ⟨-, -, rfl⟩ := (emits_enum_iff options schema t e).mp emits
    obtain ⟨source, isSource, rfl⟩ := List.mem_map.mp isValue
    exact (named t listed).values source isSource

/-! ## Laying out -/

namespace Source

theorem attributeOf_exists (ctx : Context) (field : Field) (named : field.HasNames) :
    ∃ a, attributeOf ctx field = .ok a := by
  obtain ⟨name, hasName⟩ := Option.isSome_iff_exists.mp named.name
  obtain ⟨target, hasTarget⟩ := Option.isSome_iff_exists.mp named.type
  have refers : ∃ reference, referenceName ctx field.type = .ok reference := by
    unfold referenceName
    split
    · exact ⟨_, rfl⟩
    · rename_i nameless
      -- A scalar is referred to by the name at the bottom.
      unfold scalarReference? at nameless
      split at nameless
      · rw [hasTarget] at nameless
        cases nameless
      · split at nameless <;> simp [hasTarget] at nameless
      · cases nameless
    · split <;> exact ⟨_, rfl⟩
  obtain ⟨reference, refers⟩ := refers
  exact ⟨_, by simp only [attributeOf, hasName, refers, Outcome.ok_bind]; rfl⟩

theorem attributes_exist (ctx : Context) (fields : List Field)
    (named : ∀ field ∈ fields, field.HasNames) :
    ∃ attributes, fields.mapM (attributeOf ctx) = .ok attributes :=
  Outcome.mapM_exists _ _ fun field isField => attributeOf_exists ctx field (named field isField)

/-- Definitions that have all their names can be laid out. -/
theorem layOut_exists (title : String) (imports : ImportTable) (definitions : List Definition)
    (named : ∀ d ∈ definitions, d.HasNames) : ∃ m, layOut title imports definitions = .ok m := by
  -- The traversals fail at nothing but a field or value without a name.
  have contracts : ∃ made, (Contract.ordered (definitions.filterMap Definition.contract?)).mapM
      (contractClass { imports, definitions } (Contract.ancestors
        (Contract.ordered (definitions.filterMap Definition.contract?)))) = .ok made := by
    refine Outcome.mapM_exists _ _ fun d isContract => ?_
    obtain ⟨e, listed, same⟩ := List.mem_filterMap.mp (Contract.ordered_mem _ d isContract)
    cases e <;> cases same
    obtain ⟨attributes, made⟩ := attributes_exist { imports, definitions } d.fields
      (named _ listed).fields
    exact ⟨_, by rw [contractClass, made]; rfl⟩
  have objects : ∃ made, (definitions.filterMap Definition.object?).mapM
      (objectClass { imports, definitions } (Contract.ancestors
        (Contract.ordered (definitions.filterMap Definition.contract?)))) = .ok made := by
    refine Outcome.mapM_exists _ _ fun d isObject => ?_
    obtain ⟨e, listed, same⟩ := List.mem_filterMap.mp isObject
    cases e <;> cases same
    obtain ⟨attributes, made⟩ := attributes_exist { imports, definitions } d.fields
      (named _ listed).fields
    exact ⟨_, by rw [objectClass, made]; rfl⟩
  have enums : ∃ made, (definitions.filterMap Definition.enum?).mapM enumClass = .ok made := by
    refine Outcome.mapM_exists _ _ fun d isEnum => ?_
    obtain ⟨e, listed, same⟩ := List.mem_filterMap.mp isEnum
    cases e <;> cases same
    have members : ∃ members, d.values.mapM member = .ok members := by
      refine Outcome.mapM_exists _ _ fun value isValue => ?_
      obtain ⟨name, hasName⟩ :=
        Option.isSome_iff_exists.mp ((named _ listed).values d rfl value isValue)
      exact ⟨_, by rw [member, hasName]; rfl⟩
    obtain ⟨members, made⟩ := members
    exact ⟨_, by rw [enumClass, made]; rfl⟩
  obtain ⟨contracts, ofContracts⟩ := contracts
  obtain ⟨objects, ofObjects⟩ := objects
  obtain ⟨enums, ofEnums⟩ := enums
  exact ⟨_, by simp only [layOut, ofContracts, ofObjects, ofEnums, Outcome.ok_bind]; rfl⟩

end Source

/-! ## Runs -/

/-- Whether an error is one of those that a run over a document of the right form may end in. -/
inductive GenerationError.IsDeclared (options : Options) : GenerationError → Prop
  | unknownKind {label : String} {name : Json} (unknown : TypeKind.ofLabel? label = none) :
      IsDeclared options (.document (.unknownKind (.str label) name))
  | unsupportedKind (kind : TypeKind) (name : Option String) :
      IsDeclared options (.resolution (.unsupportedKind kind name))
  | unknownScalar (scalar type field : Option String) :
      IsDeclared options (.resolution (.unknownScalar scalar type field))
  | openWrapper (kind : TypeKind) : IsDeclared options (.resolution (.openWrapper kind))
  | neverNamed (kind : TypeKind) : IsDeclared options (.resolution (.neverNamed kind))
  | notWellFormed : IsDeclared options (.render (.notWellFormed options.filename))

theorem isDeclared_document (options : Options) (e : DocumentError)
    (unknown : Document.IsUnknownKind e) :
    GenerationError.IsDeclared options (.document e) := by
  cases unknown with
  | kind unknown => exact .unknownKind unknown

theorem isDeclared_resolution (options : Options) (e : ResolutionError) :
    GenerationError.IsDeclared options (.resolution e) := by
  cases e with
  | unknownScalar scalar type field => exact .unknownScalar scalar type field
  | unsupportedKind kind name => exact .unsupportedKind kind name
  | openWrapper kind => exact .openWrapper kind
  | neverNamed kind => exact .neverNamed kind

/-- A document of the right form compiles to definitions that have all their names, or to a declared
error. -/
theorem compile_ends (options : Options) (root : Json) (hasForm : Document.HasForm root)
    (origin : Document.Origin) (holds : origin.Holds root) :
    Ends (fun m => ∀ d ∈ m.definitions, d.HasNames) (GenerationError.IsDeclared options)
      (compile options origin).outcome := by
  rw [compile, origin.read_of_holds root holds, Report.outcome_bind]
  refine ((Document.read_ends root hasForm).mapError (isDeclared_document options)).bind
    fun schema named => ?_
  cases emitted : (emit options schema).outcome with
  | error e =>
    rw [Report.mapError, emitted]
    exact .error (isDeclared_resolution options e)
  | ok m =>
    rw [Report.mapError, emitted]
    refine .ok fun d isDefinition => ?_
    obtain ⟨t, listed, emits⟩ := (mem_definitions_iff options schema m emitted d).mp isDefinition
    exact emits_hasNames options schema named t listed d emits

/-- Definitions that have all their names are rendered, unless the text is no source. -/
theorem render_ends (m : Module) (named : ∀ d ∈ m.definitions, d.HasNames) (options : Options) :
    Ends (fun text => Source.isWellFormed text = true) (· = .notWellFormed options.filename)
      (m.render {} options.filename) := by
  obtain ⟨source, laidOut⟩ :=
    Source.layOut_exists m.moduleName ImportTable.initial m.definitions named
  have given : m.source {} = .ok source := laidOut
  rw [Module.render, given]
  change Ends _ _ (if Source.isWellFormed source.text = true then .ok source.text
    else .error (RenderError.notWellFormed options.filename))
  split
  · rename_i wellFormed
    exact .ok wellFormed
  · exact .error rfl

/-- **Declared errors.** Whatever a document of the right form describes, a run without hooks over it
gives a text that is source, or it ends in one of the errors that are declared: a kind that does not
exist or gives no definition, a scalar without a target, a wrapper around nothing, a reference that
never reaches a name, or a text that is no source. -/
theorem only_declared_errors (options : Options) (root : Json) (hasForm : Document.HasForm root)
    (origin : Document.Origin) (holds : origin.Holds root) :
    Ends (fun text => Source.isWellFormed text = true) (GenerationError.IsDeclared options)
      (generate options {} origin).outcome := by
  rw [generate, Report.outcome_bind]
  refine (compile_ends options root hasForm origin holds).bind fun m named => ?_
  refine (render_ends m named options).mapError fun e same => ?_
  exact same ▸ .notWellFormed

/-! ## A harbor -/

def harborReference (kind : TypeKind) (name : String) : Json :=
  .obj [("kind", .str kind.label), ("name", .str name)]

def harborDepth : Json :=
  .obj [("name", .str "depth"), ("type", .obj [("kind", .str "NON_NULL"), ("name", .null),
    ("ofType", harborReference .scalar "Fathom")])]

/-- An interface that extends itself and one that is not there, and that a scalar implements. -/
def harborDock : Json :=
  .obj [("kind", .str "INTERFACE"), ("name", .str "Dock"), ("fields", .arr [harborDepth]),
    ("interfaces", .arr [harborReference .interface "Dock", harborReference .interface "Pier"]),
    ("possibleTypes", .arr [harborReference .scalar "Fathom"])]

def harborDocument : List (String × Json) :=
  [("__schema", .obj [("types", .arr [harborReference .scalar "Fathom", harborDock])])]

theorem hasNameFor_label (kind : TypeKind) (unwrapped : kind.isWrapper = false) (name : String) :
    Document.HasNameFor (.str kind.label) (.str name) := by
  refine .named kind.label name fun other wraps same => ?_
  have read := Document.readKind_label other .null
  rw [same, Document.readKind_label] at read
  cases read
  exact absurd (wraps.symm.trans unwrapped) nofun

theorem harborReference_isEntry (kind : TypeKind) (unwrapped : kind.isWrapper = false)
    (name : String) : Document.IsEntry (harborReference kind name) :=
  .entry (hasNameFor_label kind unwrapped name) .nothing .nothing .nothing .nothing .nothing .nothing

theorem harborDocument_hasForm : Document.HasForm (.obj harborDocument) := by
  refine ⟨_, .bare (fun _ => nofun) rfl rfl, ?_⟩
  have fathom := harborReference_isEntry .scalar rfl "Fathom"
  have depth : Document.IsField harborDepth := by
    refine .field ⟨"depth", rfl⟩ ?_ .nothing .nothing
    exact .entry (.wrapper .nonNull rfl) .nothing .nothing .nothing .nothing .nothing (.given fathom)
  have dock : Document.IsEntry harborDock := by
    refine .entry (hasNameFor_label .interface rfl "Dock") .nothing
      (.items (List.forall_mem_singleton.mpr depth)) (.items ?_)
      (.items (List.forall_mem_singleton.mpr fathom)) .nothing .nothing
    exact List.forall_mem_cons.mpr ⟨harborReference_isEntry .interface rfl "Dock",
      List.forall_mem_singleton.mpr (harborReference_isEntry .interface rfl "Pier")⟩
  exact List.forall_mem_cons.mpr ⟨fathom, List.forall_mem_singleton.mpr dock⟩

/-- Of all that is wrong with the schema only the scalar without a target ends the run. -/
theorem only_declared_errors_harbor :
    ∃ e, (generate { moduleName := "harbor" } {} (.value (.obj harborDocument))).outcome = .error e ∧
      GenerationError.IsDeclared { moduleName := "harbor" } e := by
  have stopped : (generate { moduleName := "harbor" } {} (.value (.obj harborDocument))).outcome =
      .error (.resolution (.unknownScalar (some "Fathom") none none)) := by
    rfl
  have ends := only_declared_errors { moduleName := "harbor" } (.obj harborDocument)
    harborDocument_hasForm (.value (.obj harborDocument)) (.value harborDocument)
  rw [stopped] at ends
  cases ends with
  | error declared => exact ⟨_, stopped, declared⟩

end GraphQLModels
