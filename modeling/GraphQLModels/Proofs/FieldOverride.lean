import GraphQLModels.Emission
import GraphQLModels.Proofs.Mappings
import GraphQLModels.Proofs.Resolution

/-!
# One more override

Emission looks overrides up in one place, where a field of a type gets its target. A run with one
more override gives the module of the run without it, with that field retargeted and nothing else
changed: shared fields, capabilities and names of types never see an override.
-/

namespace GraphQLModels

/-! ## Reports with an edited value -/

namespace Report

variable {ε α β γ δ : Type}

/-- Whether a report that ends in a value has an edition of it as its counterpart, with the same
warnings and events. -/
def Refits (edit : α → β) (r : Report ε α) (r' : Report ε β) : Prop :=
  ∀ a, r.outcome = .ok a → r' = ⟨r.warnings, r.events, .ok (edit a)⟩

theorem refits_same (r : Report ε α) : Refits id r r := by
  intro a ends
  rw [id, ← ends]

theorem refits_pure (edit : α → β) (a : α) :
    Refits edit (pure a : Report ε α) (pure (edit a)) := by
  rintro _ ⟨⟩
  rfl

theorem refits_throw (edit : α → β) (e e' : ε) :
    Refits edit (throw e : Report ε α) (throw e') := by
  rintro _ ⟨⟩

theorem refits_lift (edit : α → β) (x : Except ε α) (x' : Except ε β)
    (each : ∀ a, x = .ok a → x' = .ok (edit a)) :
    Refits edit (liftM x : Report ε α) (liftM x' : Report ε β) := by
  intro a ends
  rw [each a ends]
  rfl

theorem Refits.bind {edit : α → β} {edit' : γ → δ} {r : Report ε α} {r' : Report ε β}
    {f : α → Report ε γ} {f' : β → Report ε δ} (first : Refits edit r r')
    (rest : ∀ a, Refits edit' (f a) (f' (edit a))) : Refits edit' (r >>= f) (r' >>= f') := by
  intro c ends
  rw [outcome_bind, Outcome.bind_ok_iff] at ends
  obtain ⟨a, now, later⟩ := ends
  rcases r with ⟨warnings, events, outcome⟩
  cases now
  rw [first a rfl]
  simp only [Bind.bind, andThen, rest a c later]

/-- The same step in front of both. -/
theorem refits_after (edit : β → γ) (r : Report ε α) {f : α → Report ε β} {f' : α → Report ε γ}
    (rest : ∀ a, Refits edit (f a) (f' a)) : Refits edit (r >>= f) (r >>= f') :=
  (refits_same r).bind rest

theorem refits_ite (edit : α → β) (condition : Prop) [Decidable condition] {r s : Report ε α}
    {r' s' : Report ε β} (yes : Refits edit r r') (no : Refits edit s s') :
    Refits edit (if condition then r else s) (if condition then r' else s') := by
  split
  · exact yes
  · exact no

theorem refits_mapM (edit : β → γ) (f : α → Report ε β) (f' : α → Report ε γ)
    (each : ∀ a, Refits edit (f a) (f' a)) (xs : List α) :
    Refits (List.map edit) (xs.mapM f) (xs.mapM f') := by
  induction xs with
  | nil => exact refits_pure _ []
  | cons x xs ih =>
    rw [List.mapM_cons, List.mapM_cons]
    exact (each x).bind fun b => ih.bind fun bs => refits_pure (List.map edit) (b :: bs)

end Report

/-! ## Options with other overrides -/

namespace Options

/-- The options with one more override, or with another one in place of an old one. -/
def overriding (options : Options) (place : String × String) (target : String) : Options :=
  options.merged { overrides := [(place, target)] }

variable (options : Options) (place : String × String) (target : String)

theorem overrideAt?_overriding (type field : Option String) :
    (options.overriding place target).overrideAt? type field =
      if type = some place.1 ∧ field = some place.2 then some target
      else options.overrideAt? type field := by
  cases type with
  | none => simp [overrideAt?]
  | some type =>
    cases field with
    | none => simp [overrideAt?]
    | some field =>
      have same : (place == (type, field)) = true ↔
          some type = some place.1 ∧ some field = some place.2 := by
        rw [beq_iff_eq]
        constructor
        · rintro rfl
          exact ⟨rfl, rfl⟩
        · rintro ⟨⟨⟩, ⟨⟩⟩
          rfl
      change findKey? (type, field) (setKey place target options.overrides) = _
      rw [findKey?_setKey]
      simp only [same]
      rfl

@[simp] theorem scalarTarget?_overriding (scalar : String) :
    (options.overriding place target).scalarTarget? scalar = options.scalarTarget? scalar := rfl

@[simp] theorem skips_overriding (name : Option String) :
    (options.overriding place target).skips name = options.skips name := rfl

@[simp] theorem emitEnum_overriding (t : SchemaType) :
    emitEnum (options.overriding place target) t = emitEnum options t := rfl

@[simp] theorem plainTypeName_overriding (t : SchemaType) :
    (options.overriding place target).plainTypeName t = options.plainTypeName t := by
  rcases t with ⟨kind, _, _, _, _, _, _, _⟩
  cases kind <;> rfl

end Options

section Elsewhere

variable (options : Options) (place : String × String) (target : String)

@[simp] theorem SchemaType.resolve_overriding_plain (t : SchemaType) :
    t.resolve (options.overriding place target) none none = t.resolve options none none := by
  induction t using SchemaType.unwrapping with
  | named t bare =>
    rw [t.resolve_named _ _ _ bare, t.resolve_named _ _ _ bare]
    exact congrArg _ (options.plainTypeName_overriding place target t)
  | opened t wrapper nothing =>
    rcases t with ⟨kind, _, _, _, _, _, _, _⟩
    cases nothing
    rcases (SchemaType.isWrapper_iff kind).mp wrapper with rfl | rfl <;> rfl
  | wrapped t inner wrapper wraps ih =>
    rcases (SchemaType.isWrapper_iff t.kind).mp wrapper with nonNull | list
    · rw [t.resolve_nonNull _ _ _ inner nonNull wraps, t.resolve_nonNull _ _ _ inner nonNull wraps,
        ih]
    · rw [t.resolve_list _ _ _ inner list wraps, t.resolve_list _ _ _ inner list wraps, ih]

@[simp] theorem keyedFields_overriding (fields : List SchemaField) :
    keyedFields (options.overriding place target) fields = keyedFields options fields := by
  simp only [keyedFields, fieldKey, SchemaType.resolvedName, SchemaType.resolve_overriding_plain]

@[simp] theorem sharedWith_overriding (shared : List (FieldKey × SchemaField))
    (types : List SchemaType) :
    sharedWith (options.overriding place target) shared types =
      sharedWith options shared types := by
  induction types generalizing shared with
  | nil => rfl
  | cons t rest ih => simp only [sharedWith, keyedFields_overriding, ih]

@[simp] theorem commonFields_overriding (types : List SchemaType) :
    commonFields (options.overriding place target) types = commonFields options types := by
  cases types <;> simp only [commonFields, keyedFields_overriding, sharedWith_overriding]

@[simp] theorem targetNames_overriding (types : List SchemaType) :
    targetNames (options.overriding place target) types = targetNames options types := by
  simp only [targetNames, Options.plainTypeName_overriding]

@[simp] theorem capabilities_overriding (schema : Schema) (t : SchemaType) :
    capabilities (options.overriding place target) schema t = capabilities options schema t := by
  have node (field : SchemaField) :
      nodeName (options.overriding place target) field = nodeName options field := by
    simp only [nodeName, Options.plainTypeName_overriding]
  have nodes (t : SchemaType) :
      nodesCapability (options.overriding place target) t = nodesCapability options t := by
    simp only [nodesCapability, node]
  simp only [capabilities, connectionCapability, edgeCapability, nodes, node,
    Options.plainTypeName_overriding]

end Elsewhere

/-! ## The field that the override is for -/

/-- The type of a field of a type with another target at its bottom, if the field is at a place and
takes an override. -/
def FieldType.retargetedAt (place : String × String) (target : String)
    (type field : Option String) (plain : FieldType) : FieldType :=
  if type = some place.1 ∧ field = some place.2 ∧ plain.takesOverride then plain.retarget target
  else plain

/-- A field of a type, retargeted if it is at a place. -/
def Field.retargeted (place : String × String) (target : String) (type : Option String)
    (f : Field) : Field :=
  { f with type := f.type.retargetedAt place target type f.name }

def ContractDef.retargeted (place : String × String) (target : String) (d : ContractDef) :
    ContractDef :=
  { d with fields := d.fields.map (·.retargeted place target d.schemaName) }

def ObjectDef.retargeted (place : String × String) (target : String) (d : ObjectDef) : ObjectDef :=
  { d with fields := d.fields.map (·.retargeted place target d.schemaName) }

/-- A definition with the field at a place retargeted. -/
def Definition.retargeted (place : String × String) (target : String) : Definition → Definition
  | .enum d => .enum d
  | .contract d => .contract (d.retargeted place target)
  | .object d => .object (d.retargeted place target)

/-- A module with the field at a place retargeted. -/
def Module.retargeted (place : String × String) (target : String) (m : Module) : Module :=
  { m with definitions := m.definitions.map (·.retargeted place target) }

section Retargeted

variable (options : Options) (place : String × String) (target : String)

theorem retargetedAt_list (type field : Option String) (plain : FieldType) :
    (FieldType.list plain).retargetedAt place target type field =
      .list (plain.retargetedAt place target type field) := by
  unfold FieldType.retargetedAt
  exact (apply_ite FieldType.list _ _ _).symm

/-- What a type in a field is named under one more override. -/
theorem typeName_overriding (t : SchemaType) (type field name : Option String)
    (named : options.typeName t type field = .ok name) :
    ((options.overriding place target).typeName t type field).map (FieldType.named · t.kind) =
      .ok ((FieldType.named name t.kind).retargetedAt place target type field) := by
  have above := options.overrideAt?_overriding place target type field
  unfold FieldType.retargetedAt
  by_cases here : type = some place.1 ∧ field = some place.2
  · unfold Options.typeName at named ⊢
    rw [above, if_pos here]
    cases kind : t.kind with
    | «enum» | scalar =>
      simp [here, FieldType.takesOverride, FieldType.terminalKind, FieldType.retarget, Except.map]
    | object | inputObject | interface | union =>
      simp only [kind, Except.ok.injEq] at named
      simp [FieldType.takesOverride, FieldType.terminalKind, Except.map, named]
    | list | nonNull => simp [kind] at named
  · have same : (options.overriding place target).typeName t type field =
        options.typeName t type field := by
      unfold Options.typeName
      rw [above, if_neg here]
      rfl
    rw [same, named, if_neg fun all => here ⟨all.1, all.2.1⟩]
    rfl

theorem resolve_overriding (t : SchemaType) (type field : Option String) (plain : FieldType)
    (resolved : t.resolve options type field = .ok plain) :
    t.resolve (options.overriding place target) type field =
      .ok (plain.retargetedAt place target type field) := by
  induction t using SchemaType.unwrapping generalizing plain with
  | named t bare =>
    rw [t.resolve_named _ _ _ bare, Outcome.map_ok_iff] at resolved
    obtain ⟨name, given, rfl⟩ := resolved
    rw [t.resolve_named _ _ _ bare]
    exact typeName_overriding options place target t type field name given
  | opened t wrapper nothing =>
    rcases t with ⟨kind, _, _, _, _, _, _, _⟩
    cases nothing
    rcases (SchemaType.isWrapper_iff kind).mp wrapper with rfl | rfl <;> cases resolved
  | wrapped t inner wrapper wraps ih =>
    rcases (SchemaType.isWrapper_iff t.kind).mp wrapper with nonNull | list
    · rw [t.resolve_nonNull _ _ _ inner nonNull wraps] at resolved ⊢
      exact ih plain resolved
    · rw [t.resolve_list _ _ _ inner list wraps] at resolved ⊢
      obtain ⟨below, inside, rfl⟩ := (Outcome.map_ok_iff _ _ _).mp resolved
      rw [ih below inside, retargetedAt_list]
      rfl

theorem emitFields_overriding (type : Option String) (readOnly : Bool) (fields : List SchemaField)
    (emitted : List Field) (given : emitFields options type readOnly fields = .ok emitted) :
    emitFields (options.overriding place target) type readOnly fields =
      .ok (emitted.map (·.retargeted place target type)) := by
  refine (Outcome.mapM_ok_iff _ _ _).mpr (List.forall₂_map_right_iff.mpr ?_)
  refine ((Outcome.mapM_ok_iff _ _ _).mp given).imp fun field f emits => ?_
  obtain ⟨plain, resolved, made⟩ := (Outcome.bind_ok_iff _ _ _).mp emits
  cases (Outcome.pure_ok_iff _ _).mp made
  rw [emitField, resolve_overriding options place target field.type type field.name plain resolved]
  rfl

variable (schema : Schema) (t : SchemaType)

open Report

theorem emitUnion_overriding :
    Refits (ContractDef.retargeted place target) (emitUnion options schema t)
      (emitUnion (options.overriding place target) schema t) := by
  simp only [emitUnion, commonFields_overriding, targetNames_overriding]
  refine refits_after _ _ fun implementers => refits_after _ _ fun shared => ?_
  refine (refits_lift _ _ _ (emitFields_overriding options place target _ _ _)).bind fun fields => ?_
  exact refits_after _ _ fun targets => refits_pure _ _

theorem emitInterface_overriding :
    Refits (ContractDef.retargeted place target) (emitInterface options schema t)
      (emitInterface (options.overriding place target) schema t) := by
  simp only [emitInterface, targetNames_overriding]
  refine refits_after _ _ fun parents => refits_after _ _ fun implementers => ?_
  -- The accessors are there or not; what follows them is the same.
  apply refits_ite
  all_goals
    refine refits_after _ _ fun accessors => ?_
    refine (refits_lift _ _ _ (emitFields_overriding options place target _ _ _)).bind fun _ => ?_
    refine refits_after _ _ fun parentNames => refits_after _ _ fun targets => ?_
    exact refits_pure _ _

theorem emitObject_overriding :
    Refits (ObjectDef.retargeted place target) (emitObject options schema t)
      (emitObject (options.overriding place target) schema t) := by
  simp only [emitObject, targetNames_overriding, capabilities_overriding]
  refine refits_after _ _ fun parents => refits_after _ _ fun interfaces => ?_
  refine (refits_lift _ _ _ (emitFields_overriding options place target _ _ _)).bind fun fields => ?_
  exact refits_after _ _ fun capabilities => refits_pure _ _

theorem emitType_overriding :
    Refits (Option.map (Definition.retargeted place target)) (emitType options schema t)
      (emitType (options.overriding place target) schema t) := by
  unfold emitType
  simp only [Options.skips_overriding, Options.emitEnum_overriding]
  have skipped : Refits (Option.map (Definition.retargeted place target))
      (pure none : Report ResolutionError (Option Definition)) (pure none) := refits_pure _ none
  cases t.kind with
  | scalar | inputObject => exact skipped
  | «enum» => exact refits_ite _ _ skipped (refits_pure _ _)
  | object =>
    exact refits_ite _ _ skipped
      ((emitObject_overriding options place target schema t).bind fun d => refits_pure _ _)
  | interface =>
    exact refits_ite _ _ skipped
      ((emitInterface_overriding options place target schema t).bind fun d => refits_pure _ _)
  | union =>
    exact refits_ite _ _ skipped
      ((emitUnion_overriding options place target schema t).bind fun d => refits_pure _ _)
  | list | nonNull => exact refits_ite _ _ skipped (refits_throw _ _ _)

theorem Definition.kind_retargeted (d : Definition) :
    (d.retargeted place target).kind = d.kind := by
  cases d <;> rfl

theorem Definition.name_retargeted (d : Definition) :
    (d.retargeted place target).name = d.name := by
  cases d <;> rfl

theorem emitNext_overriding :
    Refits (Option.map (Definition.retargeted place target)) (emitNext options schema t)
      (emitNext (options.overriding place target) schema t) := by
  refine (emitType_overriding options place target schema t).bind fun definition => ?_
  cases definition with
  | none => exact refits_pure _ none
  | some d =>
    simp only [Option.map_some, Definition.kind_retargeted, Definition.name_retargeted]
    exact refits_after _ _ fun _ => refits_pure _ (some d)

theorem Module.enums_retargeted (m : Module) : (m.retargeted place target).enums = m.enums := by
  have same (d : Definition) : (d.retargeted place target).enum? = d.enum? := by cases d <;> rfl
  simp only [enums, retargeted, List.filterMap_map, Function.comp_def, same]

theorem Module.contracts_retargeted (m : Module) (kind : ContractKind) :
    (m.retargeted place target).contracts kind =
      (m.contracts kind).map (ContractDef.retargeted place target) := by
  have same (d : Definition) : (d.retargeted place target).contract? =
      d.contract?.map (ContractDef.retargeted place target) := by cases d <;> rfl
  simp only [contracts, retargeted, List.filterMap_map, Function.comp_def, same,
    ← List.map_filterMap, List.filter_map]
  rfl

theorem Module.objects_retargeted (m : Module) :
    (m.retargeted place target).objects = m.objects.map (ObjectDef.retargeted place target) := by
  have same (d : Definition) : (d.retargeted place target).object? =
      d.object?.map (ObjectDef.retargeted place target) := by cases d <;> rfl
  simp only [objects, retargeted, List.filterMap_map, Function.comp_def, same, List.map_filterMap]

/-- Emission with one more override gives what it gave before, with one field retargeted. -/
theorem emit_overriding :
    Refits (Module.retargeted place target) (emit options schema)
      (emit (options.overriding place target) schema) := by
  refine (refits_mapM _ _ _ (emitNext_overriding options place target schema) _).bind
    fun definitions => ?_
  let m : Module := {
    moduleName := options.moduleName
    definitions := definitions.filterMap id
    enumsAsText := options.enumsAsText }
  have kept : ({
      moduleName := (options.overriding place target).moduleName
      definitions := (definitions.map (Option.map (Definition.retargeted place target))).filterMap id
      enumsAsText := (options.overriding place target).enumsAsText } : Module) =
      m.retargeted place target := by
    simp only [Module.retargeted, m, List.filterMap_map, List.map_filterMap, Function.comp_def, id]
    rfl
  simp only [kept, Module.enums_retargeted, Module.contracts_retargeted, Module.objects_retargeted,
    List.length_map]
  exact refits_after _ _ fun _ => refits_pure _ m

end Retargeted

/-! ## What one more override changes -/

/-- Two fields that are the same, save that the second has another target if the first has a name and
is of a kind that takes overrides. -/
structure Field.Retargets (name target : String) (f g : Field) : Prop where
  kept : ¬(f.name = some name ∧ (f.type.terminalKind = .scalar ∨ f.type.terminalKind = .enum)) →
    g = f
  changed : f.name = some name → f.type.terminalKind = .scalar ∨ f.type.terminalKind = .enum →
    g = { f with type := g.type } ∧ g.type.terminalName = some target ∧
      g.type.terminalKind = f.type.terminalKind ∧ g.type.listDepth = f.type.listDepth

/-- Two definitions that are the same, save that in those of one type the fields of one name have
another target. -/
inductive Definition.Retargets (place : String × String) (target : String) :
    Definition → Definition → Prop
  | other (d : Definition) (apart : d.schemaName ≠ some place.1) : Retargets place target d d
  | enum (d : EnumDef) : Retargets place target (.enum d) (.enum d)
  | contract (d : ContractDef) (fields : List Field) (named : d.schemaName = some place.1)
      (each : List.Forall₂ (Field.Retargets place.2 target) d.fields fields) :
      Retargets place target (.contract d) (.contract { d with fields })
  | object (d : ObjectDef) (fields : List Field) (named : d.schemaName = some place.1)
      (each : List.Forall₂ (Field.Retargets place.2 target) d.fields fields) :
      Retargets place target (.object d) (.object { d with fields })

section Changes

variable (place : String × String) (target : String)

theorem FieldType.takesOverride_iff (type : FieldType) :
    type.takesOverride = true ↔ type.terminalKind = .scalar ∨ type.terminalKind = .enum := by
  simp [takesOverride]

theorem Field.retargets_retargeted (f : Field) :
    Field.Retargets place.2 target f (f.retargeted place target (some place.1)) := by
  constructor
  · intro apart
    rw [← f.type.takesOverride_iff] at apart
    rw [retargeted, FieldType.retargetedAt, if_neg fun here => apart here.2]
  · intro named kind
    have same : f.type.retargetedAt place target (some place.1) f.name = f.type.retarget target :=
      if_pos ⟨rfl, named, f.type.takesOverride_iff.mpr kind⟩
    rw [retargeted, same]
    exact ⟨rfl, FieldType.terminalName_retarget _ _, FieldType.terminalKind_retarget _ _,
      FieldType.listDepth_retarget _ _⟩

theorem Field.retargeted_elsewhere (type : Option String) (apart : type ≠ some place.1)
    (fields : List Field) : fields.map (·.retargeted place target type) = fields := by
  have same (f : Field) : f.retargeted place target type = f := by
    rw [retargeted, FieldType.retargetedAt, if_neg fun here => apart here.1]
  simp only [same, List.map_id']

theorem Definition.retargets_retargeted (d : Definition) :
    Definition.Retargets place target d (d.retargeted place target) := by
  have each (type : Option String) (here : type = some place.1) (fields : List Field) :
      List.Forall₂ (Field.Retargets place.2 target) fields
        (fields.map (·.retargeted place target type)) := by
    rw [here]
    exact List.forall₂_map_right_iff.mpr
      (List.forall₂_same.mpr fun f _ => f.retargets_retargeted place target)
  cases d with
  | «enum» d => exact .enum d
  | contract d =>
    by_cases named : d.schemaName = some place.1
    · exact .contract d _ named (each d.schemaName named d.fields)
    · rw [retargeted, ContractDef.retargeted, Field.retargeted_elsewhere place target _ named]
      exact .other (.contract d) named
  | object d =>
    by_cases named : d.schemaName = some place.1
    · exact .object d _ named (each d.schemaName named d.fields)
    · rw [retargeted, ObjectDef.retargeted, Field.retargeted_elsewhere place target _ named]
      exact .other (.object d) named

end Changes

/-- **One more override touches one field.** Where emission succeeds, it succeeds with one more
override, with the same warnings and events, and to the same module, save that in the definitions of
the type the fields of the name have another target if they are of a scalar or enum kind. -/
theorem override_touches_one_field (options : Options) (schema : Schema) (m : Module)
    (emitted : (emit options schema).outcome = .ok m) (place : String × String)
    (target : String) :
    ∃ m', emit (options.overriding place target) schema =
        ⟨(emit options schema).warnings, (emit options schema).events, .ok m'⟩ ∧
      m'.moduleName = m.moduleName ∧ m'.enumsAsText = m.enumsAsText ∧
      List.Forall₂ (Definition.Retargets place target) m.definitions m'.definitions := by
  refine ⟨m.retargeted place target, emit_overriding options place target schema m emitted, rfl,
    rfl, List.forall₂_map_right_iff.mpr (List.forall₂_same.mpr ?_)⟩
  exact fun d _ => d.retargets_retargeted place target

/-! ## Books and songs -/

def tagsField : SchemaField where
  name := some "tags"
  type := { kind := .list, ofType := some { kind := .scalar, name := some "String" } }

def taggedType (name : String) : SchemaType :=
  { kind := .object, name := some name, fields := [tagsField] }

/-- A union of books and songs, which both have tags. -/
def shelfOfTags : Schema where
  types := [
    { kind := .union, name := some "Item"
      possibleTypes := [
        { kind := .object, name := some "Book" }, { kind := .object, name := some "Song" }] },
    taggedType "Book", taggedType "Song"]

def tagsOf (target : String) : Field :=
  { name := some "tags", type := .list (.named (some target) .scalar) }

/-- The module of books and songs in which the tags of a book have a target. -/
def tagModule (target : String) : Module where
  moduleName := "shelf"
  definitions := [
    .contract {
      kind := .union, name := "IItem", schemaName := some "Item", fields := [tagsOf "str"]
      possibleTypes := [("Book", "Book"), ("Song", "Song")], accessors := ["Book", "Song"] },
    .object {
      name := some "Book", schemaName := some "Book", fields := [tagsOf target]
      contracts := ["IItem"] },
    .object {
      name := some "Song", schemaName := some "Song", fields := [tagsOf "str"]
      contracts := ["IItem"] }]

/-- An override for the tags of books leaves those of songs and of the union alone. -/
theorem override_touches_one_field_book :
    (emit (Settings.initial "shelf") shelfOfTags).outcome = .ok (tagModule "str") ∧
      (emit (Options.overriding (.initial "shelf") ("Book", "tags") "Tag") shelfOfTags).outcome =
        .ok (tagModule "Tag") ∧
      List.Forall₂ (Definition.Retargets ("Book", "tags") "Tag") (tagModule "str").definitions
        (tagModule "Tag").definitions := by
  obtain ⟨m', given, -, -, each⟩ := override_touches_one_field (Settings.initial "shelf")
    shelfOfTags (tagModule "str") rfl ("Book", "tags") "Tag"
  have same : m' = tagModule "Tag" := by
    have outcome := congrArg Report.outcome given
    exact (Except.ok.inj outcome).symm
  exact ⟨rfl, rfl, same ▸ each⟩

end GraphQLModels
