import GraphQLModels.Proofs.LaidOut
import GraphQLModels.Proofs.References

/-!
# Names that lead to definitions

Definitions name each other: by the types of their fields, by their parents and contracts, by the
targets of their discriminators and by the edges of a connection. Where every reference of a schema
leads to a type of its kind that is emitted, or that is provided already, every such name is that of a
definition of the right kind.
-/

namespace GraphQLModels

/-! ## Names and definitions -/

/-- Whether a type is provided already; by default that is `PageInfo` alone. -/
def Options.provides (options : Options) (name : Option String) : Prop :=
  ∃ text ∈ options.runtimeTypes, name = some text

instance (options : Options) (name : Option String) : Decidable (options.provides name) :=
  inferInstanceAs (Decidable (∃ text ∈ options.runtimeTypes, name = some text))

/-- Whether a name is that of a definition of a kind, or that of an object that is provided. -/
def Module.Knows (m : Module) (options : Options) (kind : DefinitionKind) (name : Option String) :
    Prop :=
  (∃ d ∈ m.definitions, d.kind = kind ∧ d.name = name) ∨ kind = .object ∧ options.provides name

/-- Whether the name at the bottom of a field is bound to be that of a definition of a kind. Only the
name of an enum may be replaced, by an override or by the type of texts. -/
def Definition.FieldNames (options : Options) (d : Definition) (f : Field)
    (kind : DefinitionKind) : Prop :=
  f ∈ d.fields ∧ f.type.terminalKind.definitionKind? = some kind ∧
    (kind = .enum → options.enumsAsText = false ∧ options.overrideAt? d.schemaName f.name = none)

/-- Whether every name by which a definition of a module refers to another is that of a definition of
the right kind. -/
structure Module.IsReferenceClosed (m : Module) (options : Options) : Prop where
  fields : ∀ d ∈ m.definitions, ∀ f kind, d.FieldNames options f kind →
    m.Knows options kind f.type.terminalName
  parents : ∀ d, .contract d ∈ m.definitions → ∀ parent ∈ d.parents,
    m.Knows options .interface (some parent)
  contracts : ∀ d, .object d ∈ m.definitions → ∀ contract ∈ d.contracts,
    m.Knows options .interface (some contract) ∨ m.Knows options .union (some contract)
  targets : ∀ d, .contract d ∈ m.definitions → ∀ entry ∈ d.possibleTypes,
    m.Knows options .object (some entry.2)
  accessors : ∀ d, .contract d ∈ m.definitions → ∀ accessor ∈ d.accessors,
    m.Knows options .object (some accessor)
  edges : ∀ d, .object d ∈ m.definitions → ∀ c ∈ d.capabilities, ∀ edge, c.edgeType = some edge →
    m.Knows options .object (some edge) ∨ m.Knows options .interface (some edge)

/-! ## Linked schemas -/

namespace Schema

/-- Whether a type gives its definition or is provided already. -/
def IsStated (options : Options) (t : SchemaType) : Prop :=
  options.skips t.name = false ∨ options.provides t.name

instance (options : Options) (t : SchemaType) : Decidable (IsStated options t) :=
  inferInstanceAs (Decidable (options.skips t.name = false ∨ options.provides t.name))

/-- Whether a reference leads to a table entry of a kind that is emitted or provided. -/
def LinksTo (schema : Schema) (options : Options) (kind : TypeKind) (reference : SchemaType) :
    Prop :=
  ∃ full, schema.resolve? reference = some full ∧ full.kind = kind ∧ IsStated options full

theorem linksTo_iff (schema : Schema) (options : Options) (kind : TypeKind)
    (reference : SchemaType) :
    schema.LinksTo options kind reference ↔ (schema.resolve? reference).any (fun full =>
      full.kind == kind && decide (IsStated options full)) = true := by
  cases resolved : schema.resolve? reference <;> simp [LinksTo, resolved]

instance (schema : Schema) (options : Options) (kind : TypeKind) (reference : SchemaType) :
    Decidable (schema.LinksTo options kind reference) :=
  decidable_of_iff' _ (schema.linksTo_iff options kind reference)

/-- The kinds that a field of an object or interface may end in. -/
def outputKinds : List TypeKind := [.object, .interface, .union, .enum, .scalar]

/-- Whether the references of all types that are emitted or provided lead to types of their kinds that
are emitted or provided, only objects are provided, no union is skipped, and only objects and
interfaces have fields. -/
structure IsLinked (schema : Schema) (options : Options) : Prop where
  provided : ∀ t ∈ schema.types, options.provides t.name → t.kind = .object
  unions : ∀ t ∈ schema.types, t.kind = .union → options.skips t.name = false
  bare : ∀ t ∈ schema.types, t.fields ≠ [] → t.kind = .object ∨ t.kind = .interface
  fields : ∀ t ∈ schema.types, IsStated options t → ∀ f ∈ t.fields,
    ∃ bottom, f.type.namedType = .ok bottom ∧ bottom.kind ∈ outputKinds ∧
      schema.LinksTo options bottom.kind bottom
  interfaces : ∀ t ∈ schema.types, IsStated options t → ∀ reference ∈ t.interfaces,
    schema.LinksTo options .interface reference
  members : ∀ t ∈ schema.types, IsStated options t → ∀ reference ∈ t.possibleTypes,
    schema.LinksTo options .object reference

end Schema

/-! ## Definitions of types -/

section

variable {options : Options} {schema : Schema} {m : Module}
  (emitted : (emit options schema).outcome = .ok m) (linked : schema.IsLinked options)

include emitted linked

/-- A type of the table that is emitted or provided is known under its target name. -/
theorem stated_known (t : SchemaType) (listed : t ∈ schema.types)
    (stated : Schema.IsStated options t) (kind : DefinitionKind)
    (gives : t.kind.definitionKind? = some kind) :
    m.Knows options kind (kind.targetName t.name) := by
  rcases stated with kept | provided
  · exact .inl (definition_emitted options schema m emitted t listed kept kind gives)
  · -- Only objects are provided, and those keep their names.
    rw [linked.provided t listed provided] at gives
    cases gives
    exact .inr ⟨rfl, provided⟩

/-- A reference that leads to a type of a kind names a definition of that kind. -/
theorem Schema.LinksTo.known {ofKind : TypeKind} {reference : SchemaType}
    (links : schema.LinksTo options ofKind reference) (kind : DefinitionKind)
    (gives : ofKind.definitionKind? = some kind) :
    m.Knows options kind (kind.targetName reference.name) := by
  obtain ⟨full, resolved, rfl, stated⟩ := links
  obtain ⟨name, named, found⟩ := Option.bind_eq_some_iff.mp resolved
  obtain ⟨sameName, listed⟩ := schema.find?_some name full found
  have known := stated_known emitted linked full listed stated kind gives
  rwa [sameName, ← named] at known

end

/-! ## Relations -/

section

variable {options : Options} {schema : Schema} {m : Module}
  (emitted : (emit options schema).outcome = .ok m) (linked : schema.IsLinked options)
  (t : SchemaType) (listed : t ∈ schema.types) (stated : Schema.IsStated options t)

include linked listed stated

/-- The types that a reference list leads to, where each of its references leads to a kind. -/
theorem Schema.IsLinked.parent (p : SchemaType) (above : p ∈ schema.parentsOf t) :
    p ∈ schema.types ∧ p.kind = .interface ∧ Schema.IsStated options p := by
  obtain ⟨name, ⟨reference, isReference, named⟩, found⟩ := (schema.mem_parentsOf t p).mp above
  obtain ⟨full, resolved, interface, isStated⟩ :=
    linked.interfaces t listed stated reference isReference
  rw [Schema.resolve?, named, Option.bind_some, found] at resolved
  cases resolved
  exact ⟨(schema.find?_some name p found).2, interface, isStated⟩

theorem Schema.IsLinked.member (i : SchemaType) (isMember : i ∈ schema.membersOf t) :
    i ∈ schema.types ∧ i.kind = .object ∧ Schema.IsStated options i ∧ i.name.isSome := by
  obtain ⟨name, ⟨reference, isReference, named⟩, found⟩ := (schema.mem_membersOf t i).mp isMember
  obtain ⟨full, resolved, object, isStated⟩ :=
    linked.members t listed stated reference isReference
  rw [Schema.resolve?, named, Option.bind_some, found] at resolved
  cases resolved
  obtain ⟨sameName, isType⟩ := schema.find?_some name i found
  exact ⟨isType, object, isStated, by simp [sameName]⟩

include emitted

/-- The target names of the interfaces that a type states are those of interfaces. -/
theorem parents_known (names : List String)
    (named : targetNames options (schema.parentsOf t) = .ok names) :
    ∀ name ∈ names, m.Knows options .interface (some name) := by
  have parent := linked.parent t listed stated
  rw [targetNames_interfaces options _ names (fun p above => (parent p above).2.1) named]
  intro name isParent
  obtain ⟨p, above, rfl⟩ := List.mem_map.mp isParent
  obtain ⟨isType, interface, isStated⟩ := parent p above
  exact stated_known emitted linked p isType isStated .interface (by rw [interface]; rfl)

/-- The target names of the members of a type are those of objects. -/
theorem members_known (names : List String)
    (named : targetNames options (schema.membersOf t) = .ok names) :
    ∀ name ∈ names, m.Knows options .object (some name) := by
  have member := linked.member t listed stated
  have objects : ∀ i ∈ schema.membersOf t,
      options.plainTypeName i = .ok (some (nameText i.name)) := by
    intro i isMember
    obtain ⟨_, object, _, given⟩ := member i isMember
    obtain ⟨text, same⟩ := Option.isSome_iff_exists.mp given
    simp [Options.plainTypeName, Options.typeName, object, same, nameText]
  rw [targetNames_eq options _ names _ objects named]
  intro name isMember
  obtain ⟨i, among, rfl⟩ := List.mem_map.mp isMember
  obtain ⟨isType, object, isStated, given⟩ := member i among
  obtain ⟨text, same⟩ := Option.isSome_iff_exists.mp given
  have known := stated_known emitted linked i isType isStated .object (by rw [object]; rfl)
  simpa [DefinitionKind.targetName, same, nameText] using known

/-- The targets of a discriminator map are among the target names of the members. -/
theorem targets_known (names : List String)
    (named : targetNames options (schema.membersOf t) = .ok names) :
    ∀ entry ∈ discriminatorMap (schema.membersOf t) names,
      m.Knows options .object (some entry.2) := by
  intro entry maps
  apply members_known emitted linked t listed stated names named
  rcases mem_setKeys _ _ _ maps with impossible | listed
  · cases impossible
  · exact (List.of_mem_zip listed).2

end

/-! ## Edges -/

/-- A connection that gives its nodes itself has no edge type. -/
theorem nodesCapability_edgeType (options : Options) (t : SchemaType) (c : Capability)
    (given : (nodesCapability options t).outcome = .ok (some c)) : c.edgeType = none := by
  unfold nodesCapability at given
  split at given
  · simp at given
  · simp only [Report.outcome_bind, Report.outcome_lift, Report.outcome_pure,
      Outcome.bind_ok_iff] at given
    obtain ⟨name, _, same⟩ := given
    cases same
    rfl

/-- The edge type of a capability is that of a table entry with fields, which a field of the type
leads to. -/
theorem edgeType_from (options : Options) (schema : Schema) (t : SchemaType)
    (found : List Capability) (given : (capabilities options schema t).outcome = .ok found)
    (c : Capability) (isCapability : c ∈ found) (edge : String) (named : c.edgeType = some edge) :
    ∃ edges ∈ t.fields, ∃ reference entry name, edges.type.namedType = .ok reference ∧
      schema.resolve? reference = some entry ∧ entry.fields ≠ [] ∧
      options.plainTypeName entry = .ok name ∧ edge = nameText name := by
  obtain ⟨connection, other, rfl, first, second⟩ := capabilities_ok options schema t found given
  -- Only a connection whose edges lead to a node has a capability with an edge type.
  rcases List.mem_append.mp isCapability with ofConnection | ofEdge
  · have made := first c (by simpa using ofConnection)
    unfold connectionCapability at made
    cases declared : t.field? "edges" with
    | none =>
      rw [declared] at made
      rw [nodesCapability_edgeType options t c made] at named
      cases named
    | some edges =>
      simp only [declared, Report.outcome_bind, Report.outcome_lift, Outcome.bind_ok_iff] at made
      obtain ⟨reference, reaches, made⟩ := made
      split at made
      next entry node isEdge =>
        obtain ⟨_, resolved, hasNode⟩ := Option.bind_eq_some_iff.mp isEdge
        obtain ⟨_, isNode, same⟩ := Option.map_eq_some_iff.mp hasNode
        cases same
        simp only [Report.outcome_bind, Report.outcome_lift, Report.outcome_pure,
          Outcome.bind_ok_iff] at made
        obtain ⟨nodeType, _, name, target, same⟩ := made
        cases same
        cases named
        have hasFields : entry.fields ≠ [] := List.ne_nil_of_mem (List.mem_of_find?_eq_some isNode)
        exact ⟨edges, List.mem_of_find?_eq_some declared, reference, entry, name, reaches, resolved,
          hasFields, target, rfl⟩
      next =>
        simp only [Report.outcome_bind, Report.outcome_warn, Outcome.ok_bind] at made
        rw [nodesCapability_edgeType options t c made] at named
        cases named
  · have made := second c (by simpa using ofEdge)
    unfold edgeCapability at made
    split at made
    · cases made
    · obtain ⟨name, _, same⟩ := (Outcome.bind_ok_iff _ _ _).mp made
      cases same
      cases named

/-! ## Fields -/

/-- A reference that reaches a type through its wrappers resolves to the name of that type. -/
theorem SchemaType.resolve_bottom (options : Options) (type field : Option String)
    (t bottom : SchemaType) (reaches : t.namedType = .ok bottom)
    (unwrapped : bottom.kind.isWrapper = false) (resolved : FieldType)
    (given : t.resolve options type field = .ok resolved) :
    resolved.terminalKind = bottom.kind ∧
      options.typeName bottom type field = .ok resolved.terminalName := by
  induction t using unwrapping generalizing resolved with
  | named t kind =>
    have same : t = bottom := by
      cases named : t.name with
      | some name => exact Except.ok.inj ((t.namedType_of_name name named).symm.trans reaches)
      | none =>
        rcases t with ⟨k, _, _, _, _, _, _, ofType⟩
        cases named
        -- What is no wrapper is not looked into.
        cases ofType with
        | none => simp [namedType] at reaches
        | some inner =>
          rw [namedType, if_neg (Bool.eq_false_iff.mp kind)] at reaches
          cases reaches
    rw [resolve_named options type field t kind, Outcome.map_ok_iff] at given
    obtain ⟨name, named, rfl⟩ := given
    subst same
    exact ⟨rfl, named⟩
  | opened t kind nothing =>
    rcases t with ⟨k, _, _, _, _, _, _, ofType⟩
    cases nothing
    rcases (isWrapper_iff k).mp kind with rfl | rfl <;> cases given
  | wrapped t inner kind wraps ih =>
    -- A wrapper with a name would be the type that is reached.
    have nameless : t.name = none := by
      cases named : t.name with
      | none => rfl
      | some name =>
        cases (t.namedType_of_name name named).symm.trans reaches
        rw [kind] at unwrapped
        cases unwrapped
    rw [t.namedType_of_wrapper inner kind nameless wraps] at reaches
    rcases (isWrapper_iff t.kind).mp kind with nonNull | list
    · rw [resolve_nonNull options _ _ t inner nonNull wraps] at given
      exact ih reaches resolved given
    · rw [resolve_list options _ _ t inner list wraps, Outcome.map_ok_iff] at given
      obtain ⟨below, inside, rfl⟩ := given
      exact ih reaches below inside

section

variable {options : Options} {schema : Schema} {m : Module}
  (emitted : (emit options schema).outcome = .ok m) (linked : schema.IsLinked options)
  (t : SchemaType) (listed : t ∈ schema.types) (stated : Schema.IsStated options t)

include emitted linked listed stated

/-- A field of a type, emitted for any type, ends in the name of a definition of its kind, unless an
enum is replaced. -/
theorem field_known (owner : Option String) (readOnly : Bool) (source : SchemaField)
    (declared : source ∈ t.fields) (f : Field)
    (made : emitField options owner readOnly source = .ok f) (kind : DefinitionKind)
    (gives : f.type.terminalKind.definitionKind? = some kind)
    (kept : kind = .enum → options.enumsAsText = false ∧ options.overrideAt? owner f.name = none) :
    m.Knows options kind f.type.terminalName := by
  obtain ⟨sameName, resolved⟩ := emitField_ok options owner readOnly source f made
  obtain ⟨bottom, reaches, output, links⟩ := linked.fields t listed stated source declared
  have unwrapped : bottom.kind.isWrapper = false := by
    cases kind : bottom.kind <;> simp [Schema.outputKinds, kind] at output <;> rfl
  obtain ⟨ends, named⟩ := SchemaType.resolve_bottom options owner source.name source.type bottom
    reaches unwrapped f.type resolved
  rw [ends] at gives
  have known := links.known emitted linked kind gives
  suffices name : f.type.terminalName = kind.targetName bottom.name by rwa [name]
  rw [← sameName] at named
  cases ofKind : bottom.kind <;> rw [ofKind] at gives <;> cases gives <;>
    simp only [Options.typeName, ofKind] at named
  case «enum» =>
    obtain ⟨asEnums, free⟩ := kept rfl
    rw [free, asEnums] at named
    exact (Except.ok.inj named).symm
  case object | interface | union => exact (Except.ok.inj named).symm

/-- The edge type of a connection is an object or an interface. -/
theorem edge_known (found : List Capability)
    (given : (capabilities options schema t).outcome = .ok found) (c : Capability)
    (isCapability : c ∈ found) (edge : String) (named : c.edgeType = some edge) :
    m.Knows options .object (some edge) ∨ m.Knows options .interface (some edge) := by
  obtain ⟨edges, declared, reference, entry, name, reaches, resolved, hasFields, target, rfl⟩ :=
    edgeType_from options schema t found given c isCapability edge named
  obtain ⟨bottom, reaches', _, full, resolved', _, isStated⟩ :=
    linked.fields t listed stated edges declared
  cases reaches.symm.trans reaches'
  cases resolved.symm.trans resolved'
  obtain ⟨text, _, located⟩ := Option.bind_eq_some_iff.mp resolved
  obtain ⟨given, isType⟩ := schema.find?_some text entry located
  -- An edge type has a node, and only objects and interfaces have fields at all.
  rcases linked.bare entry isType hasFields with object | interface
  · have known := stated_known emitted linked entry isType isStated .object (by rw [object]; rfl)
    simp only [Options.plainTypeName, Options.typeName, object, given] at target
    cases target
    rw [given] at known
    exact .inl known
  · have known := stated_known emitted linked entry isType isStated .interface
      (by rw [interface]; rfl)
    simp only [Options.plainTypeName, Options.typeName, interface] at target
    cases target
    exact .inr known

end

/-! ## Modules -/

section

variable {options : Options} {schema : Schema} {m : Module}
  (emitted : (emit options schema).outcome = .ok m) (linked : schema.IsLinked options)

include emitted linked

theorem object_closed (d : ObjectDef) (defined : .object d ∈ m.definitions) :
    (∀ f kind, (Definition.object d).FieldNames options f kind →
        m.Knows options kind f.type.terminalName) ∧
      (∀ contract ∈ d.contracts,
        m.Knows options .interface (some contract) ∨ m.Knows options .union (some contract)) ∧
      ∀ c ∈ d.capabilities, ∀ edge, c.edgeType = some edge →
        m.Knows options .object (some edge) ∨ m.Knows options .interface (some edge) := by
  obtain ⟨t, listed, emits⟩ := (mem_definitions_iff options schema m emitted _).mp defined
  obtain ⟨_, kept, made⟩ := (emits_object_iff options schema t d).mp emits
  obtain ⟨interfaces, above, contracts, fields, implied, _, owner⟩ :=
    emitObject_ok options schema t d made
  refine ⟨?_, ?_, ?_⟩
  · rintro f kind ⟨isField, gives, free⟩
    obtain ⟨source, declared, made⟩ := Outcome.mapM_from _ _ _ fields f isField
    apply field_known emitted linked t listed (.inl kept) t.name false source declared f made kind
      gives
    rw [← owner]
    exact free
  · intro contract isContract
    rw [contracts] at isContract
    rcases contractsOf_from schema t interfaces contract isContract with isParent | isUnion
    · exact .inl (parents_known emitted linked t listed (.inl kept) interfaces above contract isParent)
    · obtain ⟨u, isType, union, rfl⟩ := isUnion
      exact .inr (stated_known emitted linked u isType (.inl (linked.unions u isType union)) .union
        (by rw [union]; rfl))
  · exact edge_known emitted linked t listed (.inl kept) d.capabilities implied

theorem contract_closed (d : ContractDef) (defined : .contract d ∈ m.definitions) :
    (∀ f kind, (Definition.contract d).FieldNames options f kind →
        m.Knows options kind f.type.terminalName) ∧
      (∀ parent ∈ d.parents, m.Knows options .interface (some parent)) ∧
      (∀ entry ∈ d.possibleTypes, m.Knows options .object (some entry.2)) ∧
      ∀ accessor ∈ d.accessors, m.Knows options .object (some accessor) := by
  obtain ⟨t, listed, emits⟩ := (mem_definitions_iff options schema m emitted _).mp defined
  obtain ⟨kept, made⟩ := (emits_contract_iff options schema t d).mp emits
  have members := members_known emitted linked t listed (.inl kept)
  have maps := targets_known emitted linked t listed (.inl kept)
  rcases made with ⟨interface, made⟩ | ⟨union, made⟩
  · obtain ⟨targets, fields, above, named, _, possible, _, owner, accessors⟩ :=
      emitInterface_ok options schema t d made
    refine ⟨?_, parents_known emitted linked t listed (.inl kept) d.parents above, ?_, ?_⟩
    · rintro f kind ⟨isField, gives, free⟩
      obtain ⟨source, own, made⟩ := Outcome.mapM_from _ _ _ fields f isField
      have declared := List.mem_of_mem_filter own
      apply field_known emitted linked t listed (.inl kept) t.name true source declared f made kind
        gives
      rw [← owner]
      exact free
    · rw [possible]
      exact maps targets named
    · intro accessor isAccessor
      rw [accessors] at isAccessor
      split at isAccessor
      · exact members targets named accessor isAccessor
      · cases isAccessor
  · obtain ⟨shared, targets, common, fields, named, _, owner, possible, _, none, accessors⟩ :=
      emitUnion_ok options schema t d made
    refine ⟨?_, by simp [none], ?_, ?_⟩
    · rintro f kind ⟨isField, gives, free⟩
      obtain ⟨source, isShared, made⟩ := Outcome.mapM_from _ _ _ fields f isField
      -- A shared field is declared by a member, which need not be emitted itself.
      obtain ⟨i, isMember, declared⟩ :=
        commonFields_from options (schema.membersOf t) shared common source isShared
      obtain ⟨isType, _, isStated, _⟩ := linked.member t listed (.inl kept) i isMember
      apply field_known emitted linked i isType isStated t.name false source declared f made kind
        gives
      rw [← owner]
      exact free
    · rw [possible]
      exact maps targets named
    · rw [accessors]
      exact members targets named

end

/-- **Referential closure.** In the module of a linked schema every name at the bottom of a field of
an object, interface or union type, or of an enum type that is not replaced, every parent, every
contract of a class, every target of a discriminator, every accessor and every edge type of a
capability is the target name of a definition of the right kind, or of an object that is provided. -/
theorem emitted_isReferenceClosed (options : Options) (schema : Schema) (m : Module)
    (linked : schema.IsLinked options) (emitted : (emit options schema).outcome = .ok m) :
    m.IsReferenceClosed options := by
  have contract := contract_closed emitted linked
  have object := object_closed emitted linked
  constructor
  case fields =>
    intro d defined f kind names
    cases d with
    | «enum» d => cases names.1
    | contract d => exact (contract d defined).1 f kind names
    | object d => exact (object d defined).1 f kind names
  case parents => exact fun d defined => (contract d defined).2.1
  case contracts => exact fun d defined => (object d defined).2.1
  case targets => exact fun d defined => (contract d defined).2.2.1
  case accessors => exact fun d defined => (contract d defined).2.2.2
  case edges => exact fun d defined => (object d defined).2.2

/-! ## A schema with a connection -/

def referenceTo (kind : TypeKind) (name : String) : SchemaType := { kind, name := some name }

def listOf (inner : SchemaType) : SchemaType := { kind := .list, ofType := some inner }

def fieldOf (name : String) (type : SchemaType) : SchemaField := { name := some name, type }

/-- A connection of cars, whose union has a member that is provided already. -/
def roadSchema : Schema where
  types := [
    { kind := .scalar, name := some "Boolean" },
    { kind := .enum, name := some "Color", enumValues := [{ name := some "RED" }] },
    { kind := .object, name := some "PageInfo"
      fields := [fieldOf "hasNextPage" (referenceTo .scalar "Boolean")] },
    { kind := .interface, name := some "Painted"
      fields := [fieldOf "color" (referenceTo .enum "Color")]
      possibleTypes := [referenceTo .object "Car"] },
    { kind := .union, name := some "Found"
      possibleTypes := [referenceTo .object "Car", referenceTo .object "PageInfo"] },
    { kind := .object, name := some "Car", interfaces := [referenceTo .interface "Painted"]
      fields := [
        fieldOf "color" (referenceTo .enum "Color"),
        fieldOf "behind" (listOf (referenceTo .union "Found"))] },
    { kind := .object, name := some "CarEdge"
      fields := [fieldOf "node" (referenceTo .interface "Painted")] },
    { kind := .object, name := some "CarConnection"
      fields := [
        fieldOf "edges" (listOf (referenceTo .object "CarEdge")),
        fieldOf "pageInfo" (referenceTo .object "PageInfo")] }]

def roadOptions : Options := { moduleName := "road" }

def roadModule : Module where
  moduleName := "road"
  definitions := [
    .enum { name := some "Color", values := [{ name := some "RED" }] },
    .contract {
      kind := .interface, name := "IPainted", schemaName := some "Painted"
      fields := [{ name := some "color", type := .named (some "Color") .enum, readOnly := true }]
      possibleTypes := [("Car", "Car")], accessors := ["Car"] },
    .contract {
      kind := .union, name := "IFound", schemaName := some "Found", fields := []
      possibleTypes := [("Car", "Car"), ("PageInfo", "PageInfo")]
      accessors := ["Car", "PageInfo"] },
    .object {
      name := some "Car", schemaName := some "Car", contracts := ["IPainted", "IFound"]
      fields := [
        { name := some "color", type := .named (some "Color") .enum },
        { name := some "behind", type := .list (.named (some "IFound") .union) }] },
    .object {
      name := some "CarEdge", schemaName := some "CarEdge"
      fields := [{ name := some "node", type := .named (some "IPainted") .interface }]
      capabilities := [{ kind := .edge, nodeType := "IPainted" }] },
    .object {
      name := some "CarConnection", schemaName := some "CarConnection"
      fields := [
        { name := some "edges", type := .list (.named (some "CarEdge") .object) },
        { name := some "pageInfo", type := .named (some "PageInfo") .object }]
      capabilities := [{ kind := .edges, nodeType := "IPainted", edgeType := some "CarEdge" }] }]

theorem roadSchema_isLinked : roadSchema.IsLinked roadOptions where
  provided := by decide
  unions := by decide
  bare := by
    have fieldless : ∀ t ∈ roadSchema.types, t.fields.isEmpty = true ∨ t.kind = .object ∨
        t.kind = .interface := by decide
    intro t listed hasFields
    exact (fieldless t listed).resolve_left (by simpa using hasFields)
  fields := by
    have each : ∀ t ∈ roadSchema.types, ∀ f ∈ t.fields,
        f.type.namedType.toOption.any (fun bottom => decide (bottom.kind ∈ Schema.outputKinds ∧
          roadSchema.LinksTo roadOptions bottom.kind bottom)) = true := by decide
    intro t listed _ f declared
    have holds := each t listed f declared
    cases reached : f.type.namedType with
    | error e => simp [reached, Except.toOption] at holds
    | ok bottom => exact ⟨bottom, rfl, by simpa [reached, Except.toOption] using holds⟩
  interfaces := by decide
  members := by decide

/-- The names in the module of the road all lead to definitions or to the page information. -/
theorem emitted_isReferenceClosed_road : roadModule.IsReferenceClosed roadOptions :=
  emitted_isReferenceClosed roadOptions roadSchema roadModule roadSchema_isLinked rfl

end GraphQLModels
