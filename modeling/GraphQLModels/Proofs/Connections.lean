import GraphQLModels.Proofs.ConnectionNodes
import GraphQLModels.Proofs.ReferentialClosure
import GraphQLModels.Proofs.ScalarCoverage

/-!
# Connections of a schema

A type is taken for a connection by its name and by what its fields are called. What is decoded as
its class lists the nodes then, as long as the fields hold lists and the edges lead to what has a
node: to the class of the edge type, or to the classes that stand for its contract.
-/

namespace GraphQLModels

/-! ## What makes a connection -/

/-- Whether the fields of all types name their types together with the kinds that these have. -/
def Schema.KeepsKinds (schema : Schema) : Prop :=
  ∀ t ∈ schema.types, ∀ f ∈ t.fields, ∀ reference, f.type.namedType = .ok reference →
    ∀ full, schema.resolve? reference = some full → reference.kind = full.kind

theorem Schema.keepsKinds_iff (schema : Schema) :
    schema.KeepsKinds ↔ ∀ t ∈ schema.types, ∀ f ∈ t.fields, f.type.namedType.toOption.all
      (fun reference => (schema.resolve? reference).all fun full =>
        decide (reference.kind = full.kind)) = true := by
  refine forall₂_congr fun t _ => forall₂_congr fun f _ => ?_
  cases f.type.namedType with
  | error e => simp [Except.toOption]
  | ok bottom => simp [Except.toOption, Option.all_eq_true]

instance (schema : Schema) : Decidable schema.KeepsKinds :=
  decidable_of_iff' _ schema.keepsKinds_iff

/-- Whatever gives a definition but an enum has its target name in every field. -/
theorem Options.typeName_target (options : Options) (t : SchemaType) (kind : DefinitionKind)
    (gives : t.kind.definitionKind? = some kind) (other : kind ≠ .enum)
    (type field : Option String) :
    options.typeName t type field = .ok (kind.targetName t.name) := by
  unfold typeName
  cases ofKind : t.kind <;> rw [ofKind] at gives <;> cases gives <;> first
    | rfl
    | exact absurd rfl other

theorem nodesCapability_declared (options : Options) (t : SchemaType) (c : Capability)
    (given : (nodesCapability options t).outcome = .ok (some c)) :
    ∃ nodes, t.field? "nodes" = some nodes := by
  unfold nodesCapability at given
  split at given
  · simp at given
  · exact ⟨_, ‹_›⟩

/-- A connection that does not give its edges has nodes, and one that does not give its nodes has
edges of a type with a node. -/
theorem connectionCapability_ok (options : Options) (schema : Schema) (t : SchemaType)
    (c : Capability) (given : (connectionCapability options schema t).outcome = .ok (some c)) :
    (c.kind ≠ .edges → ∃ nodes, t.field? "nodes" = some nodes) ∧
      (c.kind ≠ .nodes → ∃ edge node, edgeOf? schema t = some (edge, node)) := by
  -- Without edges or without an edge type, the nodes are all there is to go by.
  have byNodes : (nodesCapability options t).outcome = .ok (some c) →
      (c.kind ≠ .edges → ∃ nodes, t.field? "nodes" = some nodes) ∧
        (c.kind ≠ .nodes → ∃ edge node, edgeOf? schema t = some (edge, node)) := fun given =>
    ⟨fun _ => nodesCapability_declared options t c given,
      fun other => absurd (nodesCapability_kind options t c given) other⟩
  unfold connectionCapability at given
  split at given
  · exact byNodes given
  rename_i edges declared
  simp only [Report.outcome_bind, Report.outcome_lift, Outcome.bind_ok_iff] at given
  obtain ⟨reference, reaches, given⟩ := given
  split at given
  · rename_i edge node isEdge
    simp only [Report.outcome_bind, Report.outcome_lift, Report.outcome_pure,
      Outcome.bind_ok_iff] at given
    obtain ⟨_, -, _, -, same⟩ := given
    cases same
    refine ⟨fun other => ?_, fun _ => ⟨edge, node, ?_⟩⟩
    · by_cases has : t.hasField "nodes" = true
      · exact Option.isSome_iff_exists.mp has
      · exact absurd (if_neg has) other
    · rw [edgeOf?_eq schema t edges declared reference reaches, isEdge]
  · simp only [Report.outcome_bind, Report.outcome_warn, Outcome.ok_bind] at given
    exact byNodes given

section

variable {options : Options} {schema : Schema} {t : SchemaType} {o : ObjectDef}
  (emits : Emits options schema t (.object o))

include emits

/-- A capability that is not that of an edge is the only one of its sort. -/
theorem Emits.connection (c : Capability) (given : c ∈ o.capabilities) (other : c.kind ≠ .edge) :
    (connectionCapability options schema t).outcome = .ok (some c) ∧
      Model.IsConnection o c.kind := by
  obtain ⟨-, -, made⟩ := (emits_object_iff options schema t o).mp emits
  obtain ⟨_, -, -, -, implied, -⟩ := emitObject_ok options schema t o made
  obtain ⟨connection, edge, all, first, second⟩ := capabilities_ok options schema t _ implied
  have isEdge : ∀ d ∈ edge, d.kind = .edge := fun d isSome =>
    edgeCapability_kind options t d (second d isSome)
  rw [all, List.mem_append, Option.mem_toList, Option.mem_toList] at given
  have isOnly : connection = some c := given.resolve_right fun later => other (isEdge c later)
  refine ⟨first c isOnly, ⟨c, ?_, rfl⟩, other, fun d isCapability => ?_⟩
  · rw [all, isOnly]
    exact List.mem_append_left _ (List.mem_singleton.mpr rfl)
  · rw [all, isOnly, List.mem_append, Option.mem_toList, Option.mem_toList] at isCapability
    rcases isCapability with same | later
    · cases same
      exact .inl rfl
    · exact .inr (isEdge d later)

/-- A field that is looked up in a type is emitted with its class. -/
theorem Emits.field (name : String) (f : SchemaField) (found : t.field? name = some f) :
    ∃ g ∈ o.fields, g.name = some name ∧ f.type.resolve options t.name f.name = .ok g.type := by
  obtain ⟨-, -, made⟩ := (emits_object_iff options schema t o).mp emits
  obtain ⟨_, -, -, fields, -⟩ := emitObject_ok options schema t o made
  obtain ⟨g, isField, given⟩ := Outcome.mapM_mem _ _ _ fields f (List.mem_of_find?_eq_some found)
  obtain ⟨same, resolved⟩ := emitField_ok options t.name false f g given
  have named : f.name = some name := by simpa using List.find?_some found
  exact ⟨g, isField, same.trans named, resolved⟩

theorem Emits.mem_fieldNames (name : String) (f : SchemaField) (found : t.field? name = some f) :
    name ∈ (Definition.object o).fieldNames := by
  obtain ⟨g, isField, named, -⟩ := emits.field name f found
  exact List.mem_filterMap.mpr ⟨g, isField, named⟩

/-- The edges of a connection refer to the edge type, under its target name. -/
theorem Emits.edges (listed : t ∈ schema.types) (kinds : schema.KeepsKinds) (edge : SchemaType)
    (node : SchemaField) (found : edgeOf? schema t = some (edge, node)) (kind : DefinitionKind)
    (gives : edge.kind.definitionKind? = some kind) (other : kind ≠ .enum) :
    edge.field? "node" = some node ∧ ∃ g ∈ o.fields, g.name = some "edges" ∧
      g.type.terminalKind = edge.kind ∧ g.type.terminalName = kind.targetName edge.name := by
  simp only [edgeOf?, Option.bind_eq_bind, Option.bind_eq_some_iff] at found
  obtain ⟨edges, declared, reference, reached, full, resolved, isNode, hasNode, same⟩ := found
  cases same
  have reaches : edges.type.namedType = .ok reference := by
    cases hs : edges.type.namedType with
    | error e =>
      rw [hs] at reached
      cases reached
    | ok bottom =>
      rw [hs] at reached
      exact congrArg Except.ok (Option.some.inj reached)
  -- The reference is not the edge type itself, but has its name and kind.
  have sameKind := kinds t listed edges (t.field?_mem _ _ declared) reference reaches edge resolved
  obtain ⟨name, named, located⟩ := Option.bind_eq_some_iff.mp resolved
  have sameName : reference.name = edge.name :=
    named.trans (schema.find?_some name edge located).1.symm
  obtain ⟨g, isField, isEdges, given⟩ := emits.field "edges" edges declared
  rw [← sameKind] at gives
  have unwrapped : reference.kind.isWrapper = false := by
    cases ofKind : reference.kind <;> rw [ofKind] at gives <;> cases gives <;> rfl
  obtain ⟨ends, target⟩ := SchemaType.resolve_bottom options _ _ _ reference reaches unwrapped
    g.type given
  rw [options.typeName_target reference kind gives other, sameName] at target
  exact ⟨hasNode, g, isField, isEdges, ends.trans sameKind, (Except.ok.inj target).symm⟩

end

/-! ## The convention -/

/-- Whether an edge type becomes a class with the node, or a contract whose possible types become
such classes. -/
inductive IsEdgeType (options : Options) (schema : Schema) (definitions : List Definition)
    (edge : SchemaType) : Prop
  | object (e : ObjectDef) (emits : Emits options schema edge (.object e))
      (kept : .object e ∈ definitions)
  | interface (d : ContractDef) (kind : edge.kind = .interface)
      (named : d.name = contractName edge.name)
      (kept : .contract d ∈ Source.classDefinitions definitions)
      (possible : ∀ entry ∈ d.possibleTypes, ∃ e : ObjectDef, .object e ∈ definitions ∧
        e.schemaName = some entry.1 ∧ e.name = some entry.2 ∧
        "node" ∈ (Definition.object e).fieldNames)

/-- Whether a type that gives a class keeps to the convention for connections: what it has as nodes
and as edges are lists of depth one, and its edge type is one. -/
structure FollowsConvention (options : Options) (schema : Schema) (definitions : List Definition)
    (t : SchemaType) (o : ObjectDef) : Prop where
  lists : ∀ g ∈ o.fields, g.name = some "nodes" ∨ g.name = some "edges" → g.type.listDepth = 1
  edge : ∀ edge node, edgeOf? schema t = some (edge, node) →
    IsEdgeType options schema definitions edge

/-- Whether the names over which a connection leads to its nodes are not taken by anything else. -/
structure KeepsNames (schema : Schema) (definitions : List Definition) (source : Source.Module)
    (t : SchemaType) (o : ObjectDef) (world : Model.World := .closed) : Prop where
  fields : (o.fields.map (·.name)).Nodup
  /-- The contracts of the class are in the module, so no other class has their names. -/
  contracts : ∀ name ∈ o.contracts, ∃ d : ContractDef,
    .contract d ∈ Source.classDefinitions definitions ∧ d.name = name
  /-- The name of an edge type that is defined behind the connection means nothing before. -/
  edge : ∀ edge node, edgeOf? schema t = some (edge, node) → edge.kind = .object →
    Model.IsFree source (nameText edge.name) world ∨ ∃ before after,
      Source.classDefinitions definitions = before ++ .object o :: after ∧
      ∀ e : ObjectDef, .object e ∈ after → e.name ≠ edge.name
  /-- A contract that stands for itself has the node or inherits it. -/
  node : ∀ edge node, edgeOf? schema t = some (edge, node) → ∀ d : ContractDef,
    .contract d ∈ Source.classDefinitions definitions → d.name = contractName edge.name →
    d.possibleTypes = [] → ∃ above : ContractDef,
      .contract above ∈ Source.classDefinitions definitions ∧
      Relation.ReflTransGen source.Derives (.contract d.name) (.contract above.name) ∧
      "node" ∈ (Definition.contract above).fieldNames

namespace Model

/-! ## What a connection holds -/

/-- What is decoded as a class holds null or a list under a field that is a nullable list. -/
theorem Library.own?_list (lib : Library) (place : Nat)
    (apart : ((lib.fieldsOf place).map (·.name)).Nodup) (f : FieldSpec)
    (isField : f ∈ lib.fieldsOf place) (initial : f.initial = .null) (bottom : Shape)
    (shape : f.shape = .optional (.list (.optional bottom))) (form : Form) (j : Json) (x : Value)
    (read : lib.decode form j (.model place) = .ok x) :
    ∃ value, x.own? f.name = some value ∧
      IsListOf (fun item => item = .null ∨ ∃ j, lib.decode form j bottom = .ok item) value := by
  obtain ⟨_, -, -, each⟩ := lib.own?_of_decode form j place x apart read
  obtain ⟨value, own, same | ⟨j, read⟩⟩ := each f isField
  · rw [same, initial] at own
    exact ⟨.null, own, .null⟩
  · exact ⟨value, own, isListOf_of_decode lib form bottom j value (shape ▸ read)⟩

theorem nullableShape_list (bottom : Shape) (type : FieldType) (flat : type.listDepth = 1) :
    nullableShape bottom type = .optional (.list (.optional bottom)) := by
  cases type with
  | leaf => cases flat
  | level inner =>
    cases inner with
    | leaf => rfl
    | level inner =>
      rw [FieldType.listDepth, FieldType.listDepth] at flat
      omega

section

variable {world : World} {imports : ImportTable} {definitions : List Definition}
  {source : Source.Module} {lib : Library} (laysOut : Source.LaysOut imports definitions source)
  (loaded : load source world = .ok lib)

include laysOut loaded

/-- No field is named as the method that lists the nodes. -/
theorem no_field_get_nodes (place : Nat) : "get_nodes" ∉ (lib.fieldsOf place).map (·.name) := by
  intro isAttribute
  obtain ⟨f, isField, same⟩ := List.mem_map.mp isAttribute
  rcases (hasNullableFields laysOut loaded).fields _ f isField with ⟨text, rfl⟩ | ⟨escaped, -⟩
  · exact absurd (show typenameField = "get_nodes" from same) (by decide)
  · refine IdentifierUse.field.escape_not_reserved f.wire ?_
    rw [← escaped, same]
    simp [IdentifierUse.reserved, classAttributes]

/-- What is decoded as the class of an object has a node, if the object has a field of this name. -/
theorem leadsToNode_object (i : Nat) (e : ObjectDef)
    (listed : (Source.classDefinitions definitions)[i]? = some (.object e))
    (isName : "node" ∈ (Definition.object e).fieldNames) :
    lib.LeadsToNode (.model (Foundation.classes.length + i)) := by
  obtain ⟨trace⟩ := load_trace source lib loaded
  obtain ⟨-, -, -, c, found, -⟩ := laysOut.exists_step trace i _ listed
  exact leadsToNode_of_names laysOut loaded _ c found _
    (library_hasNames laysOut loaded _ c found).itself
    (namesAt_class definitions i _ listed ▸ isName)

variable (distinct : (source.exported.map nameText).Nodup)

include distinct

/-- The alias of a contract without possible types is another name of its class. -/
theorem alias_alone (i : Nat) (d : ContractDef)
    (listed : (Source.classDefinitions definitions)[i]? = some (.contract d))
    (none : d.possibleTypes = []) : lib.binding? (d.name ++ Source.aliasSuffix) =
      some (.cls (Foundation.classes.length + i)) := by
  obtain ⟨trace⟩ := load_trace source lib loaded
  have apart := namesApart source distinct
  obtain ⟨step, -, isClass, bound, -⟩ := exists_class_of laysOut trace apart i _ listed
  -- When the alias is bound, the name of the class means the class already.
  obtain ⟨s, s', given, same, classes⟩ :=
    trace.binding?_alias apart _ (laysOut.mem_aliases i d listed)
  have before := classes step.source (List.mem_of_getElem? step.present)
  rw [isClass.spec.1, bound] at before
  have itself : s.binding? d.name = some (.cls (Foundation.classes.length + i)) := by
    rw [Loading.binding?]
    exact congrArg (Option.orElse · _) before
  rw [Source.contractAlias, none] at given same
  simp only [loadAlias, List.map_nil, itself] at given
  cases given
  rwa [Loading.bind, findKey?_setKey, if_pos (beq_self_eq_true _)] at same

/-- The alias of a contract is bound to classes with a node, if its possible types have one, or if
it has no possible types and has or inherits one itself. -/
theorem alias_leadsToNode
    (named : ∀ d : ContractDef, .contract d ∈ Source.classDefinitions definitions →
      d.name ≠ "PageInfo") (i : Nat) (d : ContractDef)
    (listed : (Source.classDefinitions definitions)[i]? = some (.contract d))
    (possible : ∀ entry ∈ d.possibleTypes, ∃ e : ObjectDef, .object e ∈ definitions ∧
      e.schemaName = some entry.1 ∧ e.name = some entry.2 ∧
      "node" ∈ (Definition.object e).fieldNames)
    (alone : d.possibleTypes = [] → ∃ above : ContractDef,
      .contract above ∈ Source.classDefinitions definitions ∧
      Relation.ReflTransGen source.Derives (.contract d.name) (.contract above.name) ∧
      "node" ∈ (Definition.contract above).fieldNames) :
    ∃ places, lib.binding? (d.name ++ Source.aliasSuffix) = some (bindingOfPlaces places) ∧
      ∀ place ∈ places, lib.isModel place = true ∧ lib.LeadsToNode (.model place) := by
  obtain ⟨trace⟩ := load_trace source lib loaded
  have apart := namesApart source distinct
  by_cases none : d.possibleTypes = []
  · have same := alias_alone laysOut loaded distinct i d listed none
    obtain ⟨above, isAbove, chain, isName⟩ := alone none
    obtain ⟨j, target⟩ := List.mem_iff_getElem?.mp isAbove
    obtain ⟨c', found', inOrder⟩ :=
      derived_order laysOut loaded distinct named j above target i d listed chain
    refine ⟨[Foundation.classes.length + i], same, fun place isPlace => ?_⟩
    obtain rfl := List.mem_singleton.mp isPlace
    refine ⟨(implementers_of_contract laysOut trace apart i d listed).1, ?_⟩
    exact leadsToNode_of_names laysOut loaded _ c' found' _ inOrder
      (namesAt_class definitions j _ target ▸ isName)
  · obtain ⟨places, are, -, bound⟩ := contract_standsFor laysOut loaded apart i d listed
      ⟨none, fun entry member => by
        obtain ⟨e, kept, schemaName, name, -⟩ := possible entry member
        exact ⟨e, kept, schemaName, name⟩⟩
    refine ⟨places, bound, fun place isPlace => ?_⟩
    obtain ⟨entry, member, marked⟩ := Outcome.forall₂_right are place isPlace
    obtain ⟨e, kept, -, name, isName⟩ := possible entry member
    obtain ⟨j, target⟩ := List.mem_iff_getElem?.mp
      (Source.mem_classDefinitions_object definitions e kept)
    obtain ⟨-, -, -, bound, -⟩ := exists_class_of laysOut trace apart j _ target
    -- The place is that of the class of the possible type.
    have sameName : nameText (Definition.object e).name = entry.2 := congrArg nameText name
    rw [sameName] at bound
    cases Option.some.inj (marked.bound.symm.trans bound)
    exact ⟨marked.model, leadsToNode_object laysOut loaded j e target isName⟩

/-- An object that is not defined behind another stands before it, or is the other itself. -/
theorem not_behind (i j : Nat) (o e : ObjectDef)
    (listed : (Source.classDefinitions definitions)[i]? = some (.object o))
    (target : (Source.classDefinitions definitions)[j]? = some (.object e))
    (before after : List Definition)
    (split : Source.classDefinitions definitions = before ++ .object o :: after)
    (other : .object e ∉ after) : j ≤ i := by
  obtain ⟨trace⟩ := load_trace source lib loaded
  have apart := namesApart source distinct
  have again : (Source.classDefinitions definitions)[before.length]? = some (.object o) := by
    rw [split, List.getElem?_append_right (Nat.le_refl _), Nat.sub_self, List.getElem?_cons_zero]
  obtain ⟨-, -, -, bound, -⟩ := exists_class_of laysOut trace apart i _ listed
  obtain ⟨-, -, -, bound', -⟩ := exists_class_of laysOut trace apart before.length _ again
  have same := Binding.cls.inj (Option.some.inj (bound.symm.trans bound'))
  -- What stands further behind is among the definitions after the split.
  by_contra behind
  refine other (List.mem_iff_getElem?.mpr ⟨j - before.length - 1, ?_⟩)
  rw [split, List.getElem?_append_right (by omega), List.getElem?_cons,
    if_neg (by omega)] at target
  exact target

variable (i : Nat) (o : ObjectDef)
  (listed : (Source.classDefinitions definitions)[i]? = some (.object o)) (c : Class)
  (found : lib.class? (Foundation.classes.length + i) = some c)
  (once : (o.fields.map (·.name)).Nodup) (g : Field) (isField : g ∈ o.fields)

include listed found once isField

variable (spares : world.Spares source)

include spares

/-- A field that refers to an object with a node leads to nodes. -/
theorem leads_of_object (j : Nat) (e : ObjectDef)
    (present : (Source.classDefinitions definitions)[j]? = some (.object e))
    (free : j ≤ i ∨ IsFree source (nameText e.name) world)
    (isName : "node" ∈ (Definition.object e).fieldNames) (ends : g.type.terminalKind = .object)
    (target : g.type.terminalName = e.name) :
    ∀ f ∈ c.fields, f.name ∈ c.declared → ¬f.IsMark → g.name = some f.wire →
      ∃ bottom, f.shape = nullableShape bottom g.type ∧ lib.LeadsToNode bottom := by
  intro f member declared unlike named
  rcases declared_object_field laysOut loaded spares distinct j e present i _ listed free c found f
    member declared with mark | ⟨g', isField', isWire, shapes⟩
  · exact absurd mark unlike
  cases List.inj_on_of_nodup_map once isField' isField (isWire.trans named.symm)
  rcases shapes ends target with shape | shape
  · exact ⟨_, shape, leadsToNode_object laysOut loaded j e present isName⟩
  · exact ⟨_, shape, lib.leadsToNode_null⟩

/-- A field that refers to a contract whose alias is bound to classes with a node leads to nodes. -/
theorem leads_of_contract (j : Nat) (d : ContractDef)
    (present : (Source.classDefinitions definitions)[j]? = some (.contract d)) (places : List Nat)
    (bound : lib.binding? (d.name ++ Source.aliasSuffix) = some (bindingOfPlaces places))
    (leads : ∀ place ∈ places, lib.isModel place = true ∧ lib.LeadsToNode (.model place))
    (refers : RefersTo g.type d) :
    ∀ f ∈ c.fields, f.name ∈ c.declared → ¬f.IsMark → g.name = some f.wire →
      ∃ bottom, f.shape = nullableShape bottom g.type ∧ lib.LeadsToNode bottom := by
  intro f member declared unlike named
  have isAlias := laysOut.mem_aliases j d present
  rcases declared_field laysOut loaded spares (namesApart source distinct) d isAlias places
    (fun place isPlace => (leads place isPlace).1) bound i _ listed c found f member declared with
    mark | ⟨g', isField', isWire, shapes⟩
  · exact absurd mark unlike
  cases List.inj_on_of_nodup_map once isField' isField (isWire.trans named.symm)
  rcases shapes refers with shape | ⟨shape, -⟩
  · exact ⟨_, shape, Library.leadsToNode_shapeOfPlaces places fun place isPlace =>
      (leads place isPlace).2⟩
  · exact ⟨_, shape, lib.leadsToNode_null⟩

end

section

variable {world : World} {options : Options} {schema : Schema} {imports : ImportTable}
  {definitions : List Definition} {source : Source.Module} {lib : Library}
  (laysOut : Source.LaysOut imports definitions source) (loaded : load source world = .ok lib)
  (spares : world.Spares source) (distinct : (source.exported.map nameText).Nodup)
  (named : ∀ d : ContractDef, .contract d ∈ Source.classDefinitions definitions →
    d.name ≠ "PageInfo")
  {t : SchemaType} {o : ObjectDef} (emits : Emits options schema t (.object o))
  (follows : FollowsConvention options schema definitions t o)
  (keeps : KeepsNames schema definitions source t o world) (i : Nat)
  (listed : (Source.classDefinitions definitions)[i]? = some (.object o)) (c : Class)
  (found : lib.class? (Foundation.classes.length + i) = some c)

include laysOut loaded follows keeps listed found

/-- A connection has its nodes in a list. -/
theorem nodes_shape (g : Field) (isField : g ∈ o.fields) (isNodes : g.name = some "nodes") :
    ∃ f ∈ c.fields, f.name = "nodes" ∧ f.initial = .null ∧
      ∃ bottom, f.shape = .optional (.list (.optional bottom)) := by
  obtain ⟨f, member, isName, wire, declared, unlike, initial⟩ := object_field laysOut loaded i o
    listed c found "nodes" (by decide) (by decide) (by decide) g isField isNodes
  refine ⟨f, member, isName, initial, ?_⟩
  rcases declared_holds laysOut loaded i _ listed c found f member declared with
    ⟨text, rfl⟩ | ⟨g', isField', holds⟩
  · exact absurd ⟨rfl, rfl⟩ unlike
  have same : g' = g := List.inj_on_of_nodup_map keeps.fields isField' isField
    (holds.wire.trans (wire ▸ isNodes.symm))
  obtain ⟨bottom, -, shape⟩ := holds.shape
  rw [same, nullableShape_list bottom g.type (follows.lists g isField (.inl isNodes))] at shape
  exact ⟨bottom, shape⟩

include spares distinct named emits

/-- A connection has its edges in a list, and each of them is null or has a node. -/
theorem edges_shape (isType : t ∈ schema.types) (kinds : schema.KeepsKinds) (edge : SchemaType)
    (node : SchemaField) (isEdge : edgeOf? schema t = some (edge, node)) :
    ∃ f ∈ c.fields, f.name = "edges" ∧ f.initial = .null ∧
      ∃ bottom, f.shape = .optional (.list (.optional bottom)) ∧ lib.LeadsToNode bottom := by
  -- Whatever the edges are, the class has one field for them; what they are decides its shape.
  suffices leads : ∃ g ∈ o.fields, g.name = some "edges" ∧ ∀ f ∈ c.fields, f.name ∈ c.declared →
      ¬f.IsMark → g.name = some f.wire →
      ∃ bottom, f.shape = nullableShape bottom g.type ∧ lib.LeadsToNode bottom by
    obtain ⟨g, isField, isEdges, leads⟩ := leads
    obtain ⟨f, member, isName, wire, declared, unlike, initial⟩ := object_field laysOut loaded i o
      listed c found "edges" (by decide) (by decide) (by decide) g isField isEdges
    obtain ⟨bottom, shape, leads⟩ := leads f member declared unlike (wire ▸ isEdges)
    rw [nullableShape_list bottom g.type (follows.lists g isField (.inr isEdges))] at shape
    exact ⟨f, member, isName, initial, bottom, shape, leads⟩
  cases follows.edge edge node isEdge with
  | object e ofEdge kept =>
    obtain ⟨ofKind, -, made⟩ := (emits_object_iff options schema edge e).mp ofEdge
    obtain ⟨_, -, -, -, -, sameName, -⟩ := emitObject_ok options schema edge e made
    obtain ⟨hasNode, g, isField, isEdges, ends, target⟩ :=
      emits.edges isType kinds edge node isEdge .object (by rw [ofKind]; rfl) (by decide)
    obtain ⟨j, present⟩ := List.mem_iff_getElem?.mp
      (Source.mem_classDefinitions_object definitions e kept)
    have free : j ≤ i ∨ IsFree source (nameText e.name) world := by
      rw [sameName]
      rcases keeps.edge edge node isEdge ofKind with free | ⟨before, after, split, others⟩
      · exact .inr free
      · exact .inl (not_behind laysOut loaded distinct i j o e listed present before after split
          fun later => others e later sameName)
    exact ⟨g, isField, isEdges, leads_of_object laysOut loaded distinct i o listed c found
      keeps.fields g isField spares j e present free (ofEdge.mem_fieldNames _ node hasNode)
      (ends.trans ofKind) (target.trans sameName.symm)⟩
  | interface d ofKind isContract kept possible =>
    obtain ⟨-, g, isField, isEdges, ends, target⟩ :=
      emits.edges isType kinds edge node isEdge .interface (by rw [ofKind]; rfl) (by decide)
    obtain ⟨j, present⟩ := List.mem_iff_getElem?.mp kept
    obtain ⟨places, bound, leads⟩ := alias_leadsToNode laysOut loaded distinct named j d present
      possible (keeps.node edge node isEdge d kept isContract)
    exact ⟨g, isField, isEdges, leads_of_contract laysOut loaded distinct i o listed c found
      keeps.fields g isField spares j d present places bound leads
      ⟨.inl (ends.trans ofKind), target.trans (congrArg some isContract.symm)⟩⟩

/-- What is decoded as a connection holds its nodes where its capability looks for them. -/
theorem holdsNodes (isType : t ∈ schema.types) (kinds : schema.KeepsKinds) (capability : Capability)
    (given : capability ∈ o.capabilities) (connection : capability.kind ≠ .edge) (form : Form)
    (j : Json) (x : Value)
    (read : lib.decode form j (.model (Foundation.classes.length + i)) = .ok x) :
    HoldsNodes x capability.kind := by
  have fields := lib.fieldsOf_eq _ c found
  have apart := (hasNullableFields laysOut loaded).apart (Foundation.classes.length + i)
  obtain ⟨byNodes, byEdges⟩ := connectionCapability_ok options schema t capability
    (emits.connection capability given connection).1
  constructor
  · intro other
    obtain ⟨nodes, declared⟩ := byNodes other
    obtain ⟨g, isField, isNodes, -⟩ := emits.field "nodes" nodes declared
    obtain ⟨f, member, isName, initial, bottom, shape⟩ :=
      nodes_shape laysOut loaded follows keeps i listed c found g isField isNodes
    obtain ⟨value, own, isList⟩ := lib.own?_list _ apart f (fields ▸ member) initial bottom shape
      form j x read
    exact ⟨value, isName ▸ own, isList.imp fun _ _ => trivial⟩
  · intro other
    obtain ⟨edge, node, isEdge⟩ := byEdges other
    obtain ⟨f, member, isName, initial, bottom, shape, leads⟩ := edges_shape laysOut loaded spares
      distinct named emits follows keeps i listed c found isType kinds edge node isEdge
    obtain ⟨value, own, isList⟩ := lib.own?_list _ apart f (fields ▸ member) initial bottom shape
      form j x read
    refine ⟨value, isName ▸ own, isList.imp fun item isItem => ?_⟩
    rcases isItem with null | ⟨j, read⟩
    · exact .inl null
    · exact leads form j item read

end

end Model

/-- No contract of a module is named as the page information is. -/
theorem contract_ne_pageInfo (options : Options) (schema : Schema) (m : Module)
    (emitted : (emit options schema).outcome = .ok m) (hooks : List Hook) (d : ContractDef)
    (isContract : .contract d ∈ Source.classDefinitions (Hook.runFilters hooks m.definitions)) :
    d.name ≠ "PageInfo" := by
  have isNamed := (Hook.names_of_runFilters hooks m.definitions).2
    (definitions_named options schema m emitted).2 _ (Source.mem_of_classDefinitions _ _ isContract)
  have same : d.name = contractName d.schemaName := isNamed
  exact same ▸ contractName_ne_pageInfo d.schemaName

/-- **Connections list their nodes.** In a module that loads and has pairwise distinct names, from a
schema whose references carry the kinds of their types, whatever is decoded as the class of a
connection that keeps to the convention lists its nodes: those that it holds itself, or one for each
of its edges. This is so for every form and every value, with null wherever a field, an edge or a
node is missing. The names by which the class leads to its nodes must not mean anything else. -/
theorem connection_lists_nodes (options : Options) (schema : Schema) (m : Module) (setup : Setup)
    (source : Source.Module) (world : Model.World) (spares : world.Spares source)
    (lib : Model.Library) (emitted : (emit options schema).outcome = .ok m)
    (laidOut : m.source setup = .ok source) (loaded : Model.load source world = .ok lib)
    (distinct : lib.exported.Nodup) (kinds : schema.KeepsKinds) (t : SchemaType)
    (isType : t ∈ schema.types) (o : ObjectDef) (emits : Emits options schema t (.object o))
    (kept : .object o ∈ Hook.runFilters setup.hooks m.definitions)
    (follows : FollowsConvention options schema (Hook.runFilters setup.hooks m.definitions) t o)
    (keeps : KeepsNames schema (Hook.runFilters setup.hooks m.definitions) source t o world)
    (c : Capability) (given : c ∈ o.capabilities) (connection : c.kind ≠ .edge) :
    ∃ place, lib.binding? (nameText o.name) = some (.cls place) ∧
      (∀ text, lib.fromJson (nameText o.name) text = lib.readAs (.model place) text) ∧
      ∀ form j x, lib.decode form j (.model place) = .ok x →
        ∃ nodes, lib.call x "get_nodes" = .ok nodes ∧ Model.HasNodes x c.kind nodes := by
  have laysOut := source_laysOut m setup source laidOut
  obtain ⟨trace⟩ := Model.load_trace source lib loaded
  rw [trace.exported] at distinct
  have apart := Model.namesApart source distinct
  obtain ⟨i, listed⟩ := List.mem_iff_getElem?.mp
    (Source.mem_classDefinitions_object _ o kept)
  obtain ⟨-, -, -, bound, k, found, -⟩ := Model.exists_class_of laysOut trace apart i _ listed
  obtain ⟨isModel, document⟩ := Model.documentShape_object laysOut loaded i o listed
  refine ⟨_, bound, (lib.reads_contract _ _ _ bound isModel document).1, fun form j x read => ?_⟩
  have named := contract_ne_pageInfo options schema m emitted setup.hooks
  have holds := Model.holdsNodes laysOut loaded spares distinct named emits follows keeps i listed k
    found isType kinds c given connection form j x read
  obtain ⟨nodes, listed', has⟩ := holds.listNodes connection
  have fields := Model.hasNullableFields laysOut loaded
  obtain ⟨attributes, rfl, names, -⟩ := lib.own?_of_decode form j _ x (fields.apart _) read
  refine ⟨nodes, ?_, has⟩
  rw [Model.connection_call laysOut loaded apart i o listed keeps.contracts c.kind
    (emits.connection c given connection).2 none attributes, listed']
  exact names ▸ Model.no_field_get_nodes laysOut loaded _

/-! ## People -/

/-- A connection with nothing but edges of a type. -/
def peopleType (edge : String) : SchemaType where
  kind := .object
  name := some "PeopleConnection"
  fields := [{
    name := some "edges"
    type := { kind := .list, ofType := some { kind := .object, name := some edge } } }]

/-- A type with a text as its node. -/
def personType (edge : String) : SchemaType where
  kind := .object
  name := some edge
  fields := [{ name := some "node", type := { kind := .scalar, name := some "String" } }]

def peopleSchema (edge : String) : Schema where
  types := [peopleType edge, personType edge]

def peopleOptions : Options := { moduleName := "people" }

def peopleObject (edge : String) : ObjectDef where
  name := some "PeopleConnection"
  schemaName := some "PeopleConnection"
  fields := [{ name := some "edges", type := .list (.named (some edge) .object) }]
  capabilities := [{ kind := .edges, nodeType := "str", edgeType := some edge }]

def personObject (edge : String) : ObjectDef where
  name := some edge
  schemaName := some edge
  fields := [{ name := some "node", type := .named (some "str") .scalar }]

def peopleModule (edge : String) : Module where
  moduleName := "people"
  definitions := [.object (peopleObject edge), .object (personObject edge)]

def peopleSource (edge : String) : Source.Module where
  title := "people"
  imports := []
  enums := []
  contracts := []
  objects := [
    { name := some "PeopleConnection", schemaName := some "PeopleConnection"
      bases := [.capability .edges, .model], description := none
      classVariables := [⟨"node_type_name", "str"⟩, ⟨"edge_type_name", edge⟩]
      attributes := [{
        name := "edges", type := .optional (.list (.optional (.name edge))), rename := none }] },
    { name := some edge, schemaName := some edge, bases := [.model], description := none
      classVariables := [], attributes := [textAttribute "node" none] }]
  aliases := []

/-- What the people are loaded as, where the edges are of a shape. -/
def peopleLibrary (edge : String) (item : Model.Shape) : Model.Library where
  classes := Model.Foundation.classes ++ [
    { name := "PeopleConnection", home := "generated_models", order := [7, 4, 2, 0]
      fields := [Model.typenameSpec "PeopleConnection",
        { name := "edges", wire := "edges", shape := .optional (.list (.optional item)) }]
      declared := ["typename__", "edges"]
      classVariables := [("node_type_name", "str"), ("edge_type_name", edge)] },
    { name := edge, home := "generated_models", order := [8, 0]
      fields := [Model.typenameSpec edge, textField "node" "node"]
      declared := ["typename__", "node"] }]
  enums := []
  scope := setKey edge (.cls 8) (setKey "PeopleConnection" (.cls 7)
    (setKeys Model.initialScope Model.importedScope))
  exported := ["PeopleConnection", edge]

/-- Two people, one of them missing. -/
def peopleDocument : Json :=
  .obj [("edges", .arr [.obj [("node", .str "Ada")], .null])]

theorem people_followsConvention (edge : String)
    (found : edgeOf? (peopleSchema edge) (peopleType edge) =
      (personType edge).fields.head?.map (personType edge, ·))
    (emits : Emits peopleOptions (peopleSchema edge) (personType edge)
      (.object (personObject edge))) :
    FollowsConvention peopleOptions (peopleSchema edge) (peopleModule edge).definitions
      (peopleType edge) (peopleObject edge) where
  lists g isField _ := by
    obtain rfl := List.mem_singleton.mp isField
    rfl
  edge type node isEdge := by
    cases found.symm.trans isEdge
    exact .object (personObject edge) emits (List.mem_cons_of_mem _ (List.mem_singleton.mpr rfl))

theorem contacts_keepNames : KeepsNames (peopleSchema "Contact")
    (peopleModule "Contact").definitions (peopleSource "Contact") (peopleType "Contact")
    (peopleObject "Contact") where
  fields := by decide
  contracts name isContract := by cases isContract
  edge edge node isEdge _ := by
    cases isEdge
    refine .inl fun s given => ?_
    cases given
    rfl
  node edge node _ d isContract :=
    absurd (Source.mem_of_classDefinitions _ _ isContract) (by simp [peopleModule])

/-- People are listed from the edges of a connection. -/
theorem connection_lists_nodes_contact : ∃ x nodes,
    (peopleLibrary "Contact" (.model 8)).decode .document peopleDocument (.model 7) = .ok x ∧
      (peopleLibrary "Contact" (.model 8)).call x "get_nodes" = .ok nodes ∧
      Model.HasNodes x .edges nodes := by
  obtain ⟨place, bound, -, each⟩ := connection_lists_nodes peopleOptions (peopleSchema "Contact")
    (peopleModule "Contact") {} (peopleSource "Contact") .closed (Model.World.closed_spares _)
    (peopleLibrary "Contact" (.model 8)) rfl (source_of_sorted _ _ _ rfl rfl) rfl (by decide)
    (by decide) (peopleType "Contact")
    List.mem_cons_self (peopleObject "Contact") rfl List.mem_cons_self
    (people_followsConvention "Contact" rfl rfl) contacts_keepNames _ (List.mem_singleton.mpr rfl)
    (by decide)
  have known : (peopleLibrary "Contact" (.model 8)).binding? "PeopleConnection" =
    some (.cls 7) := rfl
  cases known.symm.trans bound
  obtain ⟨nodes, listed, has⟩ := each .document peopleDocument _ rfl
  exact ⟨_, nodes, rfl, listed, has⟩

/-- An edge type may be named as something that is built in, and then its connection does not list
its nodes. -/
theorem connection_may_not_list_nodes :
    ¬∀ (options : Options) (schema : Schema) (m : Module) (setup : Setup) (source : Source.Module)
      (lib : Model.Library), (emit options schema).outcome = .ok m → m.source setup = .ok source →
      Model.load source = .ok lib → lib.exported.Nodup → schema.KeepsKinds → ∀ t ∈ schema.types,
      ∀ o : ObjectDef, Emits options schema t (.object o) →
      .object o ∈ Hook.runFilters setup.hooks m.definitions →
      FollowsConvention options schema (Hook.runFilters setup.hooks m.definitions) t o →
      ∀ c ∈ o.capabilities, c.kind ≠ .edge → ∀ place,
      lib.binding? (nameText o.name) = some (.cls place) → ∀ form j x,
      lib.decode form j (.model place) = .ok x →
      ∃ nodes, lib.call x "get_nodes" = .ok nodes ∧ Model.HasNodes x c.kind nodes := by
  intro lists
  -- The edges are taken for anything at all, since the class of their name comes later.
  obtain ⟨nodes, listed, -⟩ := lists peopleOptions (peopleSchema "object")
    (peopleModule "object") {} (peopleSource "object") (peopleLibrary "object" (.scalar .any)) rfl
    (source_of_sorted _ _ _ rfl rfl) rfl (by decide) (by decide) (peopleType "object")
    List.mem_cons_self (peopleObject "object") rfl
    List.mem_cons_self (people_followsConvention "object" rfl rfl) _ (List.mem_singleton.mpr rfl)
    (by decide) 7 rfl .document peopleDocument _ rfl
  cases listed

end GraphQLModels
