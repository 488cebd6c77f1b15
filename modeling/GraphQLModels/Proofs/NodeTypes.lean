import GraphQLModels.Proofs.ReferentialClosure
import GraphQLModels.Proofs.ScalarCoverage
import GraphQLModels.Proofs.UnionFields

/-!
# Node types

A connection or an edge names the type of its nodes. The name is that of the named type inside the
field that gives the nodes, outside of any field; the field itself is generated with the target that
it has as a field of its type. The two are one unless an override takes the field away.
-/

namespace GraphQLModels

/-! ## Where a capability takes its nodes from -/

/-- The field that gives the nodes of a type by a convention, with the type that has it: a
connection with edges takes them from its edge type. -/
def nodeField? (schema : Schema) (t : SchemaType) : CapabilityKind → Option (SchemaType × SchemaField)
  | .edge => (t.field? "node").map (t, ·)
  | .nodes => (t.field? "nodes").map (t, ·)
  | .edges | .nodesAndEdges => edgeOf? schema t

/-- Whether a capability of a type names the type of its nodes, and that of its edges if it has
any. -/
structure NamesNodes (options : Options) (schema : Schema) (t : SchemaType) (c : Capability)
    (owner : SchemaType) (source : SchemaField) : Prop where
  field : nodeField? schema t c.kind = some (owner, source)
  node : nodeName options source = .ok c.nodeType
  edge : c.edgeType = none ∧ owner = t ∨
    ∃ name, options.plainTypeName owner = .ok name ∧ c.edgeType = some (nameText name)

section

variable {options : Options} {schema : Schema} {t : SchemaType} {c : Capability}

theorem nodesCapability_names (given : (nodesCapability options t).outcome = .ok (some c)) :
    ∃ source, NamesNodes options schema t c t source := by
  unfold nodesCapability at given
  split at given
  · simp at given
  · rename_i nodes declared
    simp only [Report.outcome_bind, Report.outcome_lift, Report.outcome_pure,
      Outcome.bind_ok_iff] at given
    obtain ⟨name, named, same⟩ := given
    cases same
    exact ⟨nodes, by rw [nodeField?, declared]; rfl, named, .inl ⟨rfl, rfl⟩⟩

theorem edgeCapability_names (given : edgeCapability options t = .ok (some c)) :
    ∃ source, NamesNodes options schema t c t source := by
  unfold edgeCapability at given
  split at given
  · cases given
  · rename_i node declared
    obtain ⟨name, named, same⟩ := (Outcome.bind_ok_iff _ _ _).mp given
    cases same
    exact ⟨node, by rw [nodeField?, declared]; rfl, named, .inl ⟨rfl, rfl⟩⟩

theorem connectionCapability_names
    (given : (connectionCapability options schema t).outcome = .ok (some c)) :
    ∃ owner source, NamesNodes options schema t c owner source := by
  have byNodes : (nodesCapability options t).outcome = .ok (some c) →
      ∃ owner source, NamesNodes options schema t c owner source :=
    fun given => ⟨t, nodesCapability_names given⟩
  unfold connectionCapability at given
  split at given
  · exact byNodes given
  rename_i edges declared
  simp only [Report.outcome_bind, Report.outcome_lift, Outcome.bind_ok_iff] at given
  obtain ⟨reference, reaches, given⟩ := given
  rw [← edgeOf?_eq schema t edges declared reference reaches] at given
  split at given
  · rename_i edge node isEdge
    simp only [Report.outcome_bind, Report.outcome_lift, Report.outcome_pure,
      Outcome.bind_ok_iff] at given
    obtain ⟨nodeType, named, name, target, same⟩ := given
    cases same
    refine ⟨edge, node, ?_, named, .inr ⟨name, target, rfl⟩⟩
    -- With or without nodes of its own, a connection with edges takes the nodes of these.
    dsimp only
    split <;> exact isEdge
  · simp only [Report.outcome_bind, Report.outcome_warn, Outcome.ok_bind] at given
    exact byNodes given

/-- Every capability of a type names the type of its nodes. -/
theorem capabilities_names (found : List Capability)
    (given : (capabilities options schema t).outcome = .ok found) (isCapability : c ∈ found) :
    ∃ owner source, NamesNodes options schema t c owner source := by
  obtain ⟨connection, edge, rfl, first, second⟩ := capabilities_ok options schema t found given
  rcases List.mem_append.mp isCapability with ofConnection | ofEdge
  · exact connectionCapability_names (first c (by simpa using ofConnection))
  · exact ⟨t, edgeCapability_names (second c (by simpa using ofEdge))⟩

/-- The field that gives the nodes belongs to the type that has it, and the type is the one of the
capability or an entry of the table. -/
theorem nodeField?_mem (kind : CapabilityKind) (owner : SchemaType) (source : SchemaField)
    (found : nodeField? schema t kind = some (owner, source)) :
    source ∈ owner.fields ∧ (owner = t ∨ owner ∈ schema.types) := by
  have own : ∀ name, (t.field? name).map (t, ·) = some (owner, source) →
      source ∈ owner.fields ∧ (owner = t ∨ owner ∈ schema.types) := by
    intro name found
    obtain ⟨field, declared, same⟩ := Option.map_eq_some_iff.mp found
    cases same
    exact ⟨t.field?_mem name source declared, .inl rfl⟩
  cases kind with
  | edge => exact own "node" found
  | nodes => exact own "nodes" found
  | edges | nodesAndEdges =>
    obtain ⟨listed, declared⟩ := edgeOf?_mem schema t owner source found
    exact ⟨declared, .inr listed⟩

end

/-! ## What the field resolves to -/

/-- Whether the override for a field of a type takes it away from the target that its named type has
outside of any field. -/
def Options.Redirects (options : Options) (type : Option String) (field : SchemaField) : Prop :=
  ∃ reference target, field.type.namedType = .ok reference ∧
    (reference.kind = .scalar ∨ reference.kind = .enum) ∧
    options.overrideAt? type field.name = some target ∧
    options.plainTypeName reference ≠ .ok (some target)

/-- The first named type inside the wrappers of a reference has a name. -/
theorem SchemaType.namedType_isSome (t bottom : SchemaType) (reaches : t.namedType = .ok bottom) :
    bottom.name.isSome = true := by
  induction t using unwrapping generalizing bottom with
  | named t kind | opened t kind nothing =>
    rcases t with ⟨k, n, _, _, _, _, _, ofType⟩
    cases n with
    | some name =>
      cases reaches
      rfl
    | none => cases ofType <;> simp_all [namedType]
  | wrapped t inner kind wraps ih =>
    cases named : t.name with
    | some name =>
      cases (t.namedType_of_name name named).symm.trans reaches
      rw [named]
      rfl
    | none => exact ih bottom ((t.namedType_of_wrapper inner kind named wraps).symm.trans reaches)

/-- A type with a name has a target name. -/
theorem Options.typeName_isSome (options : Options) (t : SchemaType)
    (type field target : Option String) (named : t.name.isSome = true)
    (given : options.typeName t type field = .ok target) : target.isSome = true := by
  unfold typeName at given
  split at given
  · split at given
    · cases given
      rfl
    · cases given
      split
      · rfl
      · exact named
  · split at given
    · cases given
      rfl
    · cases given
  · cases given
    exact named
  · cases given
    exact named
  · cases given
    rfl
  · cases given
    rfl
  · cases given
  · cases given

/-- The target of a type in a field is the one that it has outside of any field, unless an override
gives a scalar or an enum another one. -/
theorem Options.typeName_eq_plain_iff (options : Options) (t : SchemaType)
    (type field plain target : Option String) (outside : options.plainTypeName t = .ok plain)
    (inside : options.typeName t type field = .ok target) :
    target = plain ↔ ¬∃ other, (t.kind = .scalar ∨ t.kind = .enum) ∧
      options.overrideAt? type field = some other ∧ plain ≠ some other := by
  have both := options.typeName_of_plain t type field plain outside
  rw [inside] at both
  have bottom := congrArg FieldType.terminalName (Except.ok.inj both)
  rw [terminalName_overridden, targetUnder] at bottom
  change target = _ at bottom
  rw [bottom]
  have takes : (FieldType.named plain t.kind).takesOverride = true ↔
      t.kind = .scalar ∨ t.kind = .enum := by
    simp [FieldType.takesOverride, FieldType.terminalKind]
  rw [← takes]
  cases options.overrideAt? type field with
  | none => simp [FieldType.terminalName]
  | some other =>
    by_cases taken : (FieldType.named plain t.kind).takesOverride = true
    · simp [taken, eq_comm]
    · simp [taken, FieldType.terminalName]

/-- What a field that gives nodes resolves to ends in the name of the node type, unless an override
takes the field away from it. -/
theorem terminalName_eq_iff (options : Options) (type : Option String) (source : SchemaField)
    (name : String) (named : nodeName options source = .ok name) (resolved : FieldType)
    (given : source.type.resolve options type source.name = .ok resolved) :
    resolved.terminalName = some name ↔ ¬options.Redirects type source := by
  obtain ⟨reference, reaches, named⟩ := (Outcome.bind_ok_iff _ _ _).mp named
  obtain ⟨plain, outside, same⟩ := (Outcome.bind_ok_iff _ _ _).mp named
  cases (Outcome.pure_ok_iff _ _).mp same
  have unwrapped : reference.kind.isWrapper = false := by
    cases kind : reference.kind <;>
      simp [Options.plainTypeName, Options.typeName, kind] at outside ⊢ <;> rfl
  obtain ⟨-, inside⟩ :=
    SchemaType.resolve_bottom options type source.name source.type reference reaches unwrapped
      resolved given
  obtain ⟨target, rfl⟩ := Option.isSome_iff_exists.mp (options.typeName_isSome reference none none
    plain (source.type.namedType_isSome reference reaches) outside)
  change resolved.terminalName = some target ↔ _
  rw [options.typeName_eq_plain_iff reference type source.name _ _ outside inside]
  constructor
  · rintro kept ⟨other, target, reaches', kind, override, differs⟩
    cases reaches.symm.trans reaches'
    exact kept ⟨target, kind, override, fun same => differs (same ▸ outside)⟩
  · rintro kept ⟨target, kind, override, differs⟩
    refine kept ⟨reference, target, reaches, kind, override, fun same => differs ?_⟩
    exact Except.ok.inj (outside.symm.trans same)

/-! ## Node types and node fields -/

/-- **Node types and node fields.** Every capability of a class names the type of its nodes by the
field that gives them: the node field of an edge or of the edge type, or the nodes of a connection.
If the type with this field is emitted as a class, the class has the field, and the field ends in the
node type exactly if the override for it does not redirect it. -/
theorem node_type_agrees_iff (options : Options) (schema : Schema) (m : Module)
    (emitted : (emit options schema).outcome = .ok m)
    (distinct : ∀ t ∈ schema.types, (t.fields.map (·.name)).Nodup) (o : ObjectDef)
    (defined : .object o ∈ m.definitions) :
    ∃ t ∈ schema.types, Emits options schema t (.object o) ∧ ∀ c ∈ o.capabilities,
      ∃ owner ∈ schema.types, ∃ source ∈ owner.fields,
        nodeField? schema t c.kind = some (owner, source) ∧
        ∀ d, Emits options schema owner (.object d) →
          (c.edgeType = none ∧ d = o ∨ c.edgeType = some (nameText d.name)) ∧
          ∃ f ∈ d.fields, f.name = source.name ∧ (∀ g ∈ d.fields, g.name = source.name → g = f) ∧
            (f.type.terminalName = some c.nodeType ↔ ¬options.Redirects owner.name source) := by
  obtain ⟨t, listed, emits⟩ := (mem_definitions_iff options schema m emitted _).mp defined
  refine ⟨t, listed, emits, fun c isCapability => ?_⟩
  obtain ⟨-, -, made⟩ := (emits_object_iff options schema t o).mp emits
  obtain ⟨_, -, -, -, implied, -⟩ := emitObject_ok options schema t o made
  obtain ⟨owner, source, names⟩ := capabilities_names _ implied isCapability
  obtain ⟨declared, isOwner⟩ := nodeField?_mem c.kind owner source names.field
  have ownerListed : owner ∈ schema.types := isOwner.elim (· ▸ listed) id
  refine ⟨owner, ownerListed, source, declared, names.field, fun d ofOwner => ?_⟩
  obtain ⟨isObject, -, madeOwner⟩ := (emits_object_iff options schema owner d).mp ofOwner
  obtain ⟨_, -, -, fields, -, named, -⟩ := emitObject_ok options schema owner d madeOwner
  refine ⟨?_, ?_⟩
  · rcases names.edge with ⟨none, rfl⟩ | ⟨name, target, some⟩
    · cases emits.symm.trans ofOwner
      exact .inl ⟨none, rfl⟩
    · rw [Options.plainTypeName, Options.typeName, isObject] at target
      cases target
      exact .inr (named ▸ some)
  · obtain ⟨both, each⟩ := emitFields_mem _ _ _ _ _ fields
    obtain ⟨f, isField, given⟩ := each source declared
    obtain ⟨sameName, resolved⟩ := emitField_ok _ _ _ _ _ given
    refine ⟨f, isField, sameName, fun g isField' sameName' => ?_,
      terminalName_eq_iff options owner.name source c.nodeType names.node f.type resolved⟩
    -- Field names are distinct, so the class has no second field of this name.
    obtain ⟨other, declared', given'⟩ := both g isField'
    have same : other = source := List.inj_on_of_nodup_map (distinct owner ownerListed) declared'
      declared ((emitField_ok _ _ _ _ _ given').1.symm.trans sameName')
    subst same
    exact Except.ok.inj (given'.symm.trans given)

/-! ## A node that an override redirects -/

/-- A type with one field. -/
def visitType (name : String) (field : String) (type : SchemaType) : SchemaType where
  kind := .object
  name := some name
  fields := [{ name := some field, type }]

def visitEdge : SchemaType := visitType "VisitEdge" "node" { kind := .scalar, name := some "String" }

/-- A connection whose edges hold texts. -/
def visitSchema : Schema where
  types := [
    visitType "VisitConnection" "edges" {
      kind := .list, ofType := some { kind := .object, name := some "VisitEdge" } },
    visitEdge]

/-- Options that override the node of the edges. -/
def visitOptions : Options :=
  { moduleName := "visits", overrides := [(("VisitEdge", "node"), "datetime")] }

def visitConnectionClass : ObjectDef where
  name := some "VisitConnection"
  schemaName := some "VisitConnection"
  fields := [{ name := some "edges", type := .list (.named (some "VisitEdge") .object) }]
  capabilities := [{ kind := .edges, nodeType := "str", edgeType := some "VisitEdge" }]

def visitEdgeClass : ObjectDef where
  name := some "VisitEdge"
  schemaName := some "VisitEdge"
  fields := [{ name := some "node", type := .named (some "datetime") .scalar }]
  capabilities := [{ kind := .edge, nodeType := "str" }]

def visitModule : Module where
  moduleName := "visits"
  definitions := [.object visitConnectionClass, .object visitEdgeClass]

theorem visitModule_emitted : (emit visitOptions visitSchema).outcome = .ok visitModule := rfl

theorem visitSchema_distinct : ∀ t ∈ visitSchema.types, (t.fields.map (·.name)).Nodup := by
  decide

/-- The nodes of a connection are those of its edges. -/
theorem node_type_agrees_iff_visit : ∃ f ∈ visitEdgeClass.fields, f.name = some "node" ∧
    ∃ source ∈ visitEdge.fields, (f.type.terminalName = some "str" ↔
      ¬visitOptions.Redirects (some "VisitEdge") source) := by
  obtain ⟨t, listed, emits, each⟩ := node_type_agrees_iff visitOptions visitSchema visitModule
    visitModule_emitted visitSchema_distinct visitConnectionClass (by decide)
  obtain ⟨owner, -, source, declared, gives, ofOwner⟩ := each _ (List.mem_singleton.mpr rfl)
  -- The connection is the first entry of the table.
  have first : t = visitSchema.types.head (by decide) := by
    obtain ⟨-, -, made⟩ := (emits_object_iff _ _ t _).mp emits
    obtain ⟨_, -, -, -, -, named, -⟩ := emitObject_ok _ _ t _ made
    rcases List.mem_cons.mp listed with rfl | later
    · rfl
    · cases List.mem_singleton.mp later
      exact absurd named (by decide)
  subst first
  cases gives
  obtain ⟨-, f, isField, sameName, -, agrees⟩ := ofOwner visitEdgeClass rfl
  exact ⟨f, isField, sameName, _, declared, agrees⟩

/-- The type that a class names for its nodes need not be the one that its node field ends in. -/
theorem node_type_may_differ :
    ¬∀ (options : Options) (schema : Schema) (m : Module),
      (emit options schema).outcome = .ok m →
      (∀ t ∈ schema.types, (t.fields.map (·.name)).Nodup) →
      ∀ o : ObjectDef, .object o ∈ m.definitions → ∀ c ∈ o.capabilities, c.kind = .edge →
      ∀ f ∈ o.fields, f.name = some "node" → f.type.terminalName = some c.nodeType := by
  intro agrees
  have same := agrees visitOptions visitSchema visitModule visitModule_emitted
    visitSchema_distinct visitEdgeClass (by decide) _ (List.mem_singleton.mpr rfl) rfl _
    (List.mem_singleton.mpr rfl) rfl
  exact absurd same (by decide)

end GraphQLModels
