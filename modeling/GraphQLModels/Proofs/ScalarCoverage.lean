import GraphQLModels.Proofs.Emission

/-!
# When a scalar stops emission

In a well-formed schema nothing but a scalar without a target stops emission. A scalar is looked up
for each emitted field, where an override may cover it, and by itself: for the fields that the
members of a union are compared by, and for the nodes and edges of a type that is named for
pagination.
-/

namespace GraphQLModels

open Outcome

/-! ## Scalars without a target -/

/-- Whether an error is about a scalar without a target. -/
def ResolutionError.IsUnknownScalar (e : ResolutionError) : Prop :=
  ∃ scalar type field, e = .unknownScalar scalar type field

/-- A computation that only a scalar without a target can stop. -/
abbrev StopsUnder {α : Type} (x : Except ResolutionError α) (condition : Prop) : Prop :=
  FailsUnder ResolutionError.IsUnknownScalar x condition

namespace Options

/-- Whether a reference ends in a scalar that has no target in a field: neither the override for the
field nor the configured or built-in targets give one. -/
def Misses (options : Options) (reference : SchemaType) (type field : Option String) : Prop :=
  ∃ bottom, reference.namedType = .ok bottom ∧ bottom.kind = .scalar ∧
    options.overrideAt? type field = none ∧ bottom.name.bind options.scalarTarget? = none

/-- A scalar that no override helps has no target by itself either. -/
theorem Misses.bare {options : Options} {reference : SchemaType} {type field : Option String}
    (misses : options.Misses reference type field) : options.Misses reference none none := by
  obtain ⟨bottom, reaches, scalar, _, unknown⟩ := misses
  exact ⟨bottom, reaches, scalar, options.overrideAt?_none, unknown⟩

theorem typeName_stops (options : Options) (t : SchemaType) (type field : Option String)
    (unwrapped : t.kind.isWrapper = false) :
    StopsUnder (options.typeName t type field) (t.kind = .scalar ∧
      options.overrideAt? type field = none ∧ t.name.bind options.scalarTarget? = none) := by
  unfold typeName
  cases kind : t.kind with
  | scalar =>
    cases override : options.overrideAt? type field with
    | some target => exact (failsUnder_ok _).congr (by simp)
    | none =>
      cases known : t.name.bind options.scalarTarget? with
      | some target => simpa using failsUnder_ok _
      | none =>
        refine ⟨by simp, ?_⟩
        rintro e same
        exact ⟨_, _, _, (Except.error.inj same).symm⟩
  | «enum» =>
    cases options.overrideAt? type field <;> exact (failsUnder_ok _).congr (by simp)
  | object | inputObject | interface | union => exact (failsUnder_ok _).congr (by simp)
  | list | nonNull =>
    rw [kind] at unwrapped
    cases unwrapped

theorem plainTypeName_stops (options : Options) (t : SchemaType)
    (unwrapped : t.kind.isWrapper = false) (noScalar : t.kind ≠ .scalar) :
    StopsUnder (options.plainTypeName t) False :=
  (options.typeName_stops t none none unwrapped).congr (by simp [noScalar])

end Options

theorem resolve_stops (options : Options) (reference : SchemaType) (type field : Option String)
    (complete : reference.IsComplete) :
    StopsUnder (reference.resolve options type field) (options.Misses reference type field) := by
  obtain ⟨bottom, depth, reaches, unwrapped, _, resolves⟩ := complete.resolves
  rw [resolves]
  refine ((options.typeName_stops bottom type field unwrapped).map _).congr ?_
  simp [Options.Misses, reaches]

/-! ## Fields -/

theorem emitFields_stops (options : Options) (type : Option String) (readOnly : Bool)
    (fields : List SchemaField) (complete : ∀ f ∈ fields, f.type.IsComplete) :
    StopsUnder (emitFields options type readOnly fields)
      (∃ f ∈ fields, options.Misses f.type type f.name) := by
  refine failsUnder_mapM _ _ _ fun f member => ?_
  exact (resolve_stops options f.type type f.name (complete f member)).bind_pure _

theorem keyedFields_stops (options : Options) (fields : List SchemaField)
    (complete : ∀ f ∈ fields, f.type.IsComplete) :
    StopsUnder (keyedFields options fields) (∃ f ∈ fields, options.Misses f.type none none) := by
  refine failsUnder_mapM _ _ _ fun f member => ?_
  have named : StopsUnder (f.type.resolvedName options) (options.Misses f.type none none) :=
    (resolve_stops options f.type none none (complete f member)).map _
  have keyed : StopsUnder (fieldKey options f) (options.Misses f.type none none) :=
    named.bind_pure _
  exact keyed.bind_pure _

theorem sharedWith_stops (options : Options) (shared : List (FieldKey × SchemaField))
    (types : List SchemaType) (complete : ∀ t ∈ types, ∀ f ∈ t.fields, f.type.IsComplete) :
    StopsUnder (sharedWith options shared types)
      (∃ t ∈ types, ∃ f ∈ t.fields, options.Misses f.type none none) := by
  induction types generalizing shared with
  | nil => exact (failsUnder_ok shared).congr (by simp)
  | cons t rest ih =>
    have first := keyedFields_stops options t.fields (complete t List.mem_cons_self)
    refine (first.bind fun _ _ =>
      ih _ fun u member => complete u (List.mem_cons_of_mem t member)).congr ?_
    simp

/-- Members are compared by all of their fields, so each of their scalars is looked up. -/
theorem commonFields_stops (options : Options) (types : List SchemaType)
    (complete : ∀ t ∈ types, ∀ f ∈ t.fields, f.type.IsComplete) :
    StopsUnder (commonFields options types)
      (∃ t ∈ types, ∃ f ∈ t.fields, options.Misses f.type none none) := by
  cases types with
  | nil => exact (failsUnder_ok []).congr (by simp)
  | cons first rest =>
    have own := keyedFields_stops options first.fields (complete first List.mem_cons_self)
    refine (own.bind fun _ _ => (sharedWith_stops options _ rest fun u member =>
      complete u (List.mem_cons_of_mem first member)).bind_pure _).congr ?_
    simp

theorem targetNames_stops (options : Options) (types : List SchemaType)
    (named : ∀ t ∈ types, t.kind.isWrapper = false ∧ t.kind ≠ .scalar) :
    StopsUnder (targetNames options types) False := by
  refine (failsUnder_mapM _ _ (fun _ => False) fun t member => ?_).congr (by simp)
  exact (options.plainTypeName_stops t (named t member).1 (named t member).2).bind_pure _

/-! ## Pagination -/

/-- The edge type of a connection with its `node` field, if the convention is followed. -/
def edgeOf? (schema : Schema) (t : SchemaType) : Option (SchemaType × SchemaField) := do
  let edges ← t.field? "edges"
  let reference ← edges.type.namedType.toOption
  let edge ← schema.resolve? reference
  let node ← edge.field? "node"
  return (edge, node)

/-- The references that the name of a type makes pagination look up. -/
inductive PaginationLookup (schema : Schema) (t : SchemaType) : SchemaType → Prop
  | edgeNode {edge : SchemaType} {node : SchemaField}
      (suffix : Text.endsWith (t.name.getD "") "Connection" = true)
      (found : edgeOf? schema t = some (edge, node)) : PaginationLookup schema t node.type
  | edgeType {edge : SchemaType} {node : SchemaField}
      (suffix : Text.endsWith (t.name.getD "") "Connection" = true)
      (found : edgeOf? schema t = some (edge, node)) : PaginationLookup schema t edge
  | nodes {nodes : SchemaField}
      (suffix : Text.endsWith (t.name.getD "") "Connection" = true)
      (without : edgeOf? schema t = none) (declared : t.field? "nodes" = some nodes) :
      PaginationLookup schema t nodes.type
  | node {node : SchemaField} (suffix : Text.endsWith (t.name.getD "") "Edge" = true)
      (declared : t.field? "node" = some node) : PaginationLookup schema t node.type

/-- A schema as a document describes it: every type has a name and is no wrapper, every field ends
in a type with a name, and references lead to interfaces and objects where they lead anywhere. -/
structure Schema.IsWellFormed (schema : Schema) : Prop where
  named : ∀ t ∈ schema.types, ∃ name, t.name = some name
  unwrapped : ∀ t ∈ schema.types, t.kind.isWrapper = false
  complete : ∀ t ∈ schema.types, ∀ f ∈ t.fields, f.type.IsComplete
  interfaces : ∀ t ∈ schema.types, ∀ reference ∈ t.interfaces, ∀ full,
    schema.resolve? reference = some full → full.kind = .interface
  members : ∀ t ∈ schema.types, ∀ reference ∈ t.possibleTypes, ∀ full,
    schema.resolve? reference = some full → full.kind = .object

theorem SchemaType.field?_mem (t : SchemaType) (name : String) (f : SchemaField)
    (found : t.field? name = some f) : f ∈ t.fields :=
  List.mem_of_find?_eq_some found

theorem nodeName_stops (options : Options) (field : SchemaField)
    (complete : field.type.IsComplete) :
    StopsUnder (nodeName options field) (options.Misses field.type none none) := by
  obtain ⟨bottom, _, reaches, unwrapped, _⟩ := complete.resolves
  have named := options.typeName_stops bottom none none unwrapped
  rw [nodeName, reaches]
  refine (named.bind_pure fun name => nameText name).congr ?_
  simp [Options.Misses, reaches]

section Pagination

variable (options : Options) (schema : Schema) (t : SchemaType)

theorem nodesCapability_stops (complete : ∀ f ∈ t.fields, f.type.IsComplete) :
    StopsUnder (nodesCapability options t).outcome
      (∃ nodes, t.field? "nodes" = some nodes ∧ options.Misses nodes.type none none) := by
  unfold nodesCapability
  cases found : t.field? "nodes" with
  | none => exact (failsUnder_ok none).congr (by simp)
  | some nodes =>
    have inside := complete nodes (t.field?_mem "nodes" nodes found)
    have reads := (nodeName_stops options nodes inside).bind_pure fun name =>
      some (Capability.mk .nodes name none)
    simpa using reads

theorem edgeOf?_mem (edge : SchemaType) (node : SchemaField)
    (found : edgeOf? schema t = some (edge, node)) : edge ∈ schema.types ∧ node ∈ edge.fields := by
  simp only [edgeOf?, Option.bind_eq_bind, Option.bind_eq_some_iff] at found
  obtain ⟨_, _, reference, _, other, resolved, field, declared, same⟩ := found
  cases same
  obtain ⟨name, _, listed⟩ := Option.bind_eq_some_iff.mp resolved
  exact ⟨(schema.find?_some name edge listed).2, edge.field?_mem "node" node declared⟩

/-- The edge type is what the edges refer to, if it has a node. -/
theorem edgeOf?_eq (edges : SchemaField) (declared : t.field? "edges" = some edges)
    (reference : SchemaType) (reaches : edges.type.namedType = .ok reference) :
    edgeOf? schema t =
      (schema.resolve? reference).bind fun edge => (edge.field? "node").map (edge, ·) := by
  simp only [edgeOf?, declared, reaches, Except.toOption, Option.bind_eq_bind, Option.bind_some,
    Option.map_eq_bind]
  rfl

/-- A connection looks up its edge type and the nodes of that, or else the nodes it gives itself. -/
theorem connectionCapability_stops (given : schema.IsWellFormed) (listed : t ∈ schema.types) :
    StopsUnder (connectionCapability options schema t).outcome
      ((∃ edge node, edgeOf? schema t = some (edge, node) ∧
          (options.Misses node.type none none ∨ options.Misses edge none none)) ∨
        edgeOf? schema t = none ∧
          ∃ nodes, t.field? "nodes" = some nodes ∧ options.Misses nodes.type none none) := by
  have byNodes := nodesCapability_stops options t (given.complete t listed)
  unfold connectionCapability
  cases declared : t.field? "edges" with
  | none =>
    have nothing : edgeOf? schema t = none := by simp [edgeOf?, declared]
    simpa [nothing] using byNodes
  | some edges =>
    have inside := given.complete t listed edges (t.field?_mem "edges" edges declared)
    obtain ⟨reference, _, reaches, _⟩ := inside.resolves
    simp only [Report.outcome_bind, Report.outcome_lift, reaches, ok_bind]
    rw [← edgeOf?_eq schema t edges declared reference reaches]
    -- Without an edge type the connection falls back on its own nodes.
    cases found : edgeOf? schema t with
    | none => simpa using byNodes
    | some pair =>
      rcases pair with ⟨edge, node⟩
      obtain ⟨isType, isField⟩ := edgeOf?_mem schema t edge node found
      have ofNode := nodeName_stops options node (given.complete edge isType node isField)
      obtain ⟨name, named⟩ := given.named edge isType
      have ofEdge : StopsUnder (options.plainTypeName edge) (options.Misses edge none none) := by
        refine (options.typeName_stops edge none none (given.unwrapped edge isType)).congr ?_
        simp [Options.Misses, edge.namedType_of_name name named]
      have both := ofNode.bind fun nodeType _ => ofEdge.bind_pure fun edgeType =>
        some (Capability.mk (if t.hasField "nodes" then .nodesAndEdges else .edges) nodeType
          (some (nameText edgeType)))
      simpa using both

theorem edgeCapability_stops (complete : ∀ f ∈ t.fields, f.type.IsComplete) :
    StopsUnder (edgeCapability options t)
      (∃ node, t.field? "node" = some node ∧ options.Misses node.type none none) := by
  unfold edgeCapability
  cases found : t.field? "node" with
  | none => exact (failsUnder_ok none).congr (by simp)
  | some node =>
    have inside := complete node (t.field?_mem "node" node found)
    have reads := (nodeName_stops options node inside).bind_pure fun name =>
      some (Capability.mk .edge name none)
    simpa using reads

theorem capabilities_stops (given : schema.IsWellFormed) (listed : t ∈ schema.types) :
    StopsUnder (capabilities options schema t).outcome
      (∃ reference, PaginationLookup schema t reference ∧ options.Misses reference none none) := by
  have ofConnection := connectionCapability_stops options schema t given listed
  have ofEdge := edgeCapability_stops options t (given.complete t listed)
  rw [outcome_capabilities]
  refine ((ofConnection.when _ none).bind fun _ _ => (ofEdge.when _ none).bind_pure _).congr ?_
  -- The four ways in which a type is looked up are the cases of `PaginationLookup`.
  constructor
  · rintro (⟨suffix, ⟨edge, node, found, ofNode | ofEdge⟩ | ⟨without, nodes, declared, ofNodes⟩⟩ |
      ⟨suffix, node, declared, ofNode⟩)
    · exact ⟨node.type, .edgeNode suffix found, ofNode⟩
    · exact ⟨edge, .edgeType suffix found, ofEdge⟩
    · exact ⟨nodes.type, .nodes suffix without declared, ofNodes⟩
    · exact ⟨node.type, .node suffix declared, ofNode⟩
  · rintro ⟨reference, looked, misses⟩
    cases looked with
    | @edgeNode edge node suffix found =>
      exact .inl ⟨suffix, .inl ⟨edge, node, found, .inl misses⟩⟩
    | @edgeType edge node suffix found =>
      exact .inl ⟨suffix, .inl ⟨reference, node, found, .inr misses⟩⟩
    | @nodes nodes suffix without declared =>
      exact .inl ⟨suffix, .inr ⟨without, nodes, declared, misses⟩⟩
    | @node node suffix declared => exact .inr ⟨suffix, node, declared, misses⟩

end Pagination

/-! ## Definitions -/

/-- The fields that the definition of a type is emitted with: those of an object, those of an
interface that no parent declares, and those that all members of a union declare alike. -/
inductive EmitsField (options : Options) (schema : Schema) (t : SchemaType) : SchemaField → Prop
  | object {f : SchemaField} (kind : t.kind = .object) (kept : options.skips t.name = false)
      (declared : f ∈ t.fields) : EmitsField options schema t f
  | interface {f : SchemaField} (kind : t.kind = .interface) (kept : options.skips t.name = false)
      (own : f ∈ ownFields t (schema.parentsOf t)) : EmitsField options schema t f
  | union {f : SchemaField} {first : SchemaType} (kind : t.kind = .union)
      (kept : options.skips t.name = false) (leads : first ∈ (schema.membersOf t).head?)
      (declared : f ∈ first.fields)
      (shared : ∀ member ∈ schema.membersOf t, ∃ own ∈ member.fields, own.name = f.name ∧
        own.type.resolvedName options = f.type.resolvedName options) :
      EmitsField options schema t f

/-- The references that are looked up for the definition of a type without regard to a field. -/
inductive LooksUp (options : Options) (schema : Schema) (t : SchemaType) : SchemaType → Prop
  | member {member : SchemaType} {f : SchemaField} (kind : t.kind = .union)
      (kept : options.skips t.name = false) (isMember : member ∈ schema.membersOf t)
      (declared : f ∈ member.fields) : LooksUp options schema t f.type
  | pagination {reference : SchemaType} (kind : t.kind = .object)
      (kept : options.skips t.name = false) (looked : PaginationLookup schema t reference) :
      LooksUp options schema t reference

/-- Whether a scalar without a target stops the definition of a type. -/
def Stops (options : Options) (schema : Schema) (t : SchemaType) : Prop :=
  (∃ f, EmitsField options schema t f ∧ options.Misses f.type t.name f.name) ∨
    ∃ reference, LooksUp options schema t reference ∧ options.Misses reference none none

section Definitions

variable (options : Options) (schema : Schema) (t : SchemaType)

theorem membersOf_named (given : schema.IsWellFormed) (listed : t ∈ schema.types) :
    ∀ member ∈ schema.membersOf t, member ∈ schema.types ∧
      member.kind.isWrapper = false ∧ member.kind ≠ .scalar := by
  intro member isMember
  obtain ⟨name, ⟨reference, isReference, names⟩, found⟩ := (schema.mem_membersOf t member).mp isMember
  have isType := (schema.find?_some name member found).2
  have kind := given.members t listed reference isReference member (by
    rw [Schema.resolve?, names, Option.bind_some, found])
  exact ⟨isType, given.unwrapped member isType, by rw [kind]; decide⟩

theorem parentsOf_named (given : schema.IsWellFormed) (listed : t ∈ schema.types) :
    ∀ parent ∈ schema.parentsOf t, parent.kind.isWrapper = false ∧ parent.kind ≠ .scalar := by
  intro parent isParent
  obtain ⟨name, ⟨reference, isReference, names⟩, found⟩ := (schema.mem_parentsOf t parent).mp isParent
  have kind := given.interfaces t listed reference isReference parent (by
    rw [Schema.resolve?, names, Option.bind_some, found])
  exact ⟨given.unwrapped parent (schema.find?_some name parent found).2, by rw [kind]; decide⟩

theorem emitUnion_stops (given : schema.IsWellFormed) (listed : t ∈ schema.types) :
    StopsUnder (emitUnion options schema t).outcome (∃ member ∈ schema.membersOf t,
      ∃ f ∈ member.fields, options.Misses f.type none none) := by
  have members := membersOf_named schema t given listed
  have common := commonFields_stops options (schema.membersOf t) fun member isMember =>
    given.complete member (members member isMember).1
  have named := targetNames_stops options (schema.membersOf t) fun member isMember =>
    (members member isMember).2
  -- A field that the members share has a target in each of them, and so in the union.
  have fields : ∀ shared, commonFields options (schema.membersOf t) = .ok shared →
      StopsUnder (emitFields options t.name false shared) False := by
    intro shared given'
    have fromMember : ∀ f ∈ shared, ∃ member ∈ schema.membersOf t, f ∈ member.fields :=
      commonFields_from options (schema.membersOf t) shared given'
    refine (emitFields_stops options t.name false shared ?_).congr ?_
    · intro f isShared
      obtain ⟨member, isMember, declared⟩ := fromMember f isShared
      exact given.complete member (members member isMember).1 f declared
    · simp only [iff_false, not_exists, not_and]
      intro f isShared misses
      obtain ⟨member, isMember, declared⟩ := fromMember f isShared
      have failed := common.fails.mpr ⟨member, isMember, f, declared, misses.bare⟩
      rw [given'] at failed
      exact not_fails_ok shared failed
  simp only [emitUnion, Report.outcome_bind, Schema.outcome_possibleTypesOf, Report.outcome_lift,
    Report.outcome_pure, ok_bind]
  refine (common.bind fun shared given' => (fields shared given').bind fun _ _ =>
    named.bind_pure _).congr ?_
  simp

theorem emitInterface_stops (given : schema.IsWellFormed) (listed : t ∈ schema.types) :
    StopsUnder (emitInterface options schema t).outcome
      (∃ f ∈ ownFields t (schema.parentsOf t), options.Misses f.type t.name f.name) := by
  have members := targetNames_stops options (schema.membersOf t) fun member isMember =>
    (membersOf_named schema t given listed member isMember).2
  have parents := targetNames_stops options (schema.parentsOf t)
    (parentsOf_named schema t given listed)
  have fields := emitFields_stops options t.name true (ownFields t (schema.parentsOf t))
    fun f own => given.complete t listed f (List.mem_of_mem_filter own)
  simp only [emitInterface, Report.outcome_bind, Schema.outcome_possibleTypesOf,
    Schema.outcome_interfacesOf, ok_bind]
  split
  · simp only [Report.outcome_bind, Report.outcome_lift, Report.outcome_pure]
    refine (members.bind fun _ _ => fields.bind fun _ _ => parents.bind fun _ _ =>
      members.bind_pure _).congr ?_
    simp
  · simp only [Report.outcome_bind, Report.outcome_lift, Report.outcome_pure, ok_bind]
    refine (fields.bind fun _ _ => parents.bind fun _ _ => members.bind_pure _).congr ?_
    simp

theorem emitObject_stops (given : schema.IsWellFormed) (listed : t ∈ schema.types) :
    StopsUnder (emitObject options schema t).outcome
      ((∃ f ∈ t.fields, options.Misses f.type t.name f.name) ∨
        ∃ reference, PaginationLookup schema t reference ∧ options.Misses reference none none) := by
  have parents := targetNames_stops options (schema.parentsOf t)
    (parentsOf_named schema t given listed)
  have fields := emitFields_stops options t.name false t.fields (given.complete t listed)
  have found := capabilities_stops options schema t given listed
  simp only [emitObject, Report.outcome_bind, Schema.outcome_interfacesOf, Report.outcome_lift,
    Report.outcome_pure, ok_bind]
  refine (parents.bind fun _ _ => fields.bind fun _ _ => found.bind_pure _).congr ?_
  simp

/-- Only objects, interfaces and unions that are not skipped are stopped. -/
theorem Stops.emitted {options : Options} {schema : Schema} {t : SchemaType}
    (stops : Stops options schema t) : options.skips t.name = false ∧
      (t.kind = .object ∨ t.kind = .interface ∨ t.kind = .union) := by
  rcases stops with ⟨_, ⟨kind, kept⟩ | ⟨kind, kept⟩ | ⟨kind, kept⟩, _⟩ |
    ⟨_, ⟨kind, kept⟩ | ⟨kind, kept⟩, _⟩ <;>
    simp [kind, kept]

theorem stops_object_iff (kind : t.kind = .object) (kept : options.skips t.name = false) :
    Stops options schema t ↔ (∃ f ∈ t.fields, options.Misses f.type t.name f.name) ∨
      ∃ reference, PaginationLookup schema t reference ∧ options.Misses reference none none := by
  constructor
  · rintro (⟨f, ⟨_, _, declared⟩ | ⟨other⟩ | ⟨other⟩, misses⟩ |
      ⟨reference, ⟨other⟩ | ⟨_, _, looked⟩, misses⟩)
    · exact .inl ⟨f, declared, misses⟩
    · cases kind.symm.trans other
    · cases kind.symm.trans other
    · cases kind.symm.trans other
    · exact .inr ⟨reference, looked, misses⟩
  · rintro (⟨f, declared, misses⟩ | ⟨reference, looked, misses⟩)
    · exact .inl ⟨f, .object kind kept declared, misses⟩
    · exact .inr ⟨reference, .pagination kind kept looked, misses⟩

theorem stops_interface_iff (kind : t.kind = .interface) (kept : options.skips t.name = false) :
    Stops options schema t ↔
      ∃ f ∈ ownFields t (schema.parentsOf t), options.Misses f.type t.name f.name := by
  constructor
  · rintro (⟨f, ⟨other⟩ | ⟨_, _, own⟩ | ⟨other⟩, misses⟩ | ⟨_, ⟨other⟩ | ⟨other⟩, _⟩)
    · cases kind.symm.trans other
    · exact ⟨f, own, misses⟩
    · cases kind.symm.trans other
    · cases kind.symm.trans other
    · cases kind.symm.trans other
  · rintro ⟨f, own, misses⟩
    exact .inl ⟨f, .interface kind kept own, misses⟩

/-- What stops a union is a scalar in any field of a member: a field of the union is one of these. -/
theorem stops_union_iff (kind : t.kind = .union) (kept : options.skips t.name = false) :
    Stops options schema t ↔ ∃ member ∈ schema.membersOf t, ∃ f ∈ member.fields,
      options.Misses f.type none none := by
  constructor
  · rintro (⟨f, ⟨other⟩ | ⟨other⟩ | ⟨_, _, leads, declared⟩, misses⟩ |
      ⟨_, ⟨_, _, isMember, declared⟩ | ⟨other⟩, misses⟩)
    · cases kind.symm.trans other
    · cases kind.symm.trans other
    · exact ⟨_, List.mem_of_mem_head? leads, f, declared, misses.bare⟩
    · exact ⟨_, isMember, _, declared, misses⟩
    · cases kind.symm.trans other
  · rintro ⟨member, isMember, f, declared, misses⟩
    exact .inr ⟨f.type, .member kind kept isMember declared, misses⟩

/-- The definition of a type is stopped by its own scalars and by nothing else. -/
theorem emitType_stops (given : schema.IsWellFormed) (listed : t ∈ schema.types) :
    StopsUnder (emitType options schema t).outcome (Stops options schema t) := by
  have unwrapped := given.unwrapped t listed
  have silent : ∀ found : Option Definition, ¬Stops options schema t →
      StopsUnder (.ok found) (Stops options schema t) :=
    fun found never => (failsUnder_ok found).congr (iff_of_false not_false never)
  unfold emitType
  by_cases skipped : options.skips t.name = true
  · -- A type that is skipped gives nothing, whatever its fields are.
    have never : ¬Stops options schema t := fun stops => by
      rw [stops.emitted.1] at skipped
      cases skipped
    cases kind : t.kind with
    | list | nonNull =>
      rw [kind] at unwrapped
      cases unwrapped
    | _ => simpa [skipped] using silent none never
  · have kept : options.skips t.name = false := by simpa using skipped
    cases kind : t.kind with
    | list | nonNull =>
      rw [kind] at unwrapped
      cases unwrapped
    | scalar | inputObject | «enum» =>
      have never : ¬Stops options schema t := fun stops => by
        have emitted := stops.emitted.2
        simp [kind] at emitted
      simpa [kept] using silent _ never
    | object =>
      have stops := (emitObject_stops options schema t given listed).congr
        (stops_object_iff options schema t kind kept).symm
      simpa [kept] using stops.bind_pure fun d => some (Definition.object d)
    | interface =>
      have stops := (emitInterface_stops options schema t given listed).congr
        (stops_interface_iff options schema t kind kept).symm
      simpa [kept] using stops.bind_pure fun d => some (Definition.contract d)
    | union =>
      have stops := (emitUnion_stops options schema t given listed).congr
        (stops_union_iff options schema t kind kept).symm
      simpa [kept] using stops.bind_pure fun d => some (Definition.contract d)

end Definitions

/-- Emission ends in an error about a scalar exactly if some scalar stops the definition of a type. -/
theorem emit_unknownScalar_iff (options : Options) (schema : Schema)
    (given : schema.IsWellFormed) :
    (∃ scalar type field,
        (emit options schema).outcome = .error (.unknownScalar scalar type field)) ↔
      (∃ t ∈ schema.types, ∃ f, EmitsField options schema t f ∧
          options.Misses f.type t.name f.name) ∨
        ∃ t ∈ schema.types, ∃ reference, LooksUp options schema t reference ∧
          options.Misses reference none none := by
  have stops : StopsUnder (emit options schema).outcome
      (∃ t ∈ schema.types, Stops options schema t) := by
    rw [emit_outcome]
    exact (failsUnder_mapM _ _ _ fun t listed =>
      emitType_stops options schema t given listed).map _
  have unknown : (∃ scalar type field,
      (emit options schema).outcome = .error (.unknownScalar scalar type field)) ↔
      Fails (emit options schema).outcome := by
    constructor
    · rintro ⟨scalar, type, field, failed⟩
      exact ⟨_, failed⟩
    · rintro ⟨e, failed⟩
      obtain ⟨scalar, type, field, rfl⟩ := stops.sorted e failed
      exact ⟨scalar, type, field, failed⟩
  rw [unknown, stops.fails]
  simp only [Stops, and_or_left, exists_or]

/-! ## A scalar that overrides cover everywhere -/

/-- A field whose type is a scalar that nothing is configured for. -/
def startField : SchemaField :=
  { name := some "at", type := { kind := .scalar, name := some "DateTime" } }

/-- A union of one member with such a field. -/
def calendarSchema : Schema where
  types := [
    { kind := .union, name := some "Entry"
      possibleTypes := [{ kind := .object, name := some "Meeting" }] },
    { kind := .object, name := some "Meeting", fields := [startField] }]

/-- Options that override the field wherever it is emitted. -/
def calendarOptions : Options where
  moduleName := "calendar"
  overrides := [(("Meeting", "at"), "datetime"), (("Entry", "at"), "datetime")]

theorem startField_complete : startField.type.IsComplete :=
  .named rfl rfl

theorem calendarSchema_isWellFormed : calendarSchema.IsWellFormed := by
  constructor <;> simp only [calendarSchema, List.forall_mem_cons, List.not_mem_nil, false_imp_iff,
    implies_true, and_true]
  · exact ⟨⟨_, rfl⟩, _, rfl⟩
  · decide
  · exact ⟨trivial, startField_complete⟩
  · rintro full resolved
    cases resolved
    rfl

/-- Every field of the calendar is covered. -/
theorem calendar_covered : ¬∃ t ∈ calendarSchema.types, ∃ f,
    EmitsField calendarOptions calendarSchema t f ∧
      calendarOptions.Misses f.type t.name f.name := by
  rintro ⟨t, listed, f, emits, bottom, _, _, free, _⟩
  simp only [calendarSchema, List.mem_cons, List.not_mem_nil, or_false] at listed
  rcases listed with rfl | rfl
  · cases emits with
    | object kind => cases kind
    | interface kind => cases kind
    | union kind kept leads declared =>
      cases leads
      cases List.mem_singleton.mp declared
      cases free
  · cases emits with
    | object kind kept declared =>
      cases List.mem_singleton.mp declared
      cases free
    | interface kind => cases kind
    | union kind => cases kind

theorem calendar_stopped : (emit calendarOptions calendarSchema).outcome =
    .error (.unknownScalar (some "DateTime") none none) := rfl

/-- What stops the calendar is a scalar that is looked up by itself. -/
theorem emit_unknownScalar_iff_calendar :
    ∃ t ∈ calendarSchema.types, ∃ reference, LooksUp calendarOptions calendarSchema t reference ∧
      calendarOptions.Misses reference none none := by
  rcases (emit_unknownScalar_iff calendarOptions calendarSchema calendarSchema_isWellFormed).mp
    ⟨_, _, _, calendar_stopped⟩ with field | bare
  · exact absurd field calendar_covered
  · exact bare

/-- Overrides for every emitted use of a scalar need not keep it from stopping emission. -/
theorem covered_scalar_may_stop :
    ¬∀ (options : Options) (schema : Schema), schema.IsWellFormed →
      ((∃ scalar type field,
          (emit options schema).outcome = .error (.unknownScalar scalar type field)) ↔
        ∃ t ∈ schema.types, ∃ f, EmitsField options schema t f ∧
          options.Misses f.type t.name f.name) := by
  intro covers
  exact calendar_covered ((covers calendarOptions calendarSchema calendarSchema_isWellFormed).mp
    ⟨_, _, _, calendar_stopped⟩)

end GraphQLModels
