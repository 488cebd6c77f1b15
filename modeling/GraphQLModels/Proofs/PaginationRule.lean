import GraphQLModels.Proofs.EscapedNames
import GraphQLModels.Proofs.NodeTypes
import Mathlib.Data.List.Find

/-!
# The rule of pagination

What the name and the fields of a type imply is a decision between five cases that leave nothing
open and do not overlap: edges that lead to a node, with or without nodes beside them, nodes alone,
the node of an edge, or nothing. Where all references are complete and all scalars have targets,
detection never fails and gives what the case of the type says. A connection whose edges lead to no
node is reported, and is then taken for what it would be without its edges.
-/

namespace GraphQLModels

/-! ## Names -/

namespace SchemaType

/-- Whether the name of a type ends in a word. -/
def IsCalled (t : SchemaType) (word : String) : Prop := ∃ stem, t.name = some (stem ++ word)

theorem isCalled_iff (t : SchemaType) (word : String) (nonempty : word ≠ "") :
    t.IsCalled word ↔ Text.endsWith (t.name.getD "") word = true := by
  rw [Text.endsWith_iff, IsCalled]
  cases t.name with
  | some name => simp
  | none =>
    refine iff_of_false (by simp) ?_
    rintro ⟨stem, joined⟩
    have letters := congrArg String.toList joined
    rw [Option.getD_none, String.toList_append] at letters
    exact nonempty (String.toList_inj.mp (List.append_eq_nil_iff.mp letters.symm).2)

/-- No name ends in both words of the convention. -/
theorem not_isCalled_both (t : SchemaType) (isConnection : t.IsCalled "Connection") :
    ¬t.IsCalled "Edge" := by
  obtain ⟨stem, named⟩ := isConnection
  rintro ⟨other, named'⟩
  rw [named, Option.some_inj] at named'
  -- One word ends in another letter than the other.
  have last := congrArg (fun s => s.toList.getLast?) named'
  simp [String.toList_append] at last

/-! ## First fields -/

/-- Whether a field is the first one of a type that has a name. -/
def FirstField (t : SchemaType) (name : String) (f : SchemaField) : Prop :=
  ∃ before after, t.fields = before ++ f :: after ∧ f.name = some name ∧
    ∀ g ∈ before, g.name ≠ some name

/-- Whether a type has a field of a name. -/
def Declares (t : SchemaType) (name : String) : Prop := ∃ f ∈ t.fields, f.name = some name

theorem field?_eq_some_iff (t : SchemaType) (name : String) (f : SchemaField) :
    t.field? name = some f ↔ t.FirstField name f := by
  rw [field?, List.find?_eq_some_iff_append, FirstField]
  constructor
  · rintro ⟨named, before, after, fields, others⟩
    exact ⟨before, after, fields, by simpa using named, by simpa using others⟩
  · rintro ⟨before, after, fields, named, others⟩
    exact ⟨by simpa using named, before, after, fields, by simpa using others⟩

theorem field?_eq_none_iff (t : SchemaType) (name : String) :
    t.field? name = none ↔ ¬t.Declares name := by
  simp [field?, Declares]

theorem hasField_iff (t : SchemaType) (name : String) : t.hasField name = true ↔ t.Declares name := by
  simp [hasField, field?, Declares]

theorem Declares.exists_first {t : SchemaType} {name : String} (declares : t.Declares name) :
    ∃ f, t.FirstField name f := by
  rw [← hasField_iff, hasField, Option.isSome_iff_exists] at declares
  simpa only [field?_eq_some_iff] using declares

theorem FirstField.declares {t : SchemaType} {name : String} {f : SchemaField}
    (first : t.FirstField name f) : t.Declares name := by
  obtain ⟨before, after, fields, named, _⟩ := first
  exact ⟨f, by simp [fields], named⟩

theorem FirstField.unique {t : SchemaType} {name : String} {f g : SchemaField}
    (first : t.FirstField name f) (other : t.FirstField name g) : f = g := by
  rw [← field?_eq_some_iff] at first other
  exact Option.some.inj (first.symm.trans other)

/-- The target name of the named type inside the wrappers of a reference, outside of any field. -/
def HasTarget (options : Options) (t : SchemaType) (name : String) : Prop :=
  ∃ bottom, t.namedType = .ok bottom ∧ options.plainTypeName bottom = .ok (some name)

/-- A complete reference to anything but a scalar without a target has a target name. -/
theorem IsComplete.exists_target {t : SchemaType} (complete : t.IsComplete) (options : Options)
    (known : ¬options.Misses t none none) : ∃ name, t.HasTarget options name := by
  obtain ⟨bottom, _, reaches, unwrapped, hasName, _⟩ := complete.resolves
  have stops := options.typeName_stops bottom none none unwrapped
  have given : ¬Outcome.Fails (options.typeName bottom none none) := by
    rw [stops.fails]
    rintro ⟨scalar, free, unknown⟩
    exact known ⟨bottom, reaches, scalar, free, unknown⟩
  obtain ⟨target, named⟩ := (Outcome.not_fails_iff _).mp given
  obtain ⟨name, rfl⟩ := Option.isSome_iff_exists.mp
    (options.typeName_isSome bottom none none target hasName named)
  exact ⟨name, bottom, reaches, named⟩

end SchemaType

/-! ## The cases of the convention -/

/-- What a type is taken for, with the fields and types that its nodes come from. -/
inductive Convention where
  | edges (edge : SchemaType) (node : SchemaField)
  | nodesAndEdges (edge : SchemaType) (node : SchemaField)
  | nodes (nodes : SchemaField)
  | edge (node : SchemaField)
  | nothing

/-- Whether the first edges of a type end in the name of a table entry, and this has a node. -/
def Schema.LeadsToNode (schema : Schema) (t edge : SchemaType) (node : SchemaField) : Prop :=
  ∃ edges reference, t.FirstField "edges" edges ∧ edges.type.namedType = .ok reference ∧
    schema.resolve? reference = some edge ∧ edge.FirstField "node" node

/-- Whether a type has edges, but none that lead to a node. -/
def Schema.LacksNode (schema : Schema) (t : SchemaType) : Prop :=
  t.Declares "edges" ∧ ¬∃ edge node, schema.LeadsToNode t edge node

/-- Whether a type is in a case of the convention. -/
inductive Schema.Follows (schema : Schema) (t : SchemaType) : Convention → Prop
  | edges {edge : SchemaType} {node : SchemaField} (isConnection : t.IsCalled "Connection")
      (leads : schema.LeadsToNode t edge node) (alone : ¬t.Declares "nodes") :
      Follows schema t (.edges edge node)
  | nodesAndEdges {edge : SchemaType} {node : SchemaField} (isConnection : t.IsCalled "Connection")
      (leads : schema.LeadsToNode t edge node) (beside : t.Declares "nodes") :
      Follows schema t (.nodesAndEdges edge node)
  | nodes {nodes : SchemaField} (isConnection : t.IsCalled "Connection")
      (without : ¬∃ edge node, schema.LeadsToNode t edge node) (first : t.FirstField "nodes" nodes) :
      Follows schema t (.nodes nodes)
  | edge {node : SchemaField} (isEdge : t.IsCalled "Edge") (first : t.FirstField "node" node) :
      Follows schema t (.edge node)
  | nothing
      (noConnection : t.IsCalled "Connection" →
        (¬∃ edge node, schema.LeadsToNode t edge node) ∧ ¬t.Declares "nodes")
      (noEdge : t.IsCalled "Edge" → ¬t.Declares "node") : Follows schema t .nothing

/-- Whether something is the capability that a case gives, with its target names. -/
inductive Convention.Gives (options : Options) : Convention → Option Capability → Prop
  | edges {edge : SchemaType} {node : SchemaField} {nodeType edgeType : String}
      (ofNode : node.type.HasTarget options nodeType) (ofEdge : edge.HasTarget options edgeType) :
      Gives options (.edges edge node) (some { kind := .edges, nodeType, edgeType := some edgeType })
  | nodesAndEdges {edge : SchemaType} {node : SchemaField} {nodeType edgeType : String}
      (ofNode : node.type.HasTarget options nodeType) (ofEdge : edge.HasTarget options edgeType) :
      Gives options (.nodesAndEdges edge node)
        (some { kind := .nodesAndEdges, nodeType, edgeType := some edgeType })
  | nodes {nodes : SchemaField} {nodeType : String}
      (ofNodes : nodes.type.HasTarget options nodeType) :
      Gives options (.nodes nodes) (some { kind := .nodes, nodeType })
  | edge {node : SchemaField} {nodeType : String} (ofNode : node.type.HasTarget options nodeType) :
      Gives options (.edge node) (some { kind := .edge, nodeType })
  | nothing : Gives options .nothing none

section

variable {schema : Schema} {t : SchemaType}

theorem Schema.leadsToNode_iff (edge : SchemaType) (node : SchemaField) :
    schema.LeadsToNode t edge node ↔ edgeOf? schema t = some (edge, node) := by
  simp only [edgeOf?, Option.bind_eq_bind, Option.bind_eq_some_iff, LeadsToNode,
    SchemaType.field?_eq_some_iff]
  constructor
  · rintro ⟨edges, reference, first, reaches, resolved, declared⟩
    exact ⟨edges, first, reference, by rw [reaches]; rfl, edge, resolved, node, declared, rfl⟩
  · rintro ⟨edges, first, reference, reaches, other, resolved, field, declared, same⟩
    cases same
    refine ⟨edges, reference, first, ?_, resolved, declared⟩
    cases found : edges.type.namedType with
    | error e => simp [found, Except.toOption] at reaches
    | ok bottom => simpa [found, Except.toOption] using reaches

theorem Schema.not_leadsToNode_iff :
    (¬∃ edge node, schema.LeadsToNode t edge node) ↔ edgeOf? schema t = none := by
  simp only [leadsToNode_iff, Option.eq_none_iff_forall_ne_some, Prod.forall, not_exists, ne_eq]

/-- Every type is in one case of the convention. -/
theorem Schema.exists_follows (schema : Schema) (t : SchemaType) :
    ∃ convention, schema.Follows t convention := by
  by_cases isConnection : t.IsCalled "Connection"
  · have noEdge := t.not_isCalled_both isConnection
    by_cases leads : ∃ edge node, schema.LeadsToNode t edge node
    · obtain ⟨edge, node, leads⟩ := leads
      by_cases beside : t.Declares "nodes"
      · exact ⟨_, .nodesAndEdges isConnection leads beside⟩
      · exact ⟨_, .edges isConnection leads beside⟩
    · by_cases declared : t.Declares "nodes"
      · obtain ⟨nodes, first⟩ := declared.exists_first
        exact ⟨_, .nodes isConnection leads first⟩
      · exact ⟨_, .nothing (fun _ => ⟨leads, declared⟩) fun isEdge => absurd isEdge noEdge⟩
  · by_cases given : t.IsCalled "Edge" ∧ t.Declares "node"
    · obtain ⟨isEdge, declared⟩ := given
      obtain ⟨node, first⟩ := declared.exists_first
      exact ⟨_, .edge isEdge first⟩
    · exact ⟨_, .nothing (fun named => absurd named isConnection) fun isEdge declared =>
        given ⟨isEdge, declared⟩⟩

theorem Schema.LeadsToNode.unique {edge other : SchemaType} {node field : SchemaField}
    (leads : schema.LeadsToNode t edge node) (again : schema.LeadsToNode t other field) :
    edge = other ∧ node = field := by
  rw [leadsToNode_iff] at leads again
  exact Prod.ext_iff.mp (Option.some.inj (leads.symm.trans again))

/-- No type is in two cases. -/
theorem Schema.Follows.unique {one other : Convention} (follows : schema.Follows t one)
    (again : schema.Follows t other) : one = other := by
  cases follows <;> cases again <;>
    grind [SchemaType.not_isCalled_both, SchemaType.FirstField.unique,
      SchemaType.FirstField.declares, LeadsToNode.unique]

end

/-! ## What detection reports -/

/-- The type without any field for its edges. -/
def SchemaType.withoutEdges (t : SchemaType) : SchemaType :=
  { t with fields := t.fields.filter fun f => f.name != some "edges" }

theorem SchemaType.not_declares_withoutEdges (t : SchemaType) : ¬t.withoutEdges.Declares "edges" := by
  rintro ⟨f, kept, named⟩
  simp [withoutEdges, named] at kept

theorem SchemaType.field?_withoutEdges (t : SchemaType) (name : String) (other : name ≠ "edges") :
    t.withoutEdges.field? name = t.field? name := by
  rw [field?, withoutEdges, List.find?_filter, field?]
  refine List.find?_congr fun f _ => ?_
  by_cases named : f.name = some name <;> simp [named, other]

section

variable {options : Options} {schema : Schema} {t : SchemaType}

theorem nodeName_of_target {f : SchemaField} {name : String}
    (target : f.type.HasTarget options name) : nodeName options f = .ok name := by
  obtain ⟨bottom, reaches, named⟩ := target
  rw [nodeName, reaches, Outcome.ok_bind, named, Outcome.ok_bind]
  rfl

theorem nodesCapability_of_first {nodes : SchemaField} {name : String}
    (first : t.FirstField "nodes" nodes) (target : nodes.type.HasTarget options name) :
    nodesCapability options t = pure (some { kind := .nodes, nodeType := name }) := by
  rw [nodesCapability, (t.field?_eq_some_iff _ _).mpr first]
  simp only [nodeName_of_target target]
  rfl

theorem nodesCapability_of_none (undeclared : ¬t.Declares "nodes") :
    (nodesCapability options t).outcome = .ok none := by
  rw [nodesCapability, (t.field?_eq_none_iff _).mpr undeclared]
  rfl

theorem nodesCapability_silent : (nodesCapability options t).warnings = [] := by
  unfold nodesCapability
  split
  · rfl
  · rename_i nodes _
    cases found : nodeName options nodes with
    | error e => rfl
    | ok name => rfl

theorem nodesCapability_withoutEdges :
    nodesCapability options t.withoutEdges = nodesCapability options t := by
  rw [nodesCapability, nodesCapability, t.field?_withoutEdges "nodes" (by decide)]
  rfl

theorem connectionCapability_of_undeclared (undeclared : ¬t.Declares "edges") :
    connectionCapability options schema t = nodesCapability options t := by
  rw [connectionCapability, (t.field?_eq_none_iff _).mpr undeclared]

theorem connectionCapability_of_leads {edge : SchemaType} {node : SchemaField}
    {nodeType edgeType : String} (leads : schema.LeadsToNode t edge node)
    (ofNode : node.type.HasTarget options nodeType) (ofEdge : edge.HasTarget options edgeType) :
    connectionCapability options schema t = pure (some {
      kind := if t.hasField "nodes" then .nodesAndEdges else .edges
      nodeType, edgeType := some edgeType }) := by
  obtain ⟨edges, reference, first, reaches, resolved, declared⟩ := leads
  have named : options.plainTypeName edge = .ok (some edgeType) := by
    obtain ⟨name, _, found⟩ := Option.bind_eq_some_iff.mp resolved
    obtain ⟨bottom, itself, named⟩ := ofEdge
    rw [edge.namedType_of_name name (schema.find?_some name edge found).1] at itself
    cases itself
    exact named
  rw [connectionCapability, (t.field?_eq_some_iff _ _).mpr first]
  simp only [reaches, Report.lift_ok_bind, resolved,
    (edge.field?_eq_some_iff _ _).mpr declared, Option.bind_some, Option.map_some,
    nodeName_of_target ofNode, named]
  rfl

theorem connectionCapability_of_lacks (lacks : schema.LacksNode t) (edges : SchemaField)
    (first : t.FirstField "edges" edges) (reference : SchemaType)
    (reaches : edges.type.namedType = .ok reference) :
    connectionCapability options schema t =
      (Report.warn (.edgeWithoutNode (nameText t.name) (nameText reference.name)) >>= fun _ =>
        nodesCapability options t) := by
  have declared := (t.field?_eq_some_iff _ _).mpr first
  have without := (edgeOf?_eq schema t edges declared reference reaches).symm.trans
    (Schema.not_leadsToNode_iff.mp lacks.2)
  rw [connectionCapability, declared]
  simp only [reaches, Report.lift_ok_bind, without]

theorem capabilities_of_connection (isConnection : t.IsCalled "Connection") :
    capabilities options schema t = Option.toList <$> connectionCapability options schema t := by
  have noEdge := t.not_isCalled_both isConnection
  rw [t.isCalled_iff _ (by decide)] at isConnection noEdge
  simp [capabilities, isConnection, noEdge]

theorem capabilities_of_edge (isEdge : t.IsCalled "Edge") :
    capabilities options schema t = Option.toList <$> liftM (edgeCapability options t) := by
  have noConnection : ¬t.IsCalled "Connection" := fun named => t.not_isCalled_both named isEdge
  rw [t.isCalled_iff _ (by decide)] at isEdge noConnection
  simp [capabilities, isEdge, noConnection]

theorem capabilities_of_other (noConnection : ¬t.IsCalled "Connection")
    (noEdge : ¬t.IsCalled "Edge") : capabilities options schema t = pure [] := by
  rw [t.isCalled_iff _ (by decide)] at noConnection noEdge
  simp [capabilities, noConnection, noEdge]

end

/-! ## The rule -/

/-- Whether all references are complete, those of the fields of a type and of a schema, no wrapper
has a name, and every scalar has a target, in a field as well as in the table. -/
structure Schema.HasTargets (options : Options) (schema : Schema) (t : SchemaType) : Prop where
  complete : ∀ u ∈ t :: schema.types, ∀ f ∈ u.fields, f.type.IsComplete
  unnamed : ∀ u ∈ schema.types, u.kind.isWrapper = true → u.name = none
  fields : ∀ u ∈ t :: schema.types, ∀ f ∈ u.fields, ¬options.Misses f.type none none
  entries : ∀ u ∈ schema.types, ¬options.Misses u none none

section

variable {options : Options} {schema : Schema} {t : SchemaType} (known : schema.HasTargets options t)

include known

theorem Schema.HasTargets.field (u : SchemaType) (isOwner : u ∈ t :: schema.types) (name : String)
    (f : SchemaField) (first : u.FirstField name f) :
    ∃ target, f.type.HasTarget options target := by
  have declared := u.field?_mem name f ((u.field?_eq_some_iff name f).mpr first)
  exact (known.complete u isOwner f declared).exists_target options
    (known.fields u isOwner f declared)

theorem Schema.HasTargets.edges (edges : SchemaField) (first : t.FirstField "edges" edges) :
    ∃ reference, edges.type.namedType = .ok reference := by
  have declared := t.field?_mem "edges" edges ((t.field?_eq_some_iff _ _).mpr first)
  obtain ⟨reference, _, reaches, _⟩ :=
    (known.complete t List.mem_cons_self edges declared).resolves
  exact ⟨reference, reaches⟩

/-- Where edges lead to a node, both have targets. -/
theorem Schema.HasTargets.edge (edge : SchemaType) (node : SchemaField)
    (leads : schema.LeadsToNode t edge node) :
    (∃ target, node.type.HasTarget options target) ∧ ∃ target, edge.HasTarget options target := by
  obtain ⟨_, reference, _, _, resolved, first⟩ := leads
  obtain ⟨name, _, found⟩ := Option.bind_eq_some_iff.mp resolved
  obtain ⟨named, listed⟩ := schema.find?_some name edge found
  refine ⟨known.field edge (List.mem_cons_of_mem t listed) "node" node first, ?_⟩
  have unwrapped : edge.kind.isWrapper = false := by
    rw [← Bool.not_eq_true]
    intro wrapper
    rw [known.unnamed edge listed wrapper] at named
    cases named
  exact (SchemaType.IsComplete.named unwrapped named).exists_target options
    (known.entries edge listed)

/-- A type whose edges lead to no node is taken for what it is by its nodes. -/
theorem Schema.HasTargets.byNodes (without : ¬∃ edge node, schema.LeadsToNode t edge node) :
    (connectionCapability options schema t).outcome = (nodesCapability options t).outcome := by
  by_cases declared : t.Declares "edges"
  · obtain ⟨edges, first⟩ := declared.exists_first
    obtain ⟨reference, reaches⟩ := known.edges edges first
    rw [connectionCapability_of_lacks ⟨declared, without⟩ edges first reference reaches,
      Report.outcome_bind, Report.outcome_warn, Outcome.ok_bind]
  · rw [connectionCapability_of_undeclared declared]

/-- Detection gives what the case of a type says. -/
theorem Schema.Follows.detected {convention : Convention}
    (follows : schema.Follows t convention) : ∃ found, convention.Gives options found ∧
      (capabilities options schema t).outcome = .ok found.toList := by
  have itself : t ∈ t :: schema.types := List.mem_cons_self
  cases follows with
  | edges isConnection leads alone =>
    obtain ⟨⟨nodeType, ofNode⟩, edgeType, ofEdge⟩ := known.edge _ _ leads
    refine ⟨_, .edges ofNode ofEdge, ?_⟩
    rw [← t.hasField_iff] at alone
    rw [capabilities_of_connection isConnection, connectionCapability_of_leads leads ofNode ofEdge,
      if_neg alone]
    rfl
  | nodesAndEdges isConnection leads beside =>
    obtain ⟨⟨nodeType, ofNode⟩, edgeType, ofEdge⟩ := known.edge _ _ leads
    refine ⟨_, .nodesAndEdges ofNode ofEdge, ?_⟩
    rw [← t.hasField_iff] at beside
    rw [capabilities_of_connection isConnection, connectionCapability_of_leads leads ofNode ofEdge,
      if_pos beside]
    rfl
  | nodes isConnection without first =>
    obtain ⟨nodeType, ofNodes⟩ := known.field t itself "nodes" _ first
    refine ⟨_, .nodes ofNodes, ?_⟩
    rw [capabilities_of_connection isConnection, Report.outcome_map, known.byNodes without,
      nodesCapability_of_first first ofNodes]
    rfl
  | edge isEdge first =>
    obtain ⟨nodeType, ofNode⟩ := known.field t itself "node" _ first
    refine ⟨_, .edge ofNode, ?_⟩
    rw [capabilities_of_edge isEdge, edgeCapability, (t.field?_eq_some_iff _ _).mpr first]
    simp only [nodeName_of_target ofNode]
    rfl
  | nothing noConnection noEdge =>
    -- The fields that a connection or an edge is known by are missing, or it is neither.
    refine ⟨none, .nothing, ?_⟩
    by_cases isConnection : t.IsCalled "Connection"
    · obtain ⟨without, undeclared⟩ := noConnection isConnection
      rw [capabilities_of_connection isConnection, Report.outcome_map, known.byNodes without,
        nodesCapability_of_none undeclared]
      rfl
    by_cases isEdge : t.IsCalled "Edge"
    · rw [capabilities_of_edge isEdge, edgeCapability,
        (t.field?_eq_none_iff _).mpr (noEdge isEdge)]
      rfl
    · rw [capabilities_of_other isConnection isEdge]
      rfl

/-- A connection whose edges lead to no node is reported once, by its name and that of its edges,
and is taken for what it would be without its edges in whatever schema. -/
theorem Schema.LacksNode.reported (lacks : schema.LacksNode t)
    (isConnection : t.IsCalled "Connection") :
    (∃ edges reference, t.FirstField "edges" edges ∧ edges.type.namedType = .ok reference ∧
      (capabilities options schema t).warnings =
        [.edgeWithoutNode (nameText t.name) (nameText reference.name)]) ∧
      ∀ other, (capabilities options other t.withoutEdges).outcome =
        (capabilities options schema t).outcome := by
  constructor
  · obtain ⟨edges, first⟩ := lacks.1.exists_first
    obtain ⟨reference, reaches⟩ := known.edges edges first
    refine ⟨edges, reference, first, reaches, ?_⟩
    rw [capabilities_of_connection isConnection, Report.warnings_map,
      connectionCapability_of_lacks lacks edges first reference reaches]
    exact congrArg (List.cons _) nodesCapability_silent
  · intro other
    have stillConnection : t.withoutEdges.IsCalled "Connection" := isConnection
    rw [capabilities_of_connection stillConnection, capabilities_of_connection isConnection,
      connectionCapability_of_undeclared t.not_declares_withoutEdges, nodesCapability_withoutEdges,
      Report.outcome_map, Report.outcome_map, known.byNodes lacks.2]

/-- Nothing else is reported. -/
theorem Schema.HasTargets.silent (well : ¬(t.IsCalled "Connection" ∧ schema.LacksNode t)) :
    (capabilities options schema t).warnings = [] := by
  by_cases isConnection : t.IsCalled "Connection"
  · rw [capabilities_of_connection isConnection, Report.warnings_map]
    by_cases declared : t.Declares "edges"
    · have leads : ∃ edge node, schema.LeadsToNode t edge node := by
        by_contra without
        exact well ⟨isConnection, declared, without⟩
      obtain ⟨edge, node, leads⟩ := leads
      obtain ⟨⟨nodeType, ofNode⟩, edgeType, ofEdge⟩ := known.edge edge node leads
      rw [connectionCapability_of_leads leads ofNode ofEdge]
      rfl
    · rw [connectionCapability_of_undeclared declared]
      exact nodesCapability_silent
  by_cases isEdge : t.IsCalled "Edge"
  · rw [capabilities_of_edge isEdge, Report.warnings_map]
    rfl
  · rw [capabilities_of_other isConnection isEdge]
    rfl

end

/-- **Pagination follows the rule.** Every type is in exactly one case of the convention. With
complete references and known scalars, detection gives the capability of that case, under the target
names of its nodes and edges, and nothing else. A warning is given exactly for a connection with
edges that lead to no node: one warning, which names the connection and what its edges end in, and
what is detected is then the same as for the type without its edges. -/
theorem pagination_follows_rule (options : Options) (schema : Schema) (t : SchemaType)
    (known : schema.HasTargets options t) :
    ∃ convention found, schema.Follows t convention ∧
      (∀ other, schema.Follows t other → other = convention) ∧
      convention.Gives options found ∧
      (capabilities options schema t).outcome = .ok found.toList ∧
      ((capabilities options schema t).warnings ≠ [] ↔
        t.IsCalled "Connection" ∧ schema.LacksNode t) ∧
      (t.IsCalled "Connection" ∧ schema.LacksNode t →
        (∃ edges reference, t.FirstField "edges" edges ∧ edges.type.namedType = .ok reference ∧
          (capabilities options schema t).warnings =
            [.edgeWithoutNode (nameText t.name) (nameText reference.name)]) ∧
        ∀ other, (capabilities options other t.withoutEdges).outcome = .ok found.toList) := by
  obtain ⟨convention, follows⟩ := schema.exists_follows t
  obtain ⟨found, gives, detected⟩ := follows.detected known
  have reported : t.IsCalled "Connection" ∧ schema.LacksNode t → _ :=
    fun lacks => lacks.2.reported known lacks.1
  refine ⟨convention, found, follows, fun other again => again.unique follows, gives, detected, ?_,
    fun lacks => ?_⟩
  · constructor
    · intro warned
      by_contra well
      exact warned (known.silent well)
    · intro lacks
      obtain ⟨⟨edges, reference, _, _, warned⟩, _⟩ := reported lacks
      simp [warned]
  · obtain ⟨warned, same⟩ := reported lacks
    exact ⟨warned, fun other => (same other).trans detected⟩

/-! ## Stops without edges -/

/-- A reference to a list of objects of a name. -/
def listNamed (name : String) : SchemaType where
  kind := .list
  ofType := some { kind := .object, name := some name }

/-- A connection of stops, with edges of a type that is not in the table. -/
def stopConnection : SchemaType where
  kind := .object
  name := some "StopConnection"
  fields := [
    { name := some "edges", type := listNamed "StopEdge" },
    { name := some "nodes", type := listNamed "Stop" }]

def stopType : SchemaType where
  kind := .object
  name := some "Stop"
  fields := [{ name := some "name", type := { kind := .scalar, name := some "String" } }]

def stopSchema : Schema := { types := [stopConnection, stopType] }

def stopOptions : Options := { moduleName := "stops" }

theorem listNamed_complete (name : String) : (listNamed name).IsComplete :=
  .wrapped rfl rfl rfl (.named rfl rfl)

/-- A reference to the texts. -/
def textType : SchemaType where
  kind := .scalar
  name := some "String"

theorem textType_complete : textType.IsComplete := .named rfl rfl

theorem stopOptions_knows_text : ¬stopOptions.Misses textType none none := by
  rintro ⟨bottom, reaches, _, _, unknown⟩
  cases reaches
  cases unknown

theorem stopSchema_hasTargets : stopSchema.HasTargets stopOptions stopConnection := by
  have edges := listNamed_complete "StopEdge"
  have nodes := listNamed_complete "Stop"
  constructor <;> simp only [stopSchema, stopConnection, stopType, List.forall_mem_cons,
    List.not_mem_nil, false_imp_iff, implies_true, and_true]
  · exact ⟨⟨edges, nodes⟩, ⟨edges, nodes⟩, textType_complete⟩
  · decide
  · have noScalar : ∀ name, ¬stopOptions.Misses (listNamed name) none none := by
      rintro name ⟨bottom, reaches, scalar, _⟩
      cases reaches
      cases scalar
    exact ⟨⟨noScalar _, noScalar _⟩, ⟨noScalar _, noScalar _⟩, stopOptions_knows_text⟩
  · constructor <;>
    · rintro ⟨bottom, reaches, scalar, _⟩
      cases reaches
      cases scalar

/-- The stops are taken from the nodes of their connection, and its edges are reported. -/
theorem pagination_follows_rule_stops :
    stopSchema.HasTargets stopOptions stopConnection ∧
      stopSchema.Follows stopConnection (.nodes { name := some "nodes", type := listNamed "Stop" }) ∧
      (capabilities stopOptions stopSchema stopConnection).outcome =
        .ok [{ kind := .nodes, nodeType := "Stop" }] ∧
      (capabilities stopOptions stopSchema stopConnection).warnings =
        [.edgeWithoutNode "StopConnection" "StopEdge"] := by
  have isConnection : stopConnection.IsCalled "Connection" := ⟨"Stop", rfl⟩
  have without : ¬∃ edge node, stopSchema.LeadsToNode stopConnection edge node :=
    Schema.not_leadsToNode_iff.mpr rfl
  have byNodes : stopSchema.Follows stopConnection
      (.nodes { name := some "nodes", type := listNamed "Stop" }) :=
    .nodes isConnection without ((stopConnection.field?_eq_some_iff _ _).mp rfl)
  obtain ⟨convention, found, _, only, gives, detected, _, reported⟩ :=
    pagination_follows_rule stopOptions stopSchema stopConnection stopSchema_hasTargets
  cases only _ byNodes
  cases gives with
  | nodes ofNodes =>
    obtain ⟨bottom, reaches, named⟩ := ofNodes
    cases reaches
    cases named
    have declared := (stopConnection.hasField_iff "edges").mp rfl
    obtain ⟨⟨edges, reference, first, reaches, warned⟩, _⟩ :=
      reported ⟨isConnection, declared, without⟩
    cases (stopConnection.field?_eq_some_iff _ _).mpr first
    cases reaches
    exact ⟨stopSchema_hasTargets, byNodes, detected, warned⟩

/-! ## A wrapper with a name -/

/-- A connection of rows. -/
def rowConnection : SchemaType where
  kind := .object
  name := some "RowConnection"
  fields := [{ name := some "edges", type := { kind := .object, name := some "RowEdge" } }]

/-- A list that has the name of the edges, and a node. -/
def rowEdges : SchemaType where
  kind := .list
  name := some "RowEdge"
  fields := [{ name := some "node", type := { kind := .scalar, name := some "String" } }]
  ofType := some { kind := .scalar, name := some "String" }

/-- An entry of the table that is a wrapper may have a name, and then it is found as the type of the
edges and has no target name. -/
theorem wrapper_may_be_found :
    ¬∀ (options : Options) (schema : Schema) (t : SchemaType), t ∈ schema.types →
      t.kind = .object → (∀ u ∈ schema.types, ∀ f ∈ u.fields, f.type.IsComplete) →
      (∀ u ∈ schema.types, ∀ f ∈ u.fields, ¬options.Misses f.type none none) →
      (∀ u ∈ schema.types, ¬options.Misses u none none) →
      ∃ found : Option Capability, (capabilities options schema t).outcome = .ok found.toList := by
  intro detects
  have object : SchemaType.IsComplete { kind := .object, name := some "RowEdge" } := .named rfl rfl
  have noScalar : ∀ u : SchemaType, u.kind ≠ .scalar → u.name.isSome →
      ¬stopOptions.Misses u none none := by
    rintro ⟨kind, _ | name, _, _, _, _, _, _⟩ other named ⟨bottom, reaches, scalar, _⟩
    · cases named
    · cases reaches
      exact other scalar
  obtain ⟨found, detected⟩ := detects stopOptions { types := [rowConnection, rowEdges] }
    rowConnection List.mem_cons_self rfl
    (by simpa [rowConnection, rowEdges] using ⟨object, textType_complete⟩)
    (by simpa [rowConnection, rowEdges] using ⟨noScalar _ nofun rfl, stopOptions_knows_text⟩)
    (by simpa [rowConnection, rowEdges] using ⟨noScalar _ nofun rfl, noScalar _ nofun rfl⟩)
  cases detected

end GraphQLModels
