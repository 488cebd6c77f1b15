import GraphQLModels.Proofs.NodeFields
import GraphQLModels.Proofs.Nullability
import GraphQLModels.Proofs.ReferentialClosure
import GraphQLModels.Proofs.ScalarCoverage

/-!
# Nodes of connections

What a type is taken to be by its name and its fields, its class has to live up to: an object that is
decoded as a connection lists its nodes, from the list of nodes if that is not null, and else from
its edges, one node for each.
-/

namespace GraphQLModels

namespace Model

/-! ## Lists of nodes -/

/-- Whether a value is the node of an edge; the node of a missing edge is null. -/
def IsNodeOf (edge node : Value) : Prop :=
  edge = .null ∧ node = .null ∨ edge.own? "node" = some node

/-- Whether a value lists the nodes of edges in order; without edges it is null. -/
inductive AreNodesOf : Value → Value → Prop
  | null : AreNodesOf .null .null
  | list {edges nodes : List Value} (each : List.Forall₂ IsNodeOf edges nodes) :
    AreNodesOf (.list edges) (.list nodes)

/-- Whether a value is what an object gives as its nodes if it is a connection of a kind. -/
inductive HasNodes (x : Value) : CapabilityKind → Value → Prop
  | nodes {nodes : Value} (own : x.own? "nodes" = some nodes) : HasNodes x .nodes nodes
  | edges {edges nodes : Value} (own : x.own? "edges" = some edges)
      (ofEdges : AreNodesOf edges nodes) : HasNodes x .edges nodes
  | preferred {nodes : Value} (own : x.own? "nodes" = some nodes) (given : nodes ≠ .null) :
    HasNodes x .nodesAndEdges nodes
  | instead {edges nodes : Value} (none : x.own? "nodes" = some .null)
      (own : x.own? "edges" = some edges) (ofEdges : AreNodesOf edges nodes) :
    HasNodes x .nodesAndEdges nodes

/-- Whether a value is null or a list of items of a kind. -/
inductive IsListOf (isItem : Value → Prop) : Value → Prop
  | null : IsListOf isItem .null
  | list {items : List Value} (each : ∀ item ∈ items, isItem item) : IsListOf isItem (.list items)

/-- Whether the nodes of a value can be asked for as those of an edge. -/
def MayBeEdge (v : Value) : Prop := v = .null ∨ ∃ node, v.own? "node" = some node

theorem isNull_iff (v : Value) : v.isNull = true ↔ v = .null := by
  cases v <;> simp [Value.isNull]

namespace NodeSource

theorem listOf_ok (isItem : Value → Prop) (v : Value) (isList : IsListOf isItem v) :
    listOf v = .ok v := by
  cases isList <;> rfl

theorem nodeOf_ok (edge : Value) (mayBe : MayBeEdge edge) :
    ∃ node, nodeOf edge = .ok node ∧ IsNodeOf edge node := by
  rcases mayBe with rfl | ⟨node, own⟩
  · exact ⟨.null, rfl, .inl ⟨rfl, rfl⟩⟩
  · have given : ¬edge.isNull = true := by
      rw [isNull_iff]
      rintro rfl
      cases own
    exact ⟨node, by rw [nodeOf, if_neg given, own], .inr own⟩

theorem edgeNodes_ok (edges : Value) (isList : IsListOf MayBeEdge edges) :
    ∃ nodes, edgeNodes edges = .ok nodes ∧ AreNodesOf edges nodes := by
  cases isList with
  | null => exact ⟨.null, rfl, .null⟩
  | @list items each =>
    obtain ⟨nodes, each⟩ := Outcome.forall₂_exists items fun edge member =>
      nodeOf_ok edge (each edge member)
    refine ⟨.list nodes, ?_, .list (each.imp fun _ _ known => known.2)⟩
    have listed := (Outcome.mapM_ok_iff nodeOf _ _).mpr (each.imp fun _ _ known => known.1)
    change (items.mapM nodeOf).map Value.list = _
    rw [listed]
    rfl

end NodeSource

/-- What is decoded under a nullable list is null or a list of what is decoded under its items. -/
theorem isListOf_of_decode (lib : Library) (form : Form) (bottom : Shape) (j : Json) (v : Value)
    (read : lib.decode form j (.optional (.list (.optional bottom))) = .ok v) :
    IsListOf (fun item => item = .null ∨ ∃ j, lib.decode form j bottom = .ok item) v := by
  by_cases missing : j = .null
  · subst missing
    cases read
    exact .null
  · rw [lib.decode_optional form _ j missing] at read
    obtain ⟨items, values, rfl, all, rfl⟩ := (lib.decode_list_ok_iff form _ j v).mp read
    obtain ⟨pairs, -, rfl, each⟩ := Decoded.all_map_ok _ _ _ all
    refine .list fun value isValue => ?_
    obtain ⟨pair, isPair, rfl⟩ := List.mem_map.mp isValue
    have item := each pair isPair
    by_cases missing : pair.1 = .null
    · rw [missing] at item
      exact .inl (Except.ok.inj item).symm
    · rw [lib.decode_optional form _ _ missing] at item
      exact .inr ⟨_, item⟩

theorem IsListOf.imp {one other : Value → Prop} {v : Value} (isList : IsListOf one v)
    (each : ∀ item, one item → other item) : IsListOf other v := by
  cases isList with
  | null => exact .null
  | list items => exact .list fun item member => each item (items item member)

/-! ## Calls -/

/-- How a connection of a kind gives its nodes. -/
def sourceOf : CapabilityKind → SourceKind
  | .nodes => .nodes
  | .edges => .edges
  | .nodesAndEdges => .both
  | .edge => .none

theorem node_source_of_kind (kind : CapabilityKind) (other : kind ≠ .edge) :
    Foundation.library.method? (Foundation.capability kind) "node_source" =
        some (.nodeSource (sourceOf kind)) ∧
      Foundation.library.method? (Foundation.capability kind) "get_nodes" = some .nodes := by
  cases kind with
  | edge => exact absurd rfl other
  | nodes | edges | nodesAndEdges => exact ⟨rfl, rfl⟩

/-- Which attributes a connection of a kind has its nodes in. -/
structure HoldsNodes (x : Value) (kind : CapabilityKind) : Prop where
  nodes : kind ≠ .edges → ∃ nodes, x.own? "nodes" = some nodes ∧ IsListOf (fun _ => True) nodes
  edges : kind ≠ .nodes → ∃ edges, x.own? "edges" = some edges ∧ IsListOf MayBeEdge edges

theorem HoldsNodes.listNodes {x : Value} {kind : CapabilityKind} (holds : HoldsNodes x kind)
    (other : kind ≠ .edge) : ∃ nodes, (Library.nodeSource x (sourceOf kind) >>=
      NodeSource.listNodes) = .ok nodes ∧ HasNodes x kind nodes := by
  cases kind with
  | edge => exact absurd rfl other
  | nodes =>
    obtain ⟨nodes, own, isList⟩ := holds.nodes (by decide)
    refine ⟨nodes, ?_, .nodes own⟩
    change NodeSource.listOf (Library.attributeOrNull x "nodes") = _
    rw [Library.attributeOrNull, own, Option.getD_some, NodeSource.listOf_ok _ nodes isList]
  | edges =>
    obtain ⟨edges, own, isList⟩ := holds.edges (by decide)
    obtain ⟨nodes, listed, ofEdges⟩ := NodeSource.edgeNodes_ok edges isList
    refine ⟨nodes, ?_, .edges own ofEdges⟩
    change NodeSource.edgeNodes (Library.attributeOrNull x "edges") = _
    rw [Library.attributeOrNull, own, Option.getD_some, listed]
  | nodesAndEdges =>
    obtain ⟨own, isOwn, isList⟩ := holds.nodes (by decide)
    obtain ⟨edges, ownEdges, areEdges⟩ := holds.edges (by decide)
    change ∃ nodes, (if (Library.attributeOrNull x "nodes").isNull then
      NodeSource.edgeNodes (Library.attributeOrNull x "edges") else
      NodeSource.listOf (Library.attributeOrNull x "nodes")) = .ok nodes ∧ _
    rw [Library.attributeOrNull, Library.attributeOrNull, isOwn, ownEdges, Option.getD_some,
      Option.getD_some]
    -- The edges are gone through only if the list of nodes is null.
    by_cases missing : own = .null
    · subst missing
      obtain ⟨nodes, listed, ofEdges⟩ := NodeSource.edgeNodes_ok edges areEdges
      exact ⟨nodes, listed, .instead isOwn ownEdges ofEdges⟩
    · refine ⟨own, ?_, .preferred isOwn missing⟩
      rw [if_neg (by rwa [isNull_iff]), NodeSource.listOf_ok _ own isList]

section

variable {world : World} {imports : ImportTable} {definitions : List Definition}
  {source : Source.Module} {lib : Library} (laysOut : Source.LaysOut imports definitions source)
  (loaded : load source world = .ok lib) (apart : NamesApart source)

include laysOut loaded apart

/-- A connection lists its nodes from the source that its kind gives, if it has no attribute under
the name of what lists them. -/
theorem connection_call (i : Nat) (o : ObjectDef)
    (listed : (Source.classDefinitions definitions)[i]? = some (.object o))
    (defined : ∀ name ∈ o.contracts, ∃ c : ContractDef,
      .contract c ∈ Source.classDefinitions definitions ∧ c.name = name)
    (kind : CapabilityKind) (connection : IsConnection o kind) (identity : Option Nat)
    (attributes : List (String × Value)) (free : "get_nodes" ∉ attributes.map (·.1)) :
    lib.call (.object identity (Foundation.classes.length + i) attributes) "get_nodes" =
      (Library.nodeSource (.object identity (Foundation.classes.length + i) attributes)
        (sourceOf kind) >>= NodeSource.listNodes) := by
  have method := connection_method? laysOut loaded apart i o listed defined kind connection
  obtain ⟨ofSource, ofNodes⟩ := node_source_of_kind kind connection.other
  -- Attributes and class variables would hide the method.
  have missing := attributeOf_missing laysOut loaded identity (Foundation.classes.length + i)
    attributes "get_nodes" free (by decide) (by decide) (by decide)
  unfold Library.call
  rw [missing]
  dsimp only
  rw [method _ (.inr rfl), ofNodes]
  dsimp only
  rw [Library.perform, Library.sourceOf, method _ (.inl rfl), ofSource]

end

end Model

end GraphQLModels
