import GraphQLModels.Model.Failure
import GraphQLModels.Model.Value

/-!
# Sources of nodes

A connection has its nodes in a list of nodes, in a list of edges with a node each, or in both. The
list of nodes is preferred; the edges are gone through only when it is null.
-/

namespace GraphQLModels.Model

/-- Where a connection has its nodes. -/
inductive NodeSource where
  | nodes (nodes : Value)
  | edges (edges : Value)
  | both (nodes edges : Value)
deriving Repr

namespace NodeSource

/-- The list of the items of a value, or null. -/
def listOf (value : Value) : Except Failure Value :=
  if value.isNull then .ok .null
  else
    match value.items? with
    | some items => .ok (.list items)
    | none => .error .wrongType

/-- The node of an edge; a missing edge has a null node. -/
def nodeOf (edge : Value) : Except Failure Value :=
  if edge.isNull then .ok .null
  else
    match edge.own? "node" with
    | some node => .ok node
    | none => .error (.noAttribute "node")

/-- The nodes of the edges, or null. -/
def edgeNodes (edges : Value) : Except Failure Value :=
  if edges.isNull then .ok .null
  else
    match edges.items? with
    | some items => (items.mapM nodeOf).map .list
    | none => .error .wrongType

/-- The list of the nodes, or null. -/
def listNodes : NodeSource → Except Failure Value
  | .nodes ns => listOf ns
  | .edges es => edgeNodes es
  -- An empty list of nodes is not null: the edges are left alone then.
  | .both ns es => if ns.isNull then edgeNodes es else listOf ns

def record : NodeSource → Value
  | .nodes ns => .record "NodesOnly" [("nodes", ns)]
  | .edges es => .record "EdgesOnly" [("edges", es)]
  | .both ns es => .record "NodesAndEdges" [("nodes", ns), ("edges", es)]

end NodeSource

end GraphQLModels.Model
