import GraphQLModels.Definition
import GraphQLModels.Relations
import GraphQLModels.Text.Affix

/-!
# Pagination by naming convention

A type whose name ends in `Connection` gives nodes through its `edges`, its `nodes`, or both; a type
whose name ends in `Edge` gives the one in its `node` field. Not every type with such a name follows
the convention.
-/

namespace GraphQLModels

/-- The target name of the first named type inside a field's wrappers. -/
def nodeName (options : Options) (field : SchemaField) : Except ResolutionError String := do
  return nameText (← options.plainTypeName (← field.type.namedType))

/-- The capability of a connection by its `nodes` field. -/
def nodesCapability (options : Options) (t : SchemaType) :
    Report ResolutionError (Option Capability) :=
  match t.field? "nodes" with
  | none => do
    Report.tell (.withoutNodes t.name)
    return none
  | some nodes => do return some { kind := .nodes, nodeType := ← nodeName options nodes }

/-- The capability of a connection. Edges whose type has no node are reported and left out. -/
def connectionCapability (options : Options) (schema : Schema) (t : SchemaType) :
    Report ResolutionError (Option Capability) :=
  match t.field? "edges" with
  | none => nodesCapability options t
  | some edges => do
    let reference ← edges.type.namedType
    -- An edge type that is not in the table is treated like one without a node.
    match (schema.resolve? reference).bind fun edge => (edge.field? "node").map (edge, ·) with
    | some (edge, node) =>
      let nodeType ← nodeName options node
      let edgeType ← options.plainTypeName edge
      let kind := if t.hasField "nodes" then .nodesAndEdges else .edges
      return some { kind, nodeType, edgeType := some (nameText edgeType) }
    | none =>
      Report.warn (.edgeWithoutNode (nameText t.name) (nameText reference.name))
      nodesCapability options t

def edgeCapability (options : Options) (t : SchemaType) :
    Except ResolutionError (Option Capability) :=
  match t.field? "node" with
  | none => .ok none
  | some node => do return some { kind := .edge, nodeType := ← nodeName options node }

/-- The capabilities that the name and the fields of a type imply. -/
def capabilities (options : Options) (schema : Schema) (t : SchemaType) :
    Report ResolutionError (List Capability) := do
  let name := t.name.getD ""
  let connection ←
    if Text.endsWith name "Connection" then connectionCapability options schema t else pure none
  let edge ← if Text.endsWith name "Edge" then liftM (edgeCapability options t) else pure none
  return connection.toList ++ edge.toList

end GraphQLModels
