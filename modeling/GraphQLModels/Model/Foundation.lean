import GraphQLModels.Model.Class

/-!
# The foundation of all modules

The classes that every generated module builds on: the base of all models, the page information of a
connection, and what makes a class a connection or an edge.
-/

namespace GraphQLModels.Model

/-- The module with the base of all models. -/
def baseHome : String := "gql_typegen.runtime.base"

def paginationHome : String := "gql_typegen.runtime.connection"

/-- The field that marks the objects of a class with the name of their schema type. -/
def typenameSpec (name : String) : FieldSpec where
  name := typenameField
  wire := typenameAlias
  shape := .literal name
  initial := .text name

/-- A field that holds an optional scalar. -/
def scalarSpec (name : String) (type : ScalarType) : FieldSpec where
  name
  wire := name
  shape := .optional (.scalar type)

namespace Foundation

/-- The place of the base of all models. -/
def model : Nat := 0

def pageInfo : Nat := 1

/-- The place of the class for a capability. -/
def capability : CapabilityKind → Nat
  | .nodes => 3
  | .edges => 4
  | .nodesAndEdges => 5
  | .edge => 6

def pageInfoFields : List FieldSpec :=
  [typenameSpec "PageInfo", scalarSpec "endCursor" .text, scalarSpec "hasNextPage" .bool,
    scalarSpec "hasPreviousPage" .bool, scalarSpec "startCursor" .text]

def connectionMethods : List (String × Method) :=
  [("get_page_info", .pageInfo), ("get_node_type", .nodeType), ("node_source", .nodeSource .none),
    ("get_nodes", .nodes)]

def classes : List Class := [
  { name := "GraphQLObject", home := baseHome, order := [0], implementers := some []
    methods := [("to_json", .json)] },
  { name := "PageInfo", home := paginationHome, order := [1, 0], fields := pageInfoFields
    declared := pageInfoFields.map (·.name) },
  { name := "Connection", home := paginationHome, isModel := false, order := [2]
    classVariables := [("node_type_name", "")], methods := connectionMethods },
  { name := "ConnectionWithNodes", home := paginationHome, isModel := false, order := [3, 2]
    methods := [("node_source", .nodeSource .nodes)] },
  { name := "ConnectionWithEdges", home := paginationHome, isModel := false, order := [4, 2]
    classVariables := [("edge_type_name", "")]
    methods := [("get_edge_type", .edgeType), ("node_source", .nodeSource .edges)] },
  { name := "ConnectionWithNodesAndEdges", home := paginationHome, isModel := false
    order := [5, 4, 2], methods := [("node_source", .nodeSource .both)] },
  { name := "Edge", home := paginationHome, isModel := false, order := [6]
    classVariables := [("node_type_name", "")]
    methods := [("get_cursor", .cursor), ("get_node", .node), ("get_node_type", .nodeType)] }]

def exported : List String :=
  ["GraphQLObject", "PageInfo", "serialize", "deserialize", "polymorphic_type",
    "resolve_generated_type", "TYPENAME_ALIAS", "TYPENAME_FIELD", "Connection",
    "ConnectionWithEdges", "ConnectionWithNodes", "ConnectionWithNodesAndEdges", "Edge",
    "EdgesOnly", "NodesAndEdges", "NodeSource", "NodesOnly", "get_nodes"]

/-- The foundation as a library of its own. -/
def library : Library where
  classes := classes
  enums := []
  scope :=
    setKeys (exported.map fun name => (name, .foreign (.helper name)))
      (classes.zipIdx.map fun (c, place) => (c.name, .cls place))
  exported := exported

end Foundation

end GraphQLModels.Model
