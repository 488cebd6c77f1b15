import GraphQLModels.FieldType

/-!
# Definitions

What a run emits: one definition for each enum, object, interface and union, with all names already
resolved. Interfaces and unions become contracts that other definitions implement.
-/

namespace GraphQLModels

/-- A field of a generated type. -/
structure Field where
  name : Option String
  type : FieldType
  description : Option String := none
  isDeprecated : Bool := false
  deprecationReason : Option String := none
  readOnly : Bool := false
deriving DecidableEq, Repr

/-- A generated enum. -/
structure EnumDef where
  name : Option String
  values : List EnumValue
  description : Option String := none
  stringConstants : Bool := false
deriving DecidableEq, Repr

/-- The two kinds of contracts. -/
inductive ContractKind where
  | interface | union
deriving DecidableEq, Repr

/-- A contract. Its discriminator map leads from schema names to target names. -/
structure ContractDef where
  kind : ContractKind
  name : String
  schemaName : Option String
  fields : List Field
  parents : List String := []
  possibleTypes : List (String × String) := []
  accessors : List String := []
  description : Option String := none
deriving DecidableEq, Repr

/-- How a pagination type gives its nodes. -/
inductive CapabilityKind where
  | nodes | edges | nodesAndEdges | edge
deriving DecidableEq, Repr

/-- A pagination capability with the target names of the nodes and edges. -/
structure Capability where
  kind : CapabilityKind
  nodeType : String
  edgeType : Option String := none
deriving DecidableEq, Repr

/-- A generated class. Its interface contracts come before its union contracts. -/
structure ObjectDef where
  name : Option String
  schemaName : Option String
  fields : List Field
  contracts : List String := []
  capabilities : List Capability := []
  description : Option String := none
deriving DecidableEq, Repr

/-- A definition of a module. -/
inductive Definition where
  | enum (d : EnumDef)
  | contract (d : ContractDef)
  | object (d : ObjectDef)
deriving DecidableEq, Repr

namespace Definition

def kind : Definition → DefinitionKind
  | .enum _ => .enum
  | .contract d =>
    match d.kind with
    | .interface => .interface
    | .union => .union
  | .object _ => .object

def name : Definition → Option String
  | .enum d => d.name
  | .contract d => some d.name
  | .object d => d.name

/-- The schema name of a definition; enums keep theirs. -/
def schemaName : Definition → Option String
  | .enum d => d.name
  | .contract d => d.schemaName
  | .object d => d.schemaName

def enum? : Definition → Option EnumDef
  | .enum d => some d
  | _ => none

def contract? : Definition → Option ContractDef
  | .contract d => some d
  | _ => none

def object? : Definition → Option ObjectDef
  | .object d => some d
  | _ => none

@[simp]
theorem object?_eq_some {definition : Definition} {d : ObjectDef} :
    definition.object? = some d ↔ definition = .object d := by
  cases definition <;> simp [object?]

end Definition

/-- The definitions of a run in schema order. -/
structure Module where
  moduleName : String
  definitions : List Definition
  enumsAsText : Bool := false
deriving DecidableEq, Repr

namespace Module

def enums (m : Module) : List EnumDef := m.definitions.filterMap Definition.enum?

def contracts (m : Module) (kind : ContractKind) : List ContractDef :=
  (m.definitions.filterMap Definition.contract?).filter fun d => d.kind == kind

def objects (m : Module) : List ObjectDef := m.definitions.filterMap Definition.object?

/-- The first definition with a target name. -/
def find? (m : Module) (name : String) : Option Definition :=
  m.definitions.find? fun d => d.name == some name

end Module

end GraphQLModels
