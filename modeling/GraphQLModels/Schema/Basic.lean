/-!
# Schemas

The types of a GraphQL schema as introspection lists them. A type entry, a reference to a type and
a wrapper around another type have one shape.
-/

namespace GraphQLModels

/-- The kinds of a type. -/
inductive TypeKind where
  | scalar | object | interface | union | enum | inputObject | list | nonNull
deriving DecidableEq, Repr, Inhabited

namespace TypeKind

def all : List TypeKind :=
  [.scalar, .object, .interface, .union, .enum, .inputObject, .list, .nonNull]

/-- The name of a kind in a document. -/
def label : TypeKind → String
  | .scalar => "SCALAR"
  | .object => "OBJECT"
  | .interface => "INTERFACE"
  | .union => "UNION"
  | .enum => "ENUM"
  | .inputObject => "INPUT_OBJECT"
  | .list => "LIST"
  | .nonNull => "NON_NULL"

def ofLabel? (label : String) : Option TypeKind := all.find? fun kind => kind.label == label

def isWrapper (kind : TypeKind) : Bool := kind == .list || kind == .nonNull

end TypeKind

/-- A value of an enum type. -/
structure EnumValue where
  name : Option String
  description : Option String := none
  isDeprecated : Bool := false
  deprecationReason : Option String := none
deriving DecidableEq, Repr, Inhabited

/-- A field whose type is given in some form. -/
structure FieldOf (τ : Type) where
  name : Option String
  type : τ
  description : Option String := none
  isDeprecated : Bool := false
  deprecationReason : Option String := none
deriving Repr

/-- A type entry, a reference to one, or a wrapper. Only an entry of the type table is sure to have
its fields and relations. -/
structure SchemaType where
  kind : TypeKind
  name : Option String := none
  description : Option String := none
  fields : List (FieldOf SchemaType) := []
  interfaces : List SchemaType := []
  possibleTypes : List SchemaType := []
  enumValues : List EnumValue := []
  ofType : Option SchemaType := none
deriving Repr, Inhabited

/-- A field of an object or interface type. -/
abbrev SchemaField := FieldOf SchemaType

namespace SchemaType

def field? (t : SchemaType) (name : String) : Option SchemaField :=
  t.fields.find? fun f => f.name == some name

def hasField (t : SchemaType) (name : String) : Bool := (t.field? name).isSome

end SchemaType

/-- The type table of a schema, in document order. -/
structure Schema where
  types : List SchemaType
deriving Repr, Inhabited

namespace Schema

def find? (schema : Schema) (name : String) : Option SchemaType :=
  schema.types.find? fun t => t.name == some name

def resolve? (schema : Schema) (reference : SchemaType) : Option SchemaType :=
  reference.name.bind schema.find?

/-- The distinct names of the table in order of their first occurrence. -/
def names (schema : Schema) : List String := (schema.types.filterMap (·.name)).eraseDups

def ofKind (schema : Schema) (kind : TypeKind) : List SchemaType :=
  schema.types.filter fun t => t.kind == kind

end Schema

end GraphQLModels
