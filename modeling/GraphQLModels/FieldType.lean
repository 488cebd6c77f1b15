import GraphQLModels.Naming

/-!
# Field types

A reference to a type is resolved by unwrapping it down to the first named type. A non-null wrapper
leaves no trace, because a server may still answer null where part of a response failed: every
level of a field type is nullable.
-/

namespace GraphQLModels

/-- The type of a generated field: a named type, or lists of one. Each level says whether it may be
null. -/
inductive FieldType where
  | leaf (name : Option String) (kind : TypeKind) (nullable : Bool)
  | level (inner : FieldType) (nullable : Bool)
deriving DecidableEq, Repr, Inhabited

namespace FieldType

/-- A named type that may be null. -/
abbrev named (name : Option String) (kind : TypeKind) : FieldType := .leaf name kind true

/-- A list that may be null. -/
abbrev list (inner : FieldType) : FieldType := .level inner true

/-- Whether every level of a field type may be null. -/
def isNullable : FieldType → Bool
  | .leaf _ _ nullable => nullable
  | .level inner nullable => nullable && inner.isNullable

/-- How many lists surround the named type. -/
def listDepth : FieldType → Nat
  | .leaf _ _ _ => 0
  | .level inner _ => inner.listDepth + 1

def terminal : FieldType → FieldType
  | .leaf name kind nullable => .leaf name kind nullable
  | .level inner _ => inner.terminal

def terminalName : FieldType → Option String
  | .leaf name _ _ => name
  | .level inner _ => inner.terminalName

def terminalKind : FieldType → TypeKind
  | .leaf _ kind _ => kind
  | .level inner _ => inner.terminalKind

/-- How a field type reads; field types are compared by it. -/
def displayName : FieldType → Option String
  | .leaf name _ _ => name
  | .level inner _ => some s!"List[{nameText inner.displayName}]"

end FieldType

namespace SchemaType

/-- The field type that a reference resolves to, for a field of a type if both are given. Whether a
level is marked as non-null in the schema is not kept. -/
def resolve (options : Options) (type field : Option String) (t : SchemaType) :
    Except ResolutionError FieldType :=
  match t with
  | { kind := .nonNull, ofType := some inner, .. } => inner.resolve options type field
  -- A wrapper around nothing is what the introspection query leaves of types that are too deep.
  | { kind := .nonNull, ofType := none, .. } => .error (.openWrapper .nonNull)
  | { kind := .list, ofType := some inner, .. } =>
    (inner.resolve options type field).map FieldType.list
  | { kind := .list, ofType := none, .. } => .error (.openWrapper .list)
  | t => (options.typeName t type field).map fun name => .named name t.kind
termination_by structural t

/-- How the field type of a reference reads outside of any field. -/
def resolvedName (options : Options) (t : SchemaType) : Except ResolutionError (Option String) :=
  (t.resolve options none none).map FieldType.displayName

/-- The first named type inside the wrappers of a reference. -/
def namedType (t : SchemaType) : Except ResolutionError SchemaType :=
  match t with
  | { name := some _, .. } => .ok t
  | { name := none, kind, ofType := some inner, .. } =>
    if kind.isWrapper then inner.namedType else .error (.neverNamed kind)
  | { name := none, kind, ofType := none, .. } => .error (.neverNamed kind)
termination_by structural t

end SchemaType

end GraphQLModels
