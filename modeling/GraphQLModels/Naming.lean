import GraphQLModels.Options
import GraphQLModels.Report
import GraphQLModels.Schema.Basic

/-!
# Target names

The name that a schema type has among the generated types. For scalar and enum fields an override
comes first; enums may be read as texts; scalars need a configured or a built-in target; interfaces
and unions share a namespace with the objects, so their names carry a mark.
-/

namespace GraphQLModels

/-- Why a type or a reference has no target. -/
inductive ResolutionError where
  | unknownScalar (scalar : Option String) (type field : Option String)
  | unsupportedKind (kind : TypeKind) (name : Option String)
  | openWrapper (kind : TypeKind)
  | neverNamed (kind : TypeKind)
deriving DecidableEq, Repr

/-- A name that is neither missing nor empty. -/
def givenName? (name : Option String) : Option String := name.filter fun s => !s.isEmpty

def ResolutionError.message : ResolutionError → String
  | .unknownScalar scalar type field =>
    let place := match givenName? type, givenName? field with
      | some type, some field => s!" (used by {type}.{field})"
      | _, _ => ""
    s!"Unknown scalar type '{nameText scalar}'{place}. " ++
      "Please provide a target type for this type."
  | .unsupportedKind kind name =>
    let place := match givenName? name with
      | some name => s!" on type '{name}'"
      | none => ""
    s!"Unexpected type kind 'TypeKind.{kind.label}'{place}"
  | .openWrapper kind =>
    s!"{kind.label} wrapper has no ofType; the schema nests " ++
      "wrappers deeper than the introspection query fetched"
  | .neverNamed kind => s!"Type reference of kind {kind.label} never reaches a named type"

def textTarget : String := "str"

/-- The scalars that every schema has, with their targets. -/
def builtinScalars : List (String × String) :=
  [("String", textTarget), ("Int", "int"), ("Float", "float"), ("Boolean", "bool"),
    ("ID", textTarget)]

/-- The name of the contract that an interface or union becomes. -/
def contractName (name : Option String) : String := "I" ++ nameText name

namespace Options

/-- The override for a field of a type. -/
def overrideAt? (options : Options) (type field : Option String) : Option String :=
  match type, field with
  | some type, some field => options.override? type field
  | _, _ => none

/-- The target that a scalar has wherever no override applies. -/
def scalarTarget? (options : Options) (scalar : String) : Option String :=
  (options.scalar? scalar).orElse fun _ => findKey? scalar builtinScalars

/-- The target name of a schema type, used by a field of a type if both are given. -/
def typeName (options : Options) (t : SchemaType) (type field : Option String) :
    Except ResolutionError (Option String) :=
  match t.kind with
  | .enum =>
    match options.overrideAt? type field with
    | some target => .ok (some target)
    | none => .ok (if options.enumsAsText then some textTarget else t.name)
  | .scalar =>
    match (options.overrideAt? type field).orElse fun _ => t.name.bind options.scalarTarget? with
    | some target => .ok (some target)
    | none => .error (.unknownScalar t.name type field)
  | .object | .inputObject => .ok t.name
  | .interface | .union => .ok (some (contractName t.name))
  -- Wrappers are taken off before a name is asked for.
  | .list | .nonNull => .error (.unsupportedKind t.kind t.name)

/-- The target name of a schema type outside of any field. -/
def plainTypeName (options : Options) (t : SchemaType) : Except ResolutionError (Option String) :=
  options.typeName t none none

end Options

end GraphQLModels
