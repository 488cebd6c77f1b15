import GraphQLModels.Pagination
import GraphQLModels.Text.Blank

/-!
# Emission

A schema is compiled into one definition for each enum, object, interface and union, in schema
order. Scalars and input objects give none, nor do the types that are provided already or that
belong to introspection.
-/

namespace GraphQLModels

/-- Whether a type gives no definition because of its name. -/
def Options.skips (options : Options) (name : Option String) : Bool :=
  match name with
  | none => false
  | some name =>
    options.runtimeTypes.contains name || (Text.beginsWith name "__" && !options.introspectionTypes)

/-- A reason without white space at its end. -/
def cleanReason (reason : Option String) : Option String := reason.map Text.trimEnd

/-- The generated field for a field of a type. -/
def emitField (options : Options) (type : Option String) (readOnly : Bool) (field : SchemaField) :
    Except ResolutionError Field := do
  return {
    name := field.name
    type := ← field.type.resolve options type field.name
    description := field.description
    isDeprecated := field.isDeprecated
    deprecationReason := cleanReason field.deprecationReason
    readOnly }

/-- The generated fields for fields of a type. -/
def emitFields (options : Options) (type : Option String) (readOnly : Bool)
    (fields : List SchemaField) : Except ResolutionError (List Field) :=
  fields.mapM (emitField options type readOnly)

/-- The generated enum of an enum type. -/
def emitEnum (options : Options) (t : SchemaType) : EnumDef where
  name := t.name
  description := t.description
  values := t.enumValues.map fun v =>
    { v with deprecationReason := cleanReason v.deprecationReason }
  stringConstants := options.enumsAsText

def targetNames (options : Options) (types : List SchemaType) :
    Except ResolutionError (List String) :=
  types.mapM fun t => return nameText (← options.plainTypeName t)

/-- The discriminator map of implementers and their target names. -/
def discriminatorMap (implementers : List SchemaType) (targets : List String) :
    List (String × String) :=
  setKeys [] ((implementers.map fun t => nameText t.name).zip targets)

/-- The contract of a union: the fields that all its members share. -/
def emitUnion (options : Options) (schema : Schema) (t : SchemaType) :
    Report ResolutionError ContractDef := do
  let implementers ← schema.possibleTypesOf t
  let shared ← commonFields options implementers
  let fields ← emitFields options t.name false shared
  let targets ← targetNames options implementers
  return {
    kind := .union, name := contractName t.name, schemaName := t.name, fields
    possibleTypes := discriminatorMap implementers targets
    accessors := targets, description := t.description }

/-- The contract of an interface: the fields that no parent declares. A parent's contract narrows to
every implementer already, so only an interface without parents has accessors. -/
def emitInterface (options : Options) (schema : Schema) (t : SchemaType) :
    Report ResolutionError ContractDef := do
  let parents ← schema.interfacesOf t
  let implementers ← schema.possibleTypesOf t
  let accessors ← if parents.isEmpty then targetNames options implementers else pure []
  let fields ← emitFields options t.name true (ownFields t parents)
  let parentNames ← targetNames options parents
  let targets ← targetNames options implementers
  return {
    kind := .interface, name := contractName t.name, schemaName := t.name, fields
    parents := parentNames
    possibleTypes := discriminatorMap implementers targets
    accessors, description := t.description }

/-- The class of an object: its interfaces first, then the unions it is a member of. -/
def emitObject (options : Options) (schema : Schema) (t : SchemaType) :
    Report ResolutionError ObjectDef := do
  let interfaces ← targetNames options (← schema.interfacesOf t)
  let unions := (t.name.bind fun name => findKey? name schema.unionMembership).getD []
  -- A union whose contract is listed already adds nothing; the interfaces are all kept.
  let contracts := unions.foldl (fun known union =>
    let name := contractName union.name
    if known.contains name then known else known ++ [name]) interfaces
  let fields ← emitFields options t.name false t.fields
  let capabilities ← capabilities options schema t
  return {
    name := t.name, schemaName := t.name, fields, contracts, capabilities
    description := t.description }

/-- The definition of a type, if it gives one. -/
def emitType (options : Options) (schema : Schema) (t : SchemaType) :
    Report ResolutionError (Option Definition) :=
  match t.kind with
  | .scalar | .inputObject => pure none
  | kind =>
    -- The name is judged before the kind: a skipped type is no error even if its kind gives none.
    if options.skips t.name then pure none
    else
      match kind with
      | .enum => pure (some (.enum (emitEnum options t)))
      | .object => return some (.object (← emitObject options schema t))
      | .interface => return some (.contract (← emitInterface options schema t))
      | .union => return some (.contract (← emitUnion options schema t))
      | kind => throw (.unsupportedKind kind t.name)

/-- The definition of a type, told if there is one. -/
def emitNext (options : Options) (schema : Schema) (t : SchemaType) :
    Report ResolutionError (Option Definition) := do
  let definition ← emitType options schema t
  match definition with
  | some d =>
    Report.tell (.emitted d.kind d.name)
    return definition
  | none => return none

def emit (options : Options) (schema : Schema) : Report ResolutionError Module := do
  let definitions ← schema.types.mapM (emitNext options schema)
  let m : Module := {
    moduleName := options.moduleName
    definitions := definitions.filterMap id
    enumsAsText := options.enumsAsText }
  Report.tell (.finished m.enums.length (m.contracts .interface).length
    (m.contracts .union).length m.objects.length)
  return m

end GraphQLModels
