import GraphQLModels.Contract.Hierarchy
import GraphQLModels.Identifier
import GraphQLModels.Import
import GraphQLModels.Source.Module
import GraphQLModels.Text.Words

/-!
# Laying out a module

The definitions of a run become the classes of a generated module: contracts with parents before
children and bases thinned out, fields under escaped names with nullable types, imports for the
targets of scalars, and an alias for each contract.
-/

namespace GraphQLModels

namespace Source

/-- Why definitions cannot be laid out: something that needs a name has none. -/
inductive LayoutError where
  | namelessField
  | namelessValue
  | namelessScalar
  | namelessDefinition
deriving DecidableEq, Repr

/-- What laying out has recourse to: the imports of scalars and the names that are defined. -/
structure Context where
  imports : ImportTable
  definitions : List Definition

namespace Context

/-- The names of the enums that are rendered. -/
def enumNames (ctx : Context) : List (Option String) :=
  (ctx.definitions.filterMap Definition.enum?).map (·.name)

def defines (ctx : Context) (name : String) : Bool :=
  ctx.definitions.any fun d => d.name == some name

end Context

/-- The suffix that tells the alias of a contract from the contract. -/
def aliasSuffix : String := "Value"

/-- The scalar target that the bottom of a field type refers to, if it refers to one. A name that
was put in place of an enum counts as one. -/
def scalarReference? (ctx : Context) (type : FieldType) : Option (Option String) :=
  match type.terminalKind with
  | .scalar => some type.terminalName
  | .enum => if ctx.enumNames.contains type.terminalName then none else some type.terminalName
  | _ => none

/-- The name that a field type refers to, as it stands in an annotation. -/
def referenceName (ctx : Context) (type : FieldType) : Except LayoutError String :=
  match scalarReference? ctx type with
  | some (some target) => .ok (ctx.imports.resolve target).1
  | some none => .error .namelessScalar
  | none =>
    match type.terminalKind with
    | .interface | .union => .ok (nameText type.terminalName ++ aliasSuffix)
    | _ => .ok (nameText type.terminalName)

/-- The annotation of a field type over the name at its bottom. It is optional at every level,
whatever the levels say of themselves. -/
def nullableType (name : String) : FieldType → TypeExpr
  | .leaf _ _ _ => .optional (.name name)
  | .level inner _ => .optional (.list (nullableType name inner))

/-- The import statement that a field type needs. -/
def typeImport? (ctx : Context) (type : FieldType) : Option String :=
  match scalarReference? ctx type with
  | some (some target) => (ctx.imports.resolve target).2
  | _ => none

def attributeOf (ctx : Context) (field : Field) : Except LayoutError Attribute := do
  let some name := field.name | throw .namelessField
  let identifier := IdentifierUse.field.escape name
  let reference ← referenceName ctx field.type
  return {
    name := identifier
    type := nullableType reference field.type
    -- The schema's name is written down only where the escaped one differs from it.
    rename := if identifier == name then none else some name
    deprecation := if field.isDeprecated then some (givenName? field.deprecationReason) else none
    readOnly := field.readOnly
    description := field.description }

def member (value : EnumValue) : Except LayoutError Member := do
  let some name := value.name | throw .namelessValue
  return {
    name := IdentifierUse.enumMember.escape name
    constant := IdentifierUse.constant.escape name
    value := name
    description := value.description
    deprecation :=
      if value.isDeprecated then some ((givenName? value.deprecationReason).getD "deprecated")
      else none }

def enumClass (d : EnumDef) : Except LayoutError EnumClass := do
  return {
    name := d.name, description := d.description
    members := ← d.values.mapM member
    stringConstants := d.stringConstants }

/-- The bases of a contract: the parents that no other parent implies. -/
def contractBases (ancestors : Contract.Ancestors) (d : ContractDef) : List Base :=
  match Contract.reduceBases ancestors d.parents with
  | [] => [.model]
  | parents => parents.map .contract

def contractClass (ctx : Context) (ancestors : Contract.Ancestors) (d : ContractDef) :
    Except LayoutError ContractClass := do
  return {
    name := d.name
    bases := contractBases ancestors d
    description := d.description
    implementers := d.possibleTypes.map (·.2)
    accessors := d.accessors.map fun target => ⟨"as_" ++ Text.snakeCase target, target⟩
    attributes := ← d.fields.mapM (attributeOf ctx) }

/-- The bases of a class: its contracts that no other contract implies, its capabilities, and the
common base of all models if it has no contract. -/
def objectBases (ancestors : Contract.Ancestors) (d : ObjectDef) : List Base :=
  (Contract.reduceBases ancestors d.contracts).map .contract ++
    d.capabilities.map (fun c => .capability c.kind) ++
    -- It is the contracts as listed that count here; of a list that is not empty some are left over
    -- after thinning out, unless they imply each other in a circle.
    (if d.contracts.isEmpty then [.model] else [])

/-- The name a node type is bound to, and the import it needs. -/
def nodeReference (ctx : Context) (target : String) : String × Option String :=
  -- A node type that is defined here is bound by its own class and needs no import.
  if ctx.defines target then (target, none) else ctx.imports.resolve target

def capabilityVariables (ctx : Context) (c : Capability) : List ClassVariable :=
  ⟨"node_type_name", (nodeReference ctx c.nodeType).1⟩ ::
    (c.edgeType.map fun edge => ⟨"edge_type_name", edge⟩).toList

def objectClass (ctx : Context) (ancestors : Contract.Ancestors) (d : ObjectDef) :
    Except LayoutError ObjectClass := do
  return {
    name := d.name, schemaName := d.schemaName
    bases := objectBases ancestors d
    description := d.description
    classVariables := d.capabilities.flatMap (capabilityVariables ctx)
    attributes := ← d.fields.mapM (attributeOf ctx) }

/-- The alias of a contract: the contract itself without implementers, the only implementer, or a
choice told apart by the name of the schema type. -/
def contractAlias (d : ContractDef) : Alias where
  name := d.name ++ aliasSuffix
  value :=
    match d.possibleTypes.map (·.2) with
    | [] => .one d.name
    | [only] => .one only
    | members => .tagged members

/-- The import statements that definitions need, sorted and each once, without empty ones. -/
def neededImports (ctx : Context) (contracts : List ContractDef) (objects : List ObjectDef) :
    List String :=
  let fields := contracts.flatMap (·.fields) ++ objects.flatMap (·.fields)
  let nodes := objects.flatMap fun d => d.capabilities.map (·.nodeType)
  let needed := fields.filterMap (fun f => typeImport? ctx f.type) ++
    nodes.filterMap fun target => (nodeReference ctx target).2
  ((needed.filter fun statement => !statement.isEmpty).mergeSort fun a b => a ≤ b).eraseDups

/-- The module of a list of definitions. -/
def layOut (title : String) (imports : ImportTable) (definitions : List Definition) :
    Except LayoutError Module := do
  let ctx : Context := { imports, definitions }
  -- Ancestors are collected from the ordered contracts: there the parents of each are known.
  let contracts := Contract.ordered (definitions.filterMap Definition.contract?)
  let objects := definitions.filterMap Definition.object?
  let ancestors := Contract.ancestors contracts
  let contractClasses ← contracts.mapM (contractClass ctx ancestors)
  let objectClasses ← objects.mapM (objectClass ctx ancestors)
  let enums ← (definitions.filterMap Definition.enum?).mapM enumClass
  return {
    title, enums
    imports := neededImports ctx contracts objects
    contracts := contractClasses
    objects := objectClasses
    aliases := contracts.map contractAlias }

end Source

end GraphQLModels
