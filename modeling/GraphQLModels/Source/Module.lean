import GraphQLModels.Definition

/-!
# Generated modules

A generated module as data, before it is written out: which names it binds, in which order, and what
each class is built from. Types stand in it as expressions over names.
-/

namespace GraphQLModels.Source

/-- A type as it stands in an annotation. -/
inductive TypeExpr where
  | name (text : String)
  | optional (inner : TypeExpr)
  | list (inner : TypeExpr)
deriving DecidableEq, Repr

def TypeExpr.text : TypeExpr → String
  | .name text => text
  | .optional inner => "_Optional[" ++ inner.text ++ "]"
  | .list inner => "_List[" ++ inner.text ++ "]"

/-- The name at the bottom of a type. -/
def TypeExpr.terminal : TypeExpr → String
  | .name text => text
  | .optional inner => inner.terminal
  | .list inner => inner.terminal

/-- An attribute of a generated class that holds a field. -/
structure Attribute where
  name : String
  type : TypeExpr
  /-- The schema name, where it differs from the attribute's. -/
  rename : Option String := none
  /-- Why the field is deprecated, if it is; the reason may be missing. -/
  deprecation : Option (Option String) := none
  readOnly : Bool := false
  description : Option String := none
deriving DecidableEq, Repr

/-- A member of a generated enum. -/
structure Member where
  name : String
  constant : String
  value : String
  description : Option String := none
  deprecation : Option String := none
deriving DecidableEq, Repr

/-- A generated enum class, perhaps with a companion class of text constants. -/
structure EnumClass where
  name : Option String
  description : Option String
  members : List Member
  stringConstants : Bool
deriving DecidableEq, Repr

/-- What a class is derived from. -/
inductive Base where
  | contract (name : String)
  | capability (kind : CapabilityKind)
  | model
deriving DecidableEq, Repr

/-- A method that narrows a contract to one implementer. -/
structure Accessor where
  method : String
  target : String
deriving DecidableEq, Repr

/-- A generated contract class. -/
structure ContractClass where
  name : String
  bases : List Base
  description : Option String
  implementers : List String
  attributes : List Attribute
  accessors : List Accessor
deriving DecidableEq, Repr

/-- A class variable that names a type. -/
structure ClassVariable where
  name : String
  value : String
deriving DecidableEq, Repr

/-- A generated class for an object type. -/
structure ObjectClass where
  name : Option String
  schemaName : Option String
  bases : List Base
  description : Option String
  classVariables : List ClassVariable
  attributes : List Attribute
deriving DecidableEq, Repr

/-- What the alias of a contract stands for. -/
inductive AliasValue where
  | one (name : String)
  | tagged (members : List String)
deriving DecidableEq, Repr

/-- The alias under which fields refer to a contract. -/
structure Alias where
  name : String
  value : AliasValue
deriving DecidableEq, Repr

/-- A generated module. -/
structure Module where
  title : String
  imports : List String
  enums : List EnumClass
  contracts : List ContractClass
  objects : List ObjectClass
  aliases : List Alias
deriving DecidableEq, Repr

namespace Module

/-- The names of the model classes in the order of their statements. -/
def models (m : Module) : List (Option String) :=
  m.contracts.map (fun c => some c.name) ++ m.objects.map (·.name)

/-- The name of the companion class of an enum. -/
def companionName (name : Option String) : String := nameText name ++ "StringValues"

def exported (m : Module) : List (Option String) :=
  m.enums.map (·.name) ++
    (m.enums.filter (·.stringConstants)).map (fun e => some (companionName e.name)) ++
    m.models ++ m.aliases.map fun a => some a.name

end Module

end GraphQLModels.Source
