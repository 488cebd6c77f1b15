import GraphQLModels.Model.Scalar

/-!
# Worlds

A module takes things from outside: what import statements bind, built-in names, and annotations and
aliases that are more than names of the module. A world says what they are: which of them are types of
fields, and how the values of these types are read from JSON values and written as such.
-/

namespace GraphQLModels.Model

/-- The names that a module relies on wherever it uses them. -/
def reliedOnNames : List String :=
  ["_Enum", "_Annotated", "_ClassVar", "_List", "_Literal", "_Optional", "_Union", "__all__", "None",
    "isinstance", "str", "tuple"]

/-- What is outside of a module. -/
structure World where
  /-- The names that an import statement binds, unless it fails. -/
  imports : String → Option (List String)
  isType : Foreign → Bool
  read : Foreign → Form → Json → Decoded Value
  write : Foreign → Json → Json
  /-- The name of a class, for what is one. -/
  className? : Foreign → Option String
  isDerived : Foreign → Foreign → Bool
  /-- An import that takes over a name the module relies on is out of scope. -/
  keepsNames : ∀ statement names, imports statement = some names →
    ∀ name ∈ names, name ∉ reliedOnNames

/-- The world in which nothing outside is known. -/
def World.closed : World where
  imports _ := none
  isType _ := false
  read _ _ _ := .problem .modelType
  write _ content := content
  className? _ := none
  isDerived _ _ := false
  keepsNames := nofun

end GraphQLModels.Model
