import GraphQLModels.Json.File
import GraphQLModels.Text.Blank

/-!
# Options

What a run may be told: the name of the module, the targets of scalars, overrides for single fields,
and what else to emit. A configuration file gives the values as they stand, and none of them is looked
at before it is used.
-/

namespace GraphQLModels

/-- The settings of a run, with names and targets in some form. Mappings keep the order in which
their keys first came. -/
structure Settings (α : Type) where
  moduleName : α
  scalars : List (String × α) := []
  overrides : List ((String × String) × α) := []
  enumsAsText : Bool := false
  introspectionTypes : Bool := false
  runtimeTypes : List String := ["PageInfo"]
deriving Repr

abbrev Options := Settings String

/-- Why options cannot be understood. -/
inductive ConfigError where
  | notJson (path : String)
  | longInteger
  | notObject (path : String)
  | unknownKeys (keys : List String)
  | badOverrideKey (key : String)
  | overridesNotObject
  | pairNotIterable
  | pairWithoutTwo
  | keyWithParts
deriving Repr, DecidableEq

/-- The text of an error, for those whose text is part of the answer. -/
def ConfigError.message? : ConfigError → Option String
  | .notJson path => some s!"Config file {path} is not valid JSON"
  | .notObject path => some s!"Config file {path} must contain a JSON object"
  | .unknownKeys keys => some ("Unknown config keys: " ++ ", ".intercalate keys)
  | .badOverrideKey key => some s!"Override key '{key}' must look like 'TypeName.fieldName'"
  | _ => none

/-- Sets the value of a key: a known key keeps its place and takes the new value. -/
def setKey [BEq κ] (key : κ) (value : α) : List (κ × α) → List (κ × α)
  | [] => [(key, value)]
  | (known, old) :: rest =>
    if known == key then (known, value) :: rest else (known, old) :: setKey key value rest

/-- The first mapping with the entries of the second set on top. -/
def setKeys [BEq κ] (base entries : List (κ × α)) : List (κ × α) :=
  entries.foldl (fun m entry => setKey entry.1 entry.2 m) base

def findKey? [BEq κ] (key : κ) (entries : List (κ × α)) : Option α :=
  (entries.find? fun entry => entry.1 == key).map (·.2)

/-- Splits the key of an override at its first point. -/
def overrideKey (key : String) : Except ConfigError (String × String) :=
  match Text.splitFirst '.' key with
  | some (type, field) =>
    if type.isEmpty || field.isEmpty then .error (.badOverrideKey key) else .ok (type, field)
  | none => .error (.badOverrideKey key)

/-- Reads overrides whose keys name a type and a field. -/
def readOverrides (raw : List (String × α)) :
    Except ConfigError (List ((String × String) × α)) := do
  let entries ← raw.mapM fun (key, target) => return (← overrideKey key, target)
  return setKeys [] entries

/-- Settings that are changed on top of others. -/
structure Changes (α : Type) where
  moduleName : Option α := none
  scalars : List (String × α) := []
  overrides : List ((String × String) × α) := []
  enumsAsText : Option Bool := none
  introspectionTypes : Option Bool := none
  runtimeTypes : Option (List String) := none
deriving Repr

namespace Settings

def initial (moduleName : α) : Settings α := { moduleName }

/-- Sets the changes on top: mappings take over the entries, everything else is replaced. -/
def merged (s : Settings α) (changes : Changes α) : Settings α where
  moduleName := changes.moduleName.getD s.moduleName
  scalars := setKeys s.scalars changes.scalars
  overrides := setKeys s.overrides changes.overrides
  enumsAsText := changes.enumsAsText.getD s.enumsAsText
  introspectionTypes := changes.introspectionTypes.getD s.introspectionTypes
  runtimeTypes := changes.runtimeTypes.getD s.runtimeTypes

def scalar? (s : Settings α) (name : String) : Option α := findKey? name s.scalars

def override? (s : Settings α) (type field : String) : Option α :=
  findKey? (type, field) s.overrides

def defaultName : String := "generated"

def configKeys : List String :=
  ["namespace", "scalars", "overrides", "enumMembersAsString", "includeIntrospectionTypes"]

def pairParts : Json → Except ConfigError (List Json)
  | .arr items => .ok items
  | .obj members => .ok (members.map fun member => .str member.1)
  | .str s => .ok (s.toList.map fun c => .str (String.singleton c))
  | _ => .error .pairNotIterable

/-- A pair of a key and a value. Only a list or an object is no key. -/
def readPair (pair : Json) : Except ConfigError (String × Json) := do
  match ← pairParts pair with
  | [.arr _, _] | [.obj _, _] => throw .keyWithParts
  | [key, value] => return (key.asText, value)
  | _ => throw .pairWithoutTwo

/-- A mapping, given as an object or as a list of pairs. -/
def readMapping (value : Json) : Except ConfigError (List (String × Json)) :=
  if !value.isGiven then .ok []
  else
    match value with
    | .obj members => .ok members
    | .arr items => do return setKeys [] (← items.mapM readPair)
    | .str s => do
      let items := s.toList.map fun c => Json.str (String.singleton c)
      return setKeys [] (← items.mapM readPair)
    | _ => .error .pairNotIterable

/-- Reads the settings that a configuration gives. -/
def ofConfig (config : List (String × Json)) : Except ConfigError (Settings Json) := do
  let unknown := (config.map (·.1)).filter fun key => !configKeys.contains key
  if !config.all fun entry => configKeys.contains entry.1 then
    throw (.unknownKeys (unknown.mergeSort fun a b => a ≤ b))
  let value := fun key => (findKey? key config).getD .null
  let scalars ← readMapping (value "scalars")
  let overrides ← match value "overrides" with
    | .obj members => readOverrides members
    | raw => if raw.isGiven then throw .overridesNotObject else pure []
  return {
    moduleName := (findKey? "namespace" config).getD (.str defaultName)
    scalars, overrides
    enumsAsText := (value "enumMembersAsString").isGiven
    introspectionTypes := (value "includeIntrospectionTypes").isGiven }

/-- Reads the settings that the text of a configuration file gives. -/
def ofConfigText (path text : String) : Except ConfigError (Settings Json) :=
  match Json.load text with
  | .ok (.obj members) => ofConfig members
  | .ok _ => .error (.notObject path)
  | .error .notJson => .error (.notJson path)
  | .error .longInteger => .error .longInteger

/-- The entries of a mapping as texts. A null target is as good as none, an empty one is not, and one
that is no text makes a difference only to a module in which it is written. -/
def targetTexts (entries : List (κ × Json)) : List (κ × String) :=
  entries.filterMap fun (key, target) =>
    match target with
    | .null => none
    | target => some (key, target.asText)

/-- The settings as a run uses them. -/
def toOptions (s : Settings Json) : Options where
  moduleName := s.moduleName.display
  scalars := targetTexts s.scalars
  overrides := targetTexts s.overrides
  enumsAsText := s.enumsAsText
  introspectionTypes := s.introspectionTypes
  runtimeTypes := s.runtimeTypes

end Settings

end GraphQLModels
