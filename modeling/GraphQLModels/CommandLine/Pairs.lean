import GraphQLModels.Options
import GraphQLModels.Text.Quoted

/-!
# Pairs on the command line

Options that may be given again and again hold a key and a value with a separator between them. They
change the settings that a configuration file gives.
-/

namespace GraphQLModels.CommandLine

/-- A value that is no pair of a key and a value. -/
structure PairError where
  name : String
  separator : Char
  value : String
deriving DecidableEq, Repr

def PairError.message (e : PairError) : String :=
  s!"Invalid value for {e.name}: expected KEY{e.separator}VALUE, got {Text.quoted e.value}"

/-- The key and the value of a pair, without white space around them; neither may be empty. -/
def readPair (name : String) (separator : Char) (value : String) :
    Except PairError (String × String) :=
  match Text.splitFirst separator value with
  | some (key, item) =>
    let pair := (Text.trim key, Text.trim item)
    if pair.1.isEmpty || pair.2.isEmpty then .error ⟨name, separator, value⟩ else .ok pair
  | none => .error ⟨name, separator, value⟩

/-- The mapping that repeated pairs give: a key that comes again takes the last value. -/
def readPairs (name : String) (separator : Char) (values : List String) :
    Except PairError (List (String × String)) := do
  return setKeys [] (← values.mapM (readPair name separator))

/-- Why the settings of a run cannot be understood. -/
inductive SettingsError where
  | config (e : ConfigError)
  | pair (e : PairError)
deriving Repr, DecidableEq

/-- The text of an error, for those whose text is part of the answer. -/
def SettingsError.message? : SettingsError → Option String
  | .config e => e.message?
  | .pair e => some e.message

/-- What the command line says about the settings. -/
structure SettingArguments where
  /-- The path and the text of a configuration file. -/
  config : Option (String × String) := none
  moduleName : Option String := none
  scalars : List String := []
  overrides : List String := []
  enumsAsText : Bool := false

/-- The changes that the command line makes. -/
def SettingArguments.changes (a : SettingArguments) : Except SettingsError (Changes Json) := do
  let scalars ← (readPairs "--scalar" '=' a.scalars).mapError SettingsError.pair
  let overrides ← (readPairs "--override" '=' a.overrides).mapError SettingsError.pair
  let overrides ← (readOverrides overrides).mapError SettingsError.config
  return {
    moduleName := (a.moduleName.filter fun name => !name.isEmpty).map Json.str
    scalars := scalars.map fun (key, target) => (key, .str target)
    overrides := overrides.map fun (key, target) => (key, .str target)
    enumsAsText := if a.enumsAsText then some true else none }

/-- The settings of a run: those of the configuration file with the changes of the command line on
top. -/
def SettingArguments.settings (a : SettingArguments) : Except SettingsError (Settings Json) := do
  let base ← match a.config with
    | some (path, text) => (Settings.ofConfigText path text).mapError SettingsError.config
    | none => .ok (.initial (.str Settings.defaultName))
  return base.merged (← a.changes)

end GraphQLModels.CommandLine
