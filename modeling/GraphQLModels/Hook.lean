import GraphQLModels.Definition
import GraphQLModels.Text.Affix
import GraphQLModels.Text.Blank

/-!
# Hooks

A filter chooses definitions by the ends of their schema names before a module is rendered; a header
goes in front of the rendered text. A dropped class also leaves the discriminator maps and accessors
of the contracts that are kept.
-/

namespace GraphQLModels

/-- Chooses names by how they begin and end; an empty text or none asks for nothing. -/
structure NameFilter where
  excludedStart : Option String := none
  excludedEnd : Option String := none
  requiredStart : Option String := none
  requiredEnd : Option String := none
deriving Repr, DecidableEq

namespace NameFilter

/-- Whether a test is asked for and holds. -/
def asked (part : Option String) (holds : String → Bool) : Bool :=
  match part with
  | some s => !s.isEmpty && holds s
  | none => false

def keeps (f : NameFilter) (name : String) : Bool :=
  !(asked f.excludedStart fun s => Text.beginsWith name s) &&
  !(asked f.excludedEnd fun s => Text.endsWith name s) &&
  !(asked f.requiredStart fun s => !Text.beginsWith name s) &&
  !(asked f.requiredEnd fun s => !Text.endsWith name s)

/-- Whether a definition without a schema name can be judged: only if no part asks for a test. -/
def asksNothing (f : NameFilter) : Bool :=
  [f.excludedStart, f.excludedEnd, f.requiredStart, f.requiredEnd].all fun part =>
    !asked part fun _ => true

/-- Whether a definition is kept. A definition without a schema name fits only a filter that asks
for nothing. -/
def keepsDefinition (f : NameFilter) (d : Definition) : Bool :=
  match d.schemaName with
  | some name => f.keeps name
  | none => f.asksNothing

/-- Whether the filter can judge every definition. -/
def applies (f : NameFilter) (definitions : List Definition) : Bool :=
  f.asksNothing || definitions.all fun d => d.schemaName.isSome

end NameFilter

/-- The contract without the entries that target a dropped class. -/
def ContractDef.without (d : ContractDef) (dropped : List String) : ContractDef :=
  { d with
    possibleTypes := d.possibleTypes.filter fun entry => !dropped.contains entry.2
    accessors := d.accessors.filter fun target => !dropped.contains target }

/-- The definition without the entries that target a dropped class. -/
def Definition.without (dropped : List String) : Definition → Definition
  | .contract d => .contract (d.without dropped)
  | d => d

namespace NameFilter

/-- The classes that a filter drops, no kept definition having their name. -/
def dropped (f : NameFilter) (definitions : List Definition) : List String :=
  let kept := (definitions.filter f.keepsDefinition).filterMap Definition.name
  ((definitions.filterMap Definition.object?).filterMap (·.name)).filter fun name =>
    -- Two definitions may share a name; entries that target it stay while one of them is kept.
    !kept.contains name

/-- The definitions that a filter keeps, without references to the classes it drops. -/
def run (f : NameFilter) (definitions : List Definition) : List Definition :=
  let dropped := f.dropped definitions
  (definitions.filter f.keepsDefinition).map (Definition.without dropped)

end NameFilter

/-- A step before or after rendering. -/
inductive Hook where
  | filter (f : NameFilter)
  | header (text : String)
deriving Repr, DecidableEq

namespace Hook

def filter? : Hook → Option NameFilter
  | .filter f => some f
  | .header _ => none

def header? : Hook → Option String
  | .filter _ => none
  | .header text => some text

/-- The definitions after every filter, in the order of the hooks. -/
def runFilters (hooks : List Hook) (definitions : List Definition) : List Definition :=
  (hooks.filterMap filter?).foldl (fun definitions f => f.run definitions) definitions

/-- Whether every filter can judge every definition. -/
def canFilter (hooks : List Hook) (definitions : List Definition) : Bool :=
  (hooks.filterMap filter?).all fun f => f.applies definitions

/-- A text with a header and an empty line in front of it. -/
def putHeader (content header : String) : String := Text.trimLineFeeds header ++ "\n\n" ++ content

/-- The text after every header, in the order of the hooks. -/
def runHeaders (hooks : List Hook) (content : String) : String :=
  (hooks.filterMap header?).foldl putHeader content

end Hook

end GraphQLModels
