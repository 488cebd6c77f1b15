/-!
# Events

What a run tells about its progress when it is asked to be verbose: one line for each event, in the
order in which they came about.
-/

namespace GraphQLModels

/-- The text of a name that may be missing. -/
def nameText (name : Option String) : String := name.getD "None"

/-- The kinds of definitions. -/
inductive DefinitionKind where
  | enum | interface | union | object
deriving DecidableEq, Repr

/-- The word for a kind of definition in a line of the log. -/
def DefinitionKind.label : DefinitionKind → String
  | .enum => "IREnum"
  | .interface => "IRInterface"
  | .union => "IRUnion"
  | .object => "IRClass"

/-- A step of a run. -/
inductive Event where
  | requested (url : String)
  | documentRead (types : Nat)
  | withoutNodes (connection : Option String)
  | emitted (kind : DefinitionKind) (name : Option String)
  | finished (enums interfaces unions objects : Nat)
deriving DecidableEq, Repr

/-- The line of the log that tells an event. -/
def Event.line : Event → String
  | .requested url => s!"DEBUG gql_typegen.core.fetcher: POST {url}"
  | .documentRead types =>
    s!"DEBUG gql_typegen.core.parser: Parsed {types} types from introspection document"
  | .withoutNodes connection =>
    s!"DEBUG gql_typegen.core.patterns: {nameText connection} has neither edges nor nodes; " ++
      "no pagination capability"
  | .emitted kind name => s!"DEBUG gql_typegen.core.emitter: Emitted {kind.label} {nameText name}"
  | .finished enums interfaces unions objects =>
    s!"INFO gql_typegen.core.emitter: Generated {enums} enums, {interfaces} interfaces, " ++
      s!"{unions} unions, {objects} classes"

end GraphQLModels
