import GraphQLModels.FieldType
import GraphQLModels.Report

/-!
# Relations between types

References from a type to others are resolved through the type table. The members of a union are
indexed by object, the fields that all members share are found by name and resolved type, and an
interface is told from its parents by the fields that they do not declare.
-/

namespace GraphQLModels

/-- The relations that a type states by a list of references. -/
inductive Relation where
  | interfaces | possibleTypes
deriving DecidableEq, Repr

/-- The name of a relation in a document. -/
def Relation.label : Relation → String
  | .interfaces => "interfaces"
  | .possibleTypes => "possibleTypes"

namespace Schema

/-- Resolves references after those whose names are seen: each name once, in order; a repeated name
and a name that is not in the table are reported and dropped. -/
def resolveFrom (schema : Schema) (owner : Option String) (relation : Relation)
    (seen : List String) : List SchemaType → List Warning × List SchemaType
  | [] => ([], [])
  | reference :: rest =>
    match reference.name, schema.resolve? reference with
    | some name, some full =>
      if seen.contains name then
        let (warnings, found) := schema.resolveFrom owner relation seen rest
        (.repeatedReference owner relation.label name :: warnings, found)
      else
        let (warnings, found) := schema.resolveFrom owner relation (name :: seen) rest
        (warnings, full :: found)
    -- A reference without a name ends up here as well: nothing can be looked up for it.
    | name, _ =>
      let (warnings, found) := schema.resolveFrom owner relation seen rest
      (.unknownReference owner relation.label name :: warnings, found)

/-- The types that a list of references names. -/
def resolveReferences (schema : Schema) (owner : Option String) (relation : Relation)
    (references : List SchemaType) : Report ε (List SchemaType) :=
  let (warnings, found) := schema.resolveFrom owner relation [] references
  ⟨warnings, [], .ok found⟩

/-- The types that implement an interface or belong to a union. -/
def possibleTypesOf (schema : Schema) (t : SchemaType) : Report ε (List SchemaType) :=
  schema.resolveReferences t.name .possibleTypes t.possibleTypes

def interfacesOf (schema : Schema) (t : SchemaType) : Report ε (List SchemaType) :=
  schema.resolveReferences t.name .interfaces t.interfaces

/-- The unions that list a type as a member, in schema order. -/
def unionsOf (schema : Schema) (name : String) : List SchemaType :=
  (schema.ofKind .union).filter fun union =>
    union.possibleTypes.any fun member => member.name == some name

/-- The members of all unions in the order in which they are first listed. -/
def unionMembers (schema : Schema) : List String :=
  ((schema.ofKind .union).flatMap fun union => union.possibleTypes.filterMap (·.name)).eraseDups

/-- The index from member names to their unions. -/
def unionMembership (schema : Schema) : List (String × List SchemaType) :=
  schema.unionMembers.map fun name => (name, schema.unionsOf name)

end Schema

/-- What two fields must agree in to be one: how the type reads and the name. -/
abbrev FieldKey := Option String × Option String

def fieldKey (options : Options) (field : SchemaField) : Except ResolutionError FieldKey := do
  return (← field.type.resolvedName options, field.name)

/-- The first field for each key, in order. -/
def firstByKey (seen : List FieldKey) : List (FieldKey × SchemaField) →
    List (FieldKey × SchemaField)
  | [] => []
  | (key, field) :: rest =>
    if seen.contains key then firstByKey seen rest
    else (key, field) :: firstByKey (key :: seen) rest

def keyedFields (options : Options) (fields : List SchemaField) :
    Except ResolutionError (List (FieldKey × SchemaField)) :=
  fields.mapM fun field => return (← fieldKey options field, field)

/-- Keeps the fields whose keys each further type has too. -/
def sharedWith (options : Options) (shared : List (FieldKey × SchemaField)) :
    List SchemaType → Except ResolutionError (List (FieldKey × SchemaField))
  | [] => .ok shared
  | t :: rest => do
    let keys := (← keyedFields options t.fields).map (·.1)
    sharedWith options (shared.filter fun entry => keys.contains entry.1) rest

/-- The fields that all types declare with one name and one resolved type, in the order of the first
type. -/
def commonFields (options : Options) : List SchemaType → Except ResolutionError (List SchemaField)
  | [] => .ok []
  | first :: rest => do
    let own := firstByKey [] (← keyedFields options first.fields)
    return (← sharedWith options own rest).map (·.2)

/-- The names of the fields that the parents declare. -/
def inheritedNames (parents : List SchemaType) : List (Option String) :=
  (parents.flatMap fun parent => parent.fields.map (·.name)).eraseDups

/-- The fields of an interface that no parent declares. -/
def ownFields (interface : SchemaType) (parents : List SchemaType) : List SchemaField :=
  interface.fields.filter fun field => !(inheritedNames parents).contains field.name

end GraphQLModels
