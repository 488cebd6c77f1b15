import GraphQLModels.Model.Failure
import GraphQLModels.Model.Loading

/-!
# References between classes

Classes name others, which are found when they are needed: among what the module binds, and then
among the built-in names. What a document for a class may hold follows from the class: a contract
stands for its implementers.
-/

namespace GraphQLModels.Model.Library

/-- What a name means that a class refers to, if it means anything. Null is not told from what is
not there. -/
def found? (lib : Library) (name : String) : Option Binding :=
  ((lib.binding? name).filter (· != .null)).orElse fun _ =>
    (builtinBinding? name).filter (· != .null)

/-- What a name is bound to that the class at a place refers to. -/
def resolve (lib : Library) (place : Nat) (name : String) : Except Failure Binding :=
  match lib.found? name with
  | some binding => .ok binding
  | none => .error (.undefined name (((lib.class? place).map (·.home)).getD ""))

/-- What a name of the module is bound to. -/
def lookup (lib : Library) (name : String) : Except Failure Binding :=
  match lib.binding? name with
  | some binding => .ok binding
  | none => .error (.noAttribute name)

/-- Whether the class at a place is a model. -/
def isModel (lib : Library) (place : Nat) : Bool :=
  ((lib.class? place).map (·.isModel)).getD false

/-- The shape of a choice, if its classes can be told apart. -/
def choiceShape (lib : Library) (places : List Nat) : Except Failure Shape :=
  if areTagged lib.classes places then .ok (.choice places) else .error .noTag

/-- The shape of the values of what a name is bound to. -/
def boundShape (lib : Library) : Binding → Except Failure Shape
  | .scalar type => .ok (.scalar type)
  | .enum place => .ok (.enum place)
  | .cls place => if lib.isModel place then .ok (.model place) else .error .noShape
  | .choice places => lib.choiceShape places
  | .mixture => .error .wrongType
  | .null => .ok .null
  | .constants _ => .error .noShape
  | .foreign of => if lib.world.isType of then .ok (.foreign of) else .error .noShape

/-- The place of a class that a name is bound to. -/
def placeOf : Binding → Except Failure Nat
  | .cls place => .ok place
  | _ => .error .wrongType

/-- The shape of documents for the class at a place: a contract with implementers of its own stands
for these. -/
def documentShape (lib : Library) (place : Nat) : Except Failure Shape := do
  -- Implementers that stand above the class do not count here: a class is no contract because its
  -- bases are.
  match ((lib.class? place).bind (·.implementers)).getD [] with
  | [] => return .model place
  | [name] => lib.boundShape (← lib.resolve place name)
  | names =>
    let bindings ← names.mapM (lib.resolve place)
    lib.choiceShape (← bindings.mapM placeOf)

/-- The name of the class that a name is bound to. -/
def boundName (lib : Library) (name : String) : Binding → String
  | .scalar type => type.className
  | .enum place => ((lib.enums[place]?).map (·.name)).getD name
  | .cls place => ((lib.class? place).map (·.name)).getD name
  | .choice _ | .mixture => "Union"
  | .foreign of => (lib.world.className? of).getD name
  | .constants _ | .null => name

/-- The name of the type that a variable of the class at a place names. -/
def namedType (lib : Library) (place : Nat) (variableName : String) : Except Failure String := do
  let some name := lib.classVariable? place variableName | throw (.noAttribute variableName)
  return lib.boundName name (← lib.resolve place name)

/-- The name of the node type of the class at a place. -/
def nodeTypeName (lib : Library) (place : Nat) : Except Failure String :=
  lib.namedType place "node_type_name"

/-- The name of the edge type of the class at a place. -/
def edgeTypeName (lib : Library) (place : Nat) : Except Failure String :=
  lib.namedType place "edge_type_name"

end GraphQLModels.Model.Library
