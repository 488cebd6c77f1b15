import GraphQLModels.Model.Encoding
import GraphQLModels.Model.NodeSource
import GraphQLModels.Model.Reference

/-!
# Attributes and methods

What can be asked of a value by name: its attributes, the variables of its class, and methods
without arguments, which are searched in the order of the class. Attributes can be set unless they
are read-only; a value is taken as it stands then.
-/

namespace GraphQLModels.Model

/-- The class variable that holds the implementers of a contract. -/
def implementersName : String := "graphql_implementers"

namespace Library

/-- What an object has from the class at a place under a name. -/
def sharedAttribute? (lib : Library) (place : Nat) (name : String) : Option Value :=
  if name == implementersName then
    (lib.implementers? place).map fun names => .list (names.map .text)
  else (lib.classVariable? place name).map .text

/-- What a value has under a name, its methods apart. -/
def attributeOf (lib : Library) (value : Value) (name : String) : Except Failure Value :=
  match value.own? name, value with
  | some own, _ => .ok own
  | none, .object _ place _ =>
    match lib.sharedAttribute? place name with
    | some shared => .ok shared
    | none => .error (.noAttribute name)
  | none, .member _ memberName text =>
    if name == "name" then .ok (.text memberName)
    else if name == "value" then .ok (.text text)
    else .error (.noAttribute name)
  | none, _ => .error (.noAttribute name)

/-- What a value has under a name, or null. -/
def attributeOrNull (value : Value) (name : String) : Value := (value.own? name).getD .null

/-- Whether the module can test what is an instance of a class: the built-in test is hidden if one of
its own classes is called like it. -/
def testsInstances (lib : Library) : Bool :=
  match lib.binding? "isinstance" with
  | none => true
  | some binding => binding == .foreign (.builtin "isinstance")

/-- The value if it is an object of the class to which a name is bound, null if it is not. -/
def narrow (lib : Library) (value : Value) (place : Nat) (target : String) :
    Except Failure Value :=
  if !lib.testsInstances then .error .wrongType
  else
    match (lib.binding? target).orElse fun _ => builtinBinding? target with
    | some (.cls base) => .ok (if lib.isDerived place base then value else .null)
    -- Everything is an object, while nothing can be tested against any type.
    | some (.scalar .any) => if target == "object" then .ok value else .error .wrongType
    -- These are classes that no object of the library is an instance of.
    | some (.enum _) | some (.constants _) | some (.scalar _) => .ok .null
    | some (.foreign of) =>
      if (lib.world.className? of).isSome then .ok .null else .error .wrongType
    | some (.choice _) | some .mixture | some .null => .error .wrongType
    | none => .error (.unbound target)

def nodeSource (value : Value) : SourceKind → Except Failure NodeSource
  | .none => .error .noSource
  | .nodes => .ok (.nodes (attributeOrNull value "nodes"))
  | .edges => .ok (.edges (attributeOrNull value "edges"))
  | .both => .ok (.both (attributeOrNull value "nodes") (attributeOrNull value "edges"))

/-- The source that the class at a place gives for a connection. -/
def sourceOf (lib : Library) (value : Value) (place : Nat) : Except Failure NodeSource :=
  match lib.method? place "node_source" with
  | some (.nodeSource kind) => nodeSource value kind
  | _ => .error .noSource

/-- Carries out a method on an object of the class at a place. -/
def perform (lib : Library) (value : Value) (place : Nat) : Method → Except Failure Value
  | .narrow target => lib.narrow value place target
  | .nodeSource kind => (nodeSource value kind).map NodeSource.record
  | .nodes => do (← lib.sourceOf value place).listNodes
  | .pageInfo => .ok (attributeOrNull value "pageInfo")
  | .cursor => .ok (attributeOrNull value "cursor")
  | .node => .ok (attributeOrNull value "node")
  | .nodeType => (lib.nodeTypeName place).map .type
  | .edgeType => (lib.edgeTypeName place).map .type
  | .json => .ok (.text (lib.serialize value))

/-- Calls a method of a value without arguments. An attribute hides a method of its name, and cannot
be called itself. -/
def call (lib : Library) (value : Value) (name : String) : Except Failure Value :=
  match lib.attributeOf value name, value with
  -- What is found among the attributes is a value, and values cannot be called.
  | .ok _, _ => .error .wrongType
  | .error _, .object _ place _ =>
    match lib.method? place name with
    | some m => lib.perform value place m
    | none => .error (.noAttribute name)
  | .error e, _ => .error e

/-- Whether an attribute of an object of the class at a place can be set. -/
def checkAssignment (lib : Library) (place : Nat) (name : String) : Except Failure Unit :=
  if !lib.isModel place then .ok ()
  -- What the class shares among its objects cannot be set on one of them, while a name with an
  -- underscore in front never reaches the fields.
  else if (lib.sharedAttribute? place name).isSome then .error (.noAttribute name)
  else if Text.beginsWith name "_" then .ok ()
  else
    match lib.field? place name with
    | some f =>
      if f.isFrozen then .error (.unfit [{ kind := .frozen, location := [.name name] }])
      else .ok ()
    | none => .error (.noField name)

/-- The object with an attribute set to a value. -/
def assigned (lib : Library) (value : Value) (name : String) (new : Value) :
    Except Failure Value := do
  match value with
  | .object identity place attributes =>
    lib.checkAssignment place name
    return .object identity place (setKey name new attributes)
  | _ => throw (.noAttribute name)

/-- The text of a value as a document. -/
def document (lib : Library) (value : Value) : Except Failure String :=
  match value with
  | .type _ => .error .noEncoding
  | .object _ place _ => if lib.isModel place then .ok (lib.serialize value) else .error .noEncoding
  | value => .ok (lib.serialize value)

end Library

end GraphQLModels.Model
