import GraphQLModels.Model.Inquiry
import GraphQLModels.Model.Instance
import GraphQLModels.Model.Store

/-!
# Sessions

A run of steps that make values of the classes of a loaded module, keep them under names, and ask
for what they hold.
-/

namespace GraphQLModels.Model

/-- What a step does. Values that were kept are meant by their names. -/
inductive Action where
  | fromJson (type text : String)
  | deserialize (type : String) (asList : Bool) (text : String)
  | construct (type : String) (values : List (String × Json))
  | create (type : String)
  | get (subject name : String)
  | call (subject method : String)
  | set (subject name : String) (value : Json)
  | serialize (subject : String)
  | serializeAll (subjects : List String)
  | same (left right : String)
  | isSubclass (type base : String)
  | implementers (type : String)
  | nodeType (type : String)
  | edgeType (type : String)
  | members (type : String)
  | constants (type : String)
  | exported
deriving Repr

/-- A step: what it does, and under which name its value is kept. -/
structure Action.Step where
  action : Action
  keep : Option String := none
deriving Repr

namespace Library

/-- The value that is kept under a name. -/
def kept (s : Store) (name : String) : Except Failure Value :=
  match s.find? name with
  | some value => .ok value
  | none => .error (.unsaved name)

def textsValue (texts : List String) : Value := .list (texts.map .text)

def pairsValue (pairs : List (String × String)) : Value :=
  .list (pairs.map fun (a, b) => textsValue [a, b])

def evaluate (lib : Library) (s : Store) : Action → Except Failure Value
  | .fromJson type text => lib.fromJson type text
  | .deserialize type asList text => lib.deserialize type asList text
  | .construct type values => lib.construct type values
  | .create type => lib.construct type []
  | .get subject name => do lib.attributeOf (← kept s subject) name
  | .call subject method => do lib.call (← kept s subject) method
  | .set subject name value => do lib.assigned (← kept s subject) name (.ofJson value)
  | .serialize subject => do return .text (← lib.document (← kept s subject))
  | .serializeAll subjects => do
    return .text (← lib.document (.list (← subjects.mapM (kept s))))
  | .same left right =>
    match s.areSame left right with
    | some answer => .ok (.bool answer)
    | none => .error (.unsaved left)
  | .isSubclass type base => (lib.isSubclass type base).map .bool
  | .implementers type => (lib.implementersOf type).map textsValue
  | .nodeType type => (lib.nodeTypeOf type).map .text
  | .edgeType type => (lib.edgeTypeOf type).map .text
  | .members type => (lib.membersOf type).map pairsValue
  | .constants type => (lib.constantsOf type).map pairsValue
  | .exported => .ok (textsValue lib.exported)

/-- The store after an action that gave a value. -/
def settle (s : Store) (action : Action) (value : Value) : Store :=
  match action, value with
  -- Setting an attribute reaches every kept value that holds the object.
  | .set _ name new, .object (some identity) _ _ => s.assign identity name (.ofJson new)
  | _, _ => s

/-- What a step answers: an object that was only created is not shown. -/
def shown (action : Action) (value : Value) : Value :=
  match action with
  | .create _ => .null
  | _ => value

/-- Takes a step. One that fails leaves the store as it was. -/
def step (lib : Library) (s : Store) (step : Action.Step) : Except Failure Value × Store :=
  match lib.evaluate s step.action with
  | .ok value =>
    let s := settle s step.action value
    (.ok (shown step.action value), (step.keep.map fun name => s.save name value).getD s)
  | .error e => (.error e, s)

def steps (lib : Library) (s : Store) : List Action.Step → List (Except Failure Value)
  | [] => []
  | first :: rest =>
    let (answer, s) := lib.step s first
    answer :: lib.steps s rest

end Library

end GraphQLModels.Model
