import GraphQLModels.Number.Binary64

/-!
# JSON values

Integers are unlimited and apart from floating-point numbers. An object keeps the order of its
members.
-/

namespace GraphQLModels

open Number (Binary64)

/-- A JSON value. -/
inductive Json where
  | null
  | bool (value : Bool)
  | int (value : Int)
  | float (value : Binary64)
  | str (value : String)
  | arr (items : List Json)
  | obj (members : List (String × Json))
deriving Repr, Inhabited

namespace Json

/-- Sets a member: a known name keeps its place and takes the new value. -/
def setMember (name : String) (value : α) : List (String × α) → List (String × α)
  | [] => [(name, value)]
  | (known, old) :: rest =>
    if known == name then (known, value) :: rest else (known, old) :: setMember name value rest

/-- The member of an object with a name. -/
def get? (name : String) : Json → Option Json
  | .obj members => (members.find? fun member => member.1 == name).map (·.2)
  | _ => none

/-- The member of an object with a name, null when there is none. -/
def getD (name : String) (value : Json) : Json := (value.get? name).getD .null

def str? : Json → Option String
  | .str s => some s
  | _ => none

def items? : Json → Option (List Json)
  | .arr items => some items
  | _ => none

/-- Whether a value counts as given: null, false, zero and what is empty do not. -/
def isGiven : Json → Bool
  | .null => false
  | .bool b => b
  | .int n => n != 0
  | .float x => !x.isZero
  | .str s => !s.isEmpty
  | .arr items => !items.isEmpty
  | .obj members => !members.isEmpty

def ofStrings (texts : List String) : Json := .arr (texts.map .str)

def ofOption : Option String → Json
  | some s => .str s
  | none => .null

end Json

end GraphQLModels
