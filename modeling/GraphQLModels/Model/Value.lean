import GraphQLModels.Json.Printer
import GraphQLModels.Json.Display
import GraphQLModels.Time.Moment

/-!
# Values

The values that generated classes hold: scalars of every kind, lists, members of enums and objects
of classes. An object may carry an identity by which its occurrences are told to be the same. A value
of a type from elsewhere is known by its content alone.
-/

namespace GraphQLModels.Model

open Number (Binary64 Decimal)
open Time (Clock Date Moment)

/-- Something that a module takes from outside. -/
inductive Foreign where
  /-- What every module binds for its own use. -/
  | helper (name : String)
  /-- A built-in name, unless it is a scalar type. -/
  | builtin (name : String)
  /-- What an import statement binds to a name. -/
  | imported (statement name : String)
  /-- What an annotation in a class means that is more than a name. -/
  | written (className text : String)
  /-- What an alias means that chooses from things of which some are no classes of the module. -/
  | mixture (aliasName : String)
deriving DecidableEq, Repr

/-- A value. -/
inductive Value where
  | null
  | bool (value : Bool)
  | int (value : Int)
  | float (value : Binary64)
  | text (value : String)
  | decimal (value : Decimal)
  | moment (value : Moment)
  | date (value : Date)
  | clock (value : Clock)
  | uuid (digits : String)
  | list (items : List Value)
  | dict (members : List (String × Value))
  | member (enum name value : String)
  /-- An object of the class at a place of the table, with its attributes. -/
  | object (identity : Option Nat) (place : Nat) (attributes : List (String × Value))
  /-- A record of named parts. -/
  | record (name : String) (parts : List (String × Value))
  | type (name : String)
  | foreign (of : Foreign) (content : Json)
deriving Repr, Inhabited

namespace Value

mutual

/-- The value of a JSON value as it stands. -/
def ofJson : Json → Value
  | .null => .null
  | .bool b => .bool b
  | .int n => .int n
  | .float x => .float x
  | .str s => .text s
  | .arr items => .list (ofItems items)
  | .obj members => .dict (ofMembers members)

/-- The values of the items of an array. -/
def ofItems : List Json → List Value
  | [] => []
  | item :: rest => ofJson item :: ofItems rest

/-- The values of the members of an object. -/
def ofMembers : List (String × Json) → List (String × Value)
  | [] => []
  | (name, value) :: rest => (name, ofJson value) :: ofMembers rest

end

def isNull : Value → Bool
  | .null => true
  | _ => false

/-- The characters of a text, each by itself. -/
def characters (s : String) : List Value := s.toList.map fun c => .text (String.singleton c)

/-- The items that a value is made of, if it can be gone through: a text gives its characters, a
mapping its keys, and an object its attributes with their names. -/
def items? : Value → Option (List Value)
  | .list items => some items
  | .text s | .member _ _ s => some (characters s)
  | .dict members => some (members.map fun member => .text member.1)
  | .object _ _ attributes => some (attributes.map fun (name, value) => .list [.text name, value])
  | _ => none

/-- The attribute that an object or a record has of its own. -/
def own? (name : String) : Value → Option Value
  | .object _ _ attributes => (attributes.find? fun entry => entry.1 == name).map (·.2)
  | .record _ parts => (parts.find? fun entry => entry.1 == name).map (·.2)
  | _ => none

end Value

end GraphQLModels.Model
