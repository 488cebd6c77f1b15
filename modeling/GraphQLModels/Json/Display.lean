import GraphQLModels.Json.Basic
import GraphQLModels.Number.Shortest
import GraphQLModels.Text.Quoted

/-!
# Values in messages

How a value reads inside a message: a text stands for itself, and within a list or an object it is
quoted.
-/

namespace GraphQLModels.Json

mutual

/-- A value inside a list or an object. -/
def inspect : Json → String
  | .null => "None"
  | .bool true => "True"
  | .bool false => "False"
  | .int n => toString n
  | .float x => x.display
  | .str s => Text.quoted s
  | .arr items => "[" ++ inspectItems items ++ "]"
  | .obj members => "\x7b" ++ inspectMembers members ++ "\x7d"

/-- The items of a list with commas between them. -/
def inspectItems : List Json → String
  | [] => ""
  | [item] => inspect item
  | item :: next :: rest => inspect item ++ ", " ++ inspectItems (next :: rest)

/-- The members of an object with commas between them. -/
def inspectMembers : List (String × Json) → String
  | [] => ""
  | [(name, value)] => Text.quoted name ++ ": " ++ inspect value
  | (name, value) :: next :: rest =>
    Text.quoted name ++ ": " ++ inspect value ++ ", " ++ inspectMembers (next :: rest)

end

def display : Json → String
  | .str s => s
  | value => value.inspect

end GraphQLModels.Json
