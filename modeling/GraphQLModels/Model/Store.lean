import GraphQLModels.Definition
import GraphQLModels.Model.Value

/-!
# Stored values

Values are kept under names. An object gets an identity when it is kept, and every occurrence of the
object carries it; an attribute that is set is set in all of them.
-/

namespace GraphQLModels.Model

namespace Value

mutual

/-- The value with an identity for every object that has none, and the next free identity. -/
def identified (next : Nat) : Value → Value × Nat
  | .object identity place attributes =>
    match identity with
    -- An object with an identity was kept before; what is new inside of it still gets one.
    | some _ =>
      let (attributes, after) := identifiedMembers next attributes
      (.object identity place attributes, after)
    | none =>
      let (attributes, after) := identifiedMembers (next + 1) attributes
      (.object (some next) place attributes, after)
  | .list items =>
    let (items, after) := identifiedItems next items
    (.list items, after)
  -- Values of any type are plain JSON, and hold no objects.
  | .dict members => (.dict members, next)
  | .record name parts =>
    let (parts, after) := identifiedMembers next parts
    (.record name parts, after)
  | value => (value, next)

/-- The items of a list with identities. -/
def identifiedItems (next : Nat) : List Value → List Value × Nat
  | [] => ([], next)
  | item :: rest =>
    let (item, after) := identified next item
    let (rest, after) := identifiedItems after rest
    (item :: rest, after)

/-- The parts of an object with identities. -/
def identifiedMembers (next : Nat) : List (String × Value) → List (String × Value) × Nat
  | [] => ([], next)
  | (name, value) :: rest =>
    let (value, after) := identified next value
    let (rest, after) := identifiedMembers after rest
    ((name, value) :: rest, after)

end

mutual

/-- The value with an attribute set in every occurrence of an object. -/
def assignWithin (target : Nat) (name : String) (new : Value) : Value → Value
  | .object identity place attributes =>
    let attributes := assignWithinMembers target name new attributes
    .object identity place (if identity == some target then setKey name new attributes
      else attributes)
  | .list items => .list (assignWithinItems target name new items)
  | .record label parts => .record label (assignWithinMembers target name new parts)
  | value => value

/-- The items of a list with an attribute set. -/
def assignWithinItems (target : Nat) (name : String) (new : Value) : List Value → List Value
  | [] => []
  | item :: rest => assignWithin target name new item :: assignWithinItems target name new rest

/-- The parts of an object with an attribute set. -/
def assignWithinMembers (target : Nat) (name : String) (new : Value) :
    List (String × Value) → List (String × Value)
  | [] => []
  | (part, value) :: rest =>
    (part, assignWithin target name new value) :: assignWithinMembers target name new rest

end

/-- Whether two values are one and the same: objects by their identity, values without parts by
being equal. -/
def isSame : Value → Value → Bool
  | .object (some a) _ _, .object (some b) _ _ => a == b
  | .null, .null => true
  | .bool a, .bool b => a == b
  | .int a, .int b => a == b
  | .float a, .float b => a == b
  | .text a, .text b => a == b
  | .decimal a, .decimal b => a == b
  | .moment a, .moment b => a == b
  | .date a, .date b => a == b
  | .clock a, .clock b => a == b
  | .uuid a, .uuid b => a == b
  | .type a, .type b => a == b
  | .member enum name _, .member otherEnum otherName _ => enum == otherEnum && name == otherName
  | _, _ => false

end Value

/-- The values that are kept under names, and the next free identity. -/
structure Store where
  values : List (String × Value) := []
  next : Nat := 0

namespace Store

def find? (s : Store) (name : String) : Option Value := findKey? name s.values

def save (s : Store) (name : String) (value : Value) : Store :=
  let (value, next) := value.identified s.next
  { values := setKey name value s.values, next }

/-- Sets an attribute of an object wherever the object occurs. -/
def assign (s : Store) (identity : Nat) (name : String) (new : Value) : Store :=
  { s with values := s.values.map fun (key, value) =>
      (key, Value.assignWithin identity name new value) }

/-- Whether the values under two names are one and the same. -/
def areSame (s : Store) (a b : String) : Option Bool := do
  let left ← s.find? a
  let right ← s.find? b
  -- The value under one name is itself even where it has parts and no identity.
  return a == b || left.isSame right

end Store

end GraphQLModels.Model
