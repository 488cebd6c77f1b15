import GraphQLModels.Model.Attribute

/-!
# Inquiries

What a loaded module tells about its classes and enums by name.
-/

namespace GraphQLModels.Model.Library

/-- Whether one type of the module is another or derived from it. -/
def isSubclass (lib : Library) (name base : String) : Except Failure Bool := do
  match ← lib.lookup name, ← lib.lookup base with
  | .choice _, _ | _, .choice _ | .mixture, _ | _, .mixture | .null, _ | _, .null =>
    throw .wrongType
  | .foreign of, .foreign above =>
    if (lib.world.className? of).isSome && (lib.world.className? above).isSome then
      return lib.world.isDerived of above
    else throw .wrongType
  | .foreign of, _ | _, .foreign of =>
    if (lib.world.className? of).isSome then return false else throw .wrongType
  | .cls place, .cls above => return lib.isDerived place above
  | .scalar type, .scalar above => return type.isDerived above
  | binding, above => return binding == above

/-- The place of the class to which a name is bound. -/
def classPlace (lib : Library) (name wanted : String) : Except Failure Nat := do
  match ← lib.lookup name with
  | .cls place => return place
  | _ => throw (.noAttribute wanted)

/-- The schema names of the implementers of a class. -/
def implementersOf (lib : Library) (name : String) : Except Failure (List String) := do
  match lib.implementers? (← lib.classPlace name implementersName) with
  | some names => return names
  | none => throw (.noAttribute implementersName)

/-- Whether the class at a place has a method. -/
def hasMethod (lib : Library) (place : Nat) (name : String) : Bool :=
  (lib.method? place name).isSome

/-- The name of the node type of a class. -/
def nodeTypeOf (lib : Library) (name : String) : Except Failure String := do
  let place ← lib.classPlace name "get_node_type"
  if lib.hasMethod place "get_node_type" then lib.nodeTypeName place
  else throw (.noAttribute "get_node_type")

/-- The name of the edge type of a class. -/
def edgeTypeOf (lib : Library) (name : String) : Except Failure String := do
  let place ← lib.classPlace name "get_edge_type"
  if lib.hasMethod place "get_edge_type" then lib.edgeTypeName place
  else throw (.noAttribute "get_edge_type")

/-- The members of an enum in order. -/
def membersOf (lib : Library) (name : String) : Except Failure (List (String × String)) := do
  match ← lib.lookup name with
  | .enum place => return ((lib.enums[place]?).map (·.members)).getD []
  | _ => throw .wrongType

/-- The constants of a class of text constants, sorted by name. -/
def constantsOf (lib : Library) (name : String) : Except Failure (List (String × String)) := do
  match ← lib.lookup name with
  | .constants entries => return entries.mergeSort fun a b => a.1 ≤ b.1
  | _ => throw .wrongType

end GraphQLModels.Model.Library
