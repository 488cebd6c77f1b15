import GraphQLModels.Model.Decoding
import GraphQLModels.Model.Reference
import GraphQLModels.Json.Reader

/-!
# Making values

Values come from documents, and objects of a class also from the values of their attributes. A
document that is nested too deeply is not read at all.
-/

namespace GraphQLModels.Model

/-- How deep the arrays and objects of a document may be nested. -/
def maxDepth : Nat := 200

mutual

/-- How deep the arrays and objects of a value are nested. -/
def depthOf : Json → Nat
  | .arr items => depthOfItems items + 1
  | .obj members => depthOfMembers members + 1
  | .null | .bool _ | .int _ | .float _ | .str _ => 0

def depthOfItems : List Json → Nat
  | [] => 0
  | item :: rest => max (depthOf item) (depthOfItems rest)

def depthOfMembers : List (String × Json) → Nat
  | [] => 0
  | (_, value) :: rest => max (depthOf value) (depthOfMembers rest)

end

/-- The value of the text of a document. -/
def readDocument (text : String) : Decoded Json :=
  match Json.parse? text with
  | some value => if depthOf value ≤ maxDepth then .ok value else .problem .jsonInvalid
  | none => .problem .jsonInvalid

namespace Library

/-- Decodes the text of a document under a shape. -/
def readAs (lib : Library) (shape : Shape) (text : String) : Except Failure Value := do
  let value ← (readDocument text).mapError Failure.unfit
  (lib.decode .document value shape).mapError Failure.unfit

/-- The value of a document for a class of models. -/
def fromJson (lib : Library) (name text : String) : Except Failure Value := do
  match ← lib.lookup name with
  | .cls place =>
    if lib.isModel place then lib.readAs (← lib.documentShape place) text
    else throw (.noAttribute "from_json")
  | _ => throw (.noAttribute "from_json")

/-- The shape of documents for what a name of the module is bound to. -/
def typeShape (lib : Library) (name : String) : Except Failure Shape := do
  match ← lib.lookup name with
  | .cls place => if lib.isModel place then lib.documentShape place else throw .noShape
  | binding => lib.boundShape binding

/-- The value of a document for a type, or for a list of it. -/
def deserialize (lib : Library) (name : String) (asList : Bool) (text : String) :
    Except Failure Value := do
  let shape ← lib.typeShape name
  lib.readAs (if asList then .list shape else shape) text

/-- An object of a class with the given values. -/
def construct (lib : Library) (name : String) (values : List (String × Json)) :
    Except Failure Value := do
  match ← lib.lookup name with
  | .cls place =>
    if lib.isModel place then
      (lib.decode .arguments (.obj values) (.model place)).mapError Failure.unfit
    -- A class that is no model takes no arguments.
    else if values.isEmpty then return .object none place []
    else throw .wrongType
  | _ => throw .wrongType

end Library

end GraphQLModels.Model
