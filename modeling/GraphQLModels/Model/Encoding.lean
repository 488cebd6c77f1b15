import GraphQLModels.Model.Class

/-!
# Encoding

A value is encoded as JSON: the attributes of an object under their names in documents, in the order
of the fields and without those that are null, members of enums as their values, and everything that
JSON has no form for as a text. The shape of a field tells how a number in it is written.
-/

namespace GraphQLModels.Model

open Number (Binary64)

namespace Shape

def any : Shape := .scalar .any

/-- The shape of the items of a list. -/
def item : Shape → Shape
  | .list inner => inner
  | .optional inner => inner.item
  | _ => any

/-- The scalar type of a shape without lists. -/
def scalar? : Shape → Option ScalarType
  | .scalar type => some type
  | .optional inner => inner.scalar?
  | _ => none

/-- An integer under a shape: where floating-point numbers belong it becomes one, unless it is too
large. -/
def encodeInt (shape : Shape) (n : Int) : Json :=
  match shape.scalar?, Binary64.ofInt n with
  | some .float, .finite negative mantissa exponent => .float (.finite negative mantissa exponent)
  | _, _ => .int n

/-- A truth value under a shape: where numbers belong it becomes one. -/
def encodeBool (shape : Shape) (b : Bool) : Json :=
  match shape.scalar? with
  | some .int | some .float => shape.encodeInt (if b then 1 else 0)
  | _ => .bool b

end Shape

namespace Library

mutual

/-- The JSON value of a value under a shape. -/
def encode (lib : Library) (shape : Shape) : Value → Json
  | .null => .null
  | .bool b => shape.encodeBool b
  | .int n => shape.encodeInt n
  | .float x => .float x
  | .text s => .str s
  | .decimal d => .str d.text
  | .moment m => .str m.text
  | .date d => .str d.text
  | .clock c => .str c.text
  | .uuid s => .str s
  | .member _ _ value => .str value
  | .list items => .arr (lib.encodeItems shape.item items)
  | .dict members => .obj (lib.encodeMembers members)
  | .object _ place attributes => .obj (lib.encodeAttributes place attributes)
  | .record _ parts => .obj (lib.encodeMembers parts)
  | .type name => .str name
  | .foreign of content => lib.world.write of content

def encodeItems (lib : Library) (shape : Shape) : List Value → List Json
  | [] => []
  | item :: rest => lib.encode shape item :: lib.encodeItems shape rest

def encodeMembers (lib : Library) : List (String × Value) → List (String × Json)
  | [] => []
  | (name, value) :: rest => (name, lib.encode .any value) :: lib.encodeMembers rest

/-- The attributes of an object of the class at a place that belong to a field. -/
def encodeAttributes (lib : Library) (place : Nat) :
    List (String × Value) → List (String × Json)
  | [] => []
  | (name, value) :: rest =>
    match lib.field? place name with
    | some f =>
      -- A null field is left out of a document, not written as null.
      if value.isNull then lib.encodeAttributes place rest
      else (f.wire, lib.encode f.shape value) :: lib.encodeAttributes place rest
    | none => lib.encodeAttributes place rest

end

def serialize (lib : Library) (value : Value) : String := (lib.encode .any value).compact

end Library

end GraphQLModels.Model
