import GraphQLModels.Model.Class

/-!
# Decoding

A JSON value is decoded under a shape. All problems of a document are found at once: in the order
of the fields of a class and of the items of a list. A field is found under its name in documents or
under that of its attribute; one that is not there takes its initial value, and names that belong to
no field are passed over.
-/

namespace GraphQLModels.Model

namespace Library

/-- The members of an object under the way in which each decodes its value. -/
abbrev Members := List (String × (Shape → Decoded Value))

/-- The member that holds a field: the one with its name in documents, or else the one with the name
of its attribute. -/
def member? (members : Members) (f : FieldSpec) : Option (String × (Shape → Decoded Value)) :=
  (members.find? fun m => m.1 == f.wire).orElse fun _ => members.find? fun m => m.1 == f.name

def decodeField (members : Members) (f : FieldSpec) : Decoded (String × Value) :=
  match member? members f with
  | some (name, decode) =>
    ((decode f.shape).inside (.name name)).map fun value => (f.name, value)
  | none => .ok (f.name, f.initial)

/-- Decodes an object of the class at a place. -/
def decodeObject (lib : Library) (place : Nat) (raw : Json) (members : Members) :
    Decoded Value :=
  match raw with
  | .obj _ =>
    (Decoded.all ((lib.fieldsOf place).map (decodeField members))).map fun attributes =>
      .object none place attributes
  | _ => .problem .modelType

/-- The value by which the class of an object is told. -/
def tagOf? (raw : List (String × Json)) : Option Json :=
  (findKey? typenameField raw).orElse fun _ => findKey? typenameAlias raw

/-- The class whose objects are marked by a text. -/
def tagged? (lib : Library) (places : List Nat) (tag : String) : Option Nat :=
  places.find? fun place => ((lib.class? place).bind ClassOf.tag?) == some tag

/-- Decodes an object of one of several classes. -/
def decodeChoice (lib : Library) (places : List Nat) (raw : Json) (members : Members) :
    Decoded Value :=
  match raw with
  | .obj entries =>
    match tagOf? entries with
    | none => .problem .tagNotFound
    | some (.str tag) =>
      match lib.tagged? places tag with
      -- A problem further inside is located under the tag, as under a name.
      | some place => (lib.decodeObject place raw members).inside (.name tag)
      | none => .problem .tagInvalid
    | some _ => .problem .tagInvalid
  | _ => .problem .dictType

def decodeMember (lib : Library) (place : Nat) (raw : Json) : Decoded Value :=
  match lib.enums[place]?, raw with
  | some e, .str s =>
    -- An enum without members accepts nothing, and says so in its own way.
    if e.members.isEmpty then .problem .noMembers
    else
      match e.members.find? fun m => m.2 == s with
      | some (name, value) => .ok (.member e.name name value)
      | none => .problem .enum
  | some e, _ => if e.members.isEmpty then .problem .noMembers else .problem .enum
  | none, _ => .problem .enum

/-- Decodes the items of a list, each with its place. -/
def decodeEach (items : List (Shape → Decoded Value)) (shape : Shape) : Decoded (List Value) :=
  Decoded.all (items.zipIdx.map fun (decode, index) => (decode shape).inside (.index index))

/-- Decodes a value under a shape, given the ways in which its parts are decoded. -/
def decodeWith (lib : Library) (form : Form) (raw : Json) (items : List (Shape → Decoded Value))
    (members : Members) : Shape → Decoded Value
  | .null =>
    match raw with
    | .null => .ok .null
    | _ => .problem .noneRequired
  | .optional inner =>
    match raw with
    | .null => .ok .null
    | _ => lib.decodeWith form raw items members inner
  | .list inner =>
    match raw with
    | .arr _ => (decodeEach items inner).map .list
    | _ => .problem .listType
  | .literal text =>
    match raw with
    | .str s => if s == text then .ok (.text s) else .problem .literalError
    | _ => .problem .literalError
  | .scalar type => type.read form raw
  | .enum place => lib.decodeMember place raw
  | .model place => lib.decodeObject place raw members
  | .choice places => lib.decodeChoice places raw members
  | .foreign of => lib.world.read of form raw

mutual

/-- Decodes a JSON value under a shape. -/
def decode (lib : Library) (form : Form) : Json → Shape → Decoded Value
  -- The recursion is on the JSON value alone: its parts are handed over as functions of a shape,
  -- and `decodeWith` recurs on the shape.
  | .arr items => lib.decodeWith form (.arr items) (lib.itemDecoders form items) []
  | .obj members => lib.decodeWith form (.obj members) [] (lib.memberDecoders form members)
  | .null => lib.decodeWith form .null [] []
  | .bool b => lib.decodeWith form (.bool b) [] []
  | .int n => lib.decodeWith form (.int n) [] []
  | .float x => lib.decodeWith form (.float x) [] []
  | .str s => lib.decodeWith form (.str s) [] []

/-- The ways in which the items of an array are decoded. -/
def itemDecoders (lib : Library) (form : Form) : List Json → List (Shape → Decoded Value)
  | [] => []
  | item :: rest => lib.decode form item :: lib.itemDecoders form rest

/-- The ways in which the members of an object are decoded. -/
def memberDecoders (lib : Library) (form : Form) : List (String × Json) → Members
  | [] => []
  | (name, value) :: rest => (name, lib.decode form value) :: lib.memberDecoders form rest

end

end Library

end GraphQLModels.Model
