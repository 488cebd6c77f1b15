import GraphQLModels.Identifier
import GraphQLModels.Definition
import GraphQLModels.Model.Linearization
import GraphQLModels.Model.World
import GraphQLModels.Options

/-!
# Classes

What a generated module defines, once it is loaded: a table of classes, each with its fields and
methods, a table of enums, and the names that are bound to them.
-/

namespace GraphQLModels.Model

/-- What the values of a field look like. Classes and enums stand in it by their places. -/
inductive Shape where
  | null
  | literal (text : String)
  | scalar (type : ScalarType)
  | enum (place : Nat)
  | model (place : Nat)
  /-- One of several classes, told by the name of the schema type. -/
  | choice (places : List Nat)
  | foreign (of : Foreign)
  | optional (inner : Shape)
  | list (inner : Shape)
deriving DecidableEq, Repr, Inhabited

/-- A field of a class: the attribute that holds it and its name in documents. -/
structure FieldOf (σ : Type) where
  name : String
  wire : String
  shape : σ
  initial : Value := .null
  isFrozen : Bool := false
deriving Repr

/-- How a connection gives its nodes. -/
inductive SourceKind where
  | none | nodes | edges | both
deriving DecidableEq, Repr

/-- A method without arguments. -/
inductive Method where
  | narrow (target : String)
  | nodeSource (kind : SourceKind)
  | nodes | pageInfo | nodeType | edgeType | cursor | node | json
deriving DecidableEq, Repr

/-- A class, with fields whose shapes are known in some form. -/
structure ClassOf (σ : Type) where
  name : String
  /-- The name of the module that defines the class. -/
  home : String
  isModel : Bool := true
  /-- The class and all above it, in the order in which they are searched. -/
  order : List Nat
  /-- All fields in order, those of the bases included. -/
  fields : List (FieldOf σ) := []
  /-- The attributes of the fields that the class itself declares. -/
  declared : List String := []
  implementers : Option (List String) := none
  classVariables : List (String × String) := []
  methods : List (String × Method) := []
deriving Repr

abbrev FieldSpec := FieldOf Shape

abbrev Class := ClassOf Shape

/-- An enum of texts. -/
structure Enum where
  name : String
  members : List (String × String)
deriving DecidableEq, Repr

/-- What a name is bound to. -/
inductive Binding where
  | scalar (type : ScalarType)
  | enum (place : Nat)
  | cls (place : Nat)
  /-- A class of text constants. -/
  | constants (entries : List (String × String))
  | choice (places : List Nat)
  /-- A choice between things that are not all classes. -/
  | mixture
  /-- Null, which stands for the type of its only value. -/
  | null
  | foreign (of : Foreign)
deriving DecidableEq, Repr

/-- A loaded module. -/
structure Library where
  classes : List Class
  enums : List Enum
  /-- The names that the module binds. -/
  scope : List (String × Binding)
  exported : List String
  world : World := .closed

namespace ClassOf

/-- The name of the schema type that marks the objects of a class. -/
def tag? (c : Class) : Option String :=
  (c.fields.find? fun f => f.name == typenameField).bind fun f =>
    match f.shape with
    | .literal text => some text
    | _ => none

def field? (c : ClassOf σ) (name : String) : Option (FieldOf σ) :=
  c.fields.find? fun f => f.name == name

end ClassOf

namespace Library

def class? (lib : Library) (place : Nat) : Option Class := lib.classes[place]?

/-- The fields of the class at a place. -/
def fieldsOf (lib : Library) (place : Nat) : List FieldSpec :=
  ((lib.class? place).map (·.fields)).getD []

/-- The classes that are searched for what the class at a place has. -/
def orderOf (lib : Library) (place : Nat) : List Class :=
  (((lib.class? place).map (·.order)).getD []).filterMap lib.class?

/-- The field of the class at a place that has an attribute. -/
def field? (lib : Library) (place : Nat) (name : String) : Option FieldSpec :=
  (lib.class? place).bind fun c => c.field? name

/-- The method that the class at a place has under a name. -/
def method? (lib : Library) (place : Nat) (name : String) : Option Method :=
  (lib.orderOf place).findSome? fun c => findKey? name c.methods

/-- The class variable that the class at a place has under a name. -/
def classVariable? (lib : Library) (place : Nat) (name : String) : Option String :=
  (lib.orderOf place).findSome? fun c => findKey? name c.classVariables

/-- The schema names of the implementers, as the class at a place has them. -/
def implementers? (lib : Library) (place : Nat) : Option (List String) :=
  (lib.orderOf place).findSome? (·.implementers)

/-- Whether the first class is the second or derived from it. -/
def isDerived (lib : Library) (place base : Nat) : Bool :=
  (((lib.class? place).map (·.order)).getD []).contains base

/-- What a name is bound to in the module. -/
def binding? (lib : Library) (name : String) : Option Binding := findKey? name lib.scope

end Library

end GraphQLModels.Model
