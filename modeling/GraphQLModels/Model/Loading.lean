import GraphQLModels.Import
import GraphQLModels.Model.Foundation
import GraphQLModels.Source.Module
import GraphQLModels.Text.Identifier

/-!
# Loading

A laid-out module is loaded statement by statement: enums, contracts, classes, aliases. A type in a
class is understood as soon as its name is bound to something, the names of the class itself first,
and otherwise when all statements have been loaded. What is not defined in the module is left to the
world that it is loaded in.
-/

namespace GraphQLModels.Model

open Source (TypeExpr)

/-- Why a module cannot be loaded. -/
inductive LoadError where
  | unknownModule (statement : String)
  | unknownImport (statement : String)
  | repeatedMember (name : String)
  | reservedMember (name : String)
  | spoiledClass (name : String)
  | undefinedName (name : String)
  | undefinedType (name : String)
  | noOrder (name : String)
  | notAClass (name : String)
  | notAType (name : String)
  | typeWithoutShape (name : String)
  | choiceWithoutTag (name : String)
deriving DecidableEq, Repr

/-- The shape of a field as far as it is known: the type may be left for later. -/
inductive Draft where
  | known (shape : Shape)
  | later (type : TypeExpr)
deriving DecidableEq, Repr

/-- What has been loaded. -/
structure Loading where
  classes : List (ClassOf Draft)
  enums : List Enum := []
  scope : List (String × Binding)
  world : World := .closed

/-- What a name means inside a class. -/
inductive Meaning where
  | null
  | noType
  /-- The class itself, which is about to take a place. -/
  | itself (place : Nat)
  | bound (binding : Binding)
deriving DecidableEq, Repr

/-- The field with its shape put into a draft. -/
def FieldOf.draft (f : FieldSpec) : FieldOf Draft := { f with shape := .known f.shape }

/-- The class with the shapes of its fields put into drafts. -/
def ClassOf.draft (c : Class) : ClassOf Draft := { c with fields := c.fields.map FieldOf.draft }

/-- What a built-in name is bound to. -/
def builtinBinding? (name : String) : Option Binding :=
  match name with
  | "str" => some (.scalar .text)
  | "int" => some (.scalar .int)
  | "float" => some (.scalar .float)
  | "bool" => some (.scalar .bool)
  | "object" => some (.scalar .any)
  | "None" => some .null
  | name => if builtinNames.contains name then some (.foreign (.builtin name)) else none

/-- What the names of known modules are bound to. -/
def importedNames : List ((String × String) × Binding) := [
  (("datetime", "datetime"), .scalar .moment),
  (("datetime", "date"), .scalar .date),
  (("datetime", "time"), .scalar .clock),
  (("datetime", "timedelta"), .foreign (.imported "from datetime import timedelta" "timedelta")),
  (("decimal", "Decimal"), .scalar .decimal),
  (("uuid", "UUID"), .scalar .uuid),
  (("typing", "Any"), .scalar .any)]

/-- The module and the name of a statement that imports one name from a module. -/
def importParts? (statement : String) : Option (String × String) := do
  let (keyword, rest) ← Text.splitFirst ' ' statement
  let (origin, rest) ← Text.splitFirst ' ' rest
  let (keyword', name) ← Text.splitFirst ' ' rest
  if keyword == "from" && keyword' == "import" then some (origin, name) else none

/-- The module and the name of an import statement. -/
def importParts (statement : String) : String × String := (importParts? statement).getD ("", "")

/-- What an import statement binds. Names that are not known here are those of the world. -/
def importBindings (world : World) (statement : String) :
    Except LoadError (List (String × Binding)) :=
  let (origin, name) := importParts statement
  match findKey? (origin, name) importedNames with
  | some binding => .ok [(name, binding)]
  | none =>
    if origin == "builtins" && builtinNames.contains name then
      .ok ((builtinBinding? name).map fun binding => (name, binding)).toList
    else
      match world.imports statement with
      | some names => .ok (names.map fun name => (name, .foreign (.imported statement name)))
      | none =>
        if importedNames.any (fun entry => entry.1.1 == origin) || origin == "builtins" then
          .error (.unknownImport statement)
        else .error (.unknownModule statement)

/-- The names that every module binds before its imports. -/
def initialScope : List (String × Binding) :=
  let names := ["annotations", "_Enum", "_Annotated", "_ClassVar", "_List", "_Literal", "_Optional",
    "_Union"]
  names.map fun name => (name, .foreign (.helper name))

/-- The names that every module binds after its imports. -/
def importedScope : List (String × Binding) :=
  [("_Field", .foreign (.helper "_Field")), ("_runtime", .foreign (.helper "_runtime")),
    ("PageInfo", .cls Foundation.pageInfo), ("__all__", .foreign (.helper "__all__"))]

namespace Loading

def start (imports : List String) (world : World := .closed) : Except LoadError Loading := do
  let bindings ← imports.mapM (importBindings world)
  return {
    classes := Foundation.classes.map ClassOf.draft
    scope := setKeys (setKeys initialScope bindings.flatten) importedScope
    world }

def bind (s : Loading) (name : String) (binding : Binding) : Loading :=
  { s with scope := setKey name binding s.scope }

/-- What a name is bound to in the module or among the built-in names. -/
def binding? (s : Loading) (name : String) : Option Binding :=
  (findKey? name s.scope).orElse fun _ => builtinBinding? name

/-- What an annotation in a class is taken for that is more than a name. -/
def written? (s : Loading) (className text : String) : Option Binding :=
  let of : Foreign := .written className text
  if !Text.isIdentifier text.toList && s.world.isType of then some (.foreign of) else none

end Loading

/-! ## Enums -/

/-- Whether a name in a class is private to it: two underscores in front, and not two behind. -/
def isPrivate (name : String) : Bool :=
  Text.beginsWith name "__" && !Text.endsWith name "__"

/-- A name as a class keeps it: a private one is marked with the name of the class. -/
def keptName (className name : String) : String :=
  let stem := className.toList.dropWhile (· == '_')
  if isPrivate name && !stem.isEmpty then "_" ++ String.ofList stem ++ name else name

/-- Whether an enum leaves a name out of its members because it is private. -/
def isLeftOut (className name : String) : Bool :=
  Text.beginsWith (keptName className name) ("_" ++ className ++ "__") &&
    !Text.endsWith name "__"

/-- Whether exactly so many underscores stand on either side of a name. -/
def isSetBetween (count : Nat) (name : String) : Bool :=
  2 * count < name.length && Text.leadingMarks name == count && Text.trailingMarks name == count

/-- The members of an enum in order, each under its own name. Names between single underscores are
the enum's own, and those between double ones become attributes that are no members. -/
def enumMembers (className : String) :
    List (String × String) → List Source.Member → Except LoadError (List (String × String))
  | seen, [] => .ok seen
  | seen, m :: rest =>
    let name := keptName className m.name
    if isLeftOut className m.name then enumMembers className seen rest
    else if isSetBetween 1 name then .error (.reservedMember name)
    else if isSetBetween 2 name then enumMembers className seen rest
    else if seen.any fun entry => entry.1 == name then .error (.repeatedMember name)
    else enumMembers className (seen ++ [(name, m.value)]) rest

/-- Whether a text under a name makes it impossible to build an enum: the name has a meaning for the
class, or for making its members if there are any. -/
def spoilsEnum (hasMembers : Bool) (name : String) : Bool :=
  ["__classcell__", "__order__"].contains name ||
    hasMembers &&
      ["__getattr__", "__getattribute__", "__init__", "__new__", "__setattr__"].contains name

/-- The members of an enum that can be built. -/
def enumBody (className : String) (body : List Source.Member) :
    Except LoadError (List (String × String)) := do
  let members ← enumMembers className [] body
  match body.find? fun m => spoilsEnum (!members.isEmpty) m.name with
  -- The members are collected first, so a member that comes twice is told before a spoiled name.
  | some m => throw (.spoiledClass m.name)
  | none => return members

/-- Whether a text under a name makes it impossible to build a class of constants. -/
def spoilsConstants (name : String) : Bool := ["__classcell__", "__slots__"].contains name

/-- The constants of the companion of an enum. One that comes again takes the last value. -/
def companionConstants (className : String) (body : List Source.Member) :
    Except LoadError (List (String × String)) :=
  match body.find? fun m => spoilsConstants m.constant with
  | some m => .error (.spoiledClass m.constant)
  | none => .ok (setKeys [] (body.map fun m => (keptName className m.constant, m.value)))

/-- Loads an enum and its class of constants. -/
def loadEnum (s : Loading) (e : Source.EnumClass) : Except LoadError Loading := do
  let name := nameText e.name
  let members ← enumBody name e.members
  let loaded : Enum := { name, members }
  let s := { s with enums := s.enums ++ [loaded] }.bind name (.enum s.enums.length)
  if e.stringConstants then
    -- The companion is a class of its own: private names are marked with its name there, not with
    -- that of the enum.
    let companion := Source.Module.companionName e.name
    return s.bind companion (.constants (← companionConstants companion e.members))
  else return s

/-! ## Types -/

/-- The shape that the name at the bottom of a type means. -/
def shapeOfMeaning (world : World) (classes : List (ClassOf σ)) (name : String) :
    Meaning → Except LoadError Shape
  | .null => .ok .null
  | .noType => .error (.notAType name)
  | .itself place => .ok (.model place)
  | .bound (.scalar type) => .ok (.scalar type)
  | .bound (.enum place) => .ok (.enum place)
  | .bound (.choice places) => .ok (.choice places)
  | .bound (.cls place) =>
    if (classes[place]?.map (·.isModel)).getD false then .ok (.model place)
    else .error (.typeWithoutShape name)
  | .bound .mixture =>
    if world.isType (.mixture name) then .ok (.foreign (.mixture name)) else .error (.notAType name)
  | .bound .null => .ok .null
  | .bound (.constants _) => .error (.typeWithoutShape name)
  | .bound (.foreign of) =>
    if world.isType of then .ok (.foreign of) else .error (.typeWithoutShape name)

/-- The shape of a type over the shape at its bottom. -/
def shapeOver (bottom : Shape) : TypeExpr → Shape
  | .name _ => bottom
  | .optional inner => .optional (shapeOver bottom inner)
  | .list inner => .list (shapeOver bottom inner)

/-- The shape of a type, if the name at its bottom means something. -/
def typeShape? (world : World) (classes : List (ClassOf σ)) (meaning? : String → Option Meaning)
    (type : TypeExpr) : Option (Except LoadError Shape) :=
  (meaning? type.terminal).map fun m =>
    (shapeOfMeaning world classes type.terminal m).map fun bottom => shapeOver bottom type

/-! ## Classes -/

/-- A class statement, whatever it is for. -/
structure Statement where
  name : String
  bases : List Nat
  attributes : List Source.Attribute
  implementers : Option (List String) := none
  classVariables : List (String × String) := []
  methods : List (String × Method) := []
  tag : Option String := none

namespace Statement

/-- What a name means in the body of a class: the class itself, an attribute with the value that
stands behind it, or what it is bound to. -/
def meaning? (d : Statement) (s : Loading) (name : String) : Option Meaning :=
  if name == d.name then some (.itself s.classes.length)
  else if name == "None" then some .null
  else if (d.methods.map (·.1) ++ d.classVariables.map (·.1)).contains name ||
      (name == typenameField && d.tag.isSome) ||
      (name == "graphql_implementers" && d.implementers.isSome) then
    some .noType
  else
    -- The last attribute of a name is the one whose value stands in the body. A bare `= None` makes
    -- the name mean null there; a field description makes it no type at all.
    match d.attributes.reverse.find? fun a => a.name == name with
    | some a =>
      some (if a.rename.isNone && a.deprecation.isNone && !a.readOnly then .null else .noType)
    | none => ((s.binding? name).orElse fun _ => s.written? d.name name).map .bound

def field (d : Statement) (s : Loading) (a : Source.Attribute) :
    Except LoadError (FieldOf Draft) := do
  let shape ← match typeShape? s.world s.classes (d.meaning? s) a.type with
    | some shape => shape.map Draft.known
    -- A name that nothing binds yet may be that of a class further down.
    | none => .ok (.later a.type)
  return { name := a.name, wire := a.rename.getD a.name, shape, isFrozen := a.readOnly }

/-- The fields that a class itself declares. An attribute that comes again keeps its place and takes
the last form. -/
def declaredFields (d : Statement) (s : Loading) : Except LoadError (List (FieldOf Draft)) := do
  let tag := d.tag.map fun name => (typenameSpec name).draft
  let fields ← d.attributes.mapM (d.field s)
  return (setKeys [] ((tag.toList ++ fields).map fun f => (f.name, f))).map (·.2)

/-- All fields of a class: those that are declared first in the order above it, with the form that
the class itself or its first base with such a field gives them. -/
def allFields (d : Statement) (s : Loading) (above : List Nat) (declared : List (FieldOf Draft)) :
    List (FieldOf Draft) :=
  -- The places of the fields come from the whole order, the furthest class first. Their forms come
  -- from the direct bases alone, each of which has all fields of what stands above it.
  let inherited := (above.reverse.filterMap fun place => s.classes[place]?).flatMap (·.declared)
  let bases := d.bases.filterMap fun place => s.classes[place]?
  (inherited ++ declared.map (·.name)).eraseDups.filterMap fun name =>
    (declared.find? fun f => f.name == name).orElse fun _ => bases.findSome? fun c => c.field? name

def load (d : Statement) (s : Loading) : Except LoadError Loading := do
  let place := s.classes.length
  let orders := d.bases.map fun base => ((s.classes[base]?).map (·.order)).getD []
  -- A repeated base has no order whatever the merge would say.
  if d.bases.eraseDups != d.bases then throw (.noOrder d.name)
  let some order := linearize place orders | throw (.noOrder d.name)
  let declared ← d.declaredFields s
  let loaded : ClassOf Draft := {
    name := d.name, home := "generated_models", order
    fields := d.allFields s (order.drop 1) declared
    declared := declared.map (·.name)
    implementers := d.implementers, classVariables := d.classVariables, methods := d.methods }
  return { s with classes := s.classes ++ [loaded] }.bind d.name (.cls place)

end Statement

def basePlace (s : Loading) : Source.Base → Except LoadError Nat
  | .model => .ok Foundation.model
  | .capability kind => .ok (Foundation.capability kind)
  | .contract name =>
    match s.binding? name with
    | some (.cls place) => .ok place
    | some _ => .error (.notAClass name)
    | none => .error (.undefinedName name)

/-- Loads a contract. A private name in its body is marked there as everywhere in a class. -/
def loadContract (s : Loading) (c : Source.ContractClass) : Except LoadError Loading := do
  let d : Statement := {
    name := c.name, bases := ← c.bases.mapM (basePlace s), attributes := c.attributes
    implementers := some c.implementers
    methods := setKeys []
      (c.accessors.map fun a => (a.method, .narrow (keptName c.name a.target))) }
  d.load s

/-- Loads the class of an object type. -/
def loadObject (s : Loading) (c : Source.ObjectClass) : Except LoadError Loading := do
  let d : Statement := {
    name := nameText c.name, bases := ← c.bases.mapM (basePlace s), attributes := c.attributes
    classVariables := setKeys [] (c.classVariables.map fun v => (v.name, v.value))
    tag := some (nameText c.schemaName) }
  d.load s

/-- The place of a class in an alias. -/
def aliasPlace (s : Loading) (name : String) : Except LoadError (Option Nat) :=
  match s.binding? name with
  | some (.cls place) => .ok (some place)
  | some _ => .ok none
  | none => .error (.undefinedName name)

def loadAlias (s : Loading) (a : Source.Alias) : Except LoadError Loading :=
  match a.value with
  | .one name =>
    match s.binding? name with
    | some binding => .ok (s.bind a.name binding)
    | none => .error (.undefinedName name)
  | .tagged members => do
    let places ← members.mapM (aliasPlace s)
    -- An alias over something that is no class can be bound; only a field of its type cannot be.
    return s.bind a.name (((places.mapM id).map Binding.choice).getD .mixture)

/-! ## Completing the classes -/

/-- What a name means once everything is loaded. -/
def finalMeaning? (s : Loading) (className name : String) : Option Meaning :=
  if name == "None" then some .null
  -- A class means its own name as the module binds it last, which need not be the class itself.
  else ((findKey? className s.scope).filter fun _ => name == className).map Meaning.bound
    |>.orElse fun _ => (s.binding? name).map Meaning.bound

/-- The shape of a draft once everything is loaded. -/
def finishDraft (s : Loading) (className : String) : Draft → Except LoadError Shape
  | .known shape => .ok shape
  | .later type =>
    (typeShape? s.world s.classes (finalMeaning? s className) type).getD
      (.error (.undefinedType type.terminal))

/-- Whether some classes are all marked with the names of their schema types. -/
def areTagged (classes : List Class) (places : List Nat) : Bool :=
  places.all fun place => ((classes[place]?).bind ClassOf.tag?).isSome

/-- The classes that a shape chooses from. -/
def Shape.choices : Shape → List Nat
  | .choice places => places
  | .optional inner | .list inner => inner.choices
  | _ => []

/-- The class with the shapes of its fields. -/
def finishClass (s : Loading) (c : ClassOf Draft) : Except LoadError Class := do
  let fields ← c.fields.mapM fun f =>
    return { f with shape := ← finishDraft s c.name f.shape }
  return { c with fields }

/-- The classes with the shapes of their fields, if every choice can be told by its tag. -/
def finishClasses (s : Loading) : Except LoadError (List Class) := do
  let classes ← s.classes.mapM (finishClass s)
  match classes.find? fun c => c.fields.any fun f => !areTagged classes f.shape.choices with
  | some c => throw (.choiceWithoutTag c.name)
  | none => return classes

/-- Loads a module in a world. -/
def load (m : Source.Module) (world : World := .closed) : Except LoadError Library := do
  let s ← Loading.start m.imports world
  -- The statements stand in this order in a module, and each sees the names bound before it.
  let s ← m.enums.foldlM loadEnum s
  let s ← m.contracts.foldlM loadContract s
  let s ← m.objects.foldlM loadObject s
  let s ← m.aliases.foldlM loadAlias s
  return {
    classes := ← finishClasses s
    enums := s.enums
    scope := s.scope
    exported := m.exported.map nameText
    world }

end GraphQLModels.Model
